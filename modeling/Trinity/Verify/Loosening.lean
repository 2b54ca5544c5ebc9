import Trinity.Verify.Search

/-!
A policy that allows more accepts what a stricter one accepts, and shows the
same. A wider gap window moves no change index, because no other index of the
window has the same script.
-/
namespace Trinity

open Outcome

/-- The second policy allows at least what the first one does. -/
structure Loosens (strict loose : VerifyPolicy) : Prop where
  declaredRecipients : loose.declaredRecipients = strict.declaredRecipients
  declaredAmountSats : loose.declaredAmountSats = strict.declaredAmountSats
  declaredFeeSats : loose.declaredFeeSats = strict.declaredFeeSats
  changeDescriptor : loose.changeDescriptor = strict.changeDescriptor
  network : loose.network = strict.network
  maxAbsoluteFee : strict.maxAbsoluteFee ≤ loose.maxAbsoluteFee
  maxFeerate : strict.maxFeerate ≤ loose.maxFeerate
  gapLimit : strict.gapLimit ≤ loose.gapLimit
  knownUtxos : ∀ o known, strict.knownUtxos.get? o = some known →
    loose.knownUtxos.get? o = some known

section Loosening

variable {env : Primitives} {psbt : Psbt} {strict loose : VerifyPolicy}

theorem Owned.widen {receive : ParsedDescriptor} {change : Option ParsedDescriptor}
    {gap wide : UInt32} {script : Script} (wider : gap ≤ wide)
    (owned : Owned env receive change gap script) : Owned env receive change wide script := by
  obtain ⟨desc, which, i, below, derived⟩ := owned
  exact ⟨desc, which, i, UInt32.lt_of_lt_of_le below wider, derived⟩

variable (looser : Loosens strict loose)
include looser

theorem paysRecipient_loosened {txout : TxOut} :
    PaysRecipient env loose txout ↔ PaysRecipient env strict txout := by
  rw [PaysRecipient, PaysRecipient, looser.declaredRecipients, looser.network]

theorem classified_loosened {change : Option ParsedDescriptor}
    (derivesChange : ∀ chg, change = some chg → Derives env chg loose.gapLimit)
    (distinct : ∀ chg, change = some chg → DistinctScripts env chg loose.gapLimit) {i : Nat}
    {txout : TxOut} {c : ClassifiedOutput}
    (classified : Classified env psbt change strict i txout c) :
    Classified env psbt change loose i txout c := by
  cases classified with
  | recipient pays =>
    rw [← looser.network]
    exact .recipient ((paysRecipient_loosened looser).mpr pays)
  | change foreign described map found bound =>
    rw [← looser.network]
    have stays := findIndexMatching_unique (derivesChange _ described) (distinct _ described)
      looser.gapLimit found
    exact .change (fun pays => foreign ((paysRecipient_loosened looser).mp pays)) described map
      (stays _) bound

theorem feeWithin_loosened {utxos : List TxOut} {fee : UInt64}
    (within : FeeWithin psbt strict utxos fee) : FeeWithin psbt loose utxos fee where
  shown := within.shown
  fits := within.fits
  balance := within.balance
  positive := within.positive
  absolute := UInt64.le_trans within.absolute looser.maxAbsoluteFee
  pinned := by
    rw [looser.declaredFeeSats]
    exact within.pinned
  rate := UInt64.le_trans within.rate looser.maxFeerate

theorem recipientOf_loosened (classified : List ClassifiedOutput) :
    recipientOf classified loose = recipientOf classified strict := by
  rw [recipientOf, recipientOf, looser.declaredRecipients]

theorem verified_loosened {descriptor : Str} {receive : ParsedDescriptor}
    {change : Option ParsedDescriptor} {classified : List ClassifiedOutput} {utxos : List TxOut}
    {v : PsbtVerdict}
    (ok : Verified env psbt descriptor strict receive change classified utxos v)
    (derives : Derives env receive loose.gapLimit)
    (derivesChange : ∀ chg, change = some chg → Derives env chg loose.gapLimit)
    (distinct : ∀ chg, change = some chg → DistinctScripts env chg loose.gapLimit) :
    Verified env psbt descriptor loose receive change classified utxos v where
  parsed := ok.parsed
  parsedChange := by
    rw [looser.changeDescriptor]
    exact ok.parsedChange
  wellFormed := ok.wellFormed
  known := by
    intro i txin input spent map
    obtain ⟨known, recorded, shown⟩ := ok.known i txin input spent map
    exact ⟨known, looser.knownUtxos _ _ recorded, shown⟩
  owned := by
    apply checkV2_of_owned derives derivesChange
    intro i input map
    obtain ⟨utxo, shown, owned⟩ := checkV2_owned ok.owned map
    exact ⟨utxo, shown, owned.widen looser.gapLimit⟩
  outputs := ok.outputs.imp fun _ _ classified =>
    classified_loosened looser derivesChange distinct classified
  fee := feeWithin_loosened looser ok.fee
  declared := by
    rw [looser.declaredAmountSats]
    exact ok.declared
  signatures := ok.signatures
  verdict := by
    rw [recipientOf_loosened looser]
    exact ok.verdict

end Loosening

/-- What a policy accepts, a looser one accepts with the same verdict. -/
theorem loosening_keeps_verdict (env : Primitives) (compressed : CompressedPoints env)
    (psbt : Psbt) (descriptor : Str) (strict loose : VerifyPolicy) (looser : Loosens strict loose)
    (derives : WalletDerives env descriptor loose)
    (distinct : ∀ chg, parseChange env loose.changeDescriptor = .ok (some chg) →
      DistinctScripts env chg loose.gapLimit) (v : PsbtVerdict)
    (accepted : verify env psbt descriptor strict = .ok v) :
    verify env psbt descriptor loose = .ok v := by
  obtain ⟨receive, change, classified, utxos, ok⟩ := verify_eq_ok.mp accepted
  have described (chg : ParsedDescriptor) (same : change = some chg) :
      parseChange env loose.changeDescriptor = .ok (some chg) := by
    rw [looser.changeDescriptor, ← same]
    exact ok.parsedChange
  refine verify_eq_ok.mpr ⟨receive, change, classified, utxos, verified_loosened looser ok ?_ ?_ ?_⟩
  · exact derives_of_children compressed (derives.receive receive ok.parsed)
  · intro chg same
    exact derives_of_children compressed (derives.change chg (described chg same))
  · intro chg same
    exact distinct chg (described chg same)

namespace Sample

def loosePolicy : VerifyPolicy :=
  { policy with
    maxAbsoluteFee := 90000
    maxFeerate := 9000
    knownUtxos := policy.knownUtxos.insert ⟨0, 0⟩ coinOutput }

theorem loosens : Loosens policy loosePolicy where
  declaredRecipients := rfl
  declaredAmountSats := rfl
  declaredFeeSats := rfl
  changeDescriptor := rfl
  network := rfl
  maxAbsoluteFee := by decide
  maxFeerate := by decide
  gapLimit := by decide
  knownUtxos o known recorded := by
    rw [loosePolicy, OrderedMap.get?_insert]
    split
    · rename_i same
      have absent : policy.knownUtxos.get? ⟨0, 0⟩ = none := by decide
      rw [same, absent] at recorded
      contradiction
    · exact recorded

end Sample

theorem loosening_keeps_verdict_sample :
    verify Sample.env Sample.psbt Sample.receiveDescriptor Sample.loosePolicy =
      .ok ⟨true, Sample.recipientAddress, 60000, 39000, 1000, 8⟩ :=
  loosening_keeps_verdict Sample.env Sample.compressed _ _ _ _ Sample.loosens
    ⟨Sample.wallet_derives.receive, Sample.wallet_derives.change⟩
    (fun chg _ => Sample.distinct_scripts chg) _ Sample.accepted

end Trinity
