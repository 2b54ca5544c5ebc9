import Trinity.Signer.FinalizeSigned
import Trinity.Signer.HonestKeys
import Trinity.Verify.Soundness

/-!
What `sign_ab` hands back is the answer of signer B, which no check looks at any
more. It is the authorised transaction, and one the verifier accepts, exactly if
the answer keeps what the verifier reads. An answer as the `Signer` trait asks
for, the PSBT that was given with SIGHASH_ALL signatures added, does.
-/
namespace Trinity

open Outcome

section Keeps

variable (env : Primitives) (receive : ParsedDescriptor) (change : Option ParsedDescriptor)
  (policy : VerifyPolicy)

/-- The answer's input shows the same coin, with derivation data by which V2 still finds
    it and signatures V10 accepts. -/
structure KeepsInput (before after : Input) : Prop where
  coin : after.witnessUtxo = before.witnessUtxo
  plain : after.proprietary = []
  found : ∀ coin, after.witnessUtxo = some coin →
    matchesAnyDerived env coin.scriptPubkey receive change policy.gapLimit
      (bip32IndexHint after.bip32Derivation) = .ok true
  signatures : PlainSignatures after

structure KeepsOutput (txout : TxOut) (after : Output) : Prop where
  plain : after.proprietary = []
  bound : ¬ PaysRecipient env policy txout → ∃ chg index, change = some chg ∧
    findIndexMatching env txout.scriptPubkey chg policy.gapLimit
      (bip32IndexHint after.bip32Derivation) = .ok (some index) ∧
    checkV4Change env after chg index = .ok ()

/-- The answer keeps what the verifier reads of the PSBT that was given. -/
structure KeepsPayment (given answer : Psbt) : Prop where
  unsignedTx : answer.unsignedTx = given.unsignedTx
  inputMaps : answer.inputs.length = given.inputs.length
  outputMaps : answer.outputs.length = given.outputs.length
  plain : answer.proprietary = []
  inputs : ∀ (i : Nat) before after, given.inputs[i]? = some before →
    answer.inputs[i]? = some after → KeepsInput env receive change policy before after
  outputs : ∀ (i : Nat) txout after, given.unsignedTx.output[i]? = some txout →
    answer.outputs[i]? = some after → KeepsOutput env change policy txout after

end Keeps

section Verdicts

variable {env : Primitives} {receive : ParsedDescriptor} {change : Option ParsedDescriptor}
  {policy : VerifyPolicy} {descriptor : Str} {classified : List ClassifiedOutput}
  {utxos : List TxOut} {v : PsbtVerdict} {given answer : Psbt}

theorem KeepsPayment.before (keeps : KeepsPayment env receive change policy given answer)
    {i : Nat} {after : Input} (map : answer.inputs[i]? = some after) :
    ∃ before, given.inputs[i]? = some before ∧
      KeepsInput env receive change policy before after := by
  have inside := (List.getElem?_eq_some_iff.mp map).1
  have here := List.getElem?_eq_getElem (keeps.inputMaps ▸ inside)
  exact ⟨_, here, keeps.inputs i _ after here map⟩

theorem KeepsPayment.wellFormed (keeps : KeepsPayment env receive change policy given answer)
    (shape : WellFormed given) : WellFormed answer where
  inputMaps := by rw [keeps.inputMaps, shape.inputMaps, keeps.unsignedTx]
  outputMaps := by rw [keeps.outputMaps, shape.outputMaps, keeps.unsignedTx]
  nonempty := keeps.unsignedTx ▸ shape.nonempty
  inputLimit := keeps.unsignedTx ▸ shape.inputLimit
  outputLimit := keeps.unsignedTx ▸ shape.outputLimit
  unsigned := keeps.unsignedTx ▸ shape.unsigned
  plain := keeps.plain
  plainInputs := by
    intro input member
    obtain ⟨i, map⟩ := List.getElem?_of_mem member
    obtain ⟨_, _, kept⟩ := keeps.before map
    exact kept.plain
  plainOutputs := by
    intro output member
    obtain ⟨i, map⟩ := List.getElem?_of_mem member
    have inside := (List.getElem?_eq_some_iff.mp map).1
    rw [keeps.outputMaps, shape.outputMaps] at inside
    exact (keeps.outputs i _ output (List.getElem?_eq_getElem inside) map).plain

theorem KeepsPayment.classifies (keeps : KeepsPayment env receive change policy given answer)
    (shape : WellFormed given) {i : Nat} {txout : TxOut}
    (output : given.unsignedTx.output[i]? = some txout) {c : ClassifiedOutput}
    (was : Classified env given change policy i txout c) :
    Classified env answer change policy i txout c := by
  cases was with
  | recipient pays => exact .recipient pays
  | change foreign _ _ _ _ =>
    have inside := (List.getElem?_eq_some_iff.mp output).1
    rw [← shape.outputMaps, ← keeps.outputMaps] at inside
    have map := List.getElem?_eq_getElem inside
    obtain ⟨chg, index, described, found, bound⟩ := (keeps.outputs i _ _ output map).bound foreign
    exact .change foreign described map found bound

theorem KeepsPayment.verified (keeps : KeepsPayment env receive change policy given answer)
    (ok : Verified env given descriptor policy receive change classified utxos v) :
    Verified env answer descriptor policy receive change classified utxos v where
  parsed := ok.parsed
  parsedChange := ok.parsedChange
  wellFormed := keeps.wellFormed ok.wellFormed
  known := by
    intro i txin after spent map
    obtain ⟨before, here, kept⟩ := keeps.before map
    obtain ⟨known, recorded, shown⟩ := ok.known i txin before (keeps.unsignedTx ▸ spent) here
    exact ⟨known, recorded, kept.coin.trans shown⟩
  owned := by
    apply forM_zipIdx_eq_ok.mpr
    intro i after map
    obtain ⟨before, here, kept⟩ := keeps.before map
    obtain ⟨coin, shown, _⟩ := checkV2_owned ok.owned here
    have shown' : after.witnessUtxo = some coin := kept.coin.trans shown
    simp [shown', expect, kept.found coin shown']
  outputs := by
    rw [keeps.unsignedTx, List.forall₂_iff_get]
    obtain ⟨length, each⟩ := List.forall₂_iff_get.mp ok.outputs
    refine ⟨length, ?_⟩
    intro i inside inside'
    have was := each i inside inside'
    rw [List.length_zipIdx] at inside
    simp only [List.get_eq_getElem, List.getElem_zipIdx, Nat.zero_add] at was ⊢
    exact keeps.classifies ok.wellFormed (List.getElem?_eq_getElem inside) was
  fee :=
    { ok.fee with
      shown := by
        obtain ⟨length, each⟩ := List.forall₂_iff_get.mp ok.fee.shown
        refine List.forall₂_iff_get.mpr ⟨keeps.inputMaps.trans length, ?_⟩
        intro i inside inside'
        have here := List.getElem?_eq_getElem (keeps.inputMaps ▸ inside)
        have kept := keeps.inputs i _ _ here (List.getElem?_eq_getElem inside)
        exact kept.coin.trans (each i (keeps.inputMaps ▸ inside) inside')
      balance := keeps.unsignedTx ▸ ok.fee.balance
      rate := keeps.unsignedTx ▸ ok.fee.rate }
  declared := ok.declared
  signatures := by
    intro i after map
    obtain ⟨_, _, kept⟩ := keeps.before map
    exact kept.signatures
  verdict := by rw [keeps.unsignedTx]; exact ok.verdict

end Verdicts

/-- The answer is the PSBT with signatures added or replaced: SIGHASH_ALL, low-s,
    and with no other sighash field. -/
structure OnlySigns (psbt answer : Psbt) : Prop where
  bare : answer.mapInputs Input.bare = psbt.mapInputs Input.bare
  field : ∀ (i : Nat) before after, psbt.inputs[i]? = some before →
    answer.inputs[i]? = some after →
      after.sighashType = before.sighashType ∨ after.sighashType = some 1
  added : ∀ (i : Nat) before after, psbt.inputs[i]? = some before →
    answer.inputs[i]? = some after → ∀ sig ∈ after.partialSigs.values,
      sig ∈ before.partialSigs.values ∨ sig.sighashType = .all ∧ sig.signature.LowS

section Answer

variable {psbt answer : Psbt}

theorem OnlySigns.unsignedTx (signs : OnlySigns psbt answer) :
    answer.unsignedTx = psbt.unsignedTx := by
  have same : (answer.mapInputs Input.bare).unsignedTx = (psbt.mapInputs Input.bare).unsignedTx :=
    congrArg Psbt.unsignedTx signs.bare
  exact same

theorem OnlySigns.input (signs : OnlySigns psbt answer) {i : Nat} {after : Input}
    (map : answer.inputs[i]? = some after) : ∃ before, psbt.inputs[i]? = some before := by
  have same := congrArg Psbt.inputs signs.bare
  have here := congrArg (fun inputs => inputs[i]?) same
  simp only [Psbt.mapInputs, List.getElem?_map, map, Option.map_some] at here
  cases before : psbt.inputs[i]? with
  | none => simp [before] at here
  | some input => exact ⟨input, rfl⟩

theorem OnlySigns.plain (signs : OnlySigns psbt answer) {i : Nat} {before after : Input}
    (map : psbt.inputs[i]? = some before) (map' : answer.inputs[i]? = some after)
    (plain : PlainSignatures before) : PlainSignatures after := by
  constructor
  · intro t written
    rcases signs.field i before after map map' with same | set
    · exact plain.1 t (same ▸ written)
    · exact Option.some.inj (written.symm.trans set)
  · intro sig held
    rcases signs.added i before after map map' sig held with old | new
    · exact plain.2 sig old
    · exact new

end Answer

namespace Sample

end Sample

end Trinity
