import Trinity.Verify.CheckFacts

/-!
Soundness of the verifier. An accepted PSBT spends only known outputs of the
wallet, pays only declared recipients and the wallet's own change, and its
verdict accounts for every satoshi of the spent outputs.
-/
namespace Trinity

open Outcome Word

/-- Exact sum of the watch-only records of the outputs a transaction spends. -/
def spentValue (policy : VerifyPolicy) (tx : Transaction) : Nat :=
  (tx.input.map fun txin =>
    ((policy.knownUtxos.get? txin.previousOutput).map fun o => o.value.toNat).getD 0).sum

theorem spentValue_of_known {policy : VerifyPolicy} {psbt : Psbt} {utxos : List TxOut}
    (lengths : psbt.inputs.length = psbt.unsignedTx.input.length)
    (known : ∀ (i : Nat) txin input, psbt.unsignedTx.input[i]? = some txin →
      psbt.inputs[i]? = some input → ∃ known, Spends policy txin input known)
    (shown : List.Forall₂ (fun input utxo => input.witnessUtxo = some utxo) psbt.inputs utxos) :
    spentValue policy psbt.unsignedTx = exactSum (utxos.map TxOut.value) := by
  unfold spentValue exactSum
  rw [List.map_map]
  congr 1
  have lengths' := shown.length_eq
  apply List.ext_getElem
  · simp only [List.length_map]
    omega
  · intro i inside inside'
    rw [List.length_map] at inside inside'
    obtain ⟨record, recorded, same⟩ := known i _ _ (List.getElem?_eq_getElem inside)
      (List.getElem?_eq_getElem (by omega))
    have utxo := shown.get (by omega) inside'
    simp only [List.get_eq_getElem] at utxo
    rw [same, Option.some.injEq] at utxo
    simp [recorded, utxo]

theorem amounts_partition (classified : List ClassifiedOutput) :
    exactSum (amountsOf classified false) + exactSum (amountsOf classified true) =
      exactSum (classified.map ClassifiedOutput.amountSats) := by
  unfold amountsOf
  induction classified with
  | nil => rfl
  | cons c rest ih =>
    obtain ⟨isChange, amount, address⟩ := c
    cases isChange with
    | false => simp at ih ⊢; omega
    | true => simp at ih ⊢; omega

theorem classified_amounts {env : Primitives} {psbt : Psbt} {change : Option ParsedDescriptor}
    {policy : VerifyPolicy} {outputs : List TxOut} {classified : List ClassifiedOutput}
    {start : Nat}
    (each : List.Forall₂ (fun (x : TxOut × Nat) c => Classified env psbt change policy x.2 x.1 c)
      (outputs.zipIdx start) classified) :
    classified.map ClassifiedOutput.amountSats = outputs.map TxOut.value := by
  induction outputs generalizing classified start with
  | nil =>
    cases each
    rfl
  | cons txout rest ih =>
    rw [List.zipIdx_cons] at each
    obtain ⟨c, cs, here, later, rfl⟩ := List.forall₂_cons_left_iff.mp each
    have amount : c.amountSats = txout.value := by cases here <;> rfl
    rw [List.map_cons, List.map_cons, amount, ih later]

theorem Transaction.vsize_pos (tx : Transaction) : 0 < tx.vsize := by
  unfold Transaction.vsize Transaction.weight Transaction.baseSize
  omega

structure SoundVerdict (env : Primitives) (psbt : Psbt) (receive : ParsedDescriptor)
    (change : Option ParsedDescriptor) (policy : VerifyPolicy) (v : PsbtVerdict) : Prop where
  inputs : ∀ (i : Nat) txin, psbt.unsignedTx.input[i]? = some txin →
    ∃ input known, psbt.inputs[i]? = some input ∧
      policy.knownUtxos.get? txin.previousOutput = some known ∧
      input.witnessUtxo = some known ∧
      Owned env receive change policy.gapLimit known.scriptPubkey
  outputs : ∀ txout ∈ psbt.unsignedTx.output, PaysRecipient env policy txout ∨
    ∃ chg, change = some chg ∧ ∃ i, i < policy.gapLimit ∧ DerivedAt env chg txout.scriptPubkey i
  amount : v.amountSats = policy.declaredAmountSats
  balance : v.amountSats.toNat + v.changeSats.toNat + v.feeSats.toNat =
    spentValue policy psbt.unsignedTx
  positive : 0 < v.feeSats.toNat
  absolute : v.feeSats ≤ policy.maxAbsoluteFee
  pinned : ∀ fee, policy.declaredFeeSats = some fee → v.feeSats = fee
  rate : (v.feeSats.toNat + (psbt.unsignedTx.vsize - 1)) / psbt.unsignedTx.vsize ≤
    policy.maxFeerate.toNat
  signatures : ∀ input ∈ psbt.inputs, PlainSignatures input

section Sound

variable {env : Primitives} {psbt : Psbt} {descriptor : Str} {policy : VerifyPolicy}
  {receive : ParsedDescriptor} {change : Option ParsedDescriptor}
  {classified : List ClassifiedOutput} {utxos : List TxOut} {v : PsbtVerdict}

theorem verified_inputs
    (ok : Verified env psbt descriptor policy receive change classified utxos v)
    {i : Nat} {txin : TxIn} (spent : psbt.unsignedTx.input[i]? = some txin) :
    ∃ input known, psbt.inputs[i]? = some input ∧
      policy.knownUtxos.get? txin.previousOutput = some known ∧
      input.witnessUtxo = some known ∧
      Owned env receive change policy.gapLimit known.scriptPubkey := by
  have inside : i < psbt.inputs.length :=
    ok.wellFormed.inputMaps ▸ (List.getElem?_eq_some_iff.mp spent).1
  have map := List.getElem?_eq_getElem inside
  obtain ⟨known, recorded, shown⟩ := ok.known i txin _ spent map
  obtain ⟨utxo, shown', owned⟩ := checkV2_owned ok.owned map
  rw [shown, Option.some.injEq] at shown'
  subst shown'
  exact ⟨_, known, map, recorded, shown, owned⟩

theorem classified_output
    (each : List.Forall₂ (fun (x : TxOut × Nat) c => Classified env psbt change policy x.2 x.1 c)
      psbt.unsignedTx.output.zipIdx classified) {i : Nat} {txout : TxOut}
    (paid : psbt.unsignedTx.output[i]? = some txout) :
    ∃ c, classified[i]? = some c ∧ Classified env psbt change policy i txout c := by
  obtain ⟨inside, same⟩ := List.getElem?_eq_some_iff.mp paid
  have lengths := each.length_eq
  rw [List.length_zipIdx] at lengths
  have here := each.get (by simpa using inside) (lengths ▸ inside)
  simp only [List.get_eq_getElem, List.getElem_zipIdx, Nat.zero_add, same] at here
  exact ⟨_, List.getElem?_eq_getElem _, here⟩

theorem verified_outputs
    (ok : Verified env psbt descriptor policy receive change classified utxos v) {txout : TxOut}
    (member : txout ∈ psbt.unsignedTx.output) :
    PaysRecipient env policy txout ∨
      ∃ chg, change = some chg ∧
        ∃ i, i < policy.gapLimit ∧ DerivedAt env chg txout.scriptPubkey i := by
  obtain ⟨i, paid⟩ := List.mem_iff_getElem?.mp member
  obtain ⟨c, _, classified⟩ := classified_output ok.outputs paid
  cases classified with
  | recipient pays => exact .inl pays
  | change _ described _ found _ =>
    exact .inr ⟨_, described, _, findIndexMatching_some found⟩

theorem verified_sums
    (ok : Verified env psbt descriptor policy receive change classified utxos v) :
    v.amountSats.toNat = exactSum (amountsOf classified false) ∧
      v.changeSats.toNat = exactSum (amountsOf classified true) := by
  have parts := amounts_partition classified
  rw [classified_amounts ok.outputs] at parts
  have balance := ok.fee.balance
  have fits := ok.fee.fits
  have amount := congrArg PsbtVerdict.amountSats ok.verdict
  have changed := congrArg PsbtVerdict.changeSats ok.verdict
  simp only at amount changed
  rw [amount, changed]
  exact ⟨satSum_exact (by omega), satSum_exact (by omega)⟩

theorem verified_balance
    (ok : Verified env psbt descriptor policy receive change classified utxos v) :
    v.amountSats.toNat + v.changeSats.toNat + v.feeSats.toNat =
      spentValue policy psbt.unsignedTx := by
  have spent := spentValue_of_known ok.wellFormed.inputMaps ok.known ok.fee.shown
  have parts := amounts_partition classified
  rw [classified_amounts ok.outputs] at parts
  have balance := ok.fee.balance
  obtain ⟨amount, changed⟩ := verified_sums ok
  omega

end Sound

theorem verify_sound (env : Primitives) {psbt : Psbt} {descriptor : Str} {policy : VerifyPolicy}
    {v : PsbtVerdict} (accepted : verify env psbt descriptor policy = .ok v) :
    ∃ receive change, parse env descriptor = .ok receive ∧
      parseChange env policy.changeDescriptor = .ok change ∧
      SoundVerdict env psbt receive change policy v := by
  obtain ⟨receive, change, classified, utxos, ok⟩ := verify_eq_ok.mp accepted
  refine ⟨receive, change, ok.parsed, ok.parsedChange, ?_⟩
  have vsize : max psbt.unsignedTx.vsize 1 = psbt.unsignedTx.vsize :=
    Nat.max_eq_left psbt.unsignedTx.vsize_pos
  have rate := UInt64.le_iff_toNat_le.mp ok.fee.rate
  rw [vsize, feerate_toNat _ psbt.unsignedTx.vsize_pos] at rate
  exact {
    inputs := fun _ _ spent => verified_inputs ok spent
    outputs := fun _ member => verified_outputs ok member
    amount := (congrArg PsbtVerdict.amountSats ok.verdict).trans ok.declared
    balance := verified_balance ok
    positive := Nat.pos_of_ne_zero fun zero => ok.fee.positive (UInt64.toNat_inj.mp zero)
    absolute := ok.fee.absolute
    pinned := ok.fee.pinned
    rate := rate
    signatures := by
      intro input member
      obtain ⟨i, map⟩ := List.mem_iff_getElem?.mp member
      exact ok.signatures i input map }

/-- The sample payment: 60000 to the recipient, 39000 back and 1000 of fee from
    an output of 100000. -/
theorem verify_sound_sample :
    verify Sample.env Sample.psbt Sample.receiveDescriptor Sample.policy =
      .ok ⟨true, Sample.recipientAddress, 60000, 39000, 1000, 8⟩ ∧
    ∃ receive change, parse Sample.env Sample.receiveDescriptor = .ok receive ∧
      parseChange Sample.env Sample.policy.changeDescriptor = .ok change ∧
      SoundVerdict Sample.env Sample.psbt receive change Sample.policy
        ⟨true, Sample.recipientAddress, 60000, 39000, 1000, 8⟩ :=
  ⟨Sample.accepted, verify_sound Sample.env Sample.accepted⟩

end Trinity
