import Trinity.Verify.Soundness
import Trinity.Signer.HonestKeys

/-!
The last part of `finalize` on valid signatures: the witnesses it assembles
satisfy consensus, whatever positions the signing keys have in the sorted
script, and the finished transaction is not smaller than the unsigned one, so
its feerate stays below the limit the verifier has checked.
-/
namespace Trinity

open Outcome Word

section Sizes

theorem TxIn.baseSize_ge (txin : TxIn) : 41 ≤ txin.baseSize := by
  have least : 1 ≤ varIntSize txin.scriptSig.length := by
    unfold varIntSize
    split_ifs <;> omega
  unfold TxIn.baseSize
  omega

theorem Transaction.baseSize_le_totalSize (tx : Transaction) : tx.baseSize ≤ tx.totalSize := by
  have inputs : (tx.input.map TxIn.baseSize).sum ≤
      (tx.input.map fun i =>
        if tx.usesSegwitSerialization then i.totalSize else i.baseSize).sum := by
    apply List.sum_le_sum
    intro txin _
    split
    · exact Nat.le_add_right _ _
    · exact Nat.le_refl _
  unfold Transaction.baseSize Transaction.totalSize
  dsimp only
  omega

theorem Transaction.totalSize_unsigned {tx : Transaction} (nonempty : tx.input ≠ [])
    (unsigned : ∀ txin ∈ tx.input, txin.witness = []) : tx.totalSize = tx.baseSize := by
  have plain : tx.usesSegwitSerialization = false := by
    simp only [Transaction.usesSegwitSerialization, Bool.or_eq_false_iff, List.any_eq_false,
      List.isEmpty_eq_false_iff]
    refine ⟨?_, nonempty⟩
    intro txin member
    simp [unsigned txin member]
  simp only [Transaction.totalSize, plain, Bool.false_eq_true, if_false, Transaction.baseSize,
    Nat.add_zero]

theorem Transaction.vsize_le_of_unsigned {tx tx' : Transaction} (nonempty : tx.input ≠ [])
    (unsigned : ∀ txin ∈ tx.input, txin.scriptSig = [] ∧ txin.witness = [])
    (count : tx'.input.length = tx.input.length) (outputs : tx'.output = tx.output) :
    tx.vsize ≤ tx'.vsize := by
  have least : (tx.input.map TxIn.baseSize).sum = tx.input.length * 41 := by
    have each : ∀ n ∈ tx.input.map TxIn.baseSize, n = 41 := by
      intro n member
      obtain ⟨txin, there, rfl⟩ := List.mem_map.mp member
      rw [TxIn.baseSize, (unsigned txin there).1]
      rfl
    rw [List.sum_eq_card_nsmul _ _ each, List.length_map, Nat.nsmul_eq_mul]
  have more : tx.input.length * 41 ≤ (tx'.input.map TxIn.baseSize).sum := by
    have each : ∀ n ∈ tx'.input.map TxIn.baseSize, 41 ≤ n := by
      intro n member
      obtain ⟨txin, _, rfl⟩ := List.mem_map.mp member
      exact txin.baseSize_ge
    have sum := List.card_nsmul_le_sum _ _ each
    rwa [List.length_map, count, Nat.nsmul_eq_mul] at sum
  have base : tx.baseSize ≤ tx'.baseSize := by
    unfold Transaction.baseSize
    rw [count, outputs, least]
    omega
  have total := Transaction.totalSize_unsigned nonempty fun txin member =>
    (unsigned txin member).2
  have total' := tx'.baseSize_le_totalSize
  unfold Transaction.vsize Transaction.weight
  omega

theorem feerate_antitone (fee : UInt64) {small large : Nat} (positive : 0 < small)
    (le : small ≤ large) : feerate fee large ≤ feerate fee small := by
  rw [UInt64.le_iff_toNat_le, feerate_toNat fee positive,
    feerate_toNat fee (Nat.lt_of_lt_of_le positive le)]
  have rounded := Nat.lt_mul_div_succ (fee.toNat + (small - 1)) positive
  have wider := Nat.mul_le_mul_right ((fee.toNat + (small - 1)) / small) le
  rw [← Nat.lt_succ_iff, Nat.div_lt_iff_lt_mul (Nat.lt_of_lt_of_le positive le)]
  rw [Nat.mul_add, Nat.mul_one] at rounded
  rw [Nat.succ_mul, Nat.mul_comm]
  omega

end Sizes

section Finishing

variable {env : SignPrimitives} {psbt : Psbt} {descriptor : Str} {policy : VerifyPolicy}
  {receive : ParsedDescriptor} {change : Option ParsedDescriptor} {parts : List FinalizedInput}

theorem finalizeInput_satisfies {tx tx' : Transaction} {i : Nat} {txin txin' : TxIn}
    {input : Input} {known : TxOut} {part : FinalizedInput}
    (shown : input.witnessUtxo = some known) (spent : tx.input[i]? = some txin)
    (recorded : policy.knownUtxos.get? txin.previousOutput = some known)
    (valid : ∀ pk sig, findSignature input pk = some sig →
      ValidSignature env.toPrimitives tx i input pk sig)
    (turn : finalizeInput env tx receive change policy input i = .ok part)
    (stripped : tx'.stripped = tx) (witness : txin'.witness = part.witness)
    (unscripted : txin'.scriptSig = []) :
    part.prevout = txin.previousOutput ∧ part.known = known ∧
      SatisfiesMultisig env.toPrimitives tx' i txin' known := by
  rw [finalizeInput_known shown spent recorded] at turn
  simp only [bind_eq_ok, derivedForInput_eq_ok, rejectIf_eq_ok, okOr_eq_ok, ne_eq,
    Decidable.not_not, pure_ok, Except.ok.injEq] at turn
  obtain ⟨output, ⟨branch, index, source, _, _, derived⟩, _, spentScript, script, given, _, rfl,
    items, made, rfl⟩ := turn
  refine ⟨rfl, rfl, ?_⟩
  rw [finalScript_derived derived] at given made
  obtain ⟨first, second, before, k₁, between, k₂, after, rfl, order, _, found, found', _⟩ :=
    witnessForSorted_eq_ok made
  have sublist : [k₁, k₂].Sublist output.sortedPubkeys := by
    rw [order]
    apply List.Sublist.trans _ (List.sublist_append_right before _)
    apply List.Sublist.cons_cons
    apply List.Sublist.trans _ (List.sublist_append_right between _)
    exact List.Sublist.cons_cons _ (List.nil_sublist _)
  obtain ⟨all, _, digest, hashed, checks⟩ := valid k₁ first found
  obtain ⟨all', _, digest', hashed', checks'⟩ := valid k₂ second found'
  obtain rfl := Except.ok.inj (hashed.symm.trans hashed')
  obtain ⟨_, _, _, _, _, _, _, _, built, program⟩ := deriveAt_spec derived
  simp only [sighashMessage, p2wshSighash, bind_eq_ok, okOr_eq_ok, shown, given,
    Option.some.injEq, exists_eq_left'] at hashed
  exact ⟨unscripted, output.sortedPubkeys, output.witnessScript, first, second, k₁, k₂, digest,
    witness, spentScript.trans program, built, sublist, all, all', stripped ▸ hashed, checks,
    checks'⟩

theorem finished_input {i : Nat} {txin : TxIn} {input : Input} {part : FinalizedInput}
    (spent : psbt.unsignedTx.input[i]? = some txin) (map : psbt.inputs[i]? = some input)
    (made : parts[i]? = some part) :
    (psbt.withWitnesses parts).extractTx.input[i]? =
      some { txin with scriptSig := input.finalScriptSig.getD [], witness := part.witness } := by
  simp [Psbt.extractTx, Psbt.withWitnesses, spent, map, made]

theorem extractTx_inputs (psbt : Psbt) :
    psbt.extractTx.input.map (fun txin => (txin.previousOutput, txin.sequence)) =
      psbt.unsignedTx.input.map fun txin => (txin.previousOutput, txin.sequence) := by
  apply List.ext_getElem?
  intro i
  simp only [Psbt.extractTx, List.map_map, List.getElem?_map, List.getElem?_zipIdx,
    Option.map_map]
  cases psbt.unsignedTx.input[i]? with
  | none => rfl
  | some txin =>
    simp only [Option.map_some, Function.comp_apply, Nat.zero_add]
    cases psbt.inputs[i]? with
    | none => rfl
    | some input => rfl

theorem fee_within {utxos : List TxOut} {fee : UInt64}
    (maps : psbt.inputs.length = psbt.unsignedTx.input.length)
    (within : FeeWithin psbt policy utxos fee) : psbt.fee = some fee := by
  have balance := within.balance
  have fits := within.fits
  have reads : List.Forall₂ (fun (x : TxIn × Input) utxo => fundingUtxo x.1 x.2 = some utxo)
      (psbt.unsignedTx.input.zip psbt.inputs) utxos := by
    have shown := within.shown
    rw [← List.map_snd_zip (Nat.le_of_eq maps), List.forall₂_map_left_iff] at shown
    apply shown.imp
    intro x utxo here
    rw [fundingUtxo, here]
  exact fee_eq_some.mpr ⟨utxos, reads, fits, balance⟩

variable {classified : List ClassifiedOutput} {utxos : List TxOut} {v : PsbtVerdict}
  (ok : Verified env.toPrimitives psbt descriptor policy receive change classified utxos v)
include ok

theorem finished_stripped (parts : List FinalizedInput) :
    (psbt.withWitnesses parts).extractTx.stripped = psbt.unsignedTx := by
  have inputs : (psbt.withWitnesses parts).extractTx.stripped.input = psbt.unsignedTx.input := by
    apply List.ext_getElem?
    intro i
    simp only [Transaction.stripped, Psbt.extractTx, List.map_map, List.getElem?_map,
      List.getElem?_zipIdx, Option.map_map]
    cases spent : psbt.unsignedTx.input[i]? with
    | none => simp [Psbt.withWitnesses, spent]
    | some txin =>
      obtain ⟨sig, witness⟩ := ok.wellFormed.unsigned txin (List.mem_of_getElem? spent)
      obtain ⟨_, _, _, _⟩ := txin
      subst sig witness
      simp only [Psbt.withWitnesses, spent, Option.map_some, Function.comp_apply]
      split <;> rfl
  exact congrArg (fun input => { psbt.unsignedTx with input }) inputs

theorem finished_rate (parts : List FinalizedInput) :
    feerate v.feeSats (psbt.withWitnesses parts).extractTx.vsize ≤ policy.maxFeerate := by
  have grown := @Transaction.vsize_le_of_unsigned psbt.unsignedTx
    (psbt.withWitnesses parts).extractTx ok.wellFormed.nonempty ok.wellFormed.unsigned
    (by simp [Psbt.extractTx, Psbt.withWitnesses]) rfl
  have within := ok.fee.rate
  rw [Nat.max_eq_left psbt.unsignedTx.vsize_pos] at within
  exact UInt64.le_trans (feerate_antitone _ psbt.unsignedTx.vsize_pos grown) within

section Inputs

variable
  (unscripted : ∀ (i : Nat) input, psbt.inputs[i]? = some input → input.finalScriptSig = none)
  (valid : AllValid env.toPrimitives psbt)
  (run : finalizeInputs env psbt receive change policy = .ok parts)
include unscripted valid run

/-- Each turn of the loop, and the input of the finished transaction it is for. -/
theorem finished_satisfies {i : Nat} {txin : TxIn} (spent : psbt.unsignedTx.input[i]? = some txin) :
    ∃ txin' part, (psbt.withWitnesses parts).extractTx.input[i]? = some txin' ∧
      parts[i]? = some part ∧ txin'.previousOutput = txin.previousOutput ∧
      part.prevout = txin.previousOutput ∧
      SatisfiesMultisig env.toPrimitives (psbt.withWitnesses parts).extractTx i txin'
        part.known := by
  have inside : i < psbt.inputs.length :=
    ok.wellFormed.inputMaps ▸ (List.getElem?_eq_some_iff.mp spent).1
  have map := List.getElem?_eq_getElem inside
  obtain ⟨known, recorded, shown⟩ := ok.known i _ _ spent map
  have paired : psbt.inputs.zipIdx[i]? = some (psbt.inputs[i], i) := by simp [map]
  obtain ⟨part, made, turn⟩ := mapM_getElem run paired
  have found : ∀ pk sig, findSignature psbt.inputs[i] pk = some sig →
      ValidSignature env.toPrimitives psbt.unsignedTx i psbt.inputs[i] pk sig := by
    intro pk sig present
    obtain ⟨key, rfl, held⟩ := findSignature_get present
    exact valid i _ map key sig held
  obtain ⟨prevout, rfl, satisfied⟩ := @finalizeInput_satisfies env policy receive change
    psbt.unsignedTx (psbt.withWitnesses parts).extractTx i txin
    { txin with scriptSig := psbt.inputs[i].finalScriptSig.getD [], witness := part.witness } _
    known part shown spent recorded found turn (finished_stripped ok parts) rfl
    (by simp [unscripted i _ map])
  exact ⟨_, part, finished_input spent map made, made, rfl, prevout, satisfied⟩

theorem finished_outpoints :
    parts.map FinalizedInput.prevout = psbt.unsignedTx.input.map TxIn.previousOutput := by
  have length : parts.length = psbt.unsignedTx.input.length := by
    rw [mapM_length run, List.length_zipIdx, ok.wellFormed.inputMaps]
  apply List.ext_getElem (by simp only [List.length_map, length])
  intro i inside inside'
  rw [List.length_map] at inside inside'
  obtain ⟨_, part, _, made, _, prevout, _⟩ := finished_satisfies ok unscripted valid run
    (List.getElem?_eq_getElem inside')
  rw [List.getElem_map, List.getElem_map, (List.getElem?_eq_some_iff.mp made).2, prevout]

theorem finished_verifies (libs : HonestLibraries env)
    (distinct : (psbt.unsignedTx.input.map TxIn.previousOutput).Nodup) :
    env.verifyTransaction (psbt.withWitnesses parts).extractTx
      (parts.foldl (fun m p => m.insert p.prevout p.known) .empty) = true := by
  apply libs.consensus
  intro i txin' at_
  have inside : i < psbt.unsignedTx.input.length := by
    have := (List.getElem?_eq_some_iff.mp at_).1
    simpa [Psbt.extractTx, Psbt.withWitnesses] using this
  obtain ⟨_, part, at', made, same, prevout, satisfied⟩ := finished_satisfies ok unscripted valid
    run (List.getElem?_eq_getElem inside)
  obtain rfl := Option.some.inj (at'.symm.trans at_)
  refine ⟨part.known, ?_, satisfied⟩
  have once : ((parts.map fun p => (p.prevout, p.known)).map Prod.fst).Nodup := by
    rw [List.map_map]
    exact finished_outpoints ok unscripted valid run ▸ distinct
  have looked := @OrderedMap.get?_insertAll _ _ _ _ OrderedMap.empty _ _ once
    (List.mem_map_of_mem (List.mem_of_getElem? made))
  rw [List.foldl_map] at looked
  rw [same, ← prevout]
  exact looked

theorem finishTransaction_total (libs : HonestLibraries env)
    (distinct : (psbt.unsignedTx.input.map TxIn.previousOutput).Nodup) :
    finishTransaction env psbt policy parts = .ok (psbt.withWitnesses parts).extractTx := by
  have accepted := finished_verifies ok unscripted valid run libs distinct
  have rate := finished_rate ok parts
  simp only [finishTransaction, bind_eq_ok, okOr_eq_ok, rejectIf_eq_ok,
    fee_within ok.wellFormed.inputMaps ok.fee]
  exact ⟨_, rfl, (), ok.fee.positive, (), not_not.mpr accepted, (), UInt64.not_lt.mpr rate, rfl⟩

end Inputs

end Finishing

end Trinity
