import Trinity.Verify.CheckFacts
import Trinity.Signer.Local

/-!
`finalize`: the finished transaction of a twice-signed PSBT. For one input the
loop finds the leaf that the first derivation entry names, compares its scripts
with those of the input and collects two signatures in key order.
-/
namespace Trinity

open Outcome Word

def dropLeadingZeros : Str → Str
  | 0 :: b :: rest => if b < 0x80 then dropLeadingZeros (b :: rest) else 0 :: b :: rest
  | s => s

def derInteger (n : Nat) : Str :=
  let value := dropLeadingZeros (beBytes 33 (BitVec.ofNat 264 n))
  0x02 :: UInt8.ofNat value.length :: value

def EcdsaSignature.serializeDer (sig : EcdsaSignature) : Str :=
  let body := derInteger sig.r ++ derInteger sig.s
  0x30 :: UInt8.ofNat body.length :: body

def EcdsaSighashType.toU8 : EcdsaSighashType → UInt8
  | .all => 0x01
  | .none => 0x02
  | .single => 0x03
  | .allPlusAnyoneCanPay => 0x81
  | .nonePlusAnyoneCanPay => 0x82
  | .singlePlusAnyoneCanPay => 0x83

def Signature.serialize (sig : Signature) : Str :=
  sig.signature.serializeDer ++ [sig.sighashType.toU8]

def fundingUtxo (txin : TxIn) (input : Input) : Option TxOut :=
  match input.witnessUtxo, input.nonWitnessUtxo with
  | some utxo, _ => some utxo
  | none, some tx => tx.output[txin.previousOutput.vout.toNat]?
  | none, none => none

/-- `Psbt::fee`; the caller does not tell its errors apart. -/
def Psbt.fee (psbt : Psbt) : Option UInt64 := do
  let inputs ← (psbt.unsignedTx.input.zip psbt.inputs).foldlM
    (fun acc (txin, input) => do checkedAdd acc (← fundingUtxo txin input).value) 0
  let outputs ← psbt.unsignedTx.output.foldlM (fun acc out => checkedAdd acc out.value) 0
  checkedSub inputs outputs

def Psbt.extractTx (psbt : Psbt) : Transaction :=
  { psbt.unsignedTx with
    input := psbt.unsignedTx.input.zipIdx.map fun (vin, i) =>
      match psbt.inputs[i]? with
      | some psbtin =>
        { vin with
          scriptSig := psbtin.finalScriptSig.getD []
          witness := psbtin.finalScriptWitness.getD [] }
      | none => vin }

def normalIndex (child : ChildNumber) (inputIndex : Nat) : Outcome SignError UInt32 :=
  match child with
  | .normal index => .ok index
  | .hardened _ => fail (.invalidDerivationPath inputIndex)

def branchAndIndex (input : Input) (inputIndex : Nat) : Outcome SignError (UInt32 × UInt32) := do
  let (_, path) ← okOr input.bip32Derivation.values.head? (.missingDerivation inputIndex)
  rejectIf (path.length < 2) (.invalidDerivationPath inputIndex)
  let branch ← normalIndex (← expect path[path.length - 2]?) inputIndex
  let addr ← normalIndex (← expect path[path.length - 1]?) inputIndex
  rejectIf (1 < branch) (.invalidDerivationPath inputIndex)
  return (branch, addr)

def branchDescriptor (receive : ParsedDescriptor) (change : Option ParsedDescriptor)
    (branch : UInt32) : Option ParsedDescriptor :=
  if branch = 0 then some receive else change

def findSignature (input : Input) (pk : SecpPublicKey) : Option Signature :=
  input.partialSigs.entries.findSome? fun (key, sig) => if key.inner = pk then some sig else none

/-- The loop of `witness_for_sorted`: it stops at the second signature. -/
def gatherSignatures (input : Input) (inputIndex : Nat) :
    List SecpPublicKey → List Signature → Outcome SignError (List Signature)
  | [], sigs => .ok sigs
  | pk :: rest, sigs =>
    match findSignature input pk with
    | none => gatherSignatures input inputIndex rest sigs
    | some sig => do
      rejectIf (sig.sighashType ≠ .all) (.nonSighashAll inputIndex)
      let sigs := sigs ++ [sig]
      if sigs.length = 2 then .ok sigs else gatherSignatures input inputIndex rest sigs

def witnessForSorted (input : Input) (inputIndex : Nat) (sorted : List SecpPublicKey)
    (script : Script) : Outcome SignError (List Str) := do
  match ← gatherSignatures input inputIndex sorted [] with
  | first :: second :: _ => .ok [[], first.serialize, second.serialize, script]
  | _ => fail (.incompleteWitness inputIndex)

structure FinalizedInput where
  prevout : OutPoint
  known : TxOut
  witness : List Str

def Psbt.withWitnesses (psbt : Psbt) (parts : List FinalizedInput) : Psbt :=
  { psbt with
    inputs := psbt.inputs.zipIdx.map fun (input, i) =>
      { input with finalScriptWitness := parts[i]?.map FinalizedInput.witness } }

section Finalize

variable (env : SignPrimitives)

def derivedForInput (input : Input) (inputIndex : Nat) (receive : ParsedDescriptor)
    (change : Option ParsedDescriptor) : Outcome SignError DerivedOutput := do
  let (branch, index) ← branchAndIndex input inputIndex
  let descriptor ← okOr (branchDescriptor receive change branch) (.invalidDerivationPath inputIndex)
  expect (deriveAt env.toPrimitives descriptor index).toOption

def finalizeInput (tx : Transaction) (receive : ParsedDescriptor)
    (change : Option ParsedDescriptor) (policy : VerifyPolicy) (input : Input) (i : Nat) :
    Outcome SignError FinalizedInput := do
  let utxo ← okOr input.witnessUtxo (.missingWitnessUtxo i)
  let prevout := (← expect tx.input[i]?).previousOutput
  let known ← okOr (policy.knownUtxos.get? prevout) (.verify (.unknownInput i))
  rejectIf (utxo.value ≠ known.value ∨ utxo.scriptPubkey ≠ known.scriptPubkey)
    (.verify (.mismatchedUtxo i))
  let derived ← derivedForInput env input i receive change
  rejectIf (utxo.scriptPubkey ≠ derived.scriptPubkey) (.witnessScriptMismatch i)
  let script := (witnessScript2of3 derived.sortedPubkeys).toOption.getD derived.witnessScript
  let ws ← okOr input.witnessScript (.missingWitnessScript i)
  rejectIf (ws ≠ script) (.witnessScriptMismatch i)
  let witness ← witnessForSorted input i derived.sortedPubkeys script
  return ⟨prevout, known, witness⟩

def finalizeInputs (psbt : Psbt) (receive : ParsedDescriptor) (change : Option ParsedDescriptor)
    (policy : VerifyPolicy) : Outcome SignError (List FinalizedInput) :=
  psbt.inputs.zipIdx.mapM fun (input, i) =>
    finalizeInput env psbt.unsignedTx receive change policy input i

def finishTransaction (psbt : Psbt) (policy : VerifyPolicy) (parts : List FinalizedInput) :
    Outcome SignError Transaction := do
  let feeSats ← okOr psbt.fee .unbalancedPsbt
  rejectIf (feeSats = 0) .unbalancedPsbt
  let tx := (psbt.withWitnesses parts).extractTx
  let spent := parts.foldl (fun m p => m.insert p.prevout p.known) OrderedMap.empty
  rejectIf (¬ env.verifyTransaction tx spent) .consensusRejected
  let feerateSatVb := feerate feeSats tx.vsize
  rejectIf (policy.maxFeerate < feerateSatVb) (.finalFeerateTooHigh feerateSatVb policy.maxFeerate)
  return tx

def finalize (psbt : Psbt) (descriptor : Str) (policy : VerifyPolicy) :
    Outcome SignError Transaction := do
  rejectIf psbt.inputs.isEmpty .emptyPsbt
  rejectIf (psbt.inputs.length ≠ psbt.unsignedTx.input.length)
    (.verify (.inconsistentPsbt "input count"))
  let receive ← mapErr (.verify ∘ .descriptor) (parse env.toPrimitives descriptor)
  let change ← mapErr (.verify ∘ .descriptor)
    (parseChange env.toPrimitives policy.changeDescriptor)
  let parts ← finalizeInputs env psbt receive change policy
  finishTransaction env psbt policy parts

end Finalize

/-- The errors of `finalize` that find fault with an input: its derivation map,
    its witness script or its signatures. -/
def SignError.blamesInput : SignError → Bool
  | .missingWitnessScript _ => true
  | .witnessScriptMismatch _ => true
  | .missingDerivation _ => true
  | .invalidDerivationPath _ => true
  | .incompleteWitness _ => true
  | _ => false

def NamesLeaf (input : Input) (branch index : UInt32) : Prop :=
  branch ≤ 1 ∧ ∃ pk fingerprint stem, input.bip32Derivation.entries.head? =
    some (pk, fingerprint, stem ++ [.normal branch, .normal index])

/-- What `finalize` asks of an input, given the keys that have signed it: the
    leaf of the first entry derives the spent script, the witness script is the
    one of that leaf, and two of its keys have signed. -/
def Finalizable (env : Primitives) (receive : ParsedDescriptor) (change : Option ParsedDescriptor)
    (input : Input) (hasSigned : SecpPublicKey → Bool) : Prop :=
  ∃ branch index source output utxo, NamesLeaf input branch index ∧
    branchDescriptor receive change branch = some source ∧
    deriveAt env source index = .ok output ∧
    input.witnessUtxo = some utxo ∧ utxo.scriptPubkey = output.scriptPubkey ∧
    input.witnessScript = some output.witnessScript ∧
    2 ≤ output.sortedPubkeys.countP hasSigned

theorem lastTwo_iff {α : Type} {path : List α} {x y : α} :
    (¬ path.length < 2 ∧ path[path.length - 2]? = some x ∧ path[path.length - 1]? = some y) ↔
      ∃ stem, path = stem ++ [x, y] := by
  constructor
  · intro ends
    obtain ⟨long, first, second⟩ := ends
    rcases List.eq_nil_or_concat path with rfl | ⟨init, b, rfl⟩
    · simp at long
    rcases List.eq_nil_or_concat init with rfl | ⟨stem, a, rfl⟩
    · simp at long
    simp_all
  · intro ends
    obtain ⟨stem, rfl⟩ := ends
    simp

theorem fee_eq_some {psbt : Psbt} {fee : UInt64} :
    psbt.fee = some fee ↔ ∃ utxos : List TxOut,
      List.Forall₂ (fun (x : TxIn × Input) utxo => fundingUtxo x.1 x.2 = some utxo)
        (psbt.unsignedTx.input.zip psbt.inputs) utxos ∧
      exactSum (utxos.map TxOut.value) < UInt64.size ∧
      exactSum (utxos.map TxOut.value) =
        exactSum (psbt.unsignedTx.output.map TxOut.value) + fee.toNat := by
  have outputs := @foldlM_checkedAdd_some TxOut TxOut some TxOut.value psbt.unsignedTx.output 0
  have whole : ∀ ys, List.Forall₂ (fun (x : TxOut) y => some x = some y) psbt.unsignedTx.output ys ↔
      psbt.unsignedTx.output = ys := by
    intro ys
    simp only [Option.some.injEq, List.forall₂_eq_eq_eq]
  simp only [whole, exists_eq_left', Option.bind_eq_bind, Option.bind_some, UInt64.toNat_zero,
    Nat.zero_add] at outputs
  simp only [Psbt.fee, Option.bind_eq_bind, Option.bind_eq_some_iff, checkedSub_eq_some]
  constructor
  · intro run
    obtain ⟨sumIn, counted, sumOut, paid, rest⟩ := run
    obtain ⟨utxos, reads, total⟩ := foldlM_checkedAdd_some.mp counted
    have total' := outputs.mp paid
    rw [UInt64.toNat_zero] at total
    have small := toNat_lt_size sumIn
    exact ⟨utxos, reads, by omega, by omega⟩
  · intro balanced
    obtain ⟨utxos, reads, fits, balance⟩ := balanced
    have sumIn := UInt64.toNat_ofNat_of_lt' fits
    have sumOut : (UInt64.ofNat (exactSum (psbt.unsignedTx.output.map TxOut.value))).toNat =
        exactSum (psbt.unsignedTx.output.map TxOut.value) :=
      UInt64.toNat_ofNat_of_lt' (show _ < UInt64.size by omega)
    refine ⟨UInt64.ofNat (exactSum (utxos.map TxOut.value)),
      foldlM_checkedAdd_some.mpr ⟨utxos, reads, ?_⟩, _, outputs.mpr sumOut, ?_⟩
    · rw [sumIn, UInt64.toNat_zero, Nat.zero_add]
    · rw [sumIn, sumOut]
      exact balance

section Leaf

variable {input : Input} {i : Nat}

theorem normalIndex_eq_ok {child : ChildNumber} {index : UInt32} :
    normalIndex child i = .ok index ↔ child = .normal index := by
  cases child <;> simp [normalIndex]

theorem branchAndIndex_eq_ok {branch index : UInt32} :
    branchAndIndex input i = .ok (branch, index) ↔ NamesLeaf input branch index := by
  simp only [branchAndIndex, NamesLeaf, bind_eq_ok, okOr_eq_ok, expect_eq_ok, rejectIf_eq_ok,
    normalIndex_eq_ok, pure_ok, Except.ok.injEq, Prod.mk.injEq, OrderedMap.values, List.head?_map,
    Option.map_eq_some_iff]
  constructor
  · intro run
    obtain ⟨_, ⟨⟨pk, fingerprint, path⟩, first, rfl⟩, _, long, _, at_, _, rfl, _, at', _, rfl, _,
      small, rfl, rfl⟩ := run
    obtain ⟨stem, rfl⟩ := lastTwo_iff.mp ⟨long, at_, at'⟩
    exact ⟨UInt32.not_lt.mp small, pk, fingerprint, stem, first⟩
  · intro names
    obtain ⟨small, pk, fingerprint, stem, first⟩ := names
    obtain ⟨long, at_, at'⟩ := lastTwo_iff.mpr ⟨stem, rfl⟩
    exact ⟨_, ⟨_, first, rfl⟩, (), long, _, at_, branch, rfl, _, at', index, rfl, (),
      UInt32.not_lt.mpr small, rfl, rfl⟩

theorem derivedForInput_eq_ok {env : SignPrimitives} {receive : ParsedDescriptor}
    {change : Option ParsedDescriptor} {output : DerivedOutput} :
    derivedForInput env input i receive change = .ok output ↔
      ∃ branch index source, NamesLeaf input branch index ∧
        branchDescriptor receive change branch = some source ∧
        deriveAt env.toPrimitives source index = .ok output := by
  simp only [derivedForInput, bind_eq_ok, Prod.exists, branchAndIndex_eq_ok, okOr_eq_ok,
    expect_eq_ok, toOption_eq_some]
  constructor
  · intro run
    obtain ⟨branch, index, names, source, chosen, derived⟩ := run
    exact ⟨branch, index, source, names, chosen, derived⟩
  · intro named
    obtain ⟨branch, index, source, names, chosen, derived⟩ := named
    exact ⟨branch, index, names, source, chosen, derived⟩

theorem branchAndIndex_blames :
    OnlyFails (fun e => e.blamesInput) (branchAndIndex input i) := by
  have normal : ∀ child, OnlyFails (fun e => e.blamesInput) (normalIndex child i) := by
    intro child
    cases child with
    | normal index => exact onlyFails_ok index
    | hardened index => exact onlyFails_fail (by rfl)
  unfold branchAndIndex
  refine onlyFails_okOr_bind (by rfl) ?_
  intro source _
  refine onlyFails_rejectIf_bind (by rfl) ?_
  intro long
  apply onlyFails_bind (onlyFails_expect ⟨_, List.getElem?_eq_getElem (by omega)⟩)
  intro beforeLast _
  apply onlyFails_bind (normal beforeLast)
  intro branch _
  apply onlyFails_bind (onlyFails_expect ⟨_, List.getElem?_eq_getElem (by omega)⟩)
  intro last _
  apply onlyFails_bind (normal last)
  intro addr _
  refine onlyFails_rejectIf_bind (by rfl) ?_
  intro _
  exact onlyFails_ok _

theorem derivedForInput_blames {env : SignPrimitives} {receive : ParsedDescriptor}
    {change : Option ParsedDescriptor}
    (derives : ∀ branch index source, NamesLeaf input branch index →
      branchDescriptor receive change branch = some source →
      ∃ output, deriveAt env.toPrimitives source index = .ok output) :
    OnlyFails (fun e => e.blamesInput) (derivedForInput env input i receive change) := by
  unfold derivedForInput
  apply onlyFails_bind branchAndIndex_blames
  intro ⟨branch, index⟩ named
  refine onlyFails_okOr_bind (by rfl) ?_
  intro source chosen
  obtain ⟨output, derived⟩ := derives branch index source (branchAndIndex_eq_ok.mp named) chosen
  exact onlyFails_expect ⟨output, toOption_eq_some.mpr derived⟩

end Leaf

section Gather

variable {input : Input} {i : Nat}

theorem findSignature_isSome {pk : SecpPublicKey} :
    (findSignature input pk).isSome ↔ ∃ key ∈ input.partialSigs.keys, key.inner = pk := by
  simp only [findSignature, List.findSome?_isSome_iff, OrderedMap.keys, List.mem_map]
  constructor
  · intro found
    obtain ⟨e, member, some_⟩ := found
    refine ⟨e.1, ⟨e, member, rfl⟩, ?_⟩
    split at some_
    · assumption
    · simp at some_
  · intro held
    obtain ⟨_, ⟨e, member, rfl⟩, same⟩ := held
    exact ⟨e, member, by simp [same]⟩

theorem findSignature_mem {pk : SecpPublicKey} {sig : Signature}
    (found : findSignature input pk = some sig) : sig ∈ input.partialSigs.values := by
  obtain ⟨⟨key, value⟩, member, here⟩ := List.exists_of_findSome?_eq_some found
  by_cases same : key.inner = pk
  · obtain rfl : value = sig := by simpa [same] using here
    exact List.mem_map_of_mem member
  · simp [same] at here

theorem gatherSignatures_eq_ok {keys : List SecpPublicKey} {sigs result : List Signature}
    (few : sigs.length < 2) (run : gatherSignatures input i keys sigs = .ok result) :
    result = (sigs ++ keys.filterMap (findSignature input)).take 2 ∧
      ∀ sig ∈ result, sig ∈ sigs ∨ sig.sighashType = .all := by
  induction keys generalizing sigs with
  | nil =>
    obtain rfl : sigs = result := Except.ok.inj run
    rw [List.filterMap_nil, List.append_nil, List.take_of_length_le (by omega)]
    exact ⟨rfl, fun sig member => .inl member⟩
  | cons pk rest ih =>
    cases found : findSignature input pk with
    | none =>
      simp only [gatherSignatures, found] at run
      rw [List.filterMap_cons_none found]
      exact ih few run
    | some sig =>
      simp only [gatherSignatures, found, bind_eq_ok, rejectIf_eq_ok, ne_eq, not_not] at run
      obtain ⟨_, all, run⟩ := run
      rw [List.filterMap_cons_some found,
        List.append_cons sigs sig (rest.filterMap (findSignature input))]
      by_cases full : (sigs ++ [sig]).length = 2
      · rw [if_pos full] at run
        obtain rfl : sigs ++ [sig] = result := Except.ok.inj run
        constructor
        · rw [List.take_append_of_le_length (Nat.le_of_eq full.symm),
            List.take_of_length_le (Nat.le_of_eq full)]
        intro other member
        rcases List.mem_append.mp member with old | new
        · exact .inl old
        · exact .inr (List.mem_singleton.mp new ▸ all)
      · rw [if_neg full] at run
        have more : (sigs ++ [sig]).length < 2 := by
          rw [List.length_append, List.length_singleton] at full ⊢
          omega
        obtain ⟨collected, plain⟩ := ih more run
        refine ⟨collected, ?_⟩
        intro other member
        rcases plain other member with held | all'
        · rcases List.mem_append.mp held with old | new
          · exact .inl old
          · exact .inr (List.mem_singleton.mp new ▸ all)
        · exact .inr all'

theorem witnessForSorted_eq_ok {sorted : List SecpPublicKey} {script : Script}
    {witness : List Str} (run : witnessForSorted input i sorted script = .ok witness) :
    ∃ first second before k₁ between k₂ after,
      witness = [[], Signature.serialize first, Signature.serialize second, script] ∧
      sorted = before ++ k₁ :: (between ++ k₂ :: after) ∧
      (∀ k ∈ before ++ between, findSignature input k = none) ∧
      findSignature input k₁ = some first ∧ findSignature input k₂ = some second ∧
      first.sighashType = .all ∧ second.sighashType = .all := by
  rw [witnessForSorted, bind_eq_ok] at run
  obtain ⟨sigs, gathered, run⟩ := run
  obtain ⟨collected, plain⟩ := gatherSignatures_eq_ok (show [].length < 2 by decide) gathered
  cases found : sorted.filterMap (findSignature input) with
  | nil => simp [collected, found] at run
  | cons first rest =>
    cases rest with
    | nil => simp [collected, found] at run
    | cons second rest =>
      obtain ⟨before, k₁, after, rfl, none₁, here, later⟩ := List.filterMap_eq_cons_iff.mp found
      obtain ⟨between, k₂, tail, rfl, none₂, here', _⟩ := List.filterMap_eq_cons_iff.mp later
      rw [found, List.nil_append, List.take_succ_cons, List.take_succ_cons, List.take_zero]
        at collected
      subst collected
      refine ⟨first, second, before, k₁, between, k₂, tail, (Except.ok.inj run).symm, rfl, ?_,
        here, here', ?_, ?_⟩
      · intro k member
        rcases List.mem_append.mp member with early | late
        · exact none₁ k early
        · exact none₂ k late
      · simpa using plain first (by simp)
      · simpa using plain second (by simp)

variable (plain : ∀ sig ∈ input.partialSigs.values, sig.sighashType = .all)
include plain

theorem gatherSignatures_plain (keys : List SecpPublicKey) {sigs : List Signature}
    (few : sigs.length < 2) :
    gatherSignatures input i keys sigs =
      .ok ((sigs ++ keys.filterMap (findSignature input)).take 2) := by
  induction keys generalizing sigs with
  | nil =>
    simp only [gatherSignatures, List.filterMap_nil, List.append_nil]
    rw [List.take_of_length_le (by omega)]
  | cons pk rest ih =>
    cases found : findSignature input pk with
    | none => simp only [gatherSignatures, found, ih few, List.filterMap_cons]
    | some sig =>
      have all := plain sig (findSignature_mem found)
      simp only [gatherSignatures, found, all, rejectIf, ne_eq, not_true_eq_false, if_false,
        bind_ok, List.filterMap_cons, List.length_append, List.length_singleton]
      split
      · rename_i full
        have one : sigs.length = 1 := by omega
        obtain ⟨first, rfl⟩ := List.length_eq_one_iff.mp one
        rfl
      · rename_i more
        rw [ih (by simp only [List.length_append, List.length_singleton]; omega)]
        simp

theorem witnessForSorted_cases (sorted : List SecpPublicKey) (script : Script) :
    (2 ≤ sorted.countP (fun pk => (findSignature input pk).isSome) ∧
      ∃ witness, witnessForSorted input i sorted script = .ok witness) ∨
    (¬ 2 ≤ sorted.countP (fun pk => (findSignature input pk).isSome) ∧
      witnessForSorted input i sorted script = fail (.incompleteWitness i)) := by
  rw [← List.length_filterMap_eq_countP]
  simp only [witnessForSorted, @gatherSignatures_plain input i plain sorted [] (by decide),
    List.nil_append, bind_ok]
  match sorted.filterMap (findSignature input) with
  | [] => simp
  | [_] => simp
  | _ :: _ :: _ => simp

end Gather

section Input

variable {env : SignPrimitives} {tx : Transaction} {receive : ParsedDescriptor}
  {change : Option ParsedDescriptor} {policy : VerifyPolicy} {input : Input} {i : Nat}
  {txin : TxIn} {known : TxOut}

theorem finalScript_derived {source : ParsedDescriptor} {index : UInt32} {output : DerivedOutput}
    (derived : deriveAt env.toPrimitives source index = .ok output) :
    (witnessScript2of3 output.sortedPubkeys).toOption.getD output.witnessScript =
      output.witnessScript := by
  obtain ⟨_, _, _, _, _, _, _, _, script, _⟩ := deriveAt_spec derived
  rw [script]
  rfl

variable (shown : input.witnessUtxo = some known) (spent : tx.input[i]? = some txin)
  (recorded : policy.knownUtxos.get? txin.previousOutput = some known)
include shown spent recorded

theorem finalizeInput_known :
    finalizeInput env tx receive change policy input i = (do
      let derived ← derivedForInput env input i receive change
      rejectIf (known.scriptPubkey ≠ derived.scriptPubkey) (.witnessScriptMismatch i)
      let script := (witnessScript2of3 derived.sortedPubkeys).toOption.getD derived.witnessScript
      let ws ← okOr input.witnessScript (.missingWitnessScript i)
      rejectIf (ws ≠ script) (.witnessScriptMismatch i)
      let witness ← witnessForSorted input i derived.sortedPubkeys script
      return ⟨txin.previousOutput, known, witness⟩) := by
  simp only [finalizeInput, shown, spent, recorded, okOr, expect, bind_ok]
  rw [rejectIf_of_not _ (by simp), bind_ok]

variable (plain : ∀ sig ∈ input.partialSigs.values, sig.sighashType = .all)
include plain

theorem finalizeInput_ok_iff :
    (∃ part, finalizeInput env tx receive change policy input i = .ok part) ↔
      Finalizable env.toPrimitives receive change input fun pk =>
        (findSignature input pk).isSome := by
  rw [finalizeInput_known shown spent recorded]
  simp only [bind_eq_ok, derivedForInput_eq_ok, rejectIf_eq_ok, okOr_eq_ok, ne_eq,
    Decidable.not_not, pure_ok, Except.ok.injEq]
  constructor
  · intro run
    obtain ⟨_, output, ⟨branch, index, source, names, chosen, derived⟩, _, spentScript, _, given, _,
      rfl, witness, made, _⟩ := run
    rw [finalScript_derived derived] at given
    refine ⟨branch, index, source, output, known, names, chosen, derived, shown, spentScript, given,
      ?_⟩
    rcases witnessForSorted_cases plain output.sortedPubkeys _ with ⟨two, _⟩ | ⟨_, failed⟩
    · exact two
    · rw [failed] at made
      exact absurd made (fail_ne_ok _ _)
  · intro fits
    obtain ⟨branch, index, source, output, utxo, names, chosen, derived, shown', spentScript, given,
      two⟩ := fits
    obtain rfl : known = utxo := Option.some.inj (shown.symm.trans shown')
    rcases witnessForSorted_cases plain (i := i) output.sortedPubkeys output.witnessScript with
      ⟨_, witness, made⟩ | ⟨few, _⟩
    · exact ⟨_, output, ⟨branch, index, source, names, chosen, derived⟩, (), spentScript,
        output.witnessScript, given, (), (finalScript_derived derived).symm, witness,
        (finalScript_derived derived).symm ▸ made, rfl⟩
    · exact absurd two few

theorem finalizeInput_blames
    (derives : ∀ branch index source, NamesLeaf input branch index →
      branchDescriptor receive change branch = some source →
      ∃ output, deriveAt env.toPrimitives source index = .ok output) :
    OnlyFails (fun e => e.blamesInput) (finalizeInput env tx receive change policy input i) := by
  rw [finalizeInput_known shown spent recorded]
  apply onlyFails_bind (derivedForInput_blames derives)
  intro output _
  refine onlyFails_rejectIf_bind (by rfl) ?_
  intro _
  refine onlyFails_okOr_bind (by rfl) ?_
  intro ws _
  refine onlyFails_rejectIf_bind (by rfl) ?_
  intro _
  refine onlyFails_bind ?_ ?_
  · rcases witnessForSorted_cases plain output.sortedPubkeys _ with ⟨_, witness, made⟩ | ⟨_, failed⟩
    · rw [made]
      exact onlyFails_ok witness
    · rw [failed]
      exact onlyFails_fail (by rfl)
  · intro witness _
    exact onlyFails_ok _

end Input

theorem finishTransaction_blames (env : SignPrimitives) (psbt : Psbt) (policy : VerifyPolicy)
    (parts : List FinalizedInput) :
    OnlyFails (fun e => ¬ e.blamesInput) (finishTransaction env psbt policy parts) := by
  unfold finishTransaction
  refine onlyFails_okOr_bind (by decide) ?_
  intro fee _
  refine onlyFails_rejectIf_bind (by decide) ?_
  intro _
  refine onlyFails_rejectIf_bind (by decide) ?_
  intro _
  refine onlyFails_bind (onlyFails_rejectIf ?_) ?_
  · simp [SignError.blamesInput]
  · intro _ _
    exact onlyFails_ok _

end Trinity
