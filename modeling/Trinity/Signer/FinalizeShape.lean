import Trinity.Signer.FinalizeSigned
import Trinity.Signer.HonestFinish

/-!
What a finalized transaction is. Each witness spends the recorded coin with the
2-of-3 script of one leaf and the signatures under its lowest signed keys, and
the fee follows from the records. Of the unsigned transaction the witnesses and
the script signatures are replaced, and nothing else.
-/
namespace Trinity

open Outcome Word

def SignedUnder (input : Input) (pk : SecpPublicKey) (sig : Signature) : Prop :=
  ∃ key, (key, sig) ∈ input.partialSigs.entries ∧ key.inner = pk

/-- The signatures under the two lowest positions that have one, in order. -/
structure LowestTwo (input : Input) (sorted : List SecpPublicKey) (first second : Signature) :
    Prop where
  placed : ∃ before k₁ between k₂ after, sorted = before ++ k₁ :: (between ++ k₂ :: after) ∧
    (∀ k ∈ before ++ between, ∀ sig, ¬ SignedUnder input k sig) ∧
    SignedUnder input k₁ first ∧ SignedUnder input k₂ second
  firstAll : first.sighashType = .all
  secondAll : second.sighashType = .all

/-- The witness spends the coin with the 2-of-3 script of the three children of
    one of the descriptors at one index. -/
def SpendsLeaf (env : Primitives) (receive : ParsedDescriptor) (change : Option ParsedDescriptor)
    (input : Input) (coin : TxOut) (witness : List Str) : Prop :=
  ∃ source index c0 c1 c2 script first second,
    (source = receive ∨ change = some source) ∧
    deriveChild env source.key0 index = .ok c0 ∧
    deriveChild env source.key1 index = .ok c1 ∧
    deriveChild env source.key2 index = .ok c2 ∧
    witnessScript2of3 (sortPubkeys [c0.publicKey, c1.publicKey, c2.publicKey]) = .ok script ∧
    coin.scriptPubkey = p2wshScriptPubkey env script ∧
    LowestTwo input (sortPubkeys [c0.publicKey, c1.publicKey, c2.publicKey]) first second ∧
    witness = [[], first.serialize, second.serialize, script]

structure FinishedSpend (env : Primitives) (receive : ParsedDescriptor)
    (change : Option ParsedDescriptor) (policy : VerifyPolicy) (psbt : Psbt) (tx : Transaction) :
    Prop where
  version : tx.version = psbt.unsignedTx.version
  lockTime : tx.lockTime = psbt.unsignedTx.lockTime
  output : tx.output = psbt.unsignedTx.output
  count : tx.input.length = psbt.unsignedTx.input.length
  maps : psbt.inputs.length = psbt.unsignedTx.input.length
  input : ∀ (i : Nat) txin input, psbt.unsignedTx.input[i]? = some txin →
    psbt.inputs[i]? = some input → ∃ coin witness,
      policy.knownUtxos.get? txin.previousOutput = some coin ∧
      SpendsLeaf env receive change input coin witness ∧
      tx.input[i]? = some { txin with scriptSig := input.finalScriptSig.getD [], witness }
  fee : ∃ (coins : List TxOut) (fee : Nat),
    List.Forall₂ (fun txin coin => policy.knownUtxos.get? txin.previousOutput = some coin)
      psbt.unsignedTx.input coins ∧
    exactSum (coins.map TxOut.value) = exactSum (tx.output.map TxOut.value) + fee ∧ 0 < fee ∧
    (fee + (tx.vsize - 1)) / tx.vsize ≤ policy.maxFeerate.toNat

section Shape

variable {env : SignPrimitives} {psbt : Psbt} {policy : VerifyPolicy} {receive : ParsedDescriptor}
  {change : Option ParsedDescriptor}

theorem findSignature_under {input : Input} {pk : SecpPublicKey} {sig : Signature}
    (found : findSignature input pk = some sig) : SignedUnder input pk sig := by
  obtain ⟨⟨key, value⟩, member, here⟩ := List.exists_of_findSome?_eq_some found
  by_cases same : key.inner = pk
  · obtain rfl : value = sig := by simpa [same] using here
    exact ⟨key, member, same⟩
  · simp [same] at here

theorem not_under_of_none {input : Input} {pk : SecpPublicKey}
    (missing : findSignature input pk = none) (sig : Signature) : ¬ SignedUnder input pk sig := by
  intro ⟨key, member, same⟩
  have present : (findSignature input pk).isSome :=
    findSignature_isSome.mpr ⟨key, List.mem_map_of_mem member, same⟩
  simp [missing] at present

theorem finalizeInput_spends {tx : Transaction} {i : Nat} {input : Input} {part : FinalizedInput}
    (turn : finalizeInput env tx receive change policy input i = .ok part) :
    ∃ txin, tx.input[i]? = some txin ∧
      policy.knownUtxos.get? txin.previousOutput = some part.known ∧
      input.witnessUtxo = some part.known ∧
      SpendsLeaf env.toPrimitives receive change input part.known part.witness := by
  simp only [finalizeInput, bind_eq_ok, okOr_eq_ok, expect_eq_ok, rejectIf_eq_ok,
    derivedForInput_eq_ok, not_or, ne_eq, not_not, pure_ok, Except.ok.injEq] at turn
  obtain ⟨utxo, shown, txin, spent, known, recorded, _, ⟨value, script⟩, output,
    ⟨branch, index, source, _, chosen, derived⟩, _, program, ws, _, _, rfl, witness, made, rfl⟩ :=
    turn
  have same : utxo = known := by
    cases utxo
    cases known
    exact congrArg₂ TxOut.mk value script
  subst same
  refine ⟨txin, spent, recorded, shown, ?_⟩
  rw [finalScript_derived derived] at made
  obtain ⟨first, second, before, k₁, between, k₂, after, items, order, missing, found, found', all,
    all'⟩ := witnessForSorted_eq_ok made
  obtain ⟨c0, c1, c2, child0, child1, child2, _, sorted, built, leaf⟩ := deriveAt_spec derived
  have origin : source = receive ∨ change = some source := by
    unfold branchDescriptor at chosen
    split at chosen
    · exact .inl (Option.some.inj chosen).symm
    · exact .inr chosen
  have lowest : LowestTwo input (sortPubkeys [c0.publicKey, c1.publicKey, c2.publicKey]) first
      second := by
    refine ⟨⟨before, k₁, between, k₂, after, sorted ▸ order, ?_, findSignature_under found,
      findSignature_under found'⟩, all, all'⟩
    intro k member
    exact not_under_of_none (missing k member)
  exact ⟨source, index, c0, c1, c2, output.witnessScript, first, second, origin, child0, child1,
    child2, sorted ▸ built, program.trans leaf, lowest, items⟩

theorem fee_known {parts : List FinalizedInput} {fee : UInt64}
    (maps : psbt.inputs.length = psbt.unsignedTx.input.length)
    (run : finalizeInputs env psbt receive change policy = .ok parts)
    (counted : psbt.fee = some fee) :
    ∃ coins : List TxOut,
      List.Forall₂ (fun txin coin => policy.knownUtxos.get? txin.previousOutput = some coin)
        psbt.unsignedTx.input coins ∧
      exactSum (coins.map TxOut.value) =
        exactSum (psbt.unsignedTx.output.map TxOut.value) + fee.toNat := by
  obtain ⟨coins, reads, _, balance⟩ := fee_eq_some.mp counted
  refine ⟨coins, ?_, balance⟩
  have length := reads.length_eq
  rw [List.length_zip, maps, Nat.min_self] at length
  rw [List.forall₂_iff_get]
  refine ⟨length, ?_⟩
  intro i inside inside'
  have map := List.getElem?_eq_getElem (maps ▸ inside : i < psbt.inputs.length)
  have paired : psbt.inputs.zipIdx[i]? = some (psbt.inputs[i], i) := by simp [map]
  obtain ⟨part, _, turn⟩ := mapM_getElem run paired
  obtain ⟨txin, spent, recorded, shown, _⟩ := finalizeInput_spends turn
  have both : i < (psbt.unsignedTx.input.zip psbt.inputs).length := by
    rw [List.length_zip, maps, Nat.min_self]
    exact inside
  have read := reads.get both inside'
  simp only [List.get_eq_getElem, List.getElem_zip, fundingUtxo, shown, Option.some.injEq] at read
  rw [List.getElem?_eq_getElem inside, Option.some.injEq] at spent
  simp only [List.get_eq_getElem, spent, ← read]
  exact recorded

end Shape

/-- A finalized transaction spends the recorded coins with 2-of-3 witnesses and
    pays a positive fee within the limit. It has the inputs and outputs of the
    unsigned one; the script signatures are those the PSBT gives, or empty. -/
theorem finalize_spends_known (env : SignPrimitives) {psbt : Psbt} {descriptor : Str}
    {policy : VerifyPolicy} {tx : Transaction}
    (run : finalize env psbt descriptor policy = .ok tx) :
    ∃ receive change, parse env.toPrimitives descriptor = .ok receive ∧
      parseChange env.toPrimitives policy.changeDescriptor = .ok change ∧
      FinishedSpend env.toPrimitives receive change policy psbt tx := by
  simp only [finalize, finishTransaction, bind_eq_ok, rejectIf_eq_ok, mapErr_eq_ok, okOr_eq_ok,
    ne_eq, not_not, pure_ok, Except.ok.injEq] at run
  obtain ⟨_, _, _, maps, receive, parsed, change, parsedChange, parts, loop, fee, counted, _,
    nonzero, _, _, _, rate, rfl⟩ := run
  refine ⟨receive, change, parsed, parsedChange, rfl, rfl, rfl, ?_, maps, ?_, ?_⟩
  · simp [Psbt.extractTx, Psbt.withWitnesses]
  · intro i txin input spent map
    have paired : psbt.inputs.zipIdx[i]? = some (input, i) := by simp [map]
    obtain ⟨part, made, turn⟩ := mapM_getElem loop paired
    obtain ⟨txin', spent', recorded, _, leaf⟩ := finalizeInput_spends turn
    obtain rfl : txin = txin' := Option.some.inj (spent.symm.trans spent')
    exact ⟨part.known, part.witness, recorded, leaf, finished_input spent map made⟩
  · obtain ⟨coins, known, balance⟩ := fee_known maps loop counted
    refine ⟨coins, fee.toNat, known, balance, ?_, ?_⟩
    · exact Nat.pos_of_ne_zero fun zero => nonzero (UInt64.toNat_inj.mp zero)
    · rw [← feerate_toNat fee (Transaction.vsize_pos _)]
      exact UInt64.le_iff_toNat_le.mp (UInt64.not_lt.mp rate)

/-- The sample payment, signed by A and B, is such a spend. -/
theorem finalize_spends_sample :
    ∃ receive change, FinishedSpend Sample.env receive change Sample.policy
      (Sample.signedTwice Sample.psbt) Sample.finished := by
  obtain ⟨receive, change, _, _, finished⟩ :=
    finalize_spends_known Sample.signEnv Sample.finalizes
  exact ⟨receive, change, finished⟩

namespace Sample

def scripted : Psbt :=
  { signedTwice psbt with
    unsignedTx := { payment with input := [⟨coin, [0x51], 0xfffffffd, []⟩] } }

end Sample

/-- `finalize` drops a script signature of the unsigned transaction. -/
theorem scripted_input_cleared :
    finalize Sample.signEnv Sample.scripted Sample.receiveDescriptor Sample.policy =
      .ok Sample.finished ∧
    Sample.finished.input.map TxIn.scriptSig ≠
      Sample.scripted.unsignedTx.input.map TxIn.scriptSig := by
  constructor
  · rw [finalize, Sample.sign_parsed, Sample.sign_parsedPolicy]
    decide +kernel
  · decide

end Trinity
