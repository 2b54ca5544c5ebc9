import Trinity.Lib.Counted
import Trinity.Signer.Local

/-!
The footprint of `LocalSigner::sign`. In the PSBT it touches one signature and
the sighash field of every input; of the platform it asks one key unwrapping,
and only after the checks of all inputs.
-/
namespace Trinity

open Outcome

section Unwrap

open Counted

variable {env : SignPrimitives}

/-- `sign` with its questions to the platform counted. -/
def LocalSigner.countedSign (env : SignPrimitives) (signer : LocalSigner) (psbt : Psbt) :
    Counted SignError Psbt :=
  signer.signIn Counted env psbt

theorem unlockMasterIn_result (signer : LocalSigner) :
    (signer.unlockMasterIn Counted env).result = signer.unlockMaster env := by
  simp only [LocalSigner.unlockMasterIn, marked_call, monadLift_eq, bind_result, once_result,
    free_result, pure_result, pure_ok, Marked.call_outcome, monadLift_self]

theorem countedSign_result (signer : LocalSigner) (psbt : Psbt) :
    (signer.countedSign env psbt).result = signer.sign env psbt := by
  simp only [LocalSigner.countedSign, LocalSigner.signIn, monadLift_eq, bind_result, free_result,
    unlockMasterIn_result, monadLift_self]

theorem unlockMasterIn_calls (signer : LocalSigner) :
    (signer.unlockMasterIn Counted env).calls = 1 := by
  unfold LocalSigner.unlockMasterIn
  rw [bind_idle_calls, marked_call, once_calls]
  intro kek
  have none : ∀ {α β : Type} {x : Outcome SignError α} {f : α → Counted SignError β},
      (∀ a, (f a).calls = 0) → (free x >>= f).calls = 0 := by
    intro α β x f idle
    rw [bind_idle_calls _ idle, free_calls]
  apply none
  intro _
  apply none
  intro decoded
  apply none
  intro _
  apply none
  intro seed
  apply none
  intro master
  apply none
  intro _
  exact pure_calls master

theorem countedSign_calls (signer : LocalSigner) (psbt : Psbt) :
    (signer.countedSign env psbt).calls =
      if preflightInputs psbt signer.fingerprint = .ok () then 1 else 0 := by
  simp only [LocalSigner.countedSign, LocalSigner.signIn, monadLift_eq]
  cases checked : preflightInputs psbt signer.fingerprint with
  | error e =>
    rw [bind_error _ rfl, free_calls, if_neg (by simp)]
  | ok u =>
    rw [Counted.bind_ok _ rfl, free_calls, bind_free_calls, unlockMasterIn_calls, if_pos rfl]

end Unwrap

/-- The PSBT after the signer is the PSBT before it, but for one signature of
    the signer and the sighash field on every input. -/
structure AddsOwn (env : SignPrimitives) (master : Xpriv) (fingerprint : Fingerprint)
    (psbt signed : Psbt) : Prop where
  outside : signed = { psbt with inputs := signed.inputs }
  count : signed.inputs.length = psbt.inputs.length
  input : ∀ (i : Nat) before, psbt.inputs[i]? = some before →
    ∃ (own : OwnSignature env master fingerprint psbt.unsignedTx i before) (after : Input),
      signed.inputs[i]? = some after ∧
      after = { before with partialSigs := after.partialSigs, sighashType := some 1 } ∧
      ∀ key, after.partialSigs.get? key =
        if key = .new own.key then some own.signature else before.partialSigs.get? key

section Frame

variable {env : SignPrimitives}

theorem insertAll_outside (psbt : Psbt) (produced : List (Nat × PublicKey × Signature)) :
    produced.foldl insertSignature psbt =
      { psbt with inputs := (produced.foldl insertSignature psbt).inputs } := by
  induction produced generalizing psbt with
  | nil => rfl
  | cons p rest ih => exact ih (insertSignature psbt p)

theorem sign_addsOwn {signer : LocalSigner} {psbt signed : Psbt}
    (run : signer.sign env psbt = .ok signed) :
    ∃ master, signer.unlockMaster env = .ok master ∧
      AddsOwn env master signer.fingerprint psbt signed := by
  obtain ⟨master, unlocked, produced, rfl, once, each⟩ := sign_produced run
  refine ⟨master, unlocked, insertAll_outside psbt produced, insertAll_length psbt produced, ?_⟩
  intro i before map
  obtain ⟨own, member⟩ := each i before map
  refine ⟨own, before.addSignature (.new own.key) own.signature, ?_, rfl, ?_⟩
  · rw [insertAll_input once member, map]
    rfl
  · intro key
    exact OrderedMap.get?_insert before.partialSigs (.new own.key) key own.signature

end Frame

/-- A successful `sign` adds or replaces one signature on every input and sets
    its sighash field, and changes nothing else; the platform is asked for the
    key only if all inputs pass the checks. -/
theorem local_sign_footprint (env : SignPrimitives) (signer : LocalSigner) (psbt : Psbt) :
    (∀ signed, signer.sign env psbt = .ok signed →
      ∃ master, signer.unlockMaster env = .ok master ∧
        AddsOwn env master signer.fingerprint psbt signed) ∧
    (signer.countedSign env psbt).result = signer.sign env psbt ∧
    (0 < (signer.countedSign env psbt).calls →
      preflightInputs psbt signer.fingerprint = .ok ()) := by
  refine ⟨fun signed run => sign_addsOwn run, countedSign_result signer psbt, ?_⟩
  intro asked
  rw [countedSign_calls] at asked
  by_contra failed
  rw [if_neg failed] at asked
  omega

/-- Key A on the sample payment: signed after one question to the platform. -/
theorem local_sign_footprint_sample :
    ∃ signed master, Sample.localA.sign Sample.signEnv Sample.psbt = .ok signed ∧
      AddsOwn Sample.signEnv master Sample.fingerprintA Sample.psbt signed ∧
      (Sample.localA.countedSign Sample.signEnv Sample.psbt).calls = 1 := by
  obtain ⟨adds, _, _⟩ := local_sign_footprint Sample.signEnv Sample.localA Sample.psbt
  obtain ⟨master, _, own⟩ := adds _ Sample.localA_signs
  obtain ⟨checked, _⟩ := sign_eq_ok.mp Sample.localA_signs
  refine ⟨_, master, Sample.localA_signs, own, ?_⟩
  rw [countedSign_calls, if_pos checked]

end Trinity
