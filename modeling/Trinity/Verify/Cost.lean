import Trinity.Lib.Counted
import Trinity.Verify.NeverAborts

/-!
How often the verifier calls `derive_at`: the run over `Counted` has the result of
the plain one, and its calls are bounded.
-/
namespace Trinity

open Outcome Counted Word

def countedVerify (env : Primitives) (psbt : Psbt) (descriptor : Str) (policy : VerifyPolicy) :
    Counted VerifyError PsbtVerdict :=
  verifyIn Counted env psbt descriptor policy

section Result

variable {env : Primitives}

@[simp] theorem probeIn_result (script : Script) (desc : ParsedDescriptor) (i : UInt32) :
    (probeIn Counted env script desc i).result = probe env script desc i := by
  simp only [probeIn, marked_mapErr, marked_call, bind_result, mapErr_result, once_result,
    pure_result, pure_ok, Marked.mapErr_outcome, Marked.call_outcome]

@[simp] theorem probeHintIn_result (script : Script) (desc : ParsedDescriptor) (gap : UInt32)
    (hint : Option UInt32) :
    (probeHintIn Counted env script desc gap hint).result = probeHint env script desc gap hint := by
  cases hint with
  | none => rfl
  | some h =>
    by_cases below : h < gap
    · simp only [probeHintIn, if_pos below, probeIn_result]
    · simp only [probeHintIn, if_neg below, pure_result, pure_ok]

@[simp] theorem findIndexMatchingIn_result (script : Script) (desc : ParsedDescriptor)
    (gap : UInt32) (hint : Option UInt32) :
    (findIndexMatchingIn Counted env script desc gap hint).result =
      findIndexMatching env script desc gap hint := by
  unfold findIndexMatching findIndexMatchingIn
  rw [bind_result, probeHintIn_result]
  congr 1
  funext hinted
  cases hinted with
  | some h => rfl
  | none =>
    simp only [findSomeM?_result]
    congr 1
    funext i
    by_cases same : hint = some i
    · rw [if_pos same, if_pos same, pure_result, pure_ok]
    · rw [if_neg same, if_neg same, probeIn_result]

@[simp] theorem matchesAnyDerivedIn_result (script : Script) (receive : ParsedDescriptor)
    (change : Option ParsedDescriptor) (gap : UInt32) (hint : Option UInt32) :
    (matchesAnyDerivedIn Counted env script receive change gap hint).result =
      matchesAnyDerived env script receive change gap hint := by
  unfold matchesAnyDerived matchesAnyDerivedIn
  rw [bind_result, findIndexMatchingIn_result]
  congr 1
  funext found
  cases found with
  | some h => rfl
  | none =>
    cases change with
    | none => rfl
    | some chg =>
      simp only [Option.isSome_none, Bool.false_eq_true, ↓reduceIte, bind_result,
        findIndexMatchingIn_result, pure_result, pure_ok]

@[simp] theorem checkV2In_result (psbt : Psbt) (receive : ParsedDescriptor)
    (change : Option ParsedDescriptor) (policy : VerifyPolicy) :
    (checkV2In Counted env psbt receive change policy).result =
      checkV2 env psbt receive change policy := by
  simp only [checkV2In, forM_result, bind_result, monadLift_eq, free_result,
    matchesAnyDerivedIn_result, monadLift_self]

@[simp] theorem checkV4ChangeIn_result (output : Output) (chg : ParsedDescriptor)
    (index : UInt32) :
    (checkV4ChangeIn Counted env output chg index).result = checkV4Change env output chg index := by
  simp only [checkV4ChangeIn, marked_mapErr, marked_call, monadLift_eq, bind_result, free_result,
    mapErr_result, once_result, Marked.mapErr_outcome, Marked.call_outcome, monadLift_self]

@[simp] theorem classifyOutputIn_result (psbt : Psbt) (change : Option ParsedDescriptor)
    (policy : VerifyPolicy) (txout : TxOut) (i : Nat) :
    (classifyOutputIn Counted env psbt change policy txout i).result =
      classifyOutput env psbt change policy txout i := by
  unfold classifyOutput classifyOutputIn
  rw [bind_result]
  congr 1
  funext address
  by_cases declared : policy.declaredRecipients.any fun r => eqIgnoreAsciiCase address r
  · rw [if_pos declared, if_pos declared, pure_result, pure_ok]
  · rw [if_neg declared, if_neg declared]
    simp only [marked_mapErr, monadLift_eq, bind_result, free_result, findIndexMatchingIn_result,
      mapErr_result, checkV4ChangeIn_result, pure_result, pure_ok, Marked.mapErr_outcome,
      monadLift_self]

theorem countedVerify_result (psbt : Psbt) (descriptor : Str) (policy : VerifyPolicy) :
    (countedVerify env psbt descriptor policy).result = verify env psbt descriptor policy := by
  simp only [countedVerify, verifyIn, classifyOutputsIn, mapM_result, bind_result, monadLift_eq,
    free_result, checkV2In_result, classifyOutputIn_result, pure_result, pure_ok, monadLift_self]

end Result

section Calls

variable {env : Primitives}

@[simp] theorem probeIn_calls (script : Script) (desc : ParsedDescriptor) (i : UInt32) :
    (probeIn Counted env script desc i).calls = 1 := by
  unfold probeIn
  rw [bind_pure_calls, marked_mapErr, mapErr_calls, marked_call, once_calls]

theorem indicesBelow_length (gap : UInt32) : (indicesBelow gap).length = gap.toNat := by
  simp [indicesBelow]

/-- The hint is probed first and then left out, so no index is probed twice. -/
theorem findIndexMatchingIn_calls (script : Script) (desc : ParsedDescriptor) (gap : UInt32)
    (hint : Option UInt32) :
    (findIndexMatchingIn Counted env script desc gap hint).calls ≤ gap.toNat := by
  have probes : ∀ xs : List UInt32,
      (xs.findSomeM? (probeIn Counted env script desc)).calls ≤ xs.length := by
    intro xs
    have bound := @findSomeM?_calls _ _ _ xs (probeIn Counted env script desc) 1
      fun i _ => (probeIn_calls script desc i).le
    omega
  have whole := indicesBelow_length gap
  unfold findIndexMatchingIn
  by_cases below : ∃ h, hint = some h ∧ h < gap
  · obtain ⟨h, rfl, below⟩ := below
    have fewer : ((indicesBelow gap).filter fun i => ¬ some h = some i).length <
        (indicesBelow gap).length :=
      List.length_filter_lt_length_iff_exists.mpr ⟨h, mem_indicesBelow.mpr below, by simp⟩
    have hinted : (probeHintIn Counted env script desc gap (some h)).calls ≤ 1 := by
      simp only [probeHintIn, if_pos below, probeIn_calls, Nat.le_refl]
    refine Nat.le_trans (@bind_calls _ _ _ _ _ 1 (gap.toNat - 1) hinted ?_) (by omega)
    intro found _
    cases found with
    | some i => exact Nat.zero_le _
    | none =>
      simp only [findSomeM?_skip]
      have rest := probes ((indicesBelow gap).filter fun i => ¬ some h = some i)
      omega
  · have unhinted : probeHintIn Counted env script desc gap hint = pure none := by
      cases hint with
      | none => rfl
      | some h => exact if_neg fun small => below ⟨h, rfl, small⟩
    rw [unhinted, pure_bind]
    simp only [findSomeM?_skip]
    have rest := probes ((indicesBelow gap).filter fun i => ¬ hint = some i)
    have fewer := List.length_filter_le (fun i => decide (¬ hint = some i)) (indicesBelow gap)
    omega

theorem matchesAnyDerivedIn_calls (script : Script) (receive : ParsedDescriptor)
    (change : Option ParsedDescriptor) (gap : UInt32) (hint : Option UInt32) :
    (matchesAnyDerivedIn Counted env script receive change gap hint).calls ≤ 2 * gap.toNat := by
  rw [Nat.two_mul]
  apply bind_calls (findIndexMatchingIn_calls script receive gap hint)
  intro found _
  cases found with
  | some i => exact Nat.zero_le _
  | none =>
    cases change with
    | none => exact Nat.zero_le _
    | some chg =>
      simp only [Option.isSome_none, Bool.false_eq_true, ↓reduceIte, bind_pure_calls]
      exact findIndexMatchingIn_calls script chg gap hint

theorem checkV2In_calls (psbt : Psbt) (receive : ParsedDescriptor)
    (change : Option ParsedDescriptor) (policy : VerifyPolicy) :
    (checkV2In Counted env psbt receive change policy).calls ≤
      psbt.inputs.length * (2 * policy.gapLimit.toNat) := by
  rw [← @List.length_zipIdx _ psbt.inputs 0]
  apply forM_calls
  intro (input, i) _
  apply free_bind_calls
  intro utxo _
  simp only [monadLift_eq, bind_free_calls]
  exact matchesAnyDerivedIn_calls _ receive change _ _

theorem checkV4ChangeIn_calls (output : Output) (chg : ParsedDescriptor) (index : UInt32) :
    (checkV4ChangeIn Counted env output chg index).calls ≤ 1 := by
  refine @bind_calls _ _ _ _ _ 1 0 (Nat.le_refl 1) ?_
  intro derived _
  apply free_bind_calls
  intro _ _
  apply free_bind_calls
  intro _ _
  apply free_bind_calls
  intro _ _
  exact Nat.le_refl 0

theorem classifyOutputIn_calls (psbt : Psbt) (change : Option ParsedDescriptor)
    (policy : VerifyPolicy) (txout : TxOut) (i : Nat) :
    (classifyOutputIn Counted env psbt change policy txout i).calls ≤
      policy.gapLimit.toNat + 1 := by
  apply free_bind_calls
  intro address _
  by_cases declared : policy.declaredRecipients.any fun r => eqIgnoreAsciiCase address r
  · simp only [declared, ↓reduceIte, pure_calls, Nat.zero_le]
  · simp only [declared, Bool.false_eq_true, ↓reduceIte]
    apply free_bind_calls
    intro chg _
    apply free_bind_calls
    intro output _
    apply bind_calls (findIndexMatchingIn_calls _ chg _ _)
    intro found _
    apply free_bind_calls
    intro idx _
    rw [bind_pure_calls, marked_mapErr, mapErr_calls]
    exact checkV4ChangeIn_calls output chg idx

theorem countedVerify_calls (psbt : Psbt) (descriptor : Str) (policy : VerifyPolicy) :
    (countedVerify env psbt descriptor policy).calls ≤
      psbt.unsignedTx.input.length * (2 * policy.gapLimit.toNat) +
        psbt.unsignedTx.output.length * (policy.gapLimit.toNat + 1) := by
  apply free_bind_calls
  intro receive _
  apply free_bind_calls
  intro change _
  apply free_bind_calls
  intro _ shaped
  rw [← (checkV8_eq_ok.mp shaped).inputMaps]
  apply free_bind_calls
  intro _ _
  apply free_bind_calls
  intro _ _
  apply bind_calls (checkV2In_calls psbt receive change policy)
  intro _ _
  have outputs : (classifyOutputsIn Counted env psbt change policy).calls ≤
      psbt.unsignedTx.output.length * (policy.gapLimit.toNat + 1) := by
    rw [← @List.length_zipIdx _ psbt.unsignedTx.output 0]
    apply mapM_calls
    intro (txout, i) _
    exact classifyOutputIn_calls psbt change policy txout i
  refine @bind_calls _ _ _ _ _ _ 0 outputs ?_
  intro classified _
  apply free_bind_calls
  intro fees _
  apply free_bind_calls
  intro _ _
  apply free_bind_calls
  intro _ _
  exact Nat.le_refl 0

def Psbt.Oversized (psbt : Psbt) : Prop :=
  maxPsbtInsOrOuts < psbt.unsignedTx.input.length ∨
    maxPsbtInsOrOuts < psbt.unsignedTx.output.length

theorem checkV8_oversized {psbt : Psbt} (oversized : psbt.Oversized) (u : Unit) :
    checkV8 psbt ≠ .ok u := by
  intro passed
  have shape := checkV8_eq_ok.mp passed
  rcases oversized with inputs | outputs
  · exact absurd shape.inputLimit (Nat.not_le.mpr inputs)
  · exact absurd shape.outputLimit (Nat.not_le.mpr outputs)

theorem countedVerify_oversized {psbt : Psbt} (oversized : psbt.Oversized) (descriptor : Str)
    (policy : VerifyPolicy) : (countedVerify env psbt descriptor policy).calls = 0 := by
  apply Nat.le_zero.mp
  apply free_bind_calls
  intro receive _
  apply free_bind_calls
  intro change _
  apply free_bind_calls
  intro u passed
  exact absurd passed (checkV8_oversized oversized u)

theorem verify_oversized {psbt : Psbt} (oversized : psbt.Oversized) (descriptor : Str)
    (policy : VerifyPolicy) : ∃ e, verify env psbt descriptor policy = fail e := by
  have returns : Returns (verify env psbt descriptor policy) := by
    refine onlyFails_bind (onlyFails_mapErr (parse_returns descriptor) fun _ _ => trivial) ?_
    intro receive _
    refine onlyFails_bind (onlyFails_mapErr (parseChange_returns _) fun _ _ => trivial) ?_
    intro change _
    refine onlyFails_bind (checkV8_returns psbt) ?_
    intro u passed
    exact absurd passed (checkV8_oversized oversized u)
  have stopped : ∀ verdict, verify env psbt descriptor policy ≠ .ok verdict := by
    intro verdict accepted
    simp only [verifyIn, monadLift_self, bind_eq_ok] at accepted
    obtain ⟨_, _, _, _, u, passed, _⟩ := accepted
    exact checkV8_oversized oversized u passed
  obtain ⟨e, failed, _⟩ := onlyFails_of_not_ok returns stopped
  exact ⟨e, failed⟩

end Calls

end Trinity
