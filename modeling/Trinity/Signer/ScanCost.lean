import Trinity.Signer.Runs
import Trinity.Verify.Cost

/-!
How often `sign_ab` calls `derive_at`. The charge of the spend window scans
every output before the size guard of the verifier has seen the PSBT.
-/
namespace Trinity

open Outcome Counted Word

/-- The result of `sign_ab` with its calls of `derive_at` counted: those of
    `authorize`, and of the verification at each signature step that is reached.
    The signers make none. -/
def countedSignAb (env : Primitives) (signerA signerB : Signer) (psbt : Psbt) (descriptor : Str)
    (policy : VerifyPolicy) (spend : SpendSession) (counter : WindowCounter) :
    Counted SignError Psbt := do
  let _ ← free spend.policy.validate
  let _ ← (counter.live spend.policy spend.observation).state.approveIn Counted env spend.policy
    psbt descriptor policy spend.balance
  let _ ← Counted.mapErr .verify (countedVerify env psbt descriptor policy)
  let afterA ← free (signerA.sign psbt)
  gateBIn Counted env afterA (env.computeTxid psbt.unsignedTx) descriptor policy
  free (signerB.sign afterA)

section Result

variable {env : Primitives}

@[simp] theorem matchesDescriptorIn_result (script : Script) (desc : ParsedDescriptor)
    (gap : UInt32) :
    (matchesDescriptorIn Counted env script desc gap).result =
      matchesDescriptor env script desc gap := by
  simp only [matchesDescriptorIn, marked_mapErr, bind_result, findSomeM?_result, mapErr_result,
    probeIn_result, pure_result, pure_ok, Marked.mapErr_outcome]

@[simp] theorem belongsToWalletIn_result (script : Script) (receive : ParsedDescriptor)
    (change : Option ParsedDescriptor) (gap : UInt32) :
    (belongsToWalletIn Counted env script receive change gap).result =
      belongsToWallet env script receive change gap := by
  unfold belongsToWallet belongsToWalletIn
  rw [bind_result, matchesDescriptorIn_result]
  congr 1
  funext own
  cases own with
  | true => rfl
  | false =>
    cases change with
    | none => rfl
    | some chg => exact matchesDescriptorIn_result script chg gap

theorem approveIn_result (s : CoreState) (policy : SpendPolicy) (psbt : Psbt)
    (descriptor : Str) (verify : VerifyPolicy) (balance : Balance) :
    (s.approveIn Counted env policy psbt descriptor verify balance).result =
      s.approve env policy psbt descriptor verify balance := by
  simp only [CoreState.approveIn, spendChargeIn, chargeOutputsIn, monadLift_eq, foldlM_result,
    bind_result, free_result, belongsToWalletIn_result, pure_result, pure_ok, monadLift_self]

theorem gateBIn_result (psbt : Psbt) (txid : BitVec 256) (descriptor : Str)
    (policy : VerifyPolicy) :
    (gateBIn Counted env psbt txid descriptor policy).result =
      gateB env psbt txid descriptor policy := by
  have verified := @countedVerify_result env psbt descriptor policy
  unfold countedVerify at verified
  simp only [gateBIn, marked_mapErr, monadLift_eq, bind_result, mapErr_result, free_result,
    verified, Marked.mapErr_outcome, monadLift_self]

theorem countedSignAb_result (signerA signerB : Signer) (psbt : Psbt) (descriptor : Str)
    (policy : VerifyPolicy) (spend : SpendSession) (counter : WindowCounter) :
    (countedSignAb env signerA signerB psbt descriptor policy spend counter).result =
      (signAb env signerA signerB psbt descriptor policy spend counter).result := by
  simp only [countedSignAb, bind_result, free_result, mapErr_result, approveIn_result,
    countedVerify_result, gateBIn_result, signAb, WindowCounter.authorize, signA, signB]
  cases spend.policy.validate with
  | error e => rfl
  | ok valid =>
    cases (counter.live spend.policy spend.observation).state.approve env spend.policy psbt
      descriptor policy spend.balance with
    | error e => rfl
    | ok approval =>
      cases Outcome.mapErr SignError.verify (verify env psbt descriptor policy) with
      | error e => rfl
      | ok verdict =>
        cases signerA.sign psbt with
        | error e => rfl
        | ok afterA =>
          simp only [Outcome.bind_ok]
          cases gateB env afterA (env.computeTxid psbt.unsignedTx) descriptor policy with
          | error e => rfl
          | ok u => cases signerB.sign afterA <;> rfl

end Result

section Calls

variable {env : Primitives}

theorem matchesDescriptorIn_pos (script : Script) (desc : ParsedDescriptor) {gap : UInt32}
    (searched : 0 < gap) : 0 < (matchesDescriptorIn Counted env script desc gap).calls := by
  unfold matchesDescriptorIn
  rw [bind_pure_calls]
  cases indices : indicesBelow gap with
  | nil =>
    have member := mem_indicesBelow.mpr searched
    rw [indices] at member
    simp at member
  | cons i rest =>
    have called : (Counted.mapErr .verify (probeIn Counted env script desc i) :
        Counted SignError (Option UInt32)).calls = 1 :=
      probeIn_calls script desc i
    exact Nat.lt_of_lt_of_le (Nat.lt_of_lt_of_eq Nat.zero_lt_one called.symm) (le_bind_calls _ _)

theorem matchesDescriptorIn_idle (script : Script) (desc : ParsedDescriptor) {gap : UInt32}
    (unsearched : ¬ 0 < gap) : (matchesDescriptorIn Counted env script desc gap).calls = 0 := by
  have none_ : indicesBelow gap = [] := by
    apply List.eq_nil_iff_forall_not_mem.mpr
    intro i member
    exact unsearched (Nat.zero_lt_of_lt (mem_indicesBelow.mp member))
  unfold matchesDescriptorIn
  rw [bind_pure_calls, none_]
  rfl

theorem belongsToWalletIn_pos {script : Script} {receive : ParsedDescriptor}
    {change : Option ParsedDescriptor} {gap : UInt32} :
    0 < (belongsToWalletIn Counted env script receive change gap).calls ↔ 0 < gap := by
  unfold belongsToWalletIn
  constructor
  · intro called
    by_contra unsearched
    refine Nat.not_lt_zero 0 (Nat.lt_of_lt_of_le called ?_)
    refine @bind_calls _ _ _ _ _ 0 0
      (Nat.le_of_eq (matchesDescriptorIn_idle script receive unsearched)) ?_
    intro own _
    cases own with
    | true => exact Nat.le_refl 0
    | false =>
      cases change with
      | none => exact Nat.le_refl 0
      | some chg => exact Nat.le_of_eq (matchesDescriptorIn_idle script chg unsearched)
  · intro searched
    exact Nat.lt_of_lt_of_le (matchesDescriptorIn_pos script receive searched)
      (le_bind_calls _ _)

theorem chargeOutputsIn_pos {psbt : Psbt} {receive : ParsedDescriptor}
    {change : Option ParsedDescriptor} {gap : UInt32} :
    0 < (chargeOutputsIn Counted env psbt receive change gap).calls ↔
      psbt.unsignedTx.output ≠ [] ∧ 0 < gap := by
  unfold chargeOutputsIn
  constructor
  · intro called
    constructor
    · intro none_
      rw [none_] at called
      exact Nat.lt_irrefl 0 called
    · by_contra unsearched
      have idle (script : Script) :
          (belongsToWalletIn Counted env script receive change gap).calls = 0 := by
        exact Nat.eq_zero_of_not_pos fun called => unsearched (belongsToWalletIn_pos.mp called)
      refine Nat.not_lt_zero 0 (Nat.lt_of_lt_of_le called ?_)
      refine Nat.le_trans (@foldlM_calls _ _ _ _ _ 0 ?_ _) (Nat.le_refl 0)
      intro txout _ acc
      apply free_bind_calls
      intro sumOut _
      rw [bind_pure_calls, idle]
  · intro ⟨present, searched⟩
    cases outputs : psbt.unsignedTx.output with
    | nil => exact absurd outputs present
    | cons txout rest =>
      rw [List.foldlM_cons]
      refine Nat.lt_of_lt_of_le ?_ (le_bind_calls _ _)
      -- The first amount is added to zero, which never overflows.
      refine free_bind_pos.mpr ⟨txout.value, ?_, ?_⟩
      · rw [okOr_eq_ok, checkedAdd_eq_some]
        simp
      · rw [bind_pure_calls, belongsToWalletIn_pos]
        exact searched

/-- What has to hold for `sign_ab` to reach the scan of the outputs, and for the
    scan to look at something. -/
structure ChargeScans (env : Primitives) (psbt : Psbt) (descriptor : Str) (policy : VerifyPolicy)
    (spend : SpendSession) (counter : WindowCounter) : Prop where
  valid : spend.policy.validate = .ok spend.policy
  unlocked : counter.state.passphraseUsedSinceInstall = true
  parsed : ∃ receive, parse env descriptor = .ok receive
  parsedChange : ∃ change, parseChange env policy.changeDescriptor = .ok change
  shown : ∃ sumIn, chargeInputs psbt = .ok sumIn
  outputs : psbt.unsignedTx.output ≠ []
  indices : 0 < policy.gapLimit

theorem spendChargeIn_pos {psbt : Psbt} {descriptor : Str} {policy : VerifyPolicy} :
    0 < (spendChargeIn Counted env psbt descriptor policy).calls ↔
      (∃ receive, parse env descriptor = .ok receive) ∧
      (∃ change, parseChange env policy.changeDescriptor = .ok change) ∧
      (∃ sumIn, chargeInputs psbt = .ok sumIn) ∧
      psbt.unsignedTx.output ≠ [] ∧ 0 < policy.gapLimit := by
  simp only [spendChargeIn, monadLift_eq, free_bind_pos, mapErr_eq_ok]
  constructor
  · intro reached
    obtain ⟨receive, parsed, change, parsedChange, sumIn, shown, called⟩ := reached
    rw [bind_idle_calls, chargeOutputsIn_pos] at called
    · exact ⟨⟨receive, parsed⟩, ⟨change, parsedChange⟩, ⟨sumIn, shown⟩, called⟩
    · intro sums
      rw [bind_pure_calls, free_calls]
  · intro passed
    obtain ⟨⟨receive, parsed⟩, ⟨change, parsedChange⟩, ⟨sumIn, shown⟩, rest⟩ := passed
    exact ⟨receive, parsed, change, parsedChange, sumIn, shown,
      Nat.lt_of_lt_of_le (chargeOutputsIn_pos.mpr rest) (le_bind_calls _ _)⟩

theorem approveIn_pos {s : CoreState} {policy : SpendPolicy} {psbt : Psbt} {descriptor : Str}
    {verify : VerifyPolicy} {balance : Balance} :
    0 < (s.approveIn Counted env policy psbt descriptor verify balance).calls ↔
      s.passphraseUsedSinceInstall = true ∧
        0 < (spendChargeIn Counted env psbt descriptor verify).calls := by
  simp only [CoreState.approveIn, monadLift_eq]
  rw [free_bind_pos]
  constructor
  · rintro ⟨_, passed, called⟩
    refine ⟨not_not.mp (rejectIf_eq_ok.mp passed),
      Nat.lt_of_lt_of_eq called (bind_idle_calls _ ?_)⟩
    intro charge
    apply Nat.le_zero.mp
    apply free_bind_calls
    intro set _
    apply free_bind_calls
    intro _ _
    apply free_bind_calls
    intro _ _
    exact Nat.le_refl 0
  · rintro ⟨unlocked, called⟩
    exact ⟨(), rejectIf_of_not _ (not_not.mpr unlocked),
      Nat.lt_of_lt_of_le called (le_bind_calls _ _)⟩

end Calls

section Oversized

variable {env : Primitives}

theorem belongsToWallet_returns (script : Script) (receive : ParsedDescriptor)
    (change : Option ParsedDescriptor) (gap : UInt32) :
    Returns (belongsToWallet env script receive change gap) := by
  have searched : ∀ desc, Returns (matchesDescriptor env script desc gap) := by
    intro desc
    refine onlyFails_bind (onlyFails_findSomeM? ?_) fun _ _ => onlyFails_ok _
    intro i _
    exact onlyFails_mapErr (probe_returns script desc i) fun _ _ => trivial
  refine onlyFails_bind (searched receive) ?_
  intro own _
  cases own with
  | true => exact onlyFails_ok _
  | false =>
    cases change with
    | none => exact onlyFails_ok _
    | some chg => exact searched chg

theorem spendCharge_returns (psbt : Psbt) (descriptor : Str) (policy : VerifyPolicy) :
    Returns (spendCharge env psbt descriptor policy) := by
  refine onlyFails_bind (onlyFails_mapErr (parse_returns descriptor) fun _ _ => trivial) ?_
  intro receive _
  refine onlyFails_bind (onlyFails_mapErr (parseChange_returns _) fun _ _ => trivial) ?_
  intro change _
  refine onlyFails_bind (onlyFails_foldlM ?_ 0) ?_
  · intro (input, i) _ acc
    apply onlyFails_okOr_bind trivial
    intro utxo _
    exact onlyFails_okOr trivial
  intro sumIn _
  refine onlyFails_bind (onlyFails_foldlM ?_ (0, 0)) ?_
  · intro txout _ acc
    apply onlyFails_okOr_bind trivial
    intro sumOut _
    exact onlyFails_bind (belongsToWallet_returns _ receive change _) fun _ _ => onlyFails_ok _
  intro sums _
  apply onlyFails_okOr_bind trivial
  intro fee _
  exact onlyFails_ok _

theorem approve_returns (s : CoreState) (policy : SpendPolicy) (psbt : Psbt) (descriptor : Str)
    (verify : VerifyPolicy) (balance : Balance) :
    Returns (s.approve env policy psbt descriptor verify balance) := by
  apply onlyFails_rejectIf_bind trivial
  intro _
  refine onlyFails_bind (spendCharge_returns psbt descriptor verify) ?_
  intro charge _
  have collected : Returns (inputSet psbt) := by
    apply onlyFails_rejectIf_bind trivial
    intro _
    apply onlyFails_rejectIf_bind trivial
    intro _
    exact onlyFails_ok _
  refine onlyFails_bind collected ?_
  intro set _
  apply onlyFails_rejectIf_bind trivial
  intro _
  apply onlyFails_rejectIf_bind trivial
  intro _
  exact onlyFails_ok _

theorem validate_returns (policy : SpendPolicy) : Returns policy.validate := by
  apply onlyFails_rejectIf_bind trivial
  intro _
  apply onlyFails_rejectIf_bind trivial
  intro _
  have fraction : Returns (validateFraction policy.windowFraction) := by
    cases policy.windowFraction with
    | none => exact onlyFails_ok _
    | some f => exact onlyFails_rejectIf trivial
  refine onlyFails_bind fraction ?_
  intro _ _
  apply onlyFails_rejectIf_bind trivial
  intro _
  exact onlyFails_ok _

theorem authorize_returns (counter : WindowCounter) (policy : SpendPolicy) (psbt : Psbt)
    (descriptor : Str) (verify : VerifyPolicy) (balance : Balance) (obs : Observation) :
    Returns (counter.authorize env policy psbt descriptor verify balance obs).1 := by
  unfold WindowCounter.authorize
  obtain ⟨_, valid⟩ | ⟨e, invalid, _⟩ := (validate_returns policy).ok_or_fail
  · rw [valid]
    exact approve_returns _ policy psbt descriptor verify balance
  · rw [invalid]
    trivial

theorem signAb_oversized {psbt : Psbt} (oversized : psbt.Oversized) (signerA signerB : Signer)
    (descriptor : Str) (policy : VerifyPolicy) (spend : SpendSession) (counter : WindowCounter) :
    ∃ e, (signAb env signerA signerB psbt descriptor policy spend counter).result = fail e := by
  obtain ⟨rejection, rejected⟩ := @verify_oversized env psbt oversized descriptor policy
  have stepA : signA env signerA psbt descriptor policy = (fail (.verify rejection), []) := by
    rw [signA, rejected]
    rfl
  have returns := @authorize_returns env counter spend.policy psbt descriptor policy
    spend.balance spend.observation
  unfold signAb
  rw [stepA]
  rcases authorized : counter.authorize env spend.policy psbt descriptor policy spend.balance
    spend.observation with ⟨decision, live⟩
  rw [authorized] at returns
  obtain ⟨approval, granted⟩ | ⟨e, refused, _⟩ := returns.ok_or_fail
  · subst granted
    exact ⟨_, rfl⟩
  · subst refused
    exact ⟨e, rfl⟩

/-- Behind `authorize` the verifier stops the run before its first call. -/
theorem countedSignAb_oversized {psbt : Psbt} (oversized : psbt.Oversized)
    (signerA signerB : Signer) (descriptor : Str) (policy : VerifyPolicy) (spend : SpendSession)
    (counter : WindowCounter) :
    0 < (countedSignAb env signerA signerB psbt descriptor policy spend counter).calls ↔
      ChargeScans env psbt descriptor policy spend counter := by
  obtain ⟨rejection, rejected⟩ := @verify_oversized env psbt oversized descriptor policy
  have stopped :
      (Counted.mapErr SignError.verify (countedVerify env psbt descriptor policy)).result =
        fail (.verify rejection) := by
    rw [mapErr_result, countedVerify_result, rejected]
    rfl
  have flag := live_passphrase counter spend.policy spend.observation
  unfold countedSignAb
  rw [free_bind_pos]
  constructor
  · rintro ⟨q, valid, called⟩
    obtain ⟨same, _⟩ := validate_eq_ok valid
    rw [bind_idle_calls, approveIn_pos, spendChargeIn_pos] at called
    · obtain ⟨unlocked, parsed, parsedChange, shown, outputs, indices⟩ := called
      exact ⟨same ▸ valid, flag.symm.trans unlocked, parsed, parsedChange, shown, outputs, indices⟩
    · intro approval
      rw [bind_error _ stopped, mapErr_calls, countedVerify_oversized oversized]
  · intro scans
    refine ⟨spend.policy, scans.valid, Nat.lt_of_lt_of_le ?_ (le_bind_calls _ _)⟩
    rw [approveIn_pos, spendChargeIn_pos]
    exact ⟨flag.trans scans.unlocked, scans.parsed, scans.parsedChange, scans.shown,
      scans.outputs, scans.indices⟩

end Oversized

/-- An oversized PSBT is rejected, by the verifier without a call of `derive_at`.
    `sign_ab` makes none exactly when it does not reach the scan of the outputs,
    or the scan has nothing to look at. Every verification keeps to the bound. -/
theorem oversized_costs_scan (env : Primitives) (psbt : Psbt) (descriptor : Str)
    (policy : VerifyPolicy) (signerA signerB : Signer) (spend : SpendSession)
    (counter : WindowCounter) :
    (countedVerify env psbt descriptor policy).result = verify env psbt descriptor policy ∧
    (countedSignAb env signerA signerB psbt descriptor policy spend counter).result =
      (signAb env signerA signerB psbt descriptor policy spend counter).result ∧
    (psbt.Oversized →
      (∃ e, verify env psbt descriptor policy = fail e) ∧
      (countedVerify env psbt descriptor policy).calls = 0 ∧
      (∃ e, (signAb env signerA signerB psbt descriptor policy spend counter).result = fail e) ∧
      ((countedSignAb env signerA signerB psbt descriptor policy spend counter).calls = 0 ↔
        ¬ ChargeScans env psbt descriptor policy spend counter)) ∧
    (countedVerify env psbt descriptor policy).calls ≤
      psbt.unsignedTx.input.length * (2 * policy.gapLimit.toNat) +
        psbt.unsignedTx.output.length * (policy.gapLimit.toNat + 1) := by
  refine ⟨countedVerify_result psbt descriptor policy,
    countedSignAb_result signerA signerB psbt descriptor policy spend counter, ?_,
    countedVerify_calls psbt descriptor policy⟩
  intro oversized
  refine ⟨verify_oversized oversized descriptor policy,
    countedVerify_oversized oversized descriptor policy,
    signAb_oversized oversized signerA signerB descriptor policy spend counter, ?_⟩
  rw [← countedSignAb_oversized oversized signerA signerB]
  omega

namespace Sample

def crowded : Psbt :=
  { psbt with
    unsignedTx := { payment with output := List.replicate 101 ⟨500, recipientScript⟩ }
    outputs := List.replicate 101 ⟨.empty, [], []⟩ }

def crowdedSession : SpendSession := ⟨spendPolicy, ⟨1000000, 0⟩, (request 0).observation⟩

theorem crowded_oversized : crowded.Oversized := .inr (by decide)

end Sample

/-- As long as the passphrase flag is unset, the crowded payment costs nothing. -/
theorem oversized_costs_scan_locked :
    Sample.crowded.Oversized ∧
    (countedVerify Sample.env Sample.crowded Sample.receiveDescriptor Sample.policy).calls = 0 ∧
    (countedSignAb Sample.env Sample.signerA Sample.signerB Sample.crowded
      Sample.receiveDescriptor Sample.policy Sample.crowdedSession Sample.installed).calls = 0 := by
  obtain ⟨_, _, costs, _⟩ := oversized_costs_scan Sample.env Sample.crowded Sample.receiveDescriptor
    Sample.policy Sample.signerA Sample.signerB Sample.crowdedSession Sample.installed
  obtain ⟨_, verified, _, scanned⟩ := costs Sample.crowded_oversized
  refine ⟨Sample.crowded_oversized, verified, scanned.mpr ?_⟩
  intro scans
  exact absurd scans.unlocked (by decide)

/-- Once it is set, `sign_ab` derives keys for the crowded payment before it
    rejects it. -/
theorem crowded_payment_scanned :
    Sample.crowded.Oversized ∧
    (countedSignAb Sample.env Sample.signerA Sample.signerB Sample.crowded
      Sample.receiveDescriptor Sample.policy Sample.crowdedSession Sample.unlocked).calls ≠ 0 := by
  refine ⟨Sample.crowded_oversized, ?_⟩
  apply Nat.ne_of_gt
  rw [countedSignAb_oversized Sample.crowded_oversized]
  exact {
    valid := Sample.spendPolicy_valid
    unlocked := rfl
    parsed := ⟨_, Sample.parsed_receive⟩
    parsedChange := ⟨_, parseChange_some.mpr ⟨_, rfl, Sample.parsed_change⟩⟩
    shown := ⟨100000, rfl⟩
    outputs := by decide
    indices := by decide }

end Trinity
