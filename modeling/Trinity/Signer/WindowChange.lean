import Trinity.Signer.Retention

/-!
A counter under changing policies. Pruning is final and uses the window of the
call at hand, so a row survives the calls whose own window reaches back to it,
and a single call with a shorter window forgets it for all later ones.
-/
namespace Trinity

open Outcome Word SlidingLedger SlidingLedger.Ledger

/-- The window of the call, if it has a valid one, still reaches back to `since`. -/
def WindowOp.Reaches (since : Nat) (c : WindowCounter) : WindowOp → Prop
  | .authorize policy request => policy.validate = .ok policy →
      (c.live policy request.observation).windowElapsed ≤ since + policy.window
  | .commit _ => True
  | .setPassphraseUsed _ => True
  | .signAb policy call => policy.validate = .ok policy →
      (c.live policy call.request.observation).windowElapsed ≤ since + policy.window

def RunReaches (env : Primitives) (since : Nat) : WindowCounter → List WindowOp → Prop
  | _, [] => True
  | c, op :: rest => op.Reaches since c ∧ RunReaches env since (op.apply env c) rest

structure HeldFrom (k : Finset OutPoint) (amount since : Nat) (c : WindowCounter) : Prop where
  past : since ≤ c.windowElapsed
  held : ∃ L, Refines c.state L ∧ L.Holds k amount since

section Held

variable {env : Primitives} {k : Finset OutPoint} {amount since : Nat} {c : WindowCounter}

theorem live_held {policy : SpendPolicy} (valid : policy.validate = .ok policy) {obs : Observation}
    (reaches : (c.live policy obs).windowElapsed ≤ since + policy.window)
    (held : HeldFrom k amount since c) : HeldFrom k amount since (c.live policy obs) := by
  obtain ⟨past, L, ref, row⟩ := held
  have later := live_elapsed ref.toConsistent policy obs
  refine ⟨past.trans later, _, refines_live ref valid obs, ?_⟩
  exact holds_expire row (Nat.sub_le_of_le_add reaches)

theorem commit_held (a : SpendApproval) (held : HeldFrom k amount since c) :
    HeldFrom k amount since (c.commit a) := by
  obtain ⟨past, L, ref, row⟩ := held
  exact ⟨past, _, refines_commit ref a, holds_book row past⟩

theorem authorize_held {policy : SpendPolicy} {request : SpendRequest}
    (reaches : (WindowOp.authorize policy request).Reaches since c)
    (held : HeldFrom k amount since c) :
    HeldFrom k amount since (request.authorize env policy c).2 := by
  unfold SpendRequest.authorize WindowCounter.authorize
  split
  · exact held
  · rename_i q valid
    obtain ⟨same, _⟩ := validate_eq_ok valid
    subst same
    exact live_held valid (reaches valid) held

theorem apply_held {op : WindowOp} (reaches : op.Reaches since c)
    (held : HeldFrom k amount since c) : HeldFrom k amount since (op.apply env c) := by
  cases op with
  | authorize policy request => exact authorize_held reaches held
  | commit a => exact commit_held a held
  | setPassphraseUsed used =>
    obtain ⟨past, L, ref, row⟩ := held
    exact ⟨past, L, refines_passphrase ref used, row⟩
  | signAb policy call =>
    change HeldFrom k amount since (call.run env policy c).counter
    cases result : (call.run env policy c).result with
    | error e =>
      rw [SignCall.run, signAb_error result]
      exact @authorize_held env _ _ _ _ policy call.request reaches held
    | ok signed =>
      obtain ⟨approval, _, _, valid, _, _, _, _, _, booked⟩ := signAb_eq_ok result
      rw [SignCall.run, booked]
      exact commit_held approval (live_held valid (reaches valid) held)

theorem runOps_held {ops : List WindowOp} (reaches : RunReaches env since c ops)
    (held : HeldFrom k amount since c) : HeldFrom k amount since (runOps env c ops) := by
  induction ops generalizing c with
  | nil => exact held
  | cons op rest ih => exact ih reaches.2 (apply_held reaches.1 held)

theorem commit_holds_now {L : Ledger (Finset OutPoint)} (ref : Refines c.state L)
    {a : SpendApproval} (writes : c.state.writes a) :
    HeldFrom a.key a.chargeSat.toNat c.windowElapsed (c.commit a) := by
  have dated : c.state.countsFrom a = c.state.windowElapsedNs := by
    unfold CoreState.writes at writes
    unfold CoreState.countsFrom
    split <;> rename_i found
    · rw [found] at writes
      exact if_pos (of_decide_eq_true writes)
    · rfl
  have held := (commit_holds ref (open_of_writes ((writes_row ref a).mp writes))).2
  rw [dated] at held
  exact ⟨Nat.le_refl _, _, refines_commit ref a, held⟩

end Held

section Wide

variable {env : Primitives}

theorem signAb_elapsed {policy : SpendPolicy} (valid : policy.validate = .ok policy)
    (call : SignCall) (c : WindowCounter) :
    (call.run env policy c).counter.windowElapsed =
      (c.live policy call.request.observation).windowElapsed := by
  cases result : (call.run env policy c).result with
  | error e => rw [SignCall.run, signAb_error result, authorize_of_valid valid]
  | ok signed =>
    obtain ⟨approval, _, _, _, _, _, _, _, _, booked⟩ := signAb_eq_ok result
    rw [SignCall.run, booked]
    rfl

/-- A run whose windows are all at least as long as `window` reaches back to
    whatever is within `window` at its end. -/
theorem wide_windows_reach {c : WindowCounter} {L : Ledger (Finset OutPoint)}
    (ref : Refines c.state L) {since window : Nat} {ops : List WindowOp}
    (wide : ∀ op ∈ ops, op.Within fun p => window ≤ p.window)
    (recent : (runOps env c ops).windowElapsed ≤ since + window) :
    RunReaches env since c ops := by
  induction ops generalizing c L with
  | nil => trivial
  | cons op rest ih =>
    obtain ⟨here, later⟩ := List.forall_mem_cons.mp wide
    obtain ⟨_, L', ref'⟩ := moves_refines (@apply_moves env _ c op (within_any op)) ref
    obtain ⟨passed, _⟩ := @runOps_refines env _ _ ref' rest
    refine ⟨?_, ih ref' later recent⟩
    -- The clock at the end of the run bounds the clock of this call.
    have bound : (op.apply env c).windowElapsed ≤ since + window := passed.trans recent
    cases op with
    | commit a => trivial
    | setPassphraseUsed used => trivial
    | authorize policy request =>
      intro valid
      have same := congrArg WindowCounter.windowElapsed (@runOps_authorize env _ valid request c)
      have longer : window ≤ policy.window := here
      calc (c.live policy request.observation).windowElapsed
        _ = ((WindowOp.authorize policy request).apply env c).windowElapsed := same.symm
        _ ≤ since + window := bound
        _ ≤ since + policy.window := Nat.add_le_add_left longer since
    | signAb policy call =>
      intro valid
      have longer : window ≤ policy.window := here
      calc (c.live policy call.request.observation).windowElapsed
        _ = (call.run env policy c).counter.windowElapsed := (signAb_elapsed valid call c).symm
        _ ≤ since + window := bound
        _ ≤ since + policy.window := Nat.add_le_add_left longer since

end Wide

/-- A row that `commit` opened or raised within the window of the call at hand
    is in the ledger the call examines, if each call in between reached back to
    that time as well; in particular if no window in between was shorter. -/
theorem window_change_keeps (env : Primitives) {c : WindowCounter} (reachable : Reachable env c)
    (a : SpendApproval) (writes : c.state.writes a) (ops : List WindowOp) (policy : SpendPolicy)
    (valid : policy.validate = .ok policy) (obs : Observation)
    (kept : RunReaches env c.windowElapsed (c.commit a) ops ∨
      ∀ op ∈ ops, op.Within fun p => policy.window ≤ p.window)
    (recent : ((runOps env (c.commit a) ops).live policy obs).windowElapsed ≤
      c.windowElapsed + policy.window) :
    ((runOps env (c.commit a) ops).live policy obs).Books a.inputSet a.chargeSat := by
  obtain ⟨L, ref⟩ := reachable_refines reachable
  have start := commit_holds_now ref writes
  have booked := refines_commit ref a
  obtain ⟨M, refM⟩ := (@runOps_refines env (c.commit a) _ booked ops).2
  have reaches : RunReaches env c.windowElapsed (c.commit a) ops := by
    rcases kept with each | wide
    · exact each
    · have passed := live_elapsed refM.toConsistent policy obs
      exact @wide_windows_reach env (c.commit a) _ booked _ _ ops wide (passed.trans recent)
  obtain ⟨_, N, refN, held⟩ := live_held valid recent (runOps_held reaches start)
  exact books_of_holds refN held

namespace Sample

def hourPolicy : SpendPolicy := { spendPolicy with window := 60 * 60 * nsPerSecond }

theorem hourPolicy_valid : hourPolicy.validate = .ok hourPolicy := by decide

def started : WindowCounter := unlocked.live spendPolicy (request 0).observation

theorem started_reachable : Reachable env started := by
  have reached : Reachable env _ :=
    .op unlocked_reachable (.authorize spendPolicy (request 0))
  rwa [show WindowOp.apply env unlocked (.authorize spendPolicy (request 0)) = started from
    runOps_authorize spendPolicy_valid (request 0) unlocked] at reached

theorem started_writes : started.state.writes approval := by
  decide

end Sample

/-- A call with a window of an hour, half an hour after the payment was booked,
    leaves it in the ledger of a later call with a window of a day. -/
theorem window_change_keeps_sample :
    ((runOps Sample.env (Sample.started.commit Sample.approval)
        [.authorize Sample.hourPolicy (Sample.request 30)]).live Sample.spendPolicy
          (Sample.request 180).observation).Books
      Sample.approval.inputSet Sample.approval.chargeSat := by
  apply window_change_keeps Sample.env Sample.started_reachable Sample.approval
    Sample.started_writes _ Sample.spendPolicy Sample.spendPolicy_valid
  · left
    refine ⟨fun _ => ?_, trivial⟩
    decide
  · rw [runOps_authorize Sample.hourPolicy_valid]
    decide

/-- The same call two hours after the booking forgets it: an hour later nothing
    is booked under the window of a day. -/
theorem short_window_forgets :
    Reachable Sample.env Sample.started ∧ Sample.started.state.writes Sample.approval ∧
    Sample.hourPolicy.validate = .ok Sample.hourPolicy ∧
    Sample.spendPolicy.validate = .ok Sample.spendPolicy ∧
    ((runOps Sample.env (Sample.started.commit Sample.approval)
        [.authorize Sample.hourPolicy (Sample.request 120)]).live Sample.spendPolicy
          (Sample.request 180).observation).windowElapsed ≤
      Sample.started.windowElapsed + Sample.spendPolicy.window ∧
    ¬ ((runOps Sample.env (Sample.started.commit Sample.approval)
        [.authorize Sample.hourPolicy (Sample.request 120)]).live Sample.spendPolicy
          (Sample.request 180).observation).Books
      Sample.approval.inputSet Sample.approval.chargeSat := by
  rw [runOps_authorize Sample.hourPolicy_valid]
  exact ⟨Sample.started_reachable, Sample.started_writes, Sample.hourPolicy_valid,
    Sample.spendPolicy_valid, by decide, by decide⟩

end Trinity
