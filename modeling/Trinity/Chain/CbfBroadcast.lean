import Trinity.Lib.Actions
import Trinity.Lib.OrderedMap
import Trinity.Verify.Sample

/-!
`with_synced` of the compact-filter backend: a calling thread that waits up to a
deadline and a worker thread that waits for the filters and then runs one
operation. The caller gives up on the worker but does not stop it. Every order
of their steps is a schedule.
-/
namespace Trinity

inductive ChainError where
  | network (message : String)
  | protocol (message : String)
  | broadcast (message : String)
  | deliveryUnconfirmed
  | unavailable (message : String)
  | other (message : String)
  deriving DecidableEq, Repr

abbrev FeeEstimates : Type := OrderedMap Nat UInt64

def FeeEstimates.fromTargets (targets : List (Nat × UInt64)) : FeeEstimates :=
  targets.foldl (fun m t => m.insert t.1 t.2) OrderedMap.empty

inductive ReadyOp where
  | tip
  | fees
  | broadcast (tx : Transaction)
  deriving DecidableEq

inductive ReadyResult where
  | tip (height : UInt32)
  | fees (estimates : FeeEstimates)
  | broadcast (txid : BitVec 256)
  deriving DecidableEq

abbrev ReadyOutcome : Type := Except ChainError ReadyResult

def ReadyOp.isBroadcast : ReadyOp → Bool
  | .broadcast _ => true
  | _ => false

def mapOperationTimeout (isBroadcast reachedSubmit : Bool) (timeoutSecs : UInt64) : ChainError :=
  if isBroadcast ∧ reachedSubmit then .deliveryUnconfirmed
  else .network s!"cbf operation timed out after {timeoutSecs}s"

inductive Reply where
  | failed (error : String)
  | tip (height : UInt32)
  | minFeerate (satPerVbCeil : UInt64)
  | submitted
  deriving DecidableEq, Repr

/-- The end of `run_ready_op`. A reply of the wrong kind has no successor. -/
def finishReadyOp (env : Primitives) (op : ReadyOp) (reply : Reply) : Option ReadyOutcome :=
  match op, reply with
  | .tip, .tip height => some (.ok (.tip height))
  | .tip, .failed e => some (.error (.unavailable s!"cbf chain tip: {e}"))
  | .fees, .minFeerate rate =>
    let satVb := max rate 1
    some (.ok (.fees (.fromTargets [(1, satVb), (6, satVb)])))
  | .fees, .failed e => some (.error (.unavailable s!"cbf fee filter: {e}"))
  | .broadcast tx, .submitted => some (.ok (.broadcast (env.computeTxid tx)))
  | .broadcast _, .failed e => some (.error (.broadcast s!"cbf broadcast: {e}"))
  | _, _ => none

/-- Where the worker stands: `ready` after the filters, `submitting` between the
    store of the flag and the call, `asked` while a request is pending. -/
inductive Worker where
  | unborn
  | syncing
  | ready
  | submitting
  | asked
  | sending (outcome : ReadyOutcome)
  | ended
  deriving DecidableEq

/-- Where the caller stands: `timedOut` between the deadline and the load of the
    flag, `leaving` before the shutdown request. -/
inductive Caller where
  | starting
  | waiting
  | timedOut
  | leaving (outcome : ReadyOutcome)
  | returned (outcome : ReadyOutcome)
  deriving DecidableEq

structure CbfCall where
  op : ReadyOp
  timeoutSecs : UInt64
  worker : Worker
  caller : Caller
  reachedSubmit : Bool
  channel : Option ReadyOutcome
  shutdown : Bool
  /-- The transactions handed to `submit_package`, first one first. -/
  submissions : List Transaction
  deriving DecidableEq

def CbfCall.start (op : ReadyOp) (timeoutSecs : UInt64) : CbfCall :=
  ⟨op, timeoutSecs, .unborn, .starting, false, none, false, []⟩

inductive CbfAction where
  | spawn
  | spawnFailed (error : String)
  | receive
  | deadline
  | disconnected
  | load
  | shutdown
  | filtersSynced
  | otherEvent
  | nodeStopped
  | store
  | ask
  | reply (reply : Reply)
  | send
  | abort
  deriving DecidableEq

def CbfCall.callerStep (s : CbfCall) : CbfAction → Option CbfCall
  | .spawn =>
    if s.caller = .starting then some { s with caller := .waiting, worker := .syncing } else none
  | .spawnFailed e =>
    if s.caller = .starting then
      some { s with caller := .leaving (.error (.other s!"cbf worker spawn: {e}")) }
    else none
  | .receive =>
    match s.caller, s.channel with
    | .waiting, some outcome => some { s with caller := .leaving outcome }
    | _, _ => none
  | .deadline =>
    if s.caller = .waiting ∧ s.channel = none then some { s with caller := .timedOut } else none
  | .disconnected =>
    if s.caller = .waiting ∧ s.channel = none ∧ s.worker = .ended then
      some { s with caller := .leaving (.error (.network "cbf worker ended without a result")) }
    else none
  | .load =>
    if s.caller = .timedOut then
      some { s with caller := .leaving (.error
        (mapOperationTimeout s.op.isBroadcast s.reachedSubmit s.timeoutSecs)) }
    else none
  | .shutdown =>
    match s.caller with
    | .leaving outcome => some { s with caller := .returned outcome, shutdown := true }
    | _ => none
  | _ => none

/-- The steps of the worker thread. After a shutdown the node may still deliver
    events it has queued. -/
def CbfCall.workerStep (env : Primitives) (s : CbfCall) : CbfAction → Option CbfCall
  | .filtersSynced => if s.worker = .syncing then some { s with worker := .ready } else none
  | .otherEvent => if s.worker = .syncing then some s else none
  | .nodeStopped =>
    if s.worker = .syncing then
      some { s with worker := .sending (.error (.network "cbf node stopped before ready")) }
    else none
  | .store =>
    if s.worker = .ready ∧ s.op.isBroadcast then
      some { s with worker := .submitting, reachedSubmit := true }
    else none
  | .ask =>
    match s.op, s.worker with
    | .broadcast tx, .submitting =>
      some { s with worker := .asked, submissions := s.submissions ++ [tx] }
    | .tip, .ready => some { s with worker := .asked }
    | .fees, .ready => some { s with worker := .asked }
    | _, _ => none
  | .reply reply =>
    if s.worker = .asked then
      (finishReadyOp env s.op reply).map fun outcome => { s with worker := .sending outcome }
    else none
  | .send =>
    match s.worker with
    | .sending outcome => some { s with worker := .ended, channel := some outcome }
    | _ => none
  | .abort =>
    -- The thread ends without a message on the channel.
    if s.worker ≠ .unborn ∧ s.worker ≠ .ended then some { s with worker := .ended } else none
  | _ => none

def CbfCall.step (env : Primitives) (action : CbfAction) (s : CbfCall) : Option CbfCall :=
  match s.callerStep action with
  | some t => some t
  | none => s.workerStep env action

def broadcastResult : ReadyOutcome → Except ChainError (BitVec 256)
  | .ok (.broadcast txid) => .ok txid
  | .ok _ => .error (.other "cbf broadcast: internal result mismatch")
  | .error e => .error e

section Invariant

variable {env : Primitives} {tx : Transaction} {s t : CbfCall}

/-- An outcome the worker of a broadcast can send, and what it has submitted by
    then. -/
inductive SentOutcome (env : Primitives) (tx : Transaction) :
    ReadyOutcome → List Transaction → Prop where
  | stopped (message : String) : SentOutcome env tx (.error (.network message)) []
  | delivered : SentOutcome env tx (.ok (.broadcast (env.computeTxid tx))) [tx]
  | refused (message : String) : SentOutcome env tx (.error (.broadcast message)) [tx]

theorem SentOutcome.reported {outcome : ReadyOutcome} {submissions : List Transaction}
    (sent : SentOutcome env tx outcome submissions) :
    (∀ txid, broadcastResult outcome = .ok txid →
      txid = env.computeTxid tx ∧ submissions = [tx]) ∧
    ∀ message, broadcastResult outcome = .error (.broadcast message) → submissions = [tx] := by
  cases sent with
  | stopped _ => simp [broadcastResult]
  | delivered => simp [broadcastResult, eq_comm]
  | refused _ => simp [broadcastResult]

def WorkerAt (env : Primitives) (tx : Transaction) (s : CbfCall) : Prop :=
  match s.worker with
  | .unborn | .syncing | .ready =>
    s.reachedSubmit = false ∧ s.channel = none ∧ s.submissions = []
  | .submitting => s.reachedSubmit = true ∧ s.channel = none ∧ s.submissions = []
  | .asked => s.reachedSubmit = true ∧ s.channel = none ∧ s.submissions = [tx]
  | .sending outcome => s.channel = none ∧ SentOutcome env tx outcome s.submissions ∧
    (s.submissions ≠ [] → s.reachedSubmit = true)
  | .ended => (∀ outcome, s.channel = some outcome → SentOutcome env tx outcome s.submissions) ∧
    (s.submissions ≠ [] → s.reachedSubmit = true)

/-- The caller's side: an outcome it has is the one on the channel, or an error
    of its own that is no broadcast error. -/
def CallerAt (s : CbfCall) : Prop :=
  match s.caller with
  | .starting => s.worker = .unborn
  | .leaving outcome | .returned outcome => s.channel = some outcome ∨
    ∃ e, outcome = .error e ∧ ∀ message, e ≠ .broadcast message
  | _ => True

structure CbfInvariant (env : Primitives) (tx : Transaction) (s : CbfCall) : Prop where
  op : s.op = .broadcast tx
  worker : WorkerAt env tx s
  caller : CallerAt s

theorem start_invariant (env : Primitives) (tx : Transaction) (timeoutSecs : UInt64) :
    CbfInvariant env tx (.start (.broadcast tx) timeoutSecs) :=
  ⟨rfl, ⟨rfl, rfl, rfl⟩, rfl⟩

theorem mapOperationTimeout_ne (isBroadcast reachedSubmit : Bool) (timeoutSecs : UInt64)
    (message : String) :
    mapOperationTimeout isBroadcast reachedSubmit timeoutSecs ≠ .broadcast message := by
  unfold mapOperationTimeout
  split <;> simp

theorem callerStep_frame {action : CbfAction} (step : s.callerStep action = some t) :
    t.op = s.op ∧ t.reachedSubmit = s.reachedSubmit ∧ t.channel = s.channel ∧
      t.submissions = s.submissions ∧
      (t.worker = s.worker ∨ s.caller = .starting ∧ t.worker = .syncing) := by
  cases action <;> simp only [CbfCall.callerStep, reduceCtorEq] at step
  case spawn =>
    split at step
    · rename_i here
      obtain rfl := Option.some.inj step
      exact ⟨rfl, rfl, rfl, rfl, .inr ⟨here, rfl⟩⟩
    · simp at step
  all_goals
    split at step
    · obtain rfl := Option.some.inj step
      exact ⟨rfl, rfl, rfl, rfl, .inl rfl⟩
    · simp at step

theorem callerStep_caller {action : CbfAction} (before : CallerAt s)
    (step : s.callerStep action = some t) : CallerAt t := by
  cases action <;> simp only [CbfCall.callerStep, reduceCtorEq] at step
  all_goals
    split at step
    · obtain rfl := Option.some.inj step
      simp_all [CallerAt, mapOperationTimeout_ne]
    · simp at step

theorem callerStep_invariant {action : CbfAction} (inv : CbfInvariant env tx s)
    (step : s.callerStep action = some t) : CbfInvariant env tx t := by
  obtain ⟨op, flag, channel, submissions, place⟩ := callerStep_frame step
  refine ⟨op.trans inv.op, ?_, callerStep_caller inv.caller step⟩
  have before := inv.worker
  rcases place with same | ⟨starting, born⟩
  · simp only [WorkerAt, same, flag, channel, submissions] at before ⊢
    exact before
  · have unborn : s.worker = .unborn := by
      have caller := inv.caller
      simpa only [CallerAt, starting] using caller
    simp only [WorkerAt, unborn] at before
    simp only [WorkerAt, born, flag, channel, submissions]
    exact before

theorem ask_broadcast (op : s.op = .broadcast tx) (step : s.workerStep env .ask = some t) :
    s.worker = .submitting ∧
      t = { s with worker := .asked, submissions := s.submissions ++ [tx] } := by
  unfold CbfCall.workerStep at step
  cases place : s.worker <;> simp only [op, place, reduceCtorEq, Option.some.injEq] at step
  rw [← step, ← op]
  exact ⟨rfl, rfl⟩

theorem workerStep_frame {action : CbfAction} (inv : CbfInvariant env tx s)
    (step : s.workerStep env action = some t) :
    t.op = s.op ∧ t.caller = s.caller ∧ s.worker ≠ .unborn ∧
      (t.channel = s.channel ∨ s.channel = none) := by
  have worker := inv.worker
  by_cases request : action = .ask
  · subst request
    obtain ⟨place, rfl⟩ := ask_broadcast inv.op step
    exact ⟨rfl, rfl, by simp [place], .inl rfl⟩
  cases action <;> simp only [CbfCall.workerStep, reduceCtorEq] at step
  case ask => exact absurd rfl request
  case reply reply =>
    split at step
    · obtain ⟨outcome, _, rfl⟩ := Option.map_eq_some_iff.mp step
      simp_all
    · simp at step
  case send =>
    split at step
    · obtain rfl := Option.some.inj step
      simp_all [WorkerAt]
    · simp at step
  all_goals
    split at step
    · obtain rfl := Option.some.inj step
      simp_all
    · simp at step

theorem workerStep_caller {action : CbfAction} (inv : CbfInvariant env tx s)
    (step : s.workerStep env action = some t) : CallerAt t := by
  obtain ⟨_, same, born, channel⟩ := workerStep_frame inv step
  -- The step may fill a channel that was empty; the caller's outcome then is its own error.
  have settled (outcome : ReadyOutcome) (before : s.channel = some outcome ∨
      ∃ e, outcome = .error e ∧ ∀ message, e ≠ .broadcast message) :
      t.channel = some outcome ∨ ∃ e, outcome = .error e ∧ ∀ message, e ≠ .broadcast message := by
    rcases channel with kept | empty
    · rw [kept]
      exact before
    · rw [empty] at before
      exact .inr (before.resolve_left (by simp))
  have before := inv.caller
  unfold CallerAt at before ⊢
  rw [same]
  cases place : s.caller with
  | starting =>
    rw [place] at before
    exact absurd before born
  | waiting => trivial
  | timedOut => trivial
  | leaving outcome =>
    rw [place] at before
    exact settled outcome before
  | returned outcome =>
    rw [place] at before
    exact settled outcome before

theorem finishReadyOp_broadcast {reply : Reply} {outcome : ReadyOutcome}
    (finished : finishReadyOp env (.broadcast tx) reply = some outcome) :
    SentOutcome env tx outcome [tx] := by
  cases reply <;> simp only [finishReadyOp, reduceCtorEq, Option.some.injEq] at finished
  case failed e => exact finished ▸ .refused _
  case submitted => exact finished ▸ .delivered

theorem workerStep_worker {action : CbfAction} (inv : CbfInvariant env tx s)
    (step : s.workerStep env action = some t) : WorkerAt env tx t := by
  have op := inv.op
  have before := inv.worker
  by_cases request : action = .ask
  · subst request
    obtain ⟨place, rfl⟩ := ask_broadcast op step
    simp only [WorkerAt, place] at before
    obtain ⟨flag, channel, submissions⟩ := before
    exact ⟨flag, channel, by rw [submissions]; rfl⟩
  cases action <;> simp only [CbfCall.workerStep, reduceCtorEq] at step
  case ask => exact absurd rfl request
  case reply reply =>
    split at step
    · rename_i asked
      rw [op] at step
      obtain ⟨outcome, finished, rfl⟩ := Option.map_eq_some_iff.mp step
      simp only [WorkerAt, asked] at before
      obtain ⟨flag, channel, submissions⟩ := before
      simp only [WorkerAt, channel, submissions, flag]
      exact ⟨trivial, finishReadyOp_broadcast finished, fun _ => trivial⟩
    · simp at step
  case nodeStopped =>
    split at step
    · rename_i syncing
      obtain rfl := Option.some.inj step
      simp only [WorkerAt, syncing] at before
      obtain ⟨flag, channel, submissions⟩ := before
      simp only [WorkerAt, channel, submissions]
      exact ⟨trivial, .stopped _, by simp⟩
    · simp at step
  case send =>
    split at step
    · rename_i outcome sending
      obtain rfl := Option.some.inj step
      simp only [WorkerAt, sending] at before
      simp only [WorkerAt, Option.some.injEq, forall_eq']
      exact before.2
    · simp at step
  case abort =>
    split at step
    · obtain rfl := Option.some.inj step
      simp only [WorkerAt] at before ⊢
      split at before <;> simp_all
    · simp at step
  all_goals
    split at step
    · obtain rfl := Option.some.inj step
      simp_all [WorkerAt]
    · simp at step

theorem step_invariant {action : CbfAction} (inv : CbfInvariant env tx s)
    (step : CbfCall.step env action s = some t) : CbfInvariant env tx t := by
  unfold CbfCall.step at step
  split at step
  · rename_i moved
    obtain rfl := Option.some.inj step
    exact callerStep_invariant inv moved
  · exact ⟨(workerStep_frame inv step).1.trans inv.op, workerStep_worker inv step,
      workerStep_caller inv step⟩

theorem run_invariant {timeoutSecs : UInt64} {actions : List CbfAction}
    (ran : Actions.run (CbfCall.step env) (.start (.broadcast tx) timeoutSecs) actions = some s) :
    CbfInvariant env tx s :=
  Actions.run_keeps (fun _ _ _ _ inv step => step_invariant inv step)
    (start_invariant env tx timeoutSecs) ran

theorem unsubmitted (inv : CbfInvariant env tx s) (flag : s.reachedSubmit = false) :
    s.submissions = [] := by
  have worker := inv.worker
  unfold WorkerAt at worker
  cases place : s.worker <;> simp_all

theorem step_flag {action : CbfAction} (other : action ≠ .store) (flag : s.reachedSubmit = false)
    (step : CbfCall.step env action s = some t) : t.reachedSubmit = false := by
  unfold CbfCall.step at step
  split at step
  · rename_i moved
    obtain rfl := Option.some.inj step
    rw [(callerStep_frame moved).2.1]
    exact flag
  · cases action <;> simp only [CbfCall.workerStep, reduceCtorEq] at step
    case store => exact absurd rfl other
    case ask =>
      split at step
      case h_4 => simp at step
      all_goals
        obtain rfl := Option.some.inj step
        exact flag
    case reply reply =>
      split at step
      · obtain ⟨_, _, rfl⟩ := Option.map_eq_some_iff.mp step
        exact flag
      · simp at step
    all_goals
      split at step
      · obtain rfl := Option.some.inj step
        exact flag
      · simp at step

def Decided (outcome : ReadyOutcome) (s : CbfCall) : Prop :=
  s.caller = .leaving outcome ∨ s.caller = .returned outcome

theorem step_decided {action : CbfAction} {outcome : ReadyOutcome} (inv : CbfInvariant env tx s)
    (decided : Decided outcome s) (step : CbfCall.step env action s = some t) :
    Decided outcome t := by
  unfold CbfCall.step at step
  split at step
  · rename_i moved
    obtain rfl := Option.some.inj step
    unfold Decided at decided ⊢
    cases action <;> simp only [CbfCall.callerStep, reduceCtorEq] at moved
    all_goals
      split at moved
      · obtain rfl := Option.some.inj moved
        simp_all
      · simp at moved
  · unfold Decided
    rw [(workerStep_frame inv step).2.1]
    exact decided

theorem run_flag {actions : List CbfAction} (unstored : .store ∉ actions)
    (flag : s.reachedSubmit = false) (ran : Actions.run (CbfCall.step env) s actions = some t) :
    t.reachedSubmit = false := by
  apply @Actions.run_keeps _ _ _ (fun v => v.reachedSubmit = false) _ _ _ _ flag ran
  intro action member u v unset step
  exact step_flag (fun store => unstored (store ▸ member)) unset step

theorem run_decided {actions : List CbfAction} {outcome outcome' : ReadyOutcome}
    (inv : CbfInvariant env tx s) (decided : Decided outcome s)
    (ran : Actions.run (CbfCall.step env) s actions = some t)
    (returned : t.caller = .returned outcome') : outcome' = outcome := by
  have kept := @Actions.run_keeps _ _ _ (fun v => CbfInvariant env tx v ∧ Decided outcome v) _ _ _
    (fun _ _ _ _ both step => ⟨step_invariant both.1 step, step_decided both.1 both.2 step⟩)
    ⟨inv, decided⟩ ran
  rcases kept.2 with leaving | there
  · simp [leaving] at returned
  · exact Caller.returned.inj (returned.symm.trans there)

theorem load_decides (step : CbfCall.step env .load s = some t) :
    t.reachedSubmit = s.reachedSubmit ∧ Decided (.error
      (mapOperationTimeout s.op.isBroadcast s.reachedSubmit s.timeoutSecs)) t := by
  simp only [CbfCall.step, CbfCall.callerStep, CbfCall.workerStep] at step
  by_cases late : s.caller = .timedOut
  · simp only [late, if_true, Option.some.injEq] at step
    subst step
    exact ⟨rfl, .inl rfl⟩
  · simp [late] at step

end Invariant

/-- A broadcast that reports success or a broadcast error has handed its
    transaction over exactly once. One that reports a network error at the
    deadline has not handed it over and never will, if the worker does not store
    its flag after the caller has loaded it. -/
theorem broadcast_reports (env : Primitives) (tx : Transaction) (timeoutSecs : UInt64)
    {actions : List CbfAction} {s : CbfCall} {outcome : ReadyOutcome}
    (ran : Actions.run (CbfCall.step env) (.start (.broadcast tx) timeoutSecs) actions = some s)
    (returned : s.caller = .returned outcome) :
    (∀ txid, broadcastResult outcome = .ok txid →
      txid = env.computeTxid tx ∧ s.submissions = [tx]) ∧
    (∀ message, broadcastResult outcome = .error (.broadcast message) → s.submissions = [tx]) ∧
    ∀ before after message, actions = before ++ .load :: after →
      broadcastResult outcome = .error (.network message) → .store ∉ after →
      s.submissions = [] := by
  have inv := run_invariant ran
  have own := inv.caller
  have worker := inv.worker
  -- An outcome on the channel was sent by a worker that has ended since.
  have received : s.channel = some outcome → SentOutcome env tx outcome s.submissions := by
    intro there
    unfold WorkerAt at worker
    cases place : s.worker <;> simp_all
  simp only [CallerAt, returned] at own
  refine ⟨?_, ?_, ?_⟩
  · intro txid reported
    rcases own with there | ⟨e, rfl, _⟩
    · exact (received there).reported.1 txid reported
    · simp [broadcastResult] at reported
  · intro message reported
    rcases own with there | ⟨e, rfl, other⟩
    · exact (received there).reported.2 message reported
    · exact absurd (Except.error.inj reported) (other message)
  · rintro before after message rfl reported unraced
    obtain ⟨u, u', first, loaded, later⟩ := Actions.run_around ran
    have inv' := run_invariant first
    obtain ⟨flag, decided⟩ := load_decides loaded
    have same := run_decided (step_invariant inv' loaded) decided later returned
    -- A network error means that the load has not seen the flag.
    have unset : u.reachedSubmit = false := by
      rw [same, inv'.op] at reported
      cases seen : u.reachedSubmit with
      | false => rfl
      | true => simp [broadcastResult, mapOperationTimeout, ReadyOp.isBroadcast, seen] at reported
    exact unsubmitted inv (run_flag unraced (flag.trans unset) later)

namespace Sample

def quietSchedule : List CbfAction := [.spawn, .deadline, .load, .shutdown, .nodeStopped, .send]

/-- The filters arrive at the deadline: the caller loads the flag before the
    worker stores it. -/
def racedSchedule : List CbfAction :=
  [.spawn, .filtersSynced, .deadline, .load, .store, .ask, .shutdown]

def cbfRun (actions : List CbfAction) : Option CbfCall :=
  Actions.run (CbfCall.step env) (.start (.broadcast payment) 25) actions

end Sample

theorem quiet_unsent : ∃ s, Sample.cbfRun Sample.quietSchedule = some s ∧ s.submissions = [] := by
  refine ⟨_, rfl, ?_⟩
  exact (@broadcast_reports Sample.env Sample.payment 25 Sample.quietSchedule _ _ rfl rfl).2.2
    [.spawn, .deadline] [.shutdown, .nodeStopped, .send] _ rfl rfl (by decide)

/-- The call returns a network error, and the transaction has been handed over
    before it returned. -/
theorem raced_submission : ∃ s message, Sample.cbfRun Sample.racedSchedule = some s ∧
    s.caller = .returned (.error (.network message)) ∧ s.submissions = [Sample.payment] :=
  ⟨_, _, rfl, rfl, rfl⟩

end Trinity
