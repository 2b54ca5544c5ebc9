import Trinity.Signer.Runs

/-!
Window time against real time. Readings are placed on a real-time line with
boots; the monotonic clock of a reading counts from the start of its boot. The
boot ids play no part in the bounds: a clock that restarted shows less than the
time that really passed, whether or not the restart is noticed.
-/
namespace Trinity

open Outcome Word

/-- One reading of the clocks and of the chain at a real time, in nanoseconds. -/
structure Reading where
  time : Nat
  boot : Nat
  bootId : Option UInt64
  tipHeight : Option UInt32
  wallUnixNs : Option UInt64

def Reading.observation (start : Nat → Nat) (r : Reading) : Observation :=
  ⟨r.time - start r.boot, r.bootId, r.tipHeight, r.wallUnixNs⟩

def Reading.silent (r : Reading) : Reading := { r with tipHeight := none, wallUnixNs := none }

/-- The second reading is not before the first, and is of the same boot or of
    one that started after it. -/
def Reading.Precedes (start : Nat → Nat) (r r' : Reading) : Prop :=
  r.time ≤ r'.time ∧ (r.boot = r'.boot ∨ r.time ≤ start r'.boot)

structure TimedCall where
  policy : SpendPolicy
  psbt : Psbt
  descriptor : Str
  verify : VerifyPolicy
  balance : Balance
  reading : Reading

def TimedCall.op (start : Nat → Nat) (call : TimedCall) : WindowOp :=
  .authorize call.policy
    ⟨call.psbt, call.descriptor, call.verify, call.balance, call.reading.observation start⟩

def TimedCall.silent (call : TimedCall) : TimedCall := { call with reading := call.reading.silent }

/-- The readings that are looked at: a rejected policy returns before. -/
def observed (calls : List TimedCall) : List Reading :=
  (calls.filter fun call => call.policy.validate = .ok call.policy).map TimedCall.reading

def CoreState.clock (s : CoreState) : CoreState :=
  { s with windowStartElapsedNs := 0, passphraseUsedSinceInstall := false, bookings := [] }

theorem advance_clock (s : CoreState) (obs : Observation) :
    (s.advance obs).clock = s.clock.advance obs := by
  unfold CoreState.advance
  by_cases anchored : s.initialized
  · rw [if_pos anchored, if_pos (show s.clock.initialized = true from anchored)]
    rfl
  · rw [if_neg anchored, if_neg (show ¬ s.clock.initialized = true from anchored)]
    rfl

theorem live_clock (c : WindowCounter) (policy : SpendPolicy) (obs : Observation) :
    (c.live policy obs).state.clock = c.state.clock.advance obs :=
  advance_clock c.state obs

theorem authorize_clock {env : Primitives} (c : WindowCounter) (start : Nat → Nat)
    (call : TimedCall) :
    ((call.op start).apply env c).state.clock =
      if call.policy.validate = .ok call.policy then
        c.state.clock.advance (call.reading.observation start)
      else c.state.clock := by
  simp only [TimedCall.op, WindowOp.apply, SpendRequest.authorize, WindowCounter.authorize]
  cases checked : call.policy.validate with
  | error e => simp
  | ok q =>
    obtain ⟨same, _⟩ := validate_eq_ok checked
    rw [if_pos (by rw [same])]
    exact live_clock c call.policy _

theorem run_clock {env : Primitives} (start : Nat → Nat) (calls : List TimedCall)
    (c : WindowCounter) :
    (runOps env c (calls.map (TimedCall.op start))).state.clock =
      ((observed calls).map (Reading.observation start)).foldl CoreState.advance
        c.state.clock := by
  induction calls generalizing c with
  | nil => rfl
  | cons call rest ih =>
    have step := @authorize_clock env c start call
    have later := ih ((call.op start).apply env c)
    unfold runOps observed at later ⊢
    rw [List.map_cons, List.foldl_cons, later, step, List.filter_cons]
    by_cases valid : call.policy.validate = .ok call.policy <;> simp [valid]

theorem applyWallVeto_cases (sources : Nat) (mono : Option Nat) (prevWall nowWall : Option UInt64) :
    applyWallVeto sources mono prevWall nowWall = sources ∨
      applyWallVeto sources mono prevWall nowWall = 0 := by
  unfold applyWallVeto
  split
  · exact .inl rfl
  · split
    · split
      · exact .inr rfl
      · split
        · exact .inr rfl
        · exact .inl rfl
    · exact .inl rfl

theorem applyWallVeto_silent (sources : Nat) (mono : Option Nat) (prevWall : Option UInt64) :
    applyWallVeto sources mono prevWall none = sources := by
  unfold applyWallVeto
  cases mono <;> cases prevWall <;> rfl

theorem stepElapsed_le_sources (prev : CoreState) (now : UInt64) (boot : Option UInt64)
    (height : Option UInt32) (wall : Option UInt64) :
    stepElapsed prev now boot height wall ≤
      fromSources (monoStep prev now boot) (blockStep prev.blockHeightAtAnchor height) := by
  rcases applyWallVeto_cases
    (fromSources (monoStep prev now boot) (blockStep prev.blockHeightAtAnchor height))
    (monoStep prev now boot) prev.wallUnixNsAtAnchor wall with kept | stopped
  · exact kept.le
  · exact stopped.le.trans (Nat.zero_le _)

theorem fromSources_le_mono (mono blocks : Option Nat) : fromSources mono blocks ≤ mono.getD 0 := by
  unfold fromSources
  cases mono <;> cases blocks <;> simp

theorem fromSources_le_blocks (mono : Option Nat) (blocks : Nat) :
    fromSources mono (some blocks) ≤ blocks := by
  unfold fromSources
  cases mono <;> simp

theorem monoStep_le (prev : CoreState) (now : UInt64) (boot : Option UInt64) :
    (monoStep prev now boot).getD 0 ≤ now.toNat - prev.monotonicNsAtAnchor.toNat := by
  unfold monoStep
  split
  · rename_i trusted
    rw [Option.getD_some, UInt64.toNat_sub_of_le _ _ (UInt64.not_lt.mp trusted.2)]
  · exact Nat.zero_le _

theorem monoStep_congr {s q : CoreState} (mono : s.monotonicNsAtAnchor = q.monotonicNsAtAnchor)
    (boot : s.bootIdAtAnchor = q.bootIdAtAnchor) (now : UInt64) (nowBoot : Option UInt64) :
    monoStep s now nowBoot = monoStep q now nowBoot := by
  unfold monoStep sameBoot
  rw [mono, boot]

theorem blockStep_le (before now : UInt32) :
    ∃ step, blockStep (some before) (some now) = some step ∧
      step ≤ 600 * nsPerSecond * (now.toNat - before.toNat) := by
  unfold blockStep
  by_cases grown : before ≤ now
  · refine ⟨_, if_pos grown, ?_⟩
    rw [satMul_toNat, UInt32.toNat_toUInt64, UInt32.toNat_sub_of_le _ _ grown]
    have rate : secondsPerBlock.toNat = 600 := rfl
    rw [rate, Nat.mul_right_comm, Nat.mul_comm 600]
    exact Nat.mul_le_mul_right _ (Nat.min_le_left _ _)
  · exact ⟨0, if_neg grown, Nat.zero_le _⟩

theorem durationAsNs_min (d : Nat) : (durationAsNs d).toNat = min d (UInt64.size - 1) := by
  by_cases small : d < UInt64.size
  · rw [durationAsNs_toNat small]
    omega
  · rw [durationAsNs, if_neg small, maxWord_toNat]
    omega

theorem advance_anchored {s : CoreState} (anchored : s.initialized = true) (obs : Observation) :
    (s.advance obs).windowElapsedNs.toNat =
      min (s.windowElapsedNs.toNat +
          stepElapsed s (durationAsNs obs.now) obs.bootId obs.tipHeight obs.wallUnixNs)
        (UInt64.size - 1) := by
  unfold CoreState.advance
  rw [if_pos anchored]
  simp only [satAdd_toNat, durationAsNs_min]
  omega

theorem advance_mono (s : CoreState) (obs : Observation) :
    (s.advance obs).monotonicNsAtAnchor = durationAsNs obs.now := by
  unfold CoreState.advance
  split <;> rfl

section Bounds

variable (start : Nat → Nat)

structure AnchoredAt (s : CoreState) (r : Reading) : Prop where
  initialized : s.initialized = true
  mono : s.monotonicNsAtAnchor = durationAsNs (r.time - start r.boot)

def observeAll (s : CoreState) (rs : List Reading) : CoreState :=
  (rs.map (Reading.observation start)).foldl CoreState.advance s

variable {start}

theorem anchoredAt_advance (s : CoreState) (r : Reading) :
    AnchoredAt start (s.advance (r.observation start)) r :=
  ⟨advance_initialized s _, advance_mono s _⟩

/-- One step passes at most the real time since the reading before. A restarted
    clock counts from a later start, so its difference is smaller still. -/
theorem advance_real_time {s : CoreState} {last r : Reading} (anchored : AnchoredAt start s last)
    (order : last.Precedes start r) :
    (s.advance (r.observation start)).windowElapsedNs.toNat + last.time ≤
      s.windowElapsedNs.toNat + r.time := by
  have step := (stepElapsed_le_sources s (durationAsNs (r.observation start).now) r.bootId
    r.tipHeight r.wallUnixNs).trans ((fromSources_le_mono _ _).trans (monoStep_le _ _ _))
  rw [anchored.mono, durationAsNs_min, durationAsNs_min] at step
  have elapsed := advance_anchored anchored.initialized (r.observation start)
  obtain ⟨later, boots⟩ := order
  simp only [Reading.observation] at step elapsed ⊢
  rcases boots with same | restarted
  · rw [same] at step
    omega
  · omega

theorem observeAll_real_time {first : Nat} {rs : List Reading} {s : CoreState} {last : Reading}
    (anchored : AnchoredAt start s last) (order : (last :: rs).Pairwise (Reading.Precedes start))
    (bound : s.windowElapsedNs.toNat + first ≤ last.time) :
    (observeAll start s rs).windowElapsedNs.toNat + first ≤ (rs.getLastD last).time := by
  induction rs generalizing s last with
  | nil => exact bound
  | cons r rest ih =>
    obtain ⟨next, later⟩ := List.pairwise_cons.mp order
    have step := advance_real_time anchored (next r List.mem_cons_self)
    rw [List.getLastD_cons]
    apply ih (anchoredAt_advance s r) later
    omega

theorem advance_heights {s : CoreState} {r : Reading} {before now : UInt32}
    (initialized : s.initialized = true) (anchor : s.blockHeightAtAnchor = some before)
    (reported : r.tipHeight = some now) :
    (s.advance (r.observation start)).windowElapsedNs.toNat ≤
        s.windowElapsedNs.toNat + 600 * nsPerSecond * (now.toNat - before.toNat) ∧
      (s.advance (r.observation start)).blockHeightAtAnchor = some now := by
  obtain ⟨blocks, counted, bound⟩ := blockStep_le before now
  have step := stepElapsed_le_sources s (durationAsNs (r.observation start).now) r.bootId
    r.tipHeight r.wallUnixNs
  rw [anchor, reported, counted] at step
  have braked := step.trans (fromSources_le_blocks _ _)
  have elapsed := advance_anchored initialized (r.observation start)
  constructor
  · simp only [Reading.observation, reported] at elapsed braked ⊢
    omega
  · simp [CoreState.advance, initialized, Reading.observation, reported, newer]

theorem observeAll_heights {first : UInt32} {rs : List Reading} {heights : List UInt32}
    {s : CoreState} {last : UInt32} (initialized : s.initialized = true)
    (anchor : s.blockHeightAtAnchor = some last)
    (reported : rs.map Reading.tipHeight = heights.map some)
    (grows : (last :: heights).Pairwise (· ≤ ·)) (started : first ≤ last)
    (bound : s.windowElapsedNs.toNat ≤ 600 * nsPerSecond * (last.toNat - first.toNat)) :
    (observeAll start s rs).windowElapsedNs.toNat ≤
      600 * nsPerSecond * ((heights.getLastD last).toNat - first.toNat) := by
  induction rs generalizing s last heights with
  | nil =>
    cases heights with
    | nil => exact bound
    | cons h hs => simp at reported
  | cons r rest ih =>
    cases heights with
    | nil => simp at reported
    | cons h hs =>
      obtain ⟨here, later⟩ := List.cons.inj reported
      obtain ⟨next, grows'⟩ := List.pairwise_cons.mp grows
      have grown := next h List.mem_cons_self
      obtain ⟨step, anchor'⟩ := @advance_heights start s r last h initialized anchor here
      rw [List.getLastD_cons]
      apply ih (advance_initialized s _) anchor' later grows' (UInt32.le_trans started grown)
      rw [UInt32.le_iff_toNat_le] at started grown
      have split : h.toNat - first.toNat = (last.toNat - first.toNat) + (h.toNat - last.toNat) := by
        omega
      rw [split, Nat.mul_add]
      omega

/-- The second counter has seen the same clock with no heights and no wall
    times, and is not behind the first. -/
structure Behind (s q : CoreState) : Prop where
  initialized : s.initialized = q.initialized
  mono : s.monotonicNsAtAnchor = q.monotonicNsAtAnchor
  boot : s.bootIdAtAnchor = q.bootIdAtAnchor
  heightless : q.blockHeightAtAnchor = none
  wallless : q.wallUnixNsAtAnchor = none
  elapsed : s.windowElapsedNs ≤ q.windowElapsedNs

theorem stepElapsed_silent {q : CoreState} (now : UInt64) (boot : Option UInt64)
    (heightless : q.blockHeightAtAnchor = none) :
    stepElapsed q now boot none none = (monoStep q now boot).getD 0 := by
  unfold stepElapsed
  simp only [applyWallVeto_silent, heightless, blockStep, fromSources]
  cases monoStep q now boot <;> rfl

theorem behind_advance {s q : CoreState} (behind : Behind s q) (r : Reading) :
    Behind (s.advance (r.observation start)) (q.advance (r.silent.observation start)) := by
  by_cases anchored : s.initialized = true
  · have anchored' : q.initialized = true := behind.initialized ▸ anchored
    have step := (stepElapsed_le_sources s (durationAsNs (r.observation start).now) r.bootId
      r.tipHeight r.wallUnixNs).trans (fromSources_le_mono _ _)
    rw [monoStep_congr behind.mono behind.boot, ← stepElapsed_silent _ _ behind.heightless] at step
    have ahead := UInt64.le_iff_toNat_le.mp behind.elapsed
    have elapsed := advance_anchored anchored (r.observation start)
    have elapsed' := advance_anchored anchored' (r.silent.observation start)
    have slower : (s.advance (r.observation start)).windowElapsedNs ≤
        (q.advance (r.silent.observation start)).windowElapsedNs := by
      rw [UInt64.le_iff_toNat_le, elapsed, elapsed']
      simp only [Reading.observation, Reading.silent] at step ⊢
      omega
    unfold CoreState.advance at slower ⊢
    rw [if_pos anchored, if_pos anchored'] at slower ⊢
    exact ⟨behind.initialized, rfl, congrArg (newer r.bootId) behind.boot, behind.heightless,
      behind.wallless, slower⟩
  · have fresh : ¬ q.initialized = true := behind.initialized ▸ anchored
    unfold CoreState.advance
    rw [if_neg anchored, if_neg fresh]
    exact ⟨rfl, rfl, rfl, rfl, rfl, UInt64.le_refl _⟩

theorem behind_observeAll {rs : List Reading} {s q : CoreState} (behind : Behind s q) :
    Behind (observeAll start s rs) (observeAll start q (rs.map Reading.silent)) := by
  induction rs generalizing s q with
  | nil => exact behind
  | cons r rest ih => exact ih (behind_advance behind r)

end Bounds

theorem observed_silent (calls : List TimedCall) :
    observed (calls.map TimedCall.silent) = (observed calls).map Reading.silent := by
  unfold observed
  rw [List.filter_map, List.map_map, List.map_map]
  rfl

theorem run_elapsed {env : Primitives} (start : Nat → Nat) (calls : List TimedCall)
    {kek : Str} {c : WindowCounter} (fresh : WindowCounter.new kek = .ok c) :
    (runOps env c (calls.map (TimedCall.op start))).windowElapsed =
      (observeAll start .empty (observed calls)).windowElapsedNs.toNat := by
  have clock := @run_clock env start calls c
  rw [new_state fresh] at clock
  exact congrArg (fun s => s.windowElapsedNs.toNat) clock

/-- Over any sequence of `authorize` calls on a fresh counter, across reboots
    and whatever boot ids, heights and wall times are reported, window time
    never decreases, is at most the real time since the first observation and at
    most what it is with no heights and no wall times. With a height in every
    reading, and heights that never decrease, it is at most 600 seconds for each
    unit of growth. -/
theorem window_time_bounded (env : Primitives) (start : Nat → Nat) {kek : Str} {c : WindowCounter}
    (fresh : WindowCounter.new kek = .ok c) (calls : List TimedCall)
    (order : (calls.map TimedCall.reading).Pairwise (Reading.Precedes start)) :
    (∀ earlier later, calls = earlier ++ later →
      (runOps env c (earlier.map (TimedCall.op start))).windowElapsed ≤
        (runOps env c (calls.map (TimedCall.op start))).windowElapsed) ∧
    (∀ first rest, observed calls = first :: rest →
      (runOps env c (calls.map (TimedCall.op start))).windowElapsed ≤
        (rest.getLastD first).time - first.time) ∧
    (runOps env c (calls.map (TimedCall.op start))).windowElapsed ≤
      (runOps env c (calls.map (TimedCall.op start ∘ TimedCall.silent))).windowElapsed ∧
    (∀ first rest (height : UInt32) (heights : List UInt32), observed calls = first :: rest →
      (first :: rest).map Reading.tipHeight = (height :: heights).map some →
      (height :: heights).Pairwise (· ≤ ·) →
      (runOps env c (calls.map (TimedCall.op start))).windowElapsed ≤
        600 * nsPerSecond * ((heights.getLastD height).toNat - height.toNat)) := by
  refine ⟨?_, ?_, ?_, ?_⟩
  · intro earlier later split
    obtain ⟨_, L, ref⟩ := @runOps_refines env _ _ (new_refines fresh)
      (earlier.map (TimedCall.op start))
    have later_le := (@runOps_refines env _ _ ref (later.map (TimedCall.op start))).1
    rw [split, List.map_append, runOps_append]
    exact later_le
  · intro first rest seen
    have kept : (first :: rest).Pairwise (Reading.Precedes start) :=
      seen ▸ order.sublist (List.filter_sublist.map _)
    rw [run_elapsed start calls fresh, seen]
    have bound := observeAll_real_time (anchoredAt_advance CoreState.empty first) kept
      (Nat.le_of_eq (Nat.zero_add first.time))
    exact Nat.le_sub_of_add_le bound
  · rw [run_elapsed start calls fresh, ← List.map_map, run_elapsed start _ fresh, observed_silent]
    exact UInt64.le_iff_toNat_le.mp
      (behind_observeAll ⟨rfl, rfl, rfl, rfl, rfl, UInt64.le_refl _⟩).elapsed
  · intro first rest height heights seen reported grows
    obtain ⟨here, later⟩ := List.cons.inj reported
    rw [run_elapsed start calls fresh, seen]
    apply observeAll_heights (s := CoreState.empty.advance (first.observation start))
      (advance_initialized _ _) here later grows (UInt32.le_refl _)
    simp [CoreState.advance, CoreState.empty]

namespace Sample

def bootStart (boot : Nat) : Nat := boot * 100 * nsPerSecond

def timedCall (seconds boot : Nat) (bootId : Option UInt64) (height : UInt32) : TimedCall :=
  ⟨spendPolicy, psbt, receiveDescriptor, policy, ⟨1000000, 0⟩,
    ⟨seconds * nsPerSecond, boot, bootId, some height, none⟩⟩

def timedCalls : List TimedCall :=
  [timedCall 10 0 (some 1) 800000, timedCall 50 0 none 800001, timedCall 170 1 (some 2) 800001]

end Sample

/-- The 40 seconds before the reboot count, the restarted clock does not. -/
theorem window_time_bounded_sample :
    (runOps Sample.env Sample.installed
      (Sample.timedCalls.map (TimedCall.op Sample.bootStart))).windowElapsed = 40 * nsPerSecond ∧
    (runOps Sample.env Sample.installed
      (Sample.timedCalls.map (TimedCall.op Sample.bootStart))).windowElapsed ≤
        160 * nsPerSecond ∧
    (runOps Sample.env Sample.installed
      (Sample.timedCalls.map (TimedCall.op Sample.bootStart))).windowElapsed ≤
        600 * nsPerSecond * 1 := by
  have order : (Sample.timedCalls.map TimedCall.reading).Pairwise
      (Reading.Precedes Sample.bootStart) := by
    simp [Sample.timedCalls, Sample.timedCall, Reading.Precedes, Sample.bootStart, nsPerSecond]
  have bounds := window_time_bounded Sample.env Sample.bootStart Sample.installed_new
    Sample.timedCalls order
  refine ⟨by decide, ?_, ?_⟩
  · exact bounds.2.1 _ _ rfl
  · exact bounds.2.2.2 _ _ 800000 [800001, 800001] rfl rfl (by decide)

end Trinity
