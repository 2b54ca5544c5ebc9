import Trinity.Signer.WindowTime

/-!
The wall clock as a veto. Two runs of the same operations, one with wall
readings and one without, are compared row by row. A vetoed step keeps old rows
alive longer, and a later `commit` that does not raise such a row leaves its
date: the row then expires before the one the other run opened. As long as
every commit that writes in the run without wall readings also writes in the
run with them, the wall readings never lower the booked sum.
-/
namespace Trinity

open Outcome Word SlidingLedger SlidingLedger.Ledger

/-- Operations under one policy; nothing is authorised before the passphrase
    was used. -/
inductive SpendOp where
  | authorize (request : SpendRequest)
  | commit (approval : SpendApproval)
  | passphrase (used : Bool)

def SpendOp.op (policy : SpendPolicy) : SpendOp → WindowOp
  | .authorize request => .authorize policy request
  | .commit approval => .commit approval
  | .passphrase used => .setPassphraseUsed used

def Observation.withoutWall (obs : Observation) : Observation := { obs with wallUnixNs := none }

def SpendOp.withoutWall : SpendOp → SpendOp
  | .authorize request =>
    .authorize { request with observation := request.observation.withoutWall }
  | .commit approval => .commit approval
  | .passphrase used => .passphrase used

def CoreState.current (s : CoreState) (a : SpendApproval) : Bool :=
  s.bookings.any fun b => sameInputs b.inputs a.inputSet && a.chargeSat ≤ b.amountSat &&
    s.windowElapsedNs ≤ b.elapsedAtNs

section Veto

variable (env : Primitives) (policy : SpendPolicy)

def SpendOp.apply (c : WindowCounter) (op : SpendOp) : WindowCounter := (op.op policy).apply env c

def runSpendOps (c : WindowCounter) (ops : List SpendOp) : WindowCounter :=
  ops.foldl (SpendOp.apply env policy) c

/-- One step of both runs: a commit that writes in the run without wall
    readings also writes in the other one, or finds its row current there; the
    clock of the run without wall readings is not at its last value. -/
def StepAligned (c d : WindowCounter) : SpendOp → Prop
  | .authorize request =>
    ((SpendOp.authorize request).withoutWall.apply env policy d).state.windowElapsedNs < maxWord
  | .commit a => d.state.writes a → c.state.writes a ∨ c.state.current a
  | .passphrase _ => True

def Aligned : WindowCounter → WindowCounter → List SpendOp → Prop
  | _, _, [] => True
  | c, d, op :: rest =>
    StepAligned env policy c d op ∧
      Aligned (op.apply env policy c) (op.withoutWall.apply env policy d) rest

instance (c d : WindowCounter) (op : SpendOp) : Decidable (StepAligned env policy c d op) :=
  match op with
  | .authorize _ => inferInstanceAs (Decidable (_ < _))
  | .commit _ => inferInstanceAs (Decidable (_ → _))
  | .passphrase _ => inferInstanceAs (Decidable True)

instance decidableAligned :
    ∀ (c d : WindowCounter) (ops : List SpendOp), Decidable (Aligned env policy c d ops)
  | _, _, [] => inferInstanceAs (Decidable True)
  | c, d, op :: rest =>
    have := decidableAligned (op.apply env policy c) (op.withoutWall.apply env policy d) rest
    inferInstanceAs (Decidable (_ ∧ _))

variable {env} {policy}

theorem current_row {s : CoreState} {L : Ledger (Finset OutPoint)} (ref : Refines s L)
    {a : SpendApproval} (current : s.current a) :
    L.Holds a.key a.chargeSat.toNat s.windowElapsedNs.toNat := by
  simp only [CoreState.current, List.any_eq_true, Bool.and_eq_true, decide_eq_true_iff] at current
  obtain ⟨b, member, ⟨same, enough⟩, now⟩ := current
  refine ⟨b.row, by rw [ref.rows]; exact List.mem_map_of_mem member, ?_, ?_, ?_⟩
  · exact (sameInputs_iff (ref.sorted b member) a.inputSet).mp same
  · exact UInt64.le_iff_toNat_le.mp enough
  · exact UInt64.le_iff_toNat_le.mp now

structure SameSources (s q : CoreState) : Prop where
  initialized : s.initialized = q.initialized
  mono : s.monotonicNsAtAnchor = q.monotonicNsAtAnchor
  boot : s.bootIdAtAnchor = q.bootIdAtAnchor
  height : s.blockHeightAtAnchor = q.blockHeightAtAnchor

theorem sameSources_advance {s q : CoreState} (same : SameSources s q) (obs : Observation) :
    SameSources (s.advance obs) (q.advance obs.withoutWall) := by
  by_cases anchored : s.initialized = true
  · have anchored' : q.initialized = true := same.initialized ▸ anchored
    unfold CoreState.advance
    rw [if_pos anchored, if_pos anchored']
    exact ⟨same.initialized, rfl, congrArg (newer obs.bootId) same.boot,
      congrArg (newer obs.tipHeight) same.height⟩
  · have fresh : ¬ q.initialized = true := same.initialized ▸ anchored
    unfold CoreState.advance
    rw [if_neg anchored, if_neg fresh]
    exact ⟨rfl, rfl, rfl, rfl⟩

theorem stepElapsed_veto {s q : CoreState} (same : SameSources s q) (now : UInt64)
    (boot : Option UInt64) (height : Option UInt32) (wall : Option UInt64) :
    stepElapsed s now boot height wall ≤ stepElapsed q now boot height none := by
  have sources := monoStep_congr same.mono same.boot now boot
  have whole : stepElapsed q now boot height none =
      fromSources (monoStep q now boot) (blockStep q.blockHeightAtAnchor height) :=
    applyWallVeto_silent _ _ _
  rw [whole, ← sources, ← same.height]
  exact stepElapsed_le_sources s now boot height wall

theorem advance_gains {s q : CoreState} (same : SameSources s q) (ok : Consistent s)
    (ok' : Consistent q) (obs : Observation)
    (below : (q.advance obs.withoutWall).windowElapsedNs < maxWord) :
    ∃ gain gain', (s.advance obs).windowElapsedNs.toNat = s.windowElapsedNs.toNat + gain ∧
      (q.advance obs.withoutWall).windowElapsedNs.toNat = q.windowElapsedNs.toNat + gain' ∧
      gain ≤ gain' := by
  have forward := UInt64.le_iff_toNat_le.mp (advance_elapsed ok obs)
  by_cases anchored : s.initialized = true
  · have anchored' : q.initialized = true := same.initialized ▸ anchored
    have step := advance_anchored anchored obs
    have step' := advance_anchored anchored' obs.withoutWall
    have slower := stepElapsed_veto same (durationAsNs obs.now) obs.bootId obs.tipHeight
      obs.wallUnixNs
    rw [UInt64.lt_iff_toNat_lt, maxWord_toNat] at below
    simp only [Observation.withoutWall] at step' below ⊢
    refine ⟨_, stepElapsed q (durationAsNs obs.now) obs.bootId obs.tipHeight none,
      (Nat.add_sub_of_le forward).symm, ?_, ?_⟩
    · omega
    · omega
  · have fresh : ¬ q.initialized = true := same.initialized ▸ anchored
    refine ⟨0, 0, ?_, ?_, le_rfl⟩
    · rw [ok.started (by simpa using anchored)]
      simp [CoreState.advance, anchored]
    · rw [ok'.started (by simpa using fresh)]
      simp [CoreState.advance, fresh]

structure Ahead (c d : WindowCounter) : Prop where
  sources : SameSources c.state d.state
  covers : ∃ L M, Refines c.state L ∧ Refines d.state M ∧
    Covers c.windowElapsed d.windowElapsed L M

theorem ahead_booked {c d : WindowCounter} (ahead : Ahead c d) : d.bookedSat ≤ c.bookedSat := by
  obtain ⟨_, L, M, ref, ref', covers⟩ := ahead
  have less := total_le_of_covers covers
  have booked := bookedSat_toNat ref
  have booked' := bookedSat_toNat ref'
  rw [UInt64.le_iff_toNat_le]
  unfold WindowCounter.bookedSat
  omega

theorem ahead_live {c d : WindowCounter} (ahead : Ahead c d)
    (valid : policy.validate = .ok policy) (obs : Observation)
    (below : (d.live policy obs.withoutWall).state.windowElapsedNs < maxWord) :
    Ahead (c.live policy obs) (d.live policy obs.withoutWall) := by
  obtain ⟨same, L, M, ref, ref', covers⟩ := ahead
  obtain ⟨gain, gain', step, step', slower⟩ :=
    advance_gains same ref.toConsistent ref'.toConsistent obs below
  refine ⟨?_, _, _, refines_live ref valid obs, refines_live ref' valid obs.withoutWall, ?_⟩
  · have moved := sameSources_advance same obs
    exact ⟨moved.initialized, moved.mono, moved.boot, moved.height⟩
  · apply covers_expire
    have passed := covers_pass covers slower
    have now : (c.live policy obs).windowElapsed = c.windowElapsed + gain := step
    have now' : (d.live policy obs.withoutWall).windowElapsed = d.windowElapsed + gain' := step'
    rw [now, now']
    exact passed

theorem ahead_commit {c d : WindowCounter} (ahead : Ahead c d) {a : SpendApproval}
    (aligned : d.state.writes a → c.state.writes a ∨ c.state.current a) :
    Ahead (c.commit a) (d.commit a) := by
  obtain ⟨same, L, M, ref, ref', covers⟩ := ahead
  refine ⟨⟨same.initialized, same.mono, same.boot, same.height⟩, _, _, refines_commit ref a,
    refines_commit ref' a, ?_⟩
  apply covers_book covers
  intro written
  rcases aligned ((writes_row ref' a).mpr written) with writes | current
  · exact .inl ((writes_row ref a).mp writes)
  · exact .inr (current_row ref current)

theorem ahead_passphrase {c d : WindowCounter} (ahead : Ahead c d) (used : Bool) :
    Ahead (c.setPassphraseUsedSinceInstall used) (d.setPassphraseUsedSinceInstall used) := by
  obtain ⟨same, L, M, ref, ref', covers⟩ := ahead
  exact ⟨⟨same.initialized, same.mono, same.boot, same.height⟩, L, M,
    refines_passphrase ref used, refines_passphrase ref' used, covers⟩

theorem apply_authorize (valid : policy.validate = .ok policy) (c : WindowCounter)
    (request : SpendRequest) :
    (SpendOp.authorize request).apply env policy c = c.live policy request.observation :=
  runOps_authorize valid request c

theorem ahead_apply {c d : WindowCounter} (ahead : Ahead c d)
    (valid : policy.validate = .ok policy) {op : SpendOp}
    (aligned : StepAligned env policy c d op) :
    Ahead (op.apply env policy c) (op.withoutWall.apply env policy d) := by
  cases op with
  | authorize request =>
    simp only [StepAligned, SpendOp.withoutWall, apply_authorize valid] at aligned ⊢
    exact ahead_live ahead valid request.observation aligned
  | commit a => exact ahead_commit ahead aligned
  | passphrase used => exact ahead_passphrase ahead used

theorem ahead_run {ops : List SpendOp} {c d : WindowCounter} (ahead : Ahead c d)
    (valid : policy.validate = .ok policy) (aligned : Aligned env policy c d ops) :
    Ahead (runSpendOps env policy c ops)
      (runSpendOps env policy d (ops.map SpendOp.withoutWall)) := by
  induction ops generalizing c d with
  | nil => exact ahead
  | cons op rest ih => exact ih (ahead_apply ahead valid aligned.1) aligned.2

theorem aligned_append {first second : List SpendOp} {c d : WindowCounter}
    (aligned : Aligned env policy c d (first ++ second)) : Aligned env policy c d first := by
  induction first generalizing c d with
  | nil => trivial
  | cons op rest ih => exact ⟨aligned.1, ih aligned.2⟩

/-- Two runs of the same operations on a fresh counter whose steps are aligned:
    after every step the run with wall readings has at least as much booked as
    the run without. -/
theorem wall_never_loosens (env : Primitives) (policy : SpendPolicy)
    (valid : policy.validate = .ok policy) {kek : Str} {c : WindowCounter}
    (fresh : WindowCounter.new kek = .ok c) (ops : List SpendOp)
    (aligned : Aligned env policy c c ops) :
    ∀ done rest, ops = done ++ rest →
      (runSpendOps env policy c (done.map SpendOp.withoutWall)).bookedSat ≤
        (runSpendOps env policy c done).bookedSat := by
  intro done rest split
  subst split
  have ref := new_refines fresh
  have start : Ahead c c := ⟨⟨rfl, rfl, rfl, rfl⟩, _, _, ref, ref, covers_empty _ _ _⟩
  exact ahead_booked (ahead_run start valid (aligned_append aligned))

end Veto

namespace Sample

def walledRequest (minutes wallMinutes : Nat) : SpendRequest :=
  { request minutes with
    observation := { (request minutes).observation with
      wallUnixNs := some (UInt64.ofNat (wallMinutes * 60 * nsPerSecond)) } }

/-- The wall clock jumps two days ahead at minute 1441; before and after it
    keeps pace. The payment is booked at the start and again after the jump. -/
def jumpOps : List SpendOp :=
  [.passphrase true, .authorize (walledRequest 0 0), .commit approval,
    .authorize (walledRequest 1441 4321), .authorize (walledRequest 1451 4331), .commit approval,
    .authorize (walledRequest 2882 5762)]

def jumped (n : Nat) : WindowCounter := runSpendOps env spendPolicy installed (jumpOps.take n)

def unjumped (n : Nat) : WindowCounter :=
  runSpendOps env spendPolicy installed ((jumpOps.take n).map SpendOp.withoutWall)

theorem authorized {c : WindowCounter} {r : SpendRequest}
    (asked : r = { request 0 with observation := r.observation })
    (used : (c.live spendPolicy r.observation).state.passphraseUsedSinceInstall = true)
    (within : extraAgainstBookings (c.live spendPolicy r.observation).state.bookings
        approval.inputSet 61000 ≤
      satSub (allowance spendPolicy 1000000) (c.live spendPolicy r.observation).state.bookedSat)
    (room : (c.live spendPolicy r.observation).state.bookings.length < maxBookings) :
    (r.authorize env spendPolicy c).1 = .ok approval := by
  rw [asked, SpendRequest.authorize, authorize_of_valid spendPolicy_valid]
  exact approve_of used charged collected within (.inr room)

end Sample

/-- Up to the jump the wall readings only tighten: the row the other run has
    dropped is still booked. -/
theorem wall_never_loosens_sample :
    (Sample.unjumped 4).bookedSat = 0 ∧ (Sample.jumped 4).bookedSat = 61000 ∧
    (Sample.unjumped 4).bookedSat ≤ (Sample.jumped 4).bookedSat := by
  refine ⟨by decide, by decide, ?_⟩
  exact wall_never_loosens Sample.env Sample.spendPolicy Sample.spendPolicy_valid
    Sample.installed_new (Sample.jumpOps.take 4) (by decide) _ [] (List.append_nil _).symm

/-- After the second booking the wall readings have loosened the limit: both
    runs granted both bookings, the one without wall readings still counts the
    second, the one with them counts nothing. -/
theorem wall_jump_loosens :
    ((Sample.walledRequest 0 0).authorize Sample.env Sample.spendPolicy (Sample.jumped 1)).1 =
      .ok Sample.approval ∧
    ((Sample.request 0).authorize Sample.env Sample.spendPolicy (Sample.unjumped 1)).1 =
      .ok Sample.approval ∧
    ((Sample.walledRequest 1451 4331).authorize Sample.env Sample.spendPolicy
      (Sample.jumped 4)).1 = .ok Sample.approval ∧
    ((Sample.request 1451).authorize Sample.env Sample.spendPolicy (Sample.unjumped 4)).1 =
      .ok Sample.approval ∧
    (Sample.unjumped 7).bookedSat = 61000 ∧ (Sample.jumped 7).bookedSat = 0 := by
  refine ⟨Sample.authorized rfl ?_ ?_ ?_, Sample.authorized rfl ?_ ?_ ?_,
    Sample.authorized rfl ?_ ?_ ?_, Sample.authorized rfl ?_ ?_ ?_, ?_, ?_⟩
  all_goals decide

end Trinity
