import Trinity.Signer.Runs

/-!
The cap of the sliding window: over any run of signing calls from a fresh
counter, what the calls of one window add to the ledger stays below the cap of
the policy.
-/
namespace Trinity

open Outcome Word SlidingLedger

/-- Steps of a session under one policy: signing calls, and the flag without
    which no call succeeds. -/
inductive SpendStep where
  | sign (call : SignCall)
  | passphrase (used : Bool)

structure CallRecord where
  call : SignCall
  before : WindowCounter
  run : SignAbRun

section Cap

variable (env : Primitives) (policy : SpendPolicy)

def SignCall.record (call : SignCall) (c : WindowCounter) : CallRecord :=
  ⟨call, c, call.run env policy c⟩

def trace : WindowCounter → List SpendStep → List CallRecord
  | _, [] => []
  | c, .sign call :: rest =>
    call.record env policy c :: trace (call.run env policy c).counter rest
  | c, .passphrase used :: rest => trace (c.setPassphraseUsedSinceInstall used) rest

def finish : WindowCounter → List SpendStep → WindowCounter
  | c, [] => c
  | c, .sign call :: rest => finish (call.run env policy c).counter rest
  | c, .passphrase used :: rest => finish (c.setPassphraseUsedSinceInstall used) rest

def CallRecord.elapsed (r : CallRecord) : Nat := r.run.counter.windowElapsed

def CallRecord.live (r : CallRecord) : WindowCounter :=
  r.before.live policy r.call.request.observation

def CallRecord.allowance (r : CallRecord) : UInt64 :=
  Trinity.allowance policy r.call.request.balance.spendPolicyReferenceSats

def CoreState.bookedFor (s : CoreState) (set : OrderedSet OutPoint) : Nat :=
  match s.bookings.find? fun b => sameInputs b.inputs set with
  | some b => b.amountSat.toNat
  | none => 0

/-- The extra of a successful call: its charge beyond the live booking with
    the same input set. -/
def CallRecord.extra (r : CallRecord) : Nat :=
  match r.run.result, spendCharge env r.call.request.psbt r.call.request.descriptor
      r.call.request.verify, inputSet r.call.request.psbt with
  | .ok _, .ok charge, .ok set => charge.toNat - (r.live policy).state.bookedFor set
  | _, _, _ => 0

def ExactSum (s : CoreState) : Prop :=
  s.bookedSat.toNat = exactSum (s.bookings.map BookedSpend.amountSat)

variable {env} {policy}

theorem CallRecord.extra_signed {r : CallRecord} {signed : Psbt} {charge : UInt64}
    {set : OrderedSet OutPoint} (result : r.run.result = .ok signed)
    (charged : spendCharge env r.call.request.psbt r.call.request.descriptor
      r.call.request.verify = .ok charge)
    (collected : inputSet r.call.request.psbt = .ok set) :
    r.extra env policy = charge.toNat - (r.live policy).state.bookedFor set := by
  simp only [CallRecord.extra, result, charged, collected]

theorem bookedFor_row {s : CoreState} {L : Ledger (Finset OutPoint)} (ref : Refines s L)
    (set : OrderedSet OutPoint) : s.bookedFor set = L.amountOf set.elems.toFinset := by
  unfold CoreState.bookedFor Ledger.amountOf
  rw [find_row ref]
  cases s.bookings.find? fun b => sameInputs b.inputs set <;> rfl

theorem exactSum_iff {s : CoreState} {L : Ledger (Finset OutPoint)} (ref : Refines s L) :
    ExactSum s ↔ total L.rows < UInt64.size := by
  unfold ExactSum
  rw [bookedSat_toNat ref, ref.rows, rows_total]
  have : 0 < UInt64.size := by decide
  omega

theorem run_ledger (env : Primitives) (valid : policy.validate = .ok policy) (call : SignCall)
    {c : WindowCounter} {M : Ledger (Finset OutPoint)}
    (refLive : Refines ((call.record env policy c).live policy).state M) :
    ((call.record env policy c).run.counter = (call.record env policy c).live policy ∧
      (call.record env policy c).extra env policy = 0) ∨
    ∃ a : SpendApproval,
      (call.record env policy c).run.counter = ((call.record env policy c).live policy).commit a ∧
      (call.record env policy c).extra env policy = M.extra a.key a.chargeSat.toNat ∧
      M.Open maxBookings a.key ∧
      M.extra a.key a.chargeSat.toNat ≤
        ((call.record env policy c).allowance policy).toNat -
          ((call.record env policy c).live policy).bookedSat.toNat := by
  cases result : (call.run env policy c).result with
  | error e =>
    left
    constructor
    · have := signAb_error result
      rw [authorize_of_valid valid] at this
      exact this
    · simp only [CallRecord.extra, SignCall.record, result]
  | ok signed =>
    right
    obtain ⟨a, _, _, _, approved, _, _, _, _, booked⟩ := signAb_eq_ok result
    obtain ⟨charged, collected, room, granted⟩ := approve_eq_ok refLive approved
    refine ⟨a, booked, ?_, room, granted⟩
    have added := @CallRecord.extra_signed env policy (call.record env policy c) _ _ _ result
      charged collected
    rw [added]
    exact congrArg (a.chargeSat.toNat - ·) (bookedFor_row refLive a.inputSet)

theorem run_refines (env : Primitives) (valid : policy.validate = .ok policy) (call : SignCall)
    {c : WindowCounter} {L : Ledger (Finset OutPoint)} (ref : Refines c.state L)
    (fits : total L.rows < UInt64.size) {r : CallRecord} (record : call.record env policy c = r) :
    ∃ M L', Refines (r.live policy).state M ∧ Refines r.run.counter.state L' ∧
      M = L.expire (r.elapsed - policy.window) ∧
      total L'.rows ≤ max (total M.rows) (r.allowance policy).toNat ∧
      ∀ since spent, M.Within since policy.cap.toNat spent → since ≤ r.elapsed →
        L'.Within since policy.cap.toNat (spent + r.extra env policy) := by
  have refLive : Refines (r.live policy).state
      (L.expire ((r.live policy).windowElapsed - policy.window)) := by
    subst record
    exact refines_live ref valid call.request.observation
  have shrunk := Ledger.total_expire_le ((r.live policy).windowElapsed - policy.window) L
  generalize passed : L.expire ((r.live policy).windowElapsed - policy.window) = M at *
  have exact_ : (r.live policy).bookedSat.toNat = total M.rows := by
    rw [WindowCounter.bookedSat, bookedSat_toNat refLive]
    omega
  rcases run_ledger env valid call (record.symm ▸ refLive) with
    ⟨same, nothing⟩ | ⟨a, booked, extra, room, granted⟩
  · rw [record] at same nothing
    refine ⟨M, M, refLive, same ▸ refLive, ?_, Nat.le_max_left _ _, ?_⟩
    · rw [CallRecord.elapsed, same]
      exact passed.symm
    · intro since spent within _
      rw [nothing]
      exact within
  · rw [record] at booked extra granted
    rw [exact_] at granted
    have bounded : (r.allowance policy).toNat ≤ policy.cap.toNat :=
      UInt64.le_iff_toNat_le.mp (allowance_le_cap _)
    have elapsed : r.elapsed = (r.live policy).windowElapsed := by
      rw [CallRecord.elapsed, booked]
      rfl
    refine ⟨M, M.book maxBookings a.key a.chargeSat.toNat r.elapsed, refLive, ?_, ?_,
      Ledger.total_book_le room granted, ?_⟩
    · rw [booked, elapsed]
      exact refines_commit refLive a
    · rw [elapsed]
      exact passed.symm
    · intro since spent within recent
      rw [extra]
      exact Ledger.within_book within recent room granted bounded

theorem call_refines (env : Primitives) (policy : SpendPolicy) (call : SignCall)
    {c : WindowCounter} {L : Ledger (Finset OutPoint)} (ref : Refines c.state L) :
    c.windowElapsed ≤ (call.run env policy c).counter.windowElapsed ∧
      ∃ L', Refines (call.run env policy c).counter.state L' := by
  have moves : Moves (fun _ => True) c (call.run env policy c).counter :=
    signAb_moves trivial call c
  exact moves_refines moves ref

theorem trace_elapsed {steps : List SpendStep} {c : WindowCounter} {L : Ledger (Finset OutPoint)}
    (ref : Refines c.state L) :
    ∀ r ∈ trace env policy c steps, c.windowElapsed ≤ r.elapsed := by
  induction steps generalizing c L with
  | nil => simp [trace]
  | cons step rest ih =>
    intro r member
    cases step with
    | passphrase used => exact ih (refines_passphrase ref used) r member
    | sign call =>
      obtain ⟨forward, L', refAfter⟩ := call_refines env policy call ref
      rcases List.mem_cons.mp member with rfl | later
      · exact forward
      · exact forward.trans (ih refAfter r later)

/-- What was spent since `since` stays within the cap as long as the calls lie
    in one window from there. The invariant is that the ledger still holds it. -/
theorem trace_within (valid : policy.validate = .ok policy) {since spent : Nat}
    {steps : List SpendStep} {c : WindowCounter} {L : Ledger (Finset OutPoint)}
    (ref : Refines c.state L) (fits : total L.rows < UInt64.size)
    (within : L.Within since policy.cap.toNat spent)
    (span : ∀ r ∈ trace env policy c steps,
      since ≤ r.elapsed ∧ r.elapsed ≤ since + policy.window) :
    spent + ((trace env policy c steps).map (CallRecord.extra env policy)).sum ≤
      policy.cap.toNat := by
  induction steps generalizing c L spent with
  | nil => simpa [trace] using within.capped
  | cons step rest ih =>
    cases step with
    | passphrase used => exact ih (refines_passphrase ref used) fits within span
    | sign call =>
      obtain ⟨head, tail⟩ := List.forall_mem_cons.mp span
      generalize record : call.record env policy c = r at head
      obtain ⟨M, L', _, refAfter, passed, bound, grow⟩ := run_refines env valid call ref fits record
      have live : M.Within since policy.cap.toNat spent := by
        rw [passed]
        exact Ledger.within_expire within (by omega)
      have shrunk : total M.rows ≤ total L.rows := passed ▸ Ledger.total_expire_le _ L
      have word := toNat_lt_size (r.allowance policy)
      have after : (call.run env policy c).counter = r.run.counter := by rw [← record]; rfl
      rw [← after] at refAfter
      have := ih refAfter (by omega) (grow since spent live head.1) tail
      simpa [trace, record, Nat.add_assoc] using this

theorem trace_span_cap (valid : policy.validate = .ok policy) {steps : List SpendStep}
    {c : WindowCounter} {L : Ledger (Finset OutPoint)} (ref : Refines c.state L)
    (fits : total L.rows < UInt64.size)
    (span : ∀ r ∈ trace env policy c steps, ∀ s ∈ trace env policy c steps,
      r.elapsed ≤ s.elapsed + policy.window) :
    ((trace env policy c steps).map (CallRecord.extra env policy)).sum ≤ policy.cap.toNat := by
  induction steps generalizing c L with
  | nil => simp [trace]
  | cons step rest ih =>
    cases step with
    | passphrase used => exact ih (refines_passphrase ref used) fits span
    | sign call =>
      have first : call.record env policy c ∈ trace env policy c (.sign call :: rest) :=
        List.mem_cons_self
      obtain ⟨_, L', refAfter⟩ := call_refines env policy call ref
      have none : L.Within (call.run env policy c).counter.windowElapsed policy.cap.toNat 0 :=
        ⟨Nat.zero_le _, Nat.zero_le _⟩
      have inside : ∀ r ∈ trace env policy c (.sign call :: rest),
          (call.run env policy c).counter.windowElapsed ≤ r.elapsed ∧
            r.elapsed ≤ (call.run env policy c).counter.windowElapsed + policy.window := by
        intro r member
        refine ⟨?_, span r member _ first⟩
        rcases List.mem_cons.mp member with rfl | later
        · exact Nat.le_refl _
        · exact trace_elapsed refAfter r later
      simpa using trace_within valid ref fits none inside

theorem trace_totals (valid : policy.validate = .ok policy) {steps : List SpendStep}
    {c : WindowCounter} {L : Ledger (Finset OutPoint)} (ref : Refines c.state L)
    (fits : total L.rows < UInt64.size) :
    ∀ r ∈ trace env policy c steps,
      r.run.counter.bookedSat.toNat ≤ max r.before.bookedSat.toNat (r.allowance policy).toNat ∧
      ExactSum r.before.state ∧ ExactSum (r.live policy).state ∧ ExactSum r.run.counter.state := by
  induction steps generalizing c L with
  | nil => simp [trace]
  | cons step rest ih =>
    cases step with
    | passphrase used => exact ih (refines_passphrase ref used) fits
    | sign call =>
      intro r member
      generalize record : call.record env policy c = first
      obtain ⟨M, L', refLive, refAfter, passed, bound, _⟩ :=
        run_refines env valid call ref fits record
      have shrunk : total M.rows ≤ total L.rows := passed ▸ Ledger.total_expire_le _ L
      have word := toNat_lt_size (first.allowance policy)
      have liveFits : total M.rows < UInt64.size := by omega
      have afterFits : total L'.rows < UInt64.size := by omega
      have before : first.before = c := by rw [← record]; rfl
      have after : (call.run env policy c).counter = first.run.counter := by rw [← record]; rfl
      rcases List.mem_cons.mp member with same | later
      · rw [same, record, before]
        refine ⟨?_, (exactSum_iff ref).mpr fits, (exactSum_iff refLive).mpr liveFits,
          (exactSum_iff refAfter).mpr afterFits⟩
        have bookedBefore := bookedSat_toNat ref
        have bookedAfter := bookedSat_toNat refAfter
        simp only [WindowCounter.bookedSat]
        omega
      · exact ih (after ▸ refAfter) afterFits r later

theorem finish_refines {steps : List SpendStep} {c : WindowCounter} {L : Ledger (Finset OutPoint)}
    (valid : policy.validate = .ok policy) (ref : Refines c.state L)
    (fits : total L.rows < UInt64.size) :
    ∃ L', Refines (finish env policy c steps).state L' ∧ total L'.rows < UInt64.size := by
  induction steps generalizing c L with
  | nil => exact ⟨L, ref, fits⟩
  | cons step rest ih =>
    cases step with
    | passphrase used => exact ih (refines_passphrase ref used) fits
    | sign call =>
      generalize record : call.record env policy c = r
      obtain ⟨M, L', _, refAfter, passed, bound, _⟩ := run_refines env valid call ref fits record
      have shrunk : total M.rows ≤ total L.rows := passed ▸ Ledger.total_expire_le _ L
      have word := toNat_lt_size (r.allowance policy)
      have after : (call.run env policy c).counter = r.run.counter := by rw [← record]; rfl
      exact ih (after ▸ refAfter) (by omega)

/-- In every run of signing calls under one valid policy from a fresh counter,
    the extras of the successful calls in any stretch that fits one window add
    up to at most the cap. Each call leaves the booked sum at most at its
    allowance, unless it was higher before, and no sum ever saturates. -/
theorem window_cap (env : Primitives) (policy : SpendPolicy)
    (valid : policy.validate = .ok policy) {kek : Str} {c : WindowCounter}
    (fresh : WindowCounter.new kek = .ok c) :
    (∀ before stretch : List SpendStep,
      (∀ r ∈ trace env policy (finish env policy c before) stretch,
        ∀ s ∈ trace env policy (finish env policy c before) stretch,
          r.elapsed ≤ s.elapsed + policy.window) →
      ((trace env policy (finish env policy c before) stretch).map
        (CallRecord.extra env policy)).sum ≤ policy.cap.toNat) ∧
    ∀ steps : List SpendStep, ∀ r ∈ trace env policy c steps,
      r.run.counter.bookedSat.toNat ≤ max r.before.bookedSat.toNat (r.allowance policy).toNat ∧
      ExactSum r.before.state ∧ ExactSum (r.live policy).state ∧
      ExactSum r.run.counter.state := by
  have ref := new_refines fresh
  have fits : total (Ledger.empty : Ledger (Finset OutPoint)).rows < UInt64.size := by decide
  constructor
  · intro before stretch span
    obtain ⟨L, refBefore, fitsBefore⟩ := finish_refines valid ref fits
    exact trace_span_cap valid refBefore fitsBefore span
  · intro steps
    exact trace_totals valid ref fits

end Cap

namespace Sample

theorem call_signs (minutes : Nat) (c : WindowCounter)
    (used : (c.live spendPolicy (request minutes).observation).state.passphraseUsedSinceInstall =
      true)
    (within : extraAgainstBookings (c.live spendPolicy (request minutes).observation).state.bookings
        approval.inputSet 61000 ≤
      satSub (allowance spendPolicy 1000000)
        (c.live spendPolicy (request minutes).observation).state.bookedSat)
    (room : (c.live spendPolicy (request minutes).observation).state.bookings.length <
      maxBookings) :
    ((call minutes).record env spendPolicy c).extra env spendPolicy =
        approval.chargeSat.toNat -
          (c.live spendPolicy (request minutes).observation).state.bookedFor approval.inputSet ∧
      ((call minutes).record env spendPolicy c).run.counter =
        (c.live spendPolicy (request minutes).observation).commit approval := by
  have run := call_run minutes c used within room
  have added := @CallRecord.extra_signed env spendPolicy ((call minutes).record env spendPolicy c)
    _ _ _ (congrArg SignAbRun.result run) charged collected
  exact ⟨added, congrArg SignAbRun.counter run⟩

theorem first_call :
    ((call 0).record env spendPolicy unlocked).extra env spendPolicy = 61000 := by
  obtain ⟨added, _⟩ := call_signs 0 unlocked (by decide) (by decide) (by decide)
  exact added.trans (by decide)

theorem second_call : ((call 30).record env spendPolicy signedOnce).extra env spendPolicy = 0 ∧
    ((call 30).record env spendPolicy signedOnce).run.counter =
      (signedOnce.live spendPolicy (request 30).observation).commit approval := by
  obtain ⟨added, counter⟩ := call_signs 30 signedOnce (by decide) (by decide) (by decide)
  exact ⟨added.trans (by decide), counter⟩

theorem stretch_trace : trace env spendPolicy (finish env spendPolicy installed [.passphrase true])
    [.sign (call 0), .sign (call 30)] =
      [(call 0).record env spendPolicy unlocked, (call 30).record env spendPolicy signedOnce] := by
  have start : finish env spendPolicy installed [.passphrase true] = unlocked := by
    simp only [finish, unlocked]
  rw [start]
  simp only [trace, signedOnce_run]

end Sample

/-- The sample payment of 61000 satoshis is signed twice within half an hour; the
    second signature adds nothing. -/
theorem window_cap_sample :
    (trace Sample.env Sample.spendPolicy
        (finish Sample.env Sample.spendPolicy Sample.installed [.passphrase true])
        [.sign (Sample.call 0), .sign (Sample.call 30)]).map
      (CallRecord.extra Sample.env Sample.spendPolicy) = [61000, 0] ∧
    ((trace Sample.env Sample.spendPolicy
        (finish Sample.env Sample.spendPolicy Sample.installed [.passphrase true])
        [.sign (Sample.call 0), .sign (Sample.call 30)]).map
      (CallRecord.extra Sample.env Sample.spendPolicy)).sum ≤ 100000 := by
  constructor
  · rw [Sample.stretch_trace, List.map_cons, List.map_singleton, Sample.first_call,
      Sample.second_call.1]
  · apply (window_cap Sample.env Sample.spendPolicy Sample.spendPolicy_valid
      Sample.installed_new).1
    -- both calls are within half an hour
    have early : ∀ r ∈ trace Sample.env Sample.spendPolicy
        (finish Sample.env Sample.spendPolicy Sample.installed [.passphrase true])
        [.sign (Sample.call 0), .sign (Sample.call 30)], r.elapsed ≤ Sample.spendPolicy.window := by
      rw [Sample.stretch_trace, List.forall_mem_cons, List.forall_mem_singleton]
      rw [CallRecord.elapsed, CallRecord.elapsed, SignCall.record, Sample.signedOnce_run,
        Sample.second_call.2]
      decide
    intro r first s second
    exact Nat.le_trans (early r first) (Nat.le_add_left _ _)

end Trinity
