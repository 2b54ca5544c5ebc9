import Trinity.Signer.Runs

/-!
How long a signed spend stays booked. A row counts from its date, and only a
charge above the booked one dates the row anew, so a repeated signature for the
same inputs is kept for a window from the row's date and not from its own.
-/
namespace Trinity

open Outcome Word SlidingLedger SlidingLedger.Ledger

/-- The time from which the booking of an approval counts: now if it opens or
    raises the row of its inputs, the date of that row otherwise. -/
def CoreState.countsFrom (s : CoreState) (a : SpendApproval) : UInt64 :=
  match s.bookings.find? fun b => sameInputs b.inputs a.inputSet with
  | some b => if b.amountSat < a.chargeSat then s.windowElapsedNs else b.elapsedAtNs
  | none => s.windowElapsedNs

def WindowCounter.Books (c : WindowCounter) (set : OrderedSet OutPoint) (amount : UInt64) : Prop :=
  ∃ b ∈ c.state.bookings, b.inputs.toFinset = set.elems.toFinset ∧ amount ≤ b.amountSat

instance (c : WindowCounter) (set : OrderedSet OutPoint) (amount : UInt64) :
    Decidable (c.Books set amount) :=
  inferInstanceAs (Decidable (∃ b ∈ c.state.bookings, _ ∧ _))

/-- The amount stays held for `k` until the clock is past `since + window`. -/
structure Retains (k : Finset OutPoint) (amount since window : Nat) (c : WindowCounter) : Prop where
  past : since ≤ c.windowElapsed
  held : ∃ L, Refines c.state L ∧ (c.windowElapsed ≤ since + window → L.Holds k amount since)

section Retention

variable {env : Primitives} {policy : SpendPolicy} {k : Finset OutPoint} {amount since : Nat}

theorem move_retains {c c' : WindowCounter} (move : Move (· = policy) c c')
    (retains : Retains k amount since policy.window c) :
    Retains k amount since policy.window c' := by
  obtain ⟨past, L, ref, held⟩ := retains
  cases move with
  | @live p permitted valid obs =>
    subst permitted
    have later := live_elapsed ref.toConsistent p obs
    refine ⟨past.trans later, _, refines_live ref valid obs, ?_⟩
    intro recent
    apply holds_expire (held (later.trans recent))
    exact Nat.sub_le_of_le_add recent
  | book a =>
    refine ⟨past, _, refines_commit ref a, ?_⟩
    intro recent
    exact holds_book (held recent) past
  | passphrase used => exact ⟨past, L, refines_passphrase ref used, held⟩

theorem moves_retain {c c' : WindowCounter} (moves : Moves (· = policy) c c')
    (retains : Retains k amount since policy.window c) :
    Retains k amount since policy.window c' := by
  induction moves with
  | refl => exact retains
  | tail _ move ih => exact move_retains move ih

theorem books_of_holds {c : WindowCounter} {L : Ledger (Finset OutPoint)}
    (ref : Refines c.state L) {a : SpendApproval}
    (held : L.Holds a.key a.chargeSat.toNat since) : c.Books a.inputSet a.chargeSat := by
  obtain ⟨r, member, key, enough, _⟩ := held
  rw [ref.rows] at member
  obtain ⟨b, there, row⟩ := List.mem_map.mp member
  subst row
  exact ⟨b, there, key, UInt64.le_iff_toNat_le.mpr enough⟩

theorem commit_holds {s : CoreState} {L : Ledger (Finset OutPoint)} (ref : Refines s L)
    {a : SpendApproval} (room : L.Open maxBookings a.key) :
    (s.countsFrom a).toNat ≤ s.windowElapsedNs.toNat ∧
    (L.book maxBookings a.key a.chargeSat.toNat s.windowElapsedNs.toNat).Holds a.key
      a.chargeSat.toNat (s.countsFrom a).toNat := by
  obtain ⟨r, member, key, enough, dated⟩ :=
    book_holds room a.chargeSat.toNat s.windowElapsedNs.toNat
  have found := find_row ref a.inputSet
  unfold Ledger.Writes at dated
  rw [SpendApproval.key, found] at dated
  unfold CoreState.countsFrom
  cases row : s.bookings.find? fun b => sameInputs b.inputs a.inputSet with
  | none =>
    simp only [row, Option.map_none] at dated
    rcases dated with ⟨_, now⟩ | ⟨_, impossible⟩
    · exact ⟨le_rfl, r, member, key, enough, now.ge⟩
    · contradiction
  | some b =>
    simp only [row, Option.map_some, Option.some.injEq] at dated
    have past := UInt64.le_iff_toNat_le.mp (ref.past b (List.mem_of_find?_eq_some row))
    simp only [UInt64.lt_iff_toNat_lt]
    rcases dated with ⟨lower, now⟩ | ⟨enoughBefore, kept⟩
    · rw [if_pos (show b.amountSat.toNat < a.chargeSat.toNat from lower)]
      exact ⟨le_rfl, r, member, key, enough, now.ge⟩
    · rw [if_neg (show ¬ b.amountSat.toNat < a.chargeSat.toNat from enoughBefore)]
      exact ⟨past, r, member, key, enough, kept ▸ le_rfl⟩

/-- A spend signed with charge `a.chargeSat` for the inputs `a.inputSet` stays
    booked as long as the clock is within one window of the time its booking
    counts from. -/
theorem booking_retained (env : Primitives) (policy : SpendPolicy)
    (valid : policy.validate = .ok policy) {c : WindowCounter} (reachable : Reachable env c)
    (call : SignCall) {signed : Psbt} (success : (call.run env policy c).result = .ok signed) :
    ∃ a : SpendApproval,
      spendCharge env call.request.psbt call.request.descriptor call.request.verify =
        .ok a.chargeSat ∧
      inputSet call.request.psbt = .ok a.inputSet ∧
      ∀ ops : List WindowOp, (∀ op ∈ ops, op.Within (· = policy)) →
        (runOps env (call.run env policy c).counter ops).windowElapsed ≤
          ((c.live policy call.request.observation).state.countsFrom a).toNat + policy.window →
        (runOps env (call.run env policy c).counter ops).Books a.inputSet a.chargeSat := by
  obtain ⟨L, ref⟩ := reachable_refines reachable
  have refLive := refines_live ref valid call.request.observation
  obtain ⟨a, _, _, _, approved, _, _, _, _, booked⟩ := signAb_eq_ok success
  obtain ⟨charged, collected, room, _⟩ := approve_eq_ok refLive approved
  refine ⟨a, charged, collected, ?_⟩
  intro ops within recent
  have counted := commit_holds refLive room
  have start : Retains a.key a.chargeSat.toNat
      ((c.live policy call.request.observation).state.countsFrom a).toNat policy.window
      (call.run env policy c).counter := by
    rw [SignCall.run, booked]
    exact ⟨counted.1, _, refines_commit refLive a, fun _ => counted.2⟩
  obtain ⟨_, M, refM, held⟩ := moves_retain (runOps_moves within) start
  exact books_of_holds refM (held recent)

end Retention

namespace Sample

theorem signedOnce_reachable : Reachable env signedOnce := by
  rw [← signedOnce_run]
  exact unlocked_reachable.signAb spendPolicy (call 0)

end Sample

/-- The first signature of the sample payment is still booked a full window
    later. -/
theorem booking_retained_sample :
    ∃ a : SpendApproval, spendCharge Sample.env Sample.psbt Sample.receiveDescriptor Sample.policy =
        .ok a.chargeSat ∧
      (runOps Sample.env ((Sample.call 0).run Sample.env Sample.spendPolicy Sample.unlocked).counter
        [.authorize Sample.spendPolicy (Sample.request 1440)]).Books a.inputSet a.chargeSat := by
  have run := Sample.call_run 0 Sample.unlocked (by decide) (by decide)
    (by decide)
  obtain ⟨a, charged, collected, retained⟩ := booking_retained Sample.env Sample.spendPolicy
    Sample.spendPolicy_valid Sample.unlocked_reachable (Sample.call 0)
    (congrArg SignAbRun.result run)
  have same : a = Sample.approval := by
    have set := Except.ok.inj (collected.symm.trans Sample.collected)
    have charge := Except.ok.inj (charged.symm.trans Sample.charged)
    cases a
    exact congrArg₂ SpendApproval.mk set charge
  subst same
  refine ⟨_, charged, retained _ (by simp [WindowOp.Within]) ?_⟩
  rw [Sample.signedOnce_run]
  rw [runOps_authorize Sample.spendPolicy_valid]
  decide

/-- Signed again ten minutes before its window ends, the sample payment keeps
    the date of its first signature: eleven minutes later nothing is booked. -/
theorem replacement_not_retained :
    Reachable Sample.env Sample.signedOnce ∧
    ((Sample.call 1430).run Sample.env Sample.spendPolicy Sample.signedOnce).result =
      .ok (Sample.signed (Sample.signed Sample.psbt Sample.childAExternal.publicKey
        Sample.signatureA) Sample.childBExternal.publicKey Sample.signatureB) ∧
    spendCharge Sample.env Sample.psbt Sample.receiveDescriptor Sample.policy =
      .ok Sample.approval.chargeSat ∧
    inputSet Sample.psbt = .ok Sample.approval.inputSet ∧
    (runOps Sample.env
        ((Sample.call 1430).run Sample.env Sample.spendPolicy Sample.signedOnce).counter
        [.authorize Sample.spendPolicy (Sample.request 1441)]).windowElapsed ≤
      ((Sample.call 1430).run Sample.env Sample.spendPolicy
        Sample.signedOnce).counter.windowElapsed + Sample.spendPolicy.window ∧
    ¬ (runOps Sample.env
        ((Sample.call 1430).run Sample.env Sample.spendPolicy Sample.signedOnce).counter
        [.authorize Sample.spendPolicy (Sample.request 1441)]).Books
      Sample.approval.inputSet Sample.approval.chargeSat := by
  have run := Sample.call_run 1430 Sample.signedOnce (by decide) (by decide)
    (by decide)
  rw [run, runOps_authorize Sample.spendPolicy_valid]
  exact ⟨Sample.signedOnce_reachable, rfl, Sample.charged, Sample.collected, by decide,
    by decide⟩

end Trinity
