import Mathlib.Data.Finset.Card
import Trinity.Signer.Sign

/-!
The booking table refines a sliding ledger. A row stands for the set of its
inputs, its amount and its date as integers; pruning is expiry and `commit` is
booking. The correspondence holds for every state the operations reach.
-/
namespace Trinity

open Outcome Word SlidingLedger

def BookedSpend.row (b : BookedSpend) : Row (Finset OutPoint) :=
  ⟨b.inputs.toFinset, b.amountSat.toNat, b.elapsedAtNs.toNat⟩

/-- What holds of every booking table: sorted inputs, one row for each set of
    inputs, bounded length, no row dated ahead of the clock. -/
structure Consistent (s : CoreState) : Prop where
  sorted : ∀ b ∈ s.bookings, b.inputs.Pairwise (· < ·)
  distinct : (s.bookings.map fun b => b.inputs.toFinset).Nodup
  bounded : s.bookings.length ≤ maxBookings
  past : ∀ b ∈ s.bookings, b.elapsedAtNs ≤ s.windowElapsedNs
  started : s.initialized = false → s.windowElapsedNs = 0

structure Refines (s : CoreState) (L : Ledger (Finset OutPoint)) : Prop extends Consistent s where
  rows : L.rows = s.bookings.map BookedSpend.row

def SpendApproval.key (a : SpendApproval) : Finset OutPoint := a.inputSet.elems.toFinset

theorem sorted_nodup {inputs : List OutPoint} (sorted : inputs.Pairwise (· < ·)) : inputs.Nodup :=
  sorted.imp fun h => ne_of_lt h

theorem sameInputs_iff {stored : List OutPoint} (sorted : stored.Pairwise (· < ·))
    (set : OrderedSet OutPoint) :
    sameInputs stored set = true ↔ stored.toFinset = set.elems.toFinset := by
  have stored_card := List.toFinset_card_of_nodup (sorted_nodup sorted)
  have set_card := List.toFinset_card_of_nodup set.elems_nodup
  simp only [sameInputs, Bool.and_eq_true, beq_iff_eq, List.all_eq_true, List.contains_iff_mem]
  constructor
  · rintro ⟨lengths, inclusion⟩
    apply Finset.eq_of_subset_of_card_le
    · intro o member
      exact List.mem_toFinset.mpr (inclusion o (List.mem_toFinset.mp member))
    · omega
  · intro same
    have cards := congrArg Finset.card same
    refine ⟨by omega, ?_⟩
    intro o member
    rw [← List.mem_toFinset, ← same, List.mem_toFinset]
    exact member

theorem sameInputs_row {s : CoreState} (ok : Consistent s) (set : OrderedSet OutPoint) :
    ∀ b ∈ s.bookings, (b.row.key == set.elems.toFinset) = sameInputs b.inputs set := by
  intro b member
  rw [Bool.eq_iff_iff, sameInputs_iff (ok.sorted b member), beq_iff_eq]
  rfl

theorem find_row {s : CoreState} {L : Ledger (Finset OutPoint)} (ref : Refines s L)
    (set : OrderedSet OutPoint) :
    L.row? set.elems.toFinset =
      (s.bookings.find? fun b => sameInputs b.inputs set).map BookedSpend.row := by
  rw [Ledger.row?, ref.rows]
  exact find_map BookedSpend.row (sameInputs_row ref.toConsistent set)

def CoreState.writes (s : CoreState) (a : SpendApproval) : Bool :=
  match s.bookings.find? fun b => sameInputs b.inputs a.inputSet with
  | some b => b.amountSat < a.chargeSat
  | none => s.bookings.length < maxBookings

theorem writes_row {s : CoreState} {L : Ledger (Finset OutPoint)} (ref : Refines s L)
    (a : SpendApproval) : s.writes a ↔ L.Writes maxBookings a.key a.chargeSat.toNat := by
  unfold CoreState.writes Ledger.Writes
  rw [SpendApproval.key, find_row ref, ref.rows, List.length_map]
  cases s.bookings.find? fun b => sameInputs b.inputs a.inputSet with
  | none => exact decide_eq_true_iff
  | some b => exact decide_eq_true_iff.trans UInt64.lt_iff_toNat_lt

theorem any_row {s : CoreState} (ok : Consistent s) (set : OrderedSet OutPoint) :
    ((s.bookings.map BookedSpend.row).any fun r => r.key == set.elems.toFinset) =
      s.bookings.any fun b => sameInputs b.inputs set := by
  rw [Bool.eq_iff_iff, List.any_eq_true, List.any_eq_true]
  constructor
  · rintro ⟨r, member, hit⟩
    obtain ⟨b, there, rfl⟩ := List.mem_map.mp member
    exact ⟨b, there, sameInputs_row ok set b there ▸ hit⟩
  · rintro ⟨b, there, hit⟩
    exact ⟨b.row, List.mem_map_of_mem there, (sameInputs_row ok set b there).symm ▸ hit⟩

theorem rows_total (bookings : List BookedSpend) :
    total (bookings.map BookedSpend.row) = exactSum (bookings.map BookedSpend.amountSat) := by
  simp [total, exactSum, BookedSpend.row, Function.comp_def]

theorem extra_row {s : CoreState} {L : Ledger (Finset OutPoint)} (ref : Refines s L)
    (set : OrderedSet OutPoint) (charge : UInt64) :
    (extraAgainstBookings s.bookings set charge).toNat =
      L.extra set.elems.toFinset charge.toNat := by
  unfold extraAgainstBookings Ledger.extra Ledger.amountOf
  rw [find_row ref]
  cases s.bookings.find? fun b => sameInputs b.inputs set with
  | none => simp
  | some b => simp [satSub_toNat, BookedSpend.row]

theorem bookedSat_toNat {s : CoreState} {L : Ledger (Finset OutPoint)} (ref : Refines s L) :
    s.bookedSat.toNat = min (total L.rows) (UInt64.size - 1) := by
  rw [CoreState.bookedSat, satSum_toNat, ref.rows, rows_total]

theorem durationAsNs_toNat {d : Nat} (small : d < UInt64.size) : (durationAsNs d).toNat = d := by
  rw [durationAsNs, if_pos small]
  exact Nat.mod_eq_of_lt small

theorem consistent_empty : Consistent CoreState.empty :=
  ⟨by simp [CoreState.empty], by simp [CoreState.empty], by simp [CoreState.empty, maxBookings],
    by simp [CoreState.empty], fun _ => rfl⟩

theorem advance_elapsed {s : CoreState} (ok : Consistent s) (obs : Observation) :
    s.windowElapsedNs ≤ (s.advance obs).windowElapsedNs := by
  unfold CoreState.advance
  split
  · rw [UInt64.le_iff_toNat_le, satAdd_toNat]
    have := toNat_lt_size s.windowElapsedNs
    omega
  · rename_i first
    rw [ok.started (by simpa using first)]
    exact UInt64.zero_le

theorem advance_bookings (s : CoreState) (obs : Observation) :
    (s.advance obs).bookings = s.bookings := by
  unfold CoreState.advance
  split <;> rfl

theorem advance_initialized (s : CoreState) (obs : Observation) :
    (s.advance obs).initialized = true := by
  unfold CoreState.advance
  split
  · assumption
  · rfl

theorem consistent_advance {s : CoreState} (ok : Consistent s) (obs : Observation) :
    Consistent (s.advance obs) where
  sorted := by
    rw [advance_bookings]
    exact ok.sorted
  distinct := by
    rw [advance_bookings]
    exact ok.distinct
  bounded := by
    rw [advance_bookings]
    exact ok.bounded
  past := by
    intro b member
    rw [advance_bookings] at member
    exact UInt64.le_trans (ok.past b member) (advance_elapsed ok obs)
  started := by
    intro first
    rw [advance_initialized] at first
    contradiction

theorem consistent_prune {s : CoreState} (ok : Consistent s) (window : Nat) :
    Consistent (s.prune window) where
  sorted := by
    intro b member
    exact ok.sorted b (List.mem_of_mem_filter member)
  distinct := ok.distinct.sublist (List.filter_sublist.map _)
  bounded := (List.length_filter_le _ _).trans ok.bounded
  past := by
    intro b member
    exact ok.past b (List.mem_of_mem_filter member)
  started := ok.started

theorem raiseTo_row (charge now : UInt64) (b : BookedSpend) :
    (b.raiseTo charge now).row = b.row.raise charge.toNat now.toNat := by
  unfold BookedSpend.raiseTo Row.raise BookedSpend.row
  simp only [UInt64.lt_iff_toNat_lt]
  split <;> rfl

theorem commit_rows {s : CoreState} {L : Ledger (Finset OutPoint)} (ref : Refines s L)
    (a : SpendApproval) :
    (L.book maxBookings a.key a.chargeSat.toNat s.windowElapsedNs.toNat).rows =
      (s.commit a).bookings.map BookedSpend.row := by
  have ok := ref.toConsistent
  simp only [Ledger.book, Ledger.bookRows, ref.rows, CoreState.commit, commitBookings,
    SpendApproval.key, any_row ok a.inputSet, List.length_map]
  split
  · exact (updateFirst_map BookedSpend.row (sameInputs_row ok a.inputSet)
      (raiseTo_row a.chargeSat s.windowElapsedNs)).symm
  · split
    · rw [List.map_append]
      rfl
    · rfl

theorem commit_member {s : CoreState} {a : SpendApproval} {b : BookedSpend}
    (member : b ∈ (s.commit a).bookings) :
    b ∈ s.bookings ∨ b = ⟨a.inputSet.elems, a.chargeSat, s.windowElapsedNs⟩ ∨
      ∃ old ∈ s.bookings, b.inputs = old.inputs ∧ old.amountSat < b.amountSat ∧
        b.amountSat = a.chargeSat ∧ b.elapsedAtNs = s.windowElapsedNs := by
  simp only [CoreState.commit, commitBookings] at member
  split at member
  · rcases mem_updateFirst member with old | ⟨old, there, _, rfl⟩
    · exact .inl old
    · unfold BookedSpend.raiseTo
      split
      · rename_i lower
        exact .inr (.inr ⟨old, there, rfl, lower, rfl, rfl⟩)
      · exact .inl there
  · split at member
    · rcases List.mem_append.mp member with old | new
      · exact .inl old
      · rw [List.mem_singleton.mp new]
        exact .inr (.inl rfl)
    · exact .inl member

theorem refines_commit {s : CoreState} {L : Ledger (Finset OutPoint)} (ref : Refines s L)
    (a : SpendApproval) :
    Refines (s.commit a)
      (L.book maxBookings a.key a.chargeSat.toNat s.windowElapsedNs.toNat) where
  sorted := by
    intro b member
    rcases commit_member member with old | rfl | ⟨old, there, same, _⟩
    · exact ref.sorted b old
    · exact a.inputSet.sorted
    · exact same ▸ ref.sorted old there
  distinct := by
    have distinct := (L.book maxBookings a.key a.chargeSat.toNat s.windowElapsedNs.toNat).distinct
    rw [commit_rows ref a, List.map_map] at distinct
    exact distinct
  bounded := by
    have := ref.bounded
    simp only [CoreState.commit, commitBookings]
    split
    · rw [updateFirst_length]
      exact ref.bounded
    · split
      · rw [List.length_append]
        simp only [List.length_singleton]
        omega
      · exact ref.bounded
  past := by
    intro b member
    rcases commit_member member with old | rfl | ⟨_, _, _, _, _, now⟩
    · exact ref.past b old
    · exact UInt64.le_refl _
    · exact now ▸ UInt64.le_refl _
  started := ref.started
  rows := commit_rows ref a

theorem refines_prune {s : CoreState} {L : Ledger (Finset OutPoint)} (ref : Refines s L)
    {window : Nat} (fits : window < UInt64.size) :
    Refines (s.prune window) (L.expire (s.windowElapsedNs.toNat - window)) where
  toConsistent := consistent_prune ref.toConsistent window
  rows := by
    have start : (satSub s.windowElapsedNs (durationAsNs window)).toNat =
        s.windowElapsedNs.toNat - window := by
      rw [satSub_toNat, durationAsNs_toNat fits]
    simp only [Ledger.expire, CoreState.prune, ref.rows, List.filter_map]
    congr 1
    apply List.filter_congr
    intro b _
    rw [Bool.eq_iff_iff, Function.comp, decide_eq_true_iff, decide_eq_true_iff,
      UInt64.le_iff_toNat_le, start]
    rfl

theorem window_fits {policy : SpendPolicy} (valid : policy.validate = .ok policy) :
    policy.window < UInt64.size := by
  obtain ⟨_, _, _, week⟩ := validate_eq_ok valid
  have : 7 * 24 * 60 * 60 * nsPerSecond < UInt64.size := by decide
  omega

def passTo (c : WindowCounter) (policy : SpendPolicy) (obs : Observation)
    (L : Ledger (Finset OutPoint)) : Ledger (Finset OutPoint) :=
  L.expire ((c.live policy obs).windowElapsed - policy.window)

theorem refines_live {c : WindowCounter} {L : Ledger (Finset OutPoint)} (ref : Refines c.state L)
    {policy : SpendPolicy} (valid : policy.validate = .ok policy) (obs : Observation) :
    Refines (c.live policy obs).state (passTo c policy obs L) := by
  have advanced : Refines (c.state.advance obs) L :=
    ⟨consistent_advance ref.toConsistent obs, by rw [advance_bookings]; exact ref.rows⟩
  exact refines_prune advanced (window_fits valid)

theorem live_passphrase (c : WindowCounter) (policy : SpendPolicy) (obs : Observation) :
    (c.live policy obs).state.passphraseUsedSinceInstall = c.state.passphraseUsedSinceInstall := by
  simp only [WindowCounter.live, CoreState.prune, CoreState.advance]
  split <;> rfl

theorem live_elapsed {c : WindowCounter} (ok : Consistent c.state) (policy : SpendPolicy)
    (obs : Observation) : c.windowElapsed ≤ (c.live policy obs).windowElapsed :=
  UInt64.le_iff_toNat_le.mp (advance_elapsed ok obs)

theorem refines_empty : Refines CoreState.empty .empty := ⟨consistent_empty, rfl⟩

theorem approve_eq_ok {env : Primitives} {s : CoreState} {L : Ledger (Finset OutPoint)}
    (ref : Refines s L) {policy : SpendPolicy} {psbt : Psbt} {descriptor : Str}
    {verify : VerifyPolicy} {balance : Balance} {a : SpendApproval}
    (approved : s.approve env policy psbt descriptor verify balance = .ok a) :
    spendCharge env psbt descriptor verify = .ok a.chargeSat ∧
      inputSet psbt = .ok a.inputSet ∧ L.Open maxBookings a.key ∧
      L.extra a.key a.chargeSat.toNat ≤
        (allowance policy balance.spendPolicyReferenceSats).toNat - s.bookedSat.toNat := by
  simp only [CoreState.approveIn, monadLift_self, bind_eq_ok, rejectIf_eq_ok] at approved
  obtain ⟨_, _, charge, charged, set, collected, _, within, _, room, made⟩ := approved
  simp only [pure_ok, Except.ok.injEq] at made
  subst made
  refine ⟨charged, collected, ?_, ?_⟩
  · unfold Ledger.Open
    rw [SpendApproval.key, find_row ref set, Option.isSome_map, ref.rows, List.length_map]
    by_cases known : (s.bookings.find? fun b => sameInputs b.inputs set).isSome
    · exact .inl known
    · right
      have unknown : (s.bookings.any fun b => sameInputs b.inputs set) = false := by
        simpa [List.find?_isSome] using known
      exact Nat.lt_of_not_le fun full => room ⟨by simp [unknown], full⟩
  · rw [SpendApproval.key, ← extra_row ref set charge, ← satSub_toNat]
    exact Nat.le_of_not_lt (fun above => within (UInt64.lt_iff_toNat_lt.mpr above))

theorem approve_of {env : Primitives} {s : CoreState} {policy : SpendPolicy} {psbt : Psbt}
    {descriptor : Str} {verify : VerifyPolicy} {balance : Balance} {charge : UInt64}
    {set : OrderedSet OutPoint} (used : s.passphraseUsedSinceInstall = true)
    (charged : spendCharge env psbt descriptor verify = .ok charge)
    (collected : inputSet psbt = .ok set)
    (within : extraAgainstBookings s.bookings set charge ≤
      satSub (allowance policy balance.spendPolicyReferenceSats) s.bookedSat)
    (room : (s.bookings.any fun b => sameInputs b.inputs set) = true ∨
      s.bookings.length < maxBookings) :
    s.approve env policy psbt descriptor verify balance = .ok ⟨set, charge⟩ := by
  simp only [CoreState.approveIn, monadLift_self, bind_eq_ok, rejectIf_eq_ok]
  refine ⟨(), by simp [used], charge, charged, set, collected, (), ?_, (), ?_, rfl⟩
  · exact UInt64.not_lt.mpr within
  · rintro ⟨unknown, full⟩
    rcases room with known | free
    · exact unknown known
    · omega

end Trinity
