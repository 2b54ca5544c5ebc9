import Trinity.Lib.BranchBound
import Trinity.Watch.CoinSelection

/-!
The search loop of `bnb` against the search of the library: the variables of the
loop are those of a path, no sum of it overflows, and where the loop ends before
its tries are spent nothing in range beats what it has recorded.
-/
namespace Trinity.Watch

open Outcome BranchBound

variable {ε : Type}

theorem signed_eq_ok {x y : ℤ} : (signed x : Outcome ε ℤ) = .ok y ↔ FitsSigned x ∧ y = x := by
  unfold signed
  rw [bind_eq_ok]
  simp only [abortUnless_eq_ok, pure_eq_ok]
  constructor
  · rintro ⟨_, fits, same⟩
    exact ⟨fits, same.symm⟩
  · rintro ⟨fits, same⟩
    exact ⟨(), fits, same.symm⟩

theorem signed_of_fits {x : ℤ} (fits : FitsSigned x) : (signed x : Outcome ε ℤ) = .ok x :=
  signed_eq_ok.mpr ⟨fits, rfl⟩

theorem signed_of_bounds {x : ℤ} (low : -2 ^ 63 ≤ x) (high : x < 2 ^ 63) :
    (signed x : Outcome ε ℤ) = .ok x :=
  signed_of_fits ⟨low, high⟩

/-- Every amount the search can come across is a signed amount. -/
structure Fits (P : Problem) : Prop where
  base : -2 ^ 63 ≤ P.base
  items : P.items.sum < 2 ^ 63
  total : P.base + P.items.sum < 2 ^ 63
  limit : FitsSigned P.limit

structure Recorded (P : Problem) (s : BnbState) : Prop where
  best : ∀ b, s.bestSelectionValue = some b →
    P.worth s.bestSelection = b ∧ P.target ≤ b ∧ b ≤ P.limit
  unset : s.bestSelectionValue = none → s.bestSelection = []

/-- The loop variables are those of a path with everything behind it explored. -/
structure Tracks (P : Problem) (s : BnbState) : Prop extends Recorded P s where
  value : s.currValue = P.reached s.currentSelection
  available : s.currAvailableValue = P.left s.currentSelection
  explored : P.Explored s.currentSelection s.bestSelectionValue

structure Finished (P : Problem) (s : BnbState) : Prop extends Recorded P s where
  settled : ∀ c, P.Complete c → P.Settled s.bestSelectionValue c

inductive TurnEnds (P : Problem) (s : BnbState) : Outcome BnbError BnbTurn → Prop where
  | next {s' : BnbState} (tracks : Tracks P s')
      (less : nodesAhead P.items.length s'.currentSelection <
        nodesAhead P.items.length s.currentSelection) : TurnEnds P s (.ok (.next s'))
  | stop {s' : BnbState} (finished : Finished P s') : TurnEnds P s (.ok (.stop s'))
  | noMatch {s' : BnbState} (finished : Finished P s') (empty : s'.bestSelection = []) :
      TurnEnds P s (fail .noExactMatch)

section Turn

variable {P : Problem} {s : BnbState}

theorem popExcluded_spec (fits : Fits P) {best : Option ℤ} (path : List Bool)
    (closed : P.Closed path best) :
    ∃ k rest, popExcluded P.items path (P.left path) = .ok (rest, P.left rest) ∧
      path = List.replicate k false ++ rest ∧ P.Closed rest best ∧
        (rest = [] ∨ ∃ r, rest = true :: r) := by
  induction path with
  | nil => exact ⟨0, [], by simp [popExcluded], by simp, closed, .inl rfl⟩
  | cons b path ih =>
    cases b with
    | true => exact ⟨0, true :: path, by simp [popExcluded], by simp, closed, .inr ⟨path, rfl⟩⟩
    | false =>
      have room : path.length < P.items.length := closed.fits
      have item := List.getElem?_eq_getElem room
      have restored : P.left (false :: path) + P.items[path.length] = P.left path := by
        have := Problem.left_decide (P := P) false item
        omega
      have bounds := Problem.reached_add_left_le (P := P) path
      have low := Problem.base_le_reached (P := P) path
      have nonneg := Problem.left_nonneg (P := P) path
      have smaller : P.left path ≤ P.items.sum := by omega
      have sum : (signed (P.left (false :: path) + P.items[path.length]) : Outcome BnbError ℤ) =
          .ok (P.left path) := by
        rw [restored]
        exact signed_of_bounds (by omega) (by have := fits.items; omega)
      obtain ⟨k, rest, run, split, closed', ends⟩ := ih closed.pop
      refine ⟨k + 1, rest, ?_, by simp [split, List.replicate_succ], closed', ends⟩
      simp only [popExcluded, item, expect, bind_ok, sum, run]

theorem backtrack_ends (fits : Fits P) (recorded : Recorded P s)
    (value : s.currValue = P.reached s.currentSelection)
    (available : s.currAvailableValue = P.left s.currentSelection)
    (closed : P.Closed s.currentSelection s.bestSelectionValue) :
    TurnEnds P s (backtrack P.items s) := by
  obtain ⟨k, rest, run, split, closed', ends⟩ := popExcluded_spec fits _ closed
  rw [← available] at run
  rcases ends with rfl | ⟨r, rfl⟩
  · -- No inclusion is left: everything is settled.
    have settled := closed'.all_settled
    simp only [backtrack, run, bind_ok]
    by_cases empty : s.bestSelection = []
    · have finished : Finished P s := ⟨recorded, settled⟩
      simpa [rejectIf, empty, fail, bind, Except.bind] using
        TurnEnds.noMatch (s := s) finished empty
    · rw [rejectIf_of_not _ empty]
      exact .stop ⟨⟨recorded.best, recorded.unset⟩, settled⟩
  · have room : r.length < P.items.length := closed'.fits
    have item := List.getElem?_eq_getElem room
    have decided : P.reached s.currentSelection = P.reached (true :: r) := by
      rw [split]
      clear split run closed value available
      induction k with
      | zero => simp
      | succ k ih => rw [List.replicate_succ, List.cons_append, Problem.reached_exclude, ih]
    have without : s.currValue - P.items[r.length] = P.reached (false :: r) := by
      have := Problem.reached_include (P := P) item
      rw [value, decided, Problem.reached_exclude]
      omega
    have bounds := Problem.reached_add_left_le (P := P) (false :: r)
    have low := Problem.base_le_reached (P := P) (false :: r)
    have nonneg := Problem.left_nonneg (P := P) (false :: r)
    have sum : (signed (s.currValue - P.items[r.length]) : Outcome BnbError ℤ) =
        .ok (P.reached (false :: r)) := by
      rw [without]
      exact signed_of_bounds (by have := fits.base; omega) (by have := fits.total; omega)
    have left : P.left (true :: r) = P.left (false :: r) := by simp [Problem.left]
    simp only [backtrack, run, bind_ok, item, expect, sum]
    refine .next ⟨⟨recorded.best, recorded.unset⟩, rfl, left, closed'.exclude⟩ ?_
    rw [split]
    exact nodesAhead_exclude k room

theorem forward_ends (fits : Fits P) (tracks : Tracks P s)
    (short : P.reached s.currentSelection < P.target)
    (reachable : P.target ≤ P.reached s.currentSelection + P.left s.currentSelection) :
    TurnEnds P s (forward P.items s) := by
  obtain ⟨recorded, value, available, explored⟩ := tracks
  have room : s.currentSelection.length < P.items.length := by
    by_contra full
    have none_left : P.left s.currentSelection = 0 := by
      rw [Problem.left, List.drop_eq_nil_of_le (by omega), List.sum_nil]
    omega
  have item := List.getElem?_eq_getElem room
  have more := Problem.reached_include (P := P) item
  have less := Problem.left_decide (P := P) true item
  have bounds := Problem.reached_add_left_le (P := P) (true :: s.currentSelection)
  have low := Problem.base_le_reached (P := P) (true :: s.currentSelection)
  have nonneg := Problem.left_nonneg (P := P) (true :: s.currentSelection)
  have difference : (signed (s.currAvailableValue - P.items[s.currentSelection.length]) :
      Outcome BnbError ℤ) = .ok (P.left (true :: s.currentSelection)) := by
    rw [available, ← less]
    exact signed_of_bounds (by omega) (by have := fits.items; omega)
  have sum : (signed (s.currValue + P.items[s.currentSelection.length]) : Outcome BnbError ℤ) =
      .ok (P.reached (true :: s.currentSelection)) := by
    rw [value, ← more]
    exact signed_of_bounds (by have := fits.base; omega) (by have := fits.total; omega)
  simp only [forward, item, expect, bind_ok, difference, sum]
  refine .next ⟨⟨recorded.best, recorded.unset⟩, rfl, rfl, explored.include_next room⟩ ?_
  exact Nat.lt_of_succ_le (nodesAhead_include room).le

theorem record_spec (tracks : Tracks P s) (least : P.target ≤ s.currValue)
    (most : s.currValue ≤ P.limit) :
    Recorded P s.record ∧ ∃ b, s.record.bestSelectionValue = some b ∧ b ≤ s.currValue ∧
      P.Explored s.currentSelection (some b) := by
  obtain ⟨recorded, value, _, explored⟩ := tracks
  unfold BnbState.record
  split
  · rename_i better
    refine ⟨⟨?_, by simp⟩, s.currValue, rfl, le_refl _, explored.improve ?_⟩
    · intro b same
      obtain rfl : s.currValue = b := by simpa using same
      exact ⟨value.symm, least, most⟩
    · intro b known
      rw [Option.mem_def] at known
      rw [known] at better
      exact (by simpa using better : s.currValue < b).le
  · rename_i worse
    cases known : s.bestSelectionValue with
    | none => simp [known] at worse
    | some b =>
      rw [known] at worse explored
      exact ⟨recorded, b, rfl, by simpa using worse, explored⟩

@[simp] theorem record_currentSelection (s : BnbState) :
    s.record.currentSelection = s.currentSelection := by
  unfold BnbState.record
  split <;> rfl

@[simp] theorem record_currValue (s : BnbState) : s.record.currValue = s.currValue := by
  unfold BnbState.record
  split <;> rfl

@[simp] theorem record_currAvailableValue (s : BnbState) :
    s.record.currAvailableValue = s.currAvailableValue := by
  unfold BnbState.record
  split <;> rfl

theorem finished_of_exact (tracks : Tracks P s) (exact_match : s.currValue = P.target)
    (most : P.target ≤ P.limit) : Finished P s.record := by
  obtain ⟨recorded, b, known, low, _⟩ := record_spec tracks exact_match.ge (exact_match ▸ most)
  refine ⟨recorded, fun c _ reaches => ⟨b, known, ?_⟩⟩
  have := reaches.1
  omega

theorem outOfRange_spec {costOfChange : ℤ} (fits : Fits P) (tracks : Tracks P s)
    (limit : P.limit = P.target + costOfChange) :
    outOfRange P.target costOfChange s =
      .ok (decide (P.reached s.currentSelection + P.left s.currentSelection < P.target ∨
        P.limit < P.reached s.currentSelection)) := by
  obtain ⟨_, value, available, _⟩ := tracks
  have bounds := Problem.reached_add_left_le (P := P) s.currentSelection
  have low := Problem.base_le_reached (P := P) s.currentSelection
  have nonneg := Problem.left_nonneg (P := P) s.currentSelection
  have reach : (signed (s.currValue + s.currAvailableValue) : Outcome BnbError ℤ) =
      .ok (P.reached s.currentSelection + P.left s.currentSelection) := by
    rw [value, available]
    exact signed_of_bounds (by have := fits.base; omega) (by have := fits.total; omega)
  have high : (signed (P.target + costOfChange) : Outcome BnbError ℤ) = .ok P.limit := by
    rw [← limit]
    exact signed_of_fits fits.limit
  simp only [outOfRange, reach, high, bind_ok]
  split
  · rename_i short
    simp [short]
  · rename_i enough
    simp [enough, value]

theorem bnbTurn_ends {costOfChange : ℤ} (fits : Fits P) (tracks : Tracks P s)
    (limit : P.limit = P.target + costOfChange) (cost : 0 ≤ costOfChange) :
    TurnEnds P s (bnbTurn P.items P.target costOfChange s) := by
  have tracked := tracks
  obtain ⟨recorded, value, available, explored⟩ := tracks
  simp only [bnbTurn, outOfRange_spec fits tracked limit, bind_ok, decide_eq_true_eq]
  split
  · rename_i out
    exact backtrack_ends fits recorded value available (explored.prune out)
  · rename_i inside
    obtain ⟨reachable, most⟩ : P.target ≤ P.reached s.currentSelection + P.left s.currentSelection ∧
        P.reached s.currentSelection ≤ P.limit := by omega
    rw [value]
    split
    · rename_i least
      split
      · rename_i exact_match
        exact .stop (finished_of_exact tracked (value.trans exact_match) (by omega))
      · obtain ⟨recorded', b, known, low, explored'⟩ :=
          record_spec tracked (value ▸ least) (value ▸ most)
        have closed : P.Closed s.record.currentSelection s.record.bestSelectionValue := by
          rw [known, record_currentSelection]
          exact explored'.record (value ▸ low)
        have ends := backtrack_ends fits recorded' (by simp [value]) (by simp [available]) closed
        cases ends' : backtrack P.items s.record with
        | error e =>
          rw [ends'] at ends
          cases ends with
          | noMatch finished empty => exact .noMatch finished empty
        | ok turn =>
          rw [ends'] at ends
          cases ends with
          | next tracks less => exact .next tracks (by simpa using less)
          | stop finished => exact .stop finished
    · rename_i short
      exact forward_ends fits tracked (by omega) reachable

end Turn

inductive LoopEnds (P : Problem) (spent : Prop) : Outcome BnbError BnbState → Prop where
  | finished {s : BnbState} (finished : Finished P s) : LoopEnds P spent (.ok s)
  | cut {s : BnbState} (recorded : Recorded P s) (few : spent) : LoopEnds P spent (.ok s)
  | noMatch {s : BnbState} (finished : Finished P s) (empty : s.bestSelection = []) :
      LoopEnds P spent (fail .noExactMatch)

theorem LoopEnds.weaken {P : Problem} {few spent : Prop} {x : Outcome BnbError BnbState}
    (weaker : few → spent) (ends : LoopEnds P few x) : LoopEnds P spent x := by
  cases ends with
  | finished finished => exact .finished finished
  | cut recorded short => exact .cut recorded (weaker short)
  | noMatch finished empty => exact .noMatch finished empty

theorem bnbLoop_ends {P : Problem} {costOfChange : ℤ} (fits : Fits P)
    (limit : P.limit = P.target + costOfChange) (cost : 0 ≤ costOfChange) (tries : ℕ)
    {s : BnbState} (tracks : Tracks P s) :
    LoopEnds P (tries < nodesAhead P.items.length s.currentSelection)
      (bnbLoop P.items P.target costOfChange tries s) := by
  induction tries generalizing s with
  | zero => exact .cut tracks.toRecorded (nodesAhead_pos _ _)
  | succ tries ih =>
    have ends := bnbTurn_ends fits tracks limit cost
    rw [bnbLoop]
    generalize bnbTurn P.items P.target costOfChange s = turn at ends
    cases ends with
    | next tracks' less => exact (ih tracks').weaken fun few => by omega
    | stop finished => exact .finished finished
    | noMatch finished empty => exact .noMatch finished empty

theorem tracks_start (P : Problem) : Tracks P ⟨[], P.base, P.items.sum, [], none⟩ :=
  ⟨⟨by simp, by simp⟩, by simp, by simp, Problem.explored_nil⟩

end Trinity.Watch
