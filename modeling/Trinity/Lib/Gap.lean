import Mathlib.Tactic.Common

/-!
Hits on the positions of a sequence: how many positions have passed since the
last hit, and which one that was.
-/
namespace Gap

variable (hit : Nat → Prop) [DecidablePred hit]

/-- The positions in front of `n` since the last hit. -/
def quiet : Nat → Nat
  | 0 => 0
  | n + 1 => if hit n then 0 else quiet n + 1

def lastHit : Nat → Option Nat
  | 0 => none
  | n + 1 => if hit n then some n else lastHit n

variable {hit} {n m : Nat}

theorem quiet_succ_hit (here : hit n) : quiet hit (n + 1) = 0 := if_pos here

theorem quiet_succ_miss (here : ¬ hit n) : quiet hit (n + 1) = quiet hit n + 1 := if_neg here

theorem lastHit_succ_hit (here : hit n) : lastHit hit (n + 1) = some n := if_pos here

theorem lastHit_succ_miss (here : ¬ hit n) : lastHit hit (n + 1) = lastHit hit n := if_neg here

theorem quiet_le : quiet hit n ≤ n := by
  induction n with
  | zero => exact Nat.le_refl 0
  | succ n ih =>
    rw [quiet]
    split_ifs
    · omega
    · omega

theorem not_hit_of_quiet (before : m < n) (recent : n ≤ m + quiet hit n) : ¬ hit m := by
  induction n with
  | zero => omega
  | succ n ih =>
    by_cases here : hit n
    · rw [quiet_succ_hit here] at recent
      omega
    · rw [quiet_succ_miss here] at recent
      by_cases last : m = n
      · exact last ▸ here
      · exact ih (by omega) (by omega)

theorem le_add_quiet {bound : Nat} (bounded : ∀ k, hit k → k < bound) :
    n ≤ bound + quiet hit n := by
  induction n with
  | zero => omega
  | succ n ih =>
    by_cases here : hit n
    · have := bounded n here
      omega
    · rw [quiet_succ_miss here]
      omega

theorem lastHit_eq_none : lastHit hit n = none ↔ ∀ k < n, ¬ hit k := by
  induction n with
  | zero => simp [lastHit]
  | succ n ih =>
    by_cases here : hit n
    · rw [lastHit_succ_hit here]
      exact iff_of_false (by simp) fun never => never n (Nat.lt_succ_self n) here
    · rw [lastHit_succ_miss here, ih, Nat.forall_lt_succ_right]
      exact (and_iff_left here).symm

theorem lastHit_eq_some (found : lastHit hit n = some m) :
    m < n ∧ hit m ∧ ∀ k < n, hit k → k ≤ m := by
  induction n with
  | zero => simp [lastHit] at found
  | succ n ih =>
    by_cases here : hit n
    · rw [lastHit_succ_hit here, Option.some.injEq] at found
      subst found
      exact ⟨Nat.lt_succ_self n, here, fun k before _ => Nat.lt_succ_iff.mp before⟩
    · rw [lastHit_succ_miss here] at found
      obtain ⟨before, hits, last⟩ := ih found
      refine ⟨Nat.lt_succ_of_lt before, hits, fun k inside also => ?_⟩
      rcases Nat.lt_succ_iff_lt_or_eq.mp inside with earlier | rfl
      · exact last k earlier also
      · exact absurd also here

end Gap
