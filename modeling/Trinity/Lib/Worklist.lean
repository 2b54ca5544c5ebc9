import Mathlib.Data.List.Basic
import Mathlib.Tactic.Common

/-!
Worklists: the front of a queue is taken, it changes a state and may put entries
at the back. A rank of the state falls by at least the number of entries put, so
the queue runs empty.
-/
structure Worklist (S A : Type) where
  step : S → A → S × List A
  rank : S → ℕ
  falls : ∀ s a, rank (step s a).1 + (step s a).2.length ≤ rank s

namespace Worklist

variable {S A : Type} (l : Worklist S A)

def turns : ℕ → S → List A → S
  | 0, s, _ => s
  | _ + 1, s, [] => s
  | n + 1, s, a :: queue => turns n (l.step s a).1 (queue ++ (l.step s a).2)

/-- The loop, with as many turns as the rank and the queue can need. -/
def run (s : S) (queue : List A) : S := l.turns (l.rank s + queue.length) s queue

variable {l} {s : S}

theorem turns_nil (n : ℕ) (s : S) : l.turns n s [] = s := by
  cases n <;> rfl

theorem turns_eq_run {n : ℕ} {queue : List A} (enough : l.rank s + queue.length ≤ n) :
    l.turns n s queue = l.run s queue := by
  have more : ∀ m n (s : S) (queue : List A), l.rank s + queue.length ≤ m →
      l.rank s + queue.length ≤ n → l.turns m s queue = l.turns n s queue := by
    intro m
    induction m with
    | zero =>
      intro n s queue enough _
      obtain rfl : queue = [] := List.length_eq_zero_iff.mp (by omega)
      rw [turns_nil, turns_nil]
    | succ m ih =>
      intro n s queue enough enough'
      cases queue with
      | nil => rw [turns_nil, turns_nil]
      | cons a queue =>
        have falls := l.falls s a
        rw [List.length_cons] at enough enough'
        obtain ⟨n, rfl⟩ : ∃ k, n = k + 1 := ⟨n - 1, by omega⟩
        apply ih
        · rw [List.length_append]
          omega
        · rw [List.length_append]
          omega
  exact more n _ s queue enough (Nat.le_refl _)

theorem run_cons (s : S) (a : A) (queue : List A) :
    l.run s (a :: queue) = l.run (l.step s a).1 (queue ++ (l.step s a).2) := by
  have falls := l.falls s a
  have enough : l.rank s + (a :: queue).length ≤ l.rank s + queue.length + 1 := by
    rw [List.length_cons]
    omega
  rw [← turns_eq_run enough]
  show l.turns (l.rank s + queue.length) (l.step s a).1 (queue ++ (l.step s a).2) = _
  apply turns_eq_run
  rw [List.length_append]
  omega

theorem run_keeps (State : S → Prop) (Entry : A → Prop)
    (step : ∀ s a, State s → Entry a → State (l.step s a).1 ∧ ∀ b ∈ (l.step s a).2, Entry b)
    {queue : List A} (start : State s) (entries : ∀ a ∈ queue, Entry a) :
    State (l.run s queue) := by
  unfold run
  generalize l.rank s + queue.length = n
  induction n generalizing s queue with
  | zero => exact start
  | succ n ih =>
    cases queue with
    | nil => exact start
    | cons a queue =>
      obtain ⟨next, more⟩ := step s a start (entries a List.mem_cons_self)
      apply ih next
      intro b member
      rcases List.mem_append.mp member with old | new
      · exact entries b (List.mem_cons_of_mem _ old)
      · exact more b new

end Worklist
