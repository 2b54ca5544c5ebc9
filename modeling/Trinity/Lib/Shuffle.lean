import Mathlib.Data.List.Perm.Basic
import Mathlib.Tactic.Common

/-!
The Knuth shuffle over a stream of random words: from the last place down, each
place is swapped with a drawn place at or before it. The result is always a
rearrangement.
-/
namespace Shuffle

variable {α : Type}

/-- The words a random source still has to give, the next one first. -/
abbrev Draws : Type := ℕ → UInt32

def Draws.skip (draws : Draws) (n : ℕ) : Draws := fun k => draws (k + n)

def swap (l : List α) (i j : ℕ) : List α :=
  match l[i]?, l[j]? with
  | some a, some b => (l.set i b).set j a
  | _, _ => l

def knuth (draws : Draws) : ℕ → List α → List α
  | 0, l => l
  | k + 1, l => knuth (draws.skip 1) k (swap l (k + 1) ((draws 0).toNat % (k + 2)))

theorem swap_eq {l : List α} {i j : ℕ} (low : i < l.length) (low' : j < l.length) :
    swap l i j = (l.set i l[j]).set j l[i] := by
  simp [swap, List.getElem?_eq_getElem low, List.getElem?_eq_getElem low']

theorem swap_perm (l : List α) (i j : ℕ) : (swap l i j).Perm l := by
  by_cases inside : i < l.length ∧ j < l.length
  · rw [swap_eq inside.1 inside.2]
    exact List.set_set_perm inside.1 inside.2
  · have same : swap l i j = l := by
      unfold swap
      split
      · rename_i first second
        have low := (List.getElem?_eq_some_iff.mp first).1
        have low' := (List.getElem?_eq_some_iff.mp second).1
        exact absurd ⟨low, low'⟩ inside
      · rfl
    rw [same]

theorem knuth_perm (draws : Draws) (k : ℕ) (l : List α) : (knuth draws k l).Perm l := by
  induction k generalizing draws l with
  | zero => exact List.Perm.refl l
  | succ k ih => exact (ih _ _).trans (swap_perm l _ _)

end Shuffle
