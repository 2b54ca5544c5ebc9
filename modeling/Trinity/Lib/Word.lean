import Mathlib.Algebra.BigOperators.Group.List.Basic
import Mathlib.Algebra.Order.BigOperators.Group.List
import Mathlib.Algebra.Ring.Nat
import Mathlib.Data.List.Forall2
import Mathlib.Tactic.Common
import Trinity.Lib.Outcome

/-!
Saturating and checked arithmetic on 64-bit words. Every operation comes with
the exact integer its result stands for, so a proof leaves the words at once
and continues over unbounded Nat.
-/
namespace Word

open Outcome

def maxWord : UInt64 := 18446744073709551615

def satAdd (a b : UInt64) : UInt64 :=
  if a.toNat + b.toNat < UInt64.size then a + b else maxWord

def satSub (a b : UInt64) : UInt64 := if b ≤ a then a - b else 0

def satMul (a b : UInt64) : UInt64 :=
  if a.toNat * b.toNat < UInt64.size then a * b else maxWord

def checkedAdd (a b : UInt64) : Option UInt64 :=
  if a.toNat + b.toNat < UInt64.size then some (a + b) else none

def checkedSub (a b : UInt64) : Option UInt64 := if b ≤ a then some (a - b) else none

def satSum (xs : List UInt64) : UInt64 := xs.foldl satAdd 0

def exactSum (xs : List UInt64) : Nat := (xs.map UInt64.toNat).sum

def minWord (a b : UInt64) : UInt64 := if a ≤ b then a else b

theorem toNat_lt_size (a : UInt64) : a.toNat < UInt64.size := a.toNat_lt

@[simp] theorem maxWord_toNat : maxWord.toNat = UInt64.size - 1 := rfl

theorem add_toNat_exact {a b : UInt64} (fits : a.toNat + b.toNat < UInt64.size) :
    (a + b).toNat = a.toNat + b.toNat := by
  rw [UInt64.toNat_add]
  exact Nat.mod_eq_of_lt fits

theorem satAdd_toNat (a b : UInt64) :
    (satAdd a b).toNat = min (a.toNat + b.toNat) (UInt64.size - 1) := by
  unfold satAdd
  split
  · rename_i fits
    rw [add_toNat_exact fits]
    omega
  · rw [maxWord_toNat]
    omega

theorem satSub_toNat (a b : UInt64) : (satSub a b).toNat = a.toNat - b.toNat := by
  unfold satSub
  split
  · rename_i le
    exact UInt64.toNat_sub_of_le _ _ le
  · rename_i gt
    rw [UInt64.le_iff_toNat_le] at gt
    rw [UInt64.toNat_zero]
    omega

theorem satMul_toNat (a b : UInt64) :
    (satMul a b).toNat = min (a.toNat * b.toNat) (UInt64.size - 1) := by
  unfold satMul
  split
  · rename_i fits
    rw [UInt64.toNat_mul, Nat.mod_eq_of_lt fits]
    omega
  · rw [maxWord_toNat]
    omega

theorem minWord_toNat (a b : UInt64) : (minWord a b).toNat = min a.toNat b.toNat := by
  unfold minWord
  simp only [UInt64.le_iff_toNat_le]
  split_ifs <;> omega

theorem checkedAdd_eq_some {a b c : UInt64} :
    checkedAdd a b = some c ↔ c.toNat = a.toNat + b.toNat := by
  unfold checkedAdd
  split
  · rename_i fits
    rw [Option.some.injEq, ← UInt64.toNat_inj, add_toNat_exact fits]
    exact eq_comm
  · have := toNat_lt_size c
    simp only [reduceCtorEq, false_iff]
    omega

theorem checkedSub_eq_some {a b c : UInt64} :
    checkedSub a b = some c ↔ a.toNat = b.toNat + c.toNat := by
  unfold checkedSub
  split
  · rename_i le
    rw [Option.some.injEq, ← UInt64.toNat_inj, UInt64.toNat_sub_of_le _ _ le]
    rw [UInt64.le_iff_toNat_le] at le
    omega
  · rename_i gt
    rw [UInt64.le_iff_toNat_le] at gt
    simp only [reduceCtorEq, false_iff]
    omega

@[simp] theorem exactSum_nil : exactSum [] = 0 := rfl

@[simp] theorem exactSum_cons (x : UInt64) (xs : List UInt64) :
    exactSum (x :: xs) = x.toNat + exactSum xs := by simp [exactSum]

theorem satSum_from (xs : List UInt64) (start : UInt64) :
    (xs.foldl satAdd start).toNat = min (start.toNat + exactSum xs) (UInt64.size - 1) := by
  induction xs generalizing start with
  | nil =>
    have := toNat_lt_size start
    simp only [List.foldl_nil, exactSum_nil]
    omega
  | cons x xs ih =>
    rw [List.foldl_cons, ih, satAdd_toNat, exactSum_cons]
    omega

theorem satSum_toNat (xs : List UInt64) :
    (satSum xs).toNat = min (exactSum xs) (UInt64.size - 1) := by
  have := satSum_from xs 0
  rwa [UInt64.toNat_zero, Nat.zero_add] at this

theorem satSum_exact {xs : List UInt64} (fits : exactSum xs < UInt64.size) :
    (satSum xs).toNat = exactSum xs := by
  rw [satSum_toNat]
  omega

/-- A loop that reads a value off every element and sums with overflow check:
    it succeeds exactly when every read does and the integer sum is a word. -/
theorem foldlM_checkedAdd {ε α β : Type} {read : α → Outcome ε β} {value : β → UInt64} {e : ε}
    {xs : List α} {start sum : UInt64} :
    xs.foldlM (fun acc x => do okOr (checkedAdd acc (value (← read x))) e) start = .ok sum ↔
      ∃ ys, List.Forall₂ (fun x y => read x = .ok y) xs ys ∧
        sum.toNat = start.toNat + exactSum (ys.map value) := by
  induction xs generalizing start with
  | nil =>
    simp only [List.foldlM_nil, pure_ok, Except.ok.injEq, List.forall₂_nil_left_iff,
      exists_eq_left, List.map_nil, exactSum_nil, Nat.add_zero]
    rw [← UInt64.toNat_inj]
    exact eq_comm
  | cons x xs ih =>
    simp only [List.foldlM_cons, bind_eq_ok, okOr_eq_ok, checkedAdd_eq_some, ih]
    constructor
    · rintro ⟨next, ⟨y, here, added⟩, ys, later, total⟩
      refine ⟨y :: ys, .cons here later, ?_⟩
      rw [List.map_cons, exactSum_cons]
      omega
    · rintro ⟨_, all, total⟩
      obtain ⟨y, ys, here, later, rfl⟩ := List.forall₂_cons_left_iff.mp all
      rw [List.map_cons, exactSum_cons] at total
      have small := toNat_lt_size sum
      have fits : start.toNat + (value y).toNat < UInt64.size := by omega
      refine ⟨start + value y, ⟨y, here, add_toNat_exact fits⟩, ys, later, ?_⟩
      rw [add_toNat_exact fits]
      omega

theorem foldlM_checkedAdd_some {α β : Type} {read : α → Option β} {value : β → UInt64}
    {xs : List α} {start sum : UInt64} :
    xs.foldlM (fun acc x => do checkedAdd acc (value (← read x))) start = some sum ↔
      ∃ ys, List.Forall₂ (fun x y => read x = some y) xs ys ∧
        sum.toNat = start.toNat + exactSum (ys.map value) := by
  have loop := @foldlM_checkedAdd Unit α β (fun x => okOr (read x) ()) value () xs start sum
  rw [← toOption_eq_some, foldlM_toOption] at loop
  simp only [okOr_eq_ok] at loop
  rw [← loop]
  apply Eq.congr_left
  congr 1
  funext acc x
  cases read x with
  | none => rfl
  | some y =>
    cases added : checkedAdd acc (value y) with
    | none => simp [okOr, added, fail, Except.toOption]
    | some z => simp [okOr, added, Except.toOption]

end Word
