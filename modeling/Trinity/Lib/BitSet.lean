import Mathlib.Data.Set.Insert
import Mathlib.Tactic.Common

/-!
A set of small numbers in the bits of a word. A single bit, shifted to a number,
asks whether the number is in the set and adds it.
-/
namespace BitSet

variable {w : Nat}

def members (mask : BitVec w) : Set Nat := {i | mask.getLsbD i = true}

theorem mem_members {mask : BitVec w} {i : Nat} :
    i ∈ members mask ↔ mask.getLsbD i = true := Iff.rfl

theorem members_zero : members 0#w = ∅ := by
  ext i
  simp [mem_members]

theorem test_iff {mask : BitVec w} {i : Nat} (inside : i < w) :
    mask &&& 1#w <<< i ≠ 0#w ↔ i ∈ members mask := by
  rw [← BitVec.twoPow_eq, BitVec.and_twoPow]
  have bit : BitVec.twoPow w i ≠ 0#w := by
    intro zero
    have off := congrArg (BitVec.getLsbD · i) zero
    simp [inside] at off
  cases on : mask.getLsbD i with
  | true => simp [mem_members, on, bit]
  | false => simp [mem_members, on]

theorem members_add (mask : BitVec w) {i : Nat} (inside : i < w) :
    members (mask ||| 1#w <<< i) = insert i (members mask) := by
  ext j
  rw [← BitVec.twoPow_eq]
  simp only [mem_members, Set.mem_insert_iff, BitVec.getLsbD_or,
    BitVec.getLsbD_twoPow, Bool.or_eq_true, Bool.and_eq_true, decide_eq_true_eq]
  constructor
  · rintro (old | ⟨_, here⟩)
    · exact .inr old
    · exact .inl here.symm
  · rintro (rfl | old)
    · exact .inr ⟨inside, rfl⟩
    · exact .inl old

end BitSet
