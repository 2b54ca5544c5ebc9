import Mathlib.Algebra.Ring.Nat
import Mathlib.Tactic.Common
import Mathlib.Tactic.Ring

/-!
Fixed-width fields in byte strings: little-endian numbers, the part of a string
between two offsets, and how a field is found behind the fields before it.
-/
namespace Bytes

/-- The `n` low bytes of a number, least significant first. -/
def le : Nat → Nat → List UInt8
  | 0, _ => []
  | n + 1, x => UInt8.ofNat x :: le n (x / 256)

@[simp] theorem le_length (n x : Nat) : (le n x).length = n := by
  induction n generalizing x with
  | zero => rfl
  | succ n ih => rw [le, List.length_cons, ih]

theorem foldr_le (n x : Nat) :
    (le n x).foldr (fun b acc => b.toNat + 256 * acc) 0 = x % 256 ^ n := by
  induction n generalizing x with
  | zero => simp [le, Nat.mod_one]
  | succ n ih =>
    rw [le, List.foldr_cons, ih, UInt8.toNat_ofNat', Nat.pow_succ' (m := 256), Nat.mod_mul]

theorem le_foldr (s : List UInt8) :
    le s.length (s.foldr (fun b acc => b.toNat + 256 * acc) 0) = s := by
  induction s with
  | nil => rfl
  | cons b rest ih =>
    have small := b.toNat_lt
    rw [List.length_cons, le, List.foldr_cons]
    have high : (b.toNat + 256 * rest.foldr (fun b acc => b.toNat + 256 * acc) 0) / 256 =
        rest.foldr (fun b acc => b.toNat + 256 * acc) 0 := by omega
    have low : UInt8.ofNat (b.toNat + 256 * rest.foldr (fun b acc => b.toNat + 256 * acc) 0) =
        b := by
      apply UInt8.toNat_inj.mp
      rw [UInt8.toNat_ofNat']
      omega
    rw [high, low, ih]

def beValue (s : List UInt8) : Nat := s.foldl (fun acc b => acc * 256 + b.toNat) 0

theorem beValue_from (s : List UInt8) (start : Nat) :
    s.foldl (fun acc b => acc * 256 + b.toNat) start = start * 256 ^ s.length + beValue s := by
  unfold beValue
  induction s generalizing start with
  | nil => simp
  | cons b rest ih =>
    rw [List.foldl_cons, ih, List.foldl_cons, ih (0 * 256 + b.toNat), List.length_cons,
      Nat.pow_succ']
    ring

theorem beValue_cons (b : UInt8) (rest : List UInt8) :
    beValue (b :: rest) = b.toNat * 256 ^ rest.length + beValue rest := by
  rw [beValue, List.foldl_cons, beValue_from]
  simp

theorem beValue_lt (s : List UInt8) : beValue s < 256 ^ s.length := by
  induction s with
  | nil => decide
  | cons b rest ih =>
    have small := b.toNat_lt
    have scaled : b.toNat * 256 ^ rest.length ≤ 255 * 256 ^ rest.length :=
      Nat.mul_le_mul_right _ (by omega)
    rw [beValue_cons, List.length_cons, Nat.pow_succ']
    omega

theorem beValue_inj {s t : List UInt8} (width : s.length = t.length)
    (same : beValue s = beValue t) : s = t := by
  induction s generalizing t with
  | nil => exact (List.length_eq_zero_iff.mp width.symm).symm
  | cons b rest ih =>
    cases t with
    | nil => simp at width
    | cons c others =>
      rw [List.length_cons, List.length_cons, Nat.succ.injEq] at width
      rw [beValue_cons, beValue_cons, width] at same
      have left := beValue_lt rest
      have right := beValue_lt others
      rw [width] at left
      have power : 0 < 256 ^ others.length := Nat.pow_pos (by decide)
      have head : b.toNat = c.toNat := by
        have quotient := congrArg (· / 256 ^ others.length) same
        simp only [Nat.mul_comm _ (256 ^ others.length), Nat.mul_add_div power,
          Nat.div_eq_of_lt left, Nat.div_eq_of_lt right, Nat.add_zero] at quotient
        exact quotient
      rw [head] at same
      rw [UInt8.toNat_inj.mp head, ih width (Nat.add_left_cancel same)]

variable {α : Type}

def slice (s : List α) (start stop : Nat) : List α := (s.drop start).take (stop - start)

theorem slice_skip {before rest : List α} {start stop : Nat} (behind : before.length ≤ start) :
    slice (before ++ rest) start stop =
      slice rest (start - before.length) (stop - before.length) := by
  simp only [slice, List.drop_append, List.drop_of_length_le behind, List.nil_append]
  congr 1
  omega

theorem slice_field {field rest : List α} {stop : Nat} (whole : stop = field.length) :
    slice (field ++ rest) 0 stop = field := by
  simp [slice, whole]

theorem slice_at {before field rest : List α} {start stop : Nat} (starts : start = before.length)
    (stops : stop = start + field.length) :
    slice (before ++ (field ++ rest)) start stop = field := by
  rw [slice_skip (Nat.le_of_eq starts.symm), starts, Nat.sub_self]
  exact slice_field (by omega)

theorem slice_length {s : List α} {start stop : Nat} (inside : stop ≤ s.length) :
    (slice s start stop).length = stop - start := by
  rw [slice, List.length_take, List.length_drop]
  omega

theorem slice_append {s : List α} {start middle stop : Nat} (first : start ≤ middle)
    (second : middle ≤ stop) :
    slice s start middle ++ slice s middle stop = slice s start stop := by
  have whole : stop - start = (middle - start) + (stop - middle) := by omega
  have reach : start + (middle - start) = middle := by omega
  rw [slice, slice, slice, whole, List.take_add, List.drop_drop, reach]

theorem slice_whole (s : List α) : slice s 0 s.length = s := by
  simp [slice]

theorem slice_one {s : List α} {i : Nat} {b : α} (here : s[i]? = some b) :
    slice s i (i + 1) = [b] := by
  obtain ⟨inside, rfl⟩ := List.getElem?_eq_some_iff.mp here
  rw [slice, List.drop_eq_getElem_cons inside, Nat.add_sub_cancel_left, List.take_succ_cons,
    List.take_zero]

end Bytes
