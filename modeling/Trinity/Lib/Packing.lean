import Mathlib.Algebra.Ring.Nat
import Mathlib.Tactic.Common

/-!
Numbers side by side in a 32-bit word: shifts and a bitwise or put them there, a
shift and a mask take one out.
-/
namespace Packing

theorem shiftLeft_toNat {x k : UInt32} {w : Nat} (shift : k.toNat % 32 = w)
    (fits : x.toNat * 2 ^ w < 2 ^ 32) : (x <<< k).toNat = x.toNat * 2 ^ w := by
  rw [UInt32.toNat_shiftLeft, shift, Nat.shiftLeft_eq, Nat.mod_eq_of_lt fits]

theorem or_toNat {x y : UInt32} (w : Nat) (free : 2 ^ w ∣ x.toNat) (low : y.toNat < 2 ^ w) :
    (x ||| y).toNat = x.toNat + y.toNat := by
  obtain ⟨high, scaled⟩ := free
  rw [UInt32.toNat_or, scaled, Nat.two_pow_add_eq_or_of_lt low]

theorem low_toNat {x mask : UInt32} {w : Nat} (ones : mask.toNat = 2 ^ w - 1) :
    (x &&& mask).toNat = x.toNat % 2 ^ w := by
  rw [UInt32.toNat_and, ones, Nat.and_two_pow_sub_one_eq_mod]

theorem field_toNat {x k mask : UInt32} {s w : Nat} (shift : k.toNat % 32 = s)
    (ones : mask.toNat = 2 ^ w - 1) : (x >>> k &&& mask).toNat = x.toNat / 2 ^ s % 2 ^ w := by
  rw [low_toNat ones, UInt32.toNat_shiftRight, shift, Nat.shiftRight_eq_div_pow]

end Packing
