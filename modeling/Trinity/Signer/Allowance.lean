import Mathlib.Algebra.Order.Field.Basic
import Mathlib.Algebra.Order.Field.Rat
import Mathlib.Data.ENat.Lattice
import Trinity.Signer.Limits

/-!
The allowance as exact arithmetic. A policy has a meaning over unbounded integers,
where no share is no bound. The words of `limits.rs` compute just that: the product
stays below 128 bits, and a share of at most the whole stays below 64.
-/
namespace Trinity

open Outcome Word

namespace SpendPolicy

variable (p : SpendPolicy)

def exactShare (balance : Nat) : ℕ∞ :=
  match p.windowFraction with
  | some f => ((balance * f.numer.toNat / f.denom.toNat : Nat) : ℕ∞)
  | none => ⊤

def exactFloor : Nat := p.windowFloorSat.elim 0 UInt64.toNat

def exactCap : Nat := p.windowCapSat.elim (2 ^ 64 - 1) UInt64.toNat

/-- The share, raised to the floor and lowered to the cap, but no more than there
    is. -/
noncomputable def exactAllowance (balance : Nat) : ℕ∞ :=
  min balance (min (max (p.exactShare balance) p.exactFloor) p.exactCap)

theorem exactShare_mono {balance balance' : Nat} (grows : balance ≤ balance') :
    p.exactShare balance ≤ p.exactShare balance' := by
  unfold exactShare
  cases p.windowFraction with
  | none => exact le_refl ⊤
  | some f => exact Nat.cast_le.mpr (Nat.div_le_div_right (Nat.mul_le_mul_right _ grows))

theorem exactAllowance_mono {balance balance' : Nat} (grows : balance ≤ balance') :
    p.exactAllowance balance ≤ p.exactAllowance balance' :=
  min_le_min (Nat.cast_le.mpr grows)
    (min_le_min_right _ (max_le_max_right _ (p.exactShare_mono grows)))

theorem floor_exact : p.floor.toNat = p.exactFloor := by
  unfold floor exactFloor
  cases p.windowFloorSat with
  | none => rfl
  | some floor => rfl

theorem cap_exact : p.cap.toNat = p.exactCap := by
  unfold cap exactCap
  cases p.windowCapSat with
  | none => rfl
  | some cap => rfl

end SpendPolicy

namespace Ratio

variable (f : Ratio)

theorem denom_pos : 0 < f.denom.toNat := by
  have nonzero := f.denom_ne_zero
  rw [ne_eq, ← UInt64.toNat_inj] at nonzero
  exact Nat.pos_of_ne_zero nonzero

/-- The saturation of the product with a hundred cannot hide a share that is too
    small: what it cuts off lies above every denominator. -/
theorem inRange_iff_nat :
    f.inRange = true ↔ f.numer.toNat ≤ f.denom.toNat ∧ f.denom.toNat ≤ f.numer.toNat * 100 := by
  have positive := f.denom_pos
  have small := toNat_lt_size f.denom
  have scaled := satMul_toNat f.numer 100
  have hundred : (100 : UInt64).toNat = 100 := rfl
  have zero : f.numer = 0 ↔ f.numer.toNat = 0 := UInt64.toNat_inj.symm
  simp only [inRange, decide_eq_true_eq, not_or, UInt64.lt_iff_toNat_lt, scaled, hundred, zero]
  omega

theorem inRange_iff :
    f.inRange = true ↔
      (1 / 100 : ℚ) ≤ f.numer.toNat / f.denom.toNat ∧ (f.numer.toNat / f.denom.toNat : ℚ) ≤ 1 := by
  have positive : (0 : ℚ) < f.denom.toNat := Nat.cast_pos.mpr f.denom_pos
  rw [inRange_iff_nat, div_le_one₀ positive, div_le_div_iff₀ (by decide) positive, one_mul,
    and_comm]
  norm_cast

theorem product_fits (balance : UInt64) :
    saturate128 (balance.toNat * f.numer.toNat) = balance.toNat * f.numer.toNat := by
  have left := toNat_lt_size balance
  have right := toNat_lt_size f.numer
  have product : balance.toNat * f.numer.toNat ≤ (2 ^ 64 - 1) * (2 ^ 64 - 1) :=
    Nat.mul_le_mul (Nat.le_of_lt_succ left) (Nat.le_of_lt_succ right)
  unfold saturate128
  omega

theorem of_exact {f : Ratio} (whole : f.numer.toNat ≤ f.denom.toNat) (balance : UInt64) :
    (f.of balance).toNat = balance.toNat * f.numer.toNat / f.denom.toNat := by
  have fits : balance.toNat * f.numer.toNat / f.denom.toNat ≤ balance.toNat := by
    apply Nat.div_le_of_le_mul
    rw [Nat.mul_comm f.denom.toNat]
    exact Nat.mul_le_mul_left _ whole
  have below := toNat_lt_size balance
  have unclamped : ¬ maxWord.toNat < balance.toNat * f.numer.toNat / f.denom.toNat := by
    rw [maxWord_toNat]
    omega
  simp only [of, f.product_fits balance, if_neg unclamped]
  exact UInt64.toNat_ofNat_of_lt (by omega)

end Ratio

section Validated

variable {p q : SpendPolicy} (valid : p.validate = .ok q)

include valid

theorem validate_share {f : Ratio} (share : p.windowFraction = some f) : f.inRange = true := by
  simp only [SpendPolicy.validate, bind_eq_ok, rejectIf_eq_ok] at valid
  obtain ⟨_, _, _, _, _, range, _⟩ := valid
  simpa [validateFraction, share] using range

theorem allowance_refines (balance : UInt64) :
    ((allowance p balance).toNat : ℕ∞) = p.exactAllowance balance.toNat := by
  obtain ⟨_, ordered, _⟩ := validate_eq_ok valid
  have open_ : ¬ p.cap < p.floor := UInt64.not_lt.mpr ordered
  rw [allowance, if_neg open_, minWord_toNat, clamp_toNat ordered, p.floor_exact, p.cap_exact,
    SpendPolicy.exactAllowance, SpendPolicy.exactShare, min_comm]
  cases share : p.windowFraction with
  | some f =>
    have whole := (f.inRange_iff_nat.mp (validate_share valid share)).1
    rw [Option.map_some, Option.getD_some, Ratio.of_exact whole]
    rfl
  | none =>
    have most : p.exactCap ≤ max maxWord.toNat p.exactFloor := by
      have small := toNat_lt_size p.cap
      rw [p.cap_exact] at small
      rw [maxWord_toNat]
      omega
    rw [Option.map_none, Option.getD_none, Nat.min_eq_right most, max_eq_left le_top,
      min_eq_right le_top]
    rfl

theorem allowance_mono {balance balance' : UInt64} (grows : balance ≤ balance') :
    allowance p balance ≤ allowance p balance' := by
  have exact_ := p.exactAllowance_mono (UInt64.le_iff_toNat_le.mp grows)
  rw [← allowance_refines valid, ← allowance_refines valid] at exact_
  exact UInt64.le_iff_toNat_le.mpr (Nat.cast_le.mp exact_)

end Validated

/-- For a policy that passes `validate` the allowance is the exact one, it grows
    with the balance, and neither the product nor the share is cut off; `validate`
    accepts just the shares from one percent to the whole. -/
theorem allowance_exact :
    (∀ p q : SpendPolicy, p.validate = .ok q →
      (∀ balance : UInt64,
        ((allowance p balance).toNat : ℕ∞) = p.exactAllowance balance.toNat) ∧
      (∀ balance balance', balance ≤ balance' → allowance p balance ≤ allowance p balance') ∧
      ∀ f, p.windowFraction = some f → ∀ balance : UInt64,
        saturate128 (balance.toNat * f.numer.toNat) = balance.toNat * f.numer.toNat ∧
        (f.of balance).toNat = balance.toNat * f.numer.toNat / f.denom.toNat) ∧
    ∀ (n d : UInt64) (nonzero : d ≠ 0),
      validateFraction (some ⟨n, d, nonzero⟩) = .ok () ↔
        (1 / 100 : ℚ) ≤ n.toNat / d.toNat ∧ (n.toNat / d.toNat : ℚ) ≤ 1 := by
  constructor
  · intro p q valid
    refine ⟨allowance_refines valid, fun _ _ => allowance_mono valid, ?_⟩
    intro f share balance
    have whole := (f.inRange_iff_nat.mp (validate_share valid share)).1
    exact ⟨f.product_fits balance, Ratio.of_exact whole balance⟩
  · intro n d nonzero
    rw [← Ratio.inRange_iff ⟨n, d, nonzero⟩]
    simp [validateFraction]

theorem defaults_valid : ∀ p ∈ [SpendPolicy.standard, .off], setSpendPolicy p = .ok p := by
  decide

theorem allowance_exact_sample :
    SpendPolicy.standard.validate = .ok .standard ∧
    ((allowance .standard 1500).toNat : ℕ∞) = SpendPolicy.standard.exactAllowance 1500 := by
  have valid : SpendPolicy.standard.validate = .ok .standard := defaults_valid _ (by simp)
  exact ⟨valid, (allowance_exact.1 _ _ valid).1 1500⟩

example : allowance .standard 1500 = 300 := by decide

end Trinity
