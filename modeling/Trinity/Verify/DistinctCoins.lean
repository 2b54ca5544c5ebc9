import Mathlib.Algebra.Order.BigOperators.Group.Finset
import Mathlib.Data.List.Duplicate
import Mathlib.Data.List.NodupEquivFin
import Trinity.Verify.Soundness

/-!
The coins an accepted transaction spends, as a set. No check compares two
inputs, so an outpoint may be spent twice; the three sums of the verdict then
exceed the value of the coins by what is counted more than once.
-/
namespace Trinity

open Outcome Word

def knownValue (policy : VerifyPolicy) (outpoint : OutPoint) : Nat :=
  ((policy.knownUtxos.get? outpoint).map fun o => o.value.toNat).getD 0

def Transaction.outpoints (tx : Transaction) : List OutPoint := tx.input.map TxIn.previousOutput

/-- Total known value of the set of coins the transaction spends. -/
def coinsValue (policy : VerifyPolicy) (tx : Transaction) : Nat :=
  ∑ outpoint ∈ tx.outpoints.toFinset, knownValue policy outpoint

theorem sum_eq_sum_toFinset_iff {α : Type*} [DecidableEq α] (xs : List α) (f : α → Nat) :
    (xs.map f).sum = ∑ x ∈ xs.toFinset, f x ↔ ∀ x, 1 < xs.count x → f x = 0 := by
  have once : ∀ x ∈ xs.toFinset, f x ≤ xs.count x • f x := by
    intro x member
    have held := List.count_pos_iff.mpr (List.mem_toFinset.mp member)
    exact Nat.le_mul_of_pos_left (f x) held
  rw [Finset.sum_list_map_count, eq_comm, Finset.sum_eq_sum_iff_of_le once]
  constructor
  · intro same x twice
    have held : x ∈ xs := List.count_pos_iff.mp (by omega)
    have counted := same x (List.mem_toFinset.mpr held)
    rw [Nat.nsmul_eq_mul] at counted
    by_contra value
    have more : 2 * f x ≤ xs.count x * f x := Nat.mul_le_mul_right (f x) twice
    omega
  · intro worthless x member
    have held := List.count_pos_iff.mpr (List.mem_toFinset.mp member)
    by_cases twice : 1 < xs.count x
    · rw [worthless x twice, nsmul_zero]
    · have single : xs.count x = 1 := by omega
      rw [single, one_nsmul]

def Transaction.SpendsTwice (tx : Transaction) (outpoint : OutPoint) : Prop :=
  ∃ i j : Nat, i < j ∧ tx.outpoints[i]? = some outpoint ∧ tx.outpoints[j]? = some outpoint

theorem Transaction.spendsTwice_iff {tx : Transaction} {outpoint : OutPoint} :
    tx.SpendsTwice outpoint ↔ 1 < tx.outpoints.count outpoint := by
  rw [← Nat.succ_le_iff, ← List.duplicate_iff_two_le_count,
    List.duplicate_iff_exists_distinct_get]
  constructor
  · rintro ⟨i, j, before, first, second⟩
    obtain ⟨inside, first⟩ := List.getElem?_eq_some_iff.mp first
    obtain ⟨inside', second⟩ := List.getElem?_eq_some_iff.mp second
    exact ⟨⟨i, inside⟩, ⟨j, inside'⟩, before, first.symm, second.symm⟩
  · rintro ⟨i, j, before, first, second⟩
    exact ⟨i, j, before, by rw [first]; simp, by rw [second]; simp⟩

/-- No outpoint of an accepted payment is spent by two inputs, and its sums add up to the
    known value of the set of coins, exactly if no outpoint is repeated. The sums alone add
    up exactly if every outpoint that is spent twice is worth nothing. -/
theorem verdict_counts_coins_iff (env : Primitives) {psbt : Psbt} {descriptor : Str}
    {policy : VerifyPolicy} {v : PsbtVerdict}
    (accepted : verify env psbt descriptor policy = .ok v) :
    ((∀ outpoint, ¬ psbt.unsignedTx.SpendsTwice outpoint) ∧
        v.amountSats.toNat + v.changeSats.toNat + v.feeSats.toNat =
          coinsValue policy psbt.unsignedTx ↔
      psbt.unsignedTx.outpoints.Nodup) ∧
    (v.amountSats.toNat + v.changeSats.toNat + v.feeSats.toNat =
        coinsValue policy psbt.unsignedTx ↔
      ∀ outpoint, psbt.unsignedTx.SpendsTwice outpoint → knownValue policy outpoint = 0) := by
  obtain ⟨receive, change, classified, utxos, ok⟩ := verify_eq_ok.mp accepted
  have spent : spentValue policy psbt.unsignedTx =
      (psbt.unsignedTx.outpoints.map (knownValue policy)).sum := by
    rw [spentValue, Transaction.outpoints, List.map_map]
    rfl
  have exact_ : v.amountSats.toNat + v.changeSats.toNat + v.feeSats.toNat =
        coinsValue policy psbt.unsignedTx ↔
      ∀ outpoint, psbt.unsignedTx.SpendsTwice outpoint → knownValue policy outpoint = 0 := by
    simp only [Transaction.spendsTwice_iff]
    rw [verified_balance ok, spent]
    exact sum_eq_sum_toFinset_iff _ _
  have once : psbt.unsignedTx.outpoints.Nodup ↔
      ∀ outpoint, ¬ psbt.unsignedTx.SpendsTwice outpoint := by
    simp only [Transaction.spendsTwice_iff, not_lt]
    exact List.nodup_iff_count_le_one
  refine ⟨?_, exact_⟩
  rw [once, and_iff_left_iff_imp]
  intro single
  exact exact_.mpr fun outpoint twice => absurd twice (single outpoint)

/-- The sample payment spends one coin. -/
theorem verdict_counts_coins_sample :
    (∀ outpoint, ¬ Sample.payment.SpendsTwice outpoint) ∧
      60000 + 39000 + 1000 = coinsValue Sample.policy Sample.payment :=
  (verdict_counts_coins_iff Sample.env Sample.accepted).1.mpr (by decide)

namespace Sample

/-- The coin of the payment as two inputs, and its value twice in the outputs. -/
def doubled : Psbt :=
  { psbt with
    unsignedTx := { payment with
      input := [⟨coin, [], 0xfffffffd, []⟩, ⟨coin, [], 0xfffffffd, []⟩]
      output := [⟨60000, recipientScript⟩, ⟨139000, p2wshScript changeHash⟩] }
    inputs := [psbtInput, psbtInput] }

end Sample

/-- One coin spent twice: the verdict accounts for 200000 sats, the coins the
    transaction spends are worth 100000. -/
theorem repeated_coin_accepted :
    verify Sample.env Sample.doubled Sample.receiveDescriptor Sample.policy =
      .ok ⟨true, Sample.recipientAddress, 60000, 139000, 1000, 7⟩ ∧
    Sample.doubled.unsignedTx.SpendsTwice Sample.coin ∧
    coinsValue Sample.policy Sample.doubled.unsignedTx = 100000 := by
  refine ⟨?_, ⟨0, 1, by decide, rfl, rfl⟩, by decide⟩
  rw [verify, verifyIn, Sample.parsed_receive, Sample.parsed_policy]
  decide +kernel

end Trinity
