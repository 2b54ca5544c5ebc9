import Trinity.Watch.SelectedCoins

/-!
When a coin selection succeeds, for every random source: it never aborts on
amounts that exist, what it reports as missing is missing, and where few coins
can match the target without change the match with the least excess is the
result.
-/
namespace Trinity.Watch

open Outcome Word BranchBound Shuffle

namespace Sample

def order : ValueOrder where
  sort groups := groups.mergeSort fun a b => b.effectiveValue ≤ a.effectiveValue
  perm groups := List.mergeSort_perm groups _
  descending groups := by
    have sorted : (groups.mergeSort fun a b => b.effectiveValue ≤ a.effectiveValue).Pairwise
        fun a b => decide (b.effectiveValue ≤ a.effectiveValue) = true := by
      refine List.pairwise_mergeSort (fun a b c first second => ?_) (fun a b => ?_) groups
      · simp only [decide_eq_true_eq] at first second ⊢
        omega
      · simp only [Bool.or_eq_true, decide_eq_true_eq]
        omega
    simpa using sorted

def coin (vout : UInt32) (value : UInt64) : WeightedUtxo :=
  ⟨253, ⟨⟨0, vout⟩, ⟨value, p2wshScript 0⟩, .external, vout⟩⟩

/-- At ten satoshis a virtual byte, the last coin is not worth its fee. -/
def coins : List WeightedUtxo := [coin 0 60000, coin 1 30000, coin 2 1000]

def feeRate : UInt64 := 2500

end Sample

variable {ε : Type} {order : ValueOrder} {optional : List WeightedUtxo}
  {feeRate targetAmount : UInt64} {drainScript : Script}

section Steps

theorem plus_of_fits {a b : UInt64} (fits : a.toNat + b.toNat < 2 ^ 64) :
    (plus a b : Outcome ε UInt64) = .ok (a + b) :=
  plus_eq_ok.mpr (add_toNat_exact fits)

theorem minus_of_le {a b : UInt64} (le : b.toNat ≤ a.toNat) :
    ∃ c, (minus a b : Outcome ε UInt64) = .ok c :=
  ⟨a - b, minus_eq_ok.mpr (by
    rw [UInt64.toNat_sub_of_le _ _ (UInt64.le_iff_toNat_le.mpr le)]
    omega)⟩

theorem sumChecked_of_fits {xs : List UInt64} (fits : exactSum xs < 2 ^ 64) :
    ∃ sum, (sumChecked xs : Outcome ε UInt64) = .ok sum ∧ sum.toNat = exactSum xs := by
  have from_start : ∀ (start : UInt64), start.toNat + exactSum xs < 2 ^ 64 →
      ∃ sum, (xs.foldlM plus start : Outcome ε UInt64) = .ok sum ∧
        sum.toNat = start.toNat + exactSum xs := by
    clear fits
    induction xs with
    | nil => intro start _; exact ⟨start, rfl, by simp⟩
    | cons x xs ih =>
      intro start fits
      rw [exactSum_cons] at fits ⊢
      have first : (start + x).toNat = start.toNat + x.toNat :=
        add_toNat_exact (by show _ < 2 ^ 64; omega)
      obtain ⟨sum, run, total⟩ := ih (start + x) (by omega)
      refine ⟨sum, ?_, by omega⟩
      rw [List.foldlM_cons, plus_of_fits (by omega), bind_ok, run]
  simpa [sumChecked] using from_start 0 (by simpa using fits)

theorem sumSigned_of_fits {xs : List ℤ} (nonneg : ∀ x ∈ xs, 0 ≤ x) (fits : xs.sum < 2 ^ 63) :
    (sumSigned xs : Outcome ε ℤ) = .ok xs.sum := by
  have from_start : ∀ start, 0 ≤ start → start + xs.sum < 2 ^ 63 →
      (xs.foldlM (fun acc x => signed (acc + x)) start : Outcome ε ℤ) = .ok (start + xs.sum) := by
    clear fits
    induction xs with
    | nil => intro start _ _; simp
    | cons x xs ih =>
      intro start positive fits
      have first := nonneg x List.mem_cons_self
      have rest : ∀ y ∈ xs, 0 ≤ y := fun y member => nonneg y (List.mem_cons_of_mem x member)
      have more := List.sum_nonneg rest
      rw [List.sum_cons] at fits ⊢
      rw [List.foldlM_cons, signed_of_bounds (by omega) (by omega), bind_ok,
        ih rest (start + x) (by omega) (by omega), add_assoc]
  simpa [sumSigned] using from_start 0 (le_refl 0) (by simpa using fits)

theorem value_le_worthOf {u : WeightedUtxo} {us : List WeightedUtxo} (member : u ∈ us) :
    u.value.toNat ≤ worthOf us := by
  have first := worthOf_le_of_sublist (List.singleton_sublist.mpr member)
  simpa using first

theorem toSigned_of_small {a : UInt64} (small : a.toNat < 2 ^ 63) :
    (toSigned a : Outcome ε ℤ) = .ok a.toNat := signed_of_bounds (by omega) (by omega)

theorem OutputGroup.new_of_small {u : WeightedUtxo} (small : u.value.toNat ≤ maxMoney)
    (light : u.weight < 2 ^ 64) :
    (OutputGroup.new feeRate u : Outcome ε OutputGroup) = .ok (groupOf feeRate u) := by
  have fee := mulFeeRate_small feeRate (.ofNat u.weight)
  unfold maxMoney at small
  have weight : (u.inputWeight : Outcome ε UInt64) = .ok (.ofNat u.weight) :=
    inputWeight_eq_ok.mpr ⟨light, rfl⟩
  rw [OutputGroup.new, weight, bind_ok, groupOf]
  generalize mulFeeRate (.ofNat u.weight) feeRate = cost at fee
  rw [toSigned_of_small (by omega), bind_ok, toSigned_of_small (by omega), bind_ok,
    signed_of_bounds (by omega) (by omega), bind_ok, pure_ok]

theorem mapM_new_of_small {us : List WeightedUtxo} (small : worthOf us ≤ maxMoney)
    (light : ∀ u ∈ us, u.weight < 2 ^ 64) :
    (us.mapM (OutputGroup.new feeRate) : Outcome ε _) = .ok (us.map (groupOf feeRate)) := by
  rw [mapM_eq_ok, List.forall₂_map_right_iff]
  exact List.forall₂_same.mpr fun u member =>
    OutputGroup.new_of_small ((value_le_worthOf member).trans small) (light u member)

theorem effective_nonneg {u : WeightedUtxo} (member : u ∈ economic feeRate optional) :
    0 ≤ (groupOf feeRate u).effectiveValue := by
  have positive : 0 < (groupOf feeRate u).effectiveValue := by
    simpa using (List.mem_filter.mp member).2
  omega

theorem effectiveOf_economic_nonneg (feeRate : UInt64) (optional : List WeightedUtxo) :
    0 ≤ effectiveOf feeRate (economic feeRate optional) :=
  List.sum_nonneg fun x member => by
    obtain ⟨u, chosen, rfl⟩ := List.mem_map.mp member
    exact effective_nonneg chosen

theorem effectiveOf_le_economic {coins : List WeightedUtxo}
    (sub : coins.Subperm (economic feeRate optional)) :
    effectiveOf feeRate coins ≤ effectiveOf feeRate (economic feeRate optional) := by
  obtain ⟨coins', perm, sublist⟩ := sub
  rw [effectiveOf, ← (perm.map _).sum_eq]
  refine (sublist.map _).sum_le_sum fun x member => ?_
  obtain ⟨u, chosen, rfl⟩ := List.mem_map.mp member
  exact effective_nonneg chosen

end Steps

/-- The coins are worth no more than there are satoshis, the target leaves room for
    their fees, and the weights of an input and of the change output are words. -/
structure Reasonable (optional : List WeightedUtxo) (targetAmount : UInt64)
    (drainScript : Script) : Prop where
  supply : worthOf optional ≤ maxMoney
  asked : targetAmount.toNat + 2 ^ 56 < 2 ^ 64
  light : ∀ u ∈ optional, u.weight < 2 ^ 64
  short : serializedLen drainScript + 8 < 2 ^ 62

section NoRequired

variable {rng : Draws}

theorem effectiveOf_economic_le (feeRate : UInt64)
    (reasonable : Reasonable optional targetAmount drainScript) :
    effectiveOf feeRate (economic feeRate optional) ≤ maxMoney := by
  have first := effectiveOf_le_worthOf feeRate (economic feeRate optional)
  have second := worthOf_le_of_sublist (economic_sublist feeRate optional)
  have third := reasonable.supply
  omega

@[simp] theorem effectiveOf_nil (feeRate : UInt64) : effectiveOf feeRate [] = 0 := by
  simp [effectiveOf]

theorem search_fits_alone (reasonable : Reasonable optional targetAmount drainScript)
    (enough : (targetAmount.toNat : ℤ) ≤ effectiveOf feeRate (economic feeRate optional)) :
    Fits (searchOf order [] optional feeRate targetAmount) := by
  have high := effectiveOf_economic_le feeRate reasonable
  have low := effectiveOf_economic_nonneg feeRate optional
  unfold maxMoney at high
  refine search_fits ?_ ⟨by omega, by omega⟩ reasonable.supply (by simpa using enough)
  rw [effectiveOf_nil]
  decide

theorem coinSelect_eq (reasonable : Reasonable optional targetAmount drainScript) :
    coinSelect order [] optional feeRate targetAmount drainScript rng =
      if (targetAmount.toNat : ℤ) ≤ effectiveOf feeRate (economic feeRate optional) then
        orFallback (search order [] optional feeRate targetAmount drainScript) rng
          (singleRandomDraw [] optional feeRate targetAmount drainScript rng)
      else insufficient ((economic feeRate optional).map (groupOf feeRate)) targetAmount := by
  have high := effectiveOf_economic_le feeRate reasonable
  have low := effectiveOf_economic_nonneg feeRate optional
  have cost := mulFeeRate_small feeRate (4 * sizeOfChange)
  unfold maxMoney at high
  have groups : (optional.mapM (OutputGroup.new feeRate) : Outcome InsufficientFunds _) =
      .ok (optional.map (groupOf feeRate)) :=
    mapM_new_of_small reasonable.supply reasonable.light
  have weight : (fromVb sizeOfChange : Outcome InsufficientFunds UInt64) =
      .ok (4 * sizeOfChange) := rfl
  have effective : ((economic feeRate optional).map (groupOf feeRate)).map (·.effectiveValue) =
      (economic feeRate optional).map fun u => (groupOf feeRate u).effectiveValue := by
    rw [List.map_map]
    rfl
  have sum : (sumSigned ((economic feeRate optional).map fun u =>
      (groupOf feeRate u).effectiveValue) : Outcome InsufficientFunds ℤ) =
        .ok (effectiveOf feeRate (economic feeRate optional)) := by
    refine sumSigned_of_fits (fun x member => ?_) (by rw [← effectiveOf]; omega)
    obtain ⟨u, chosen, rfl⟩ := List.mem_map.mp member
    exact effective_nonneg chosen
  have costs : (toSigned (mulFeeRate (4 * sizeOfChange) feeRate) : Outcome InsufficientFunds ℤ) =
      .ok (mulFeeRate (4 * sizeOfChange) feeRate).toNat := toSigned_of_small (by omega)
  have total : (signed (effectiveOf feeRate (economic feeRate optional) + 0) :
      Outcome InsufficientFunds ℤ) = .ok (effectiveOf feeRate (economic feeRate optional)) := by
    rw [add_zero]
    exact signed_of_bounds (by omega) (by omega)
  have nothing : (sumSigned [] : Outcome InsufficientFunds ℤ) = .ok 0 := rfl
  rw [coinSelect, List.mapM_nil, pure_ok, bind_ok, groups, bind_ok]
  dsimp only
  rw [economic_groups, List.map_nil, nothing, bind_ok, effective, sum, bind_ok, weight, bind_ok,
    costs, bind_ok, total, bind_ok, List.nil_append]
  have reaches := toUnsigned_reaches (a := targetAmount)
    (show effectiveOf feeRate (economic feeRate optional) < 2 ^ 64 by omega)
  by_cases enough : (targetAmount.toNat : ℤ) ≤ effectiveOf feeRate (economic feeRate optional)
  · have target : (toSigned targetAmount : Outcome InsufficientFunds ℤ) =
        .ok targetAmount.toNat := toSigned_of_small (by omega)
    rw [if_pos (reaches.mpr enough), if_pos enough, target, bind_ok, if_neg (by omega), search,
      searchOf_items_sum]
    rfl
  · rw [if_neg (fun short => enough (reaches.mp short)), if_neg enough]

theorem insufficient_fails (reasonable : Reasonable optional targetAmount drainScript)
    (short : effectiveOf feeRate (economic feeRate optional) < targetAmount.toNat) :
    ∃ e : InsufficientFunds, e.available.toNat < e.needed.toNat ∧
      insufficient ((economic feeRate optional).map (groupOf feeRate)) targetAmount = fail e := by
  have positive := effectiveOf_economic_nonneg feeRate optional
  rw [effectiveOf_eq] at short positive
  have less := worthOf_le_of_sublist (economic_sublist feeRate optional)
  have supply := reasonable.supply
  have asked := reasonable.asked
  unfold maxMoney at supply
  have fees : ((economic feeRate optional).map (groupOf feeRate)).map (·.fee) =
      (economic feeRate optional).map fun u => mulFeeRate (.ofNat u.weight) feeRate := by
    rw [List.map_map]
    rfl
  have values : ((economic feeRate optional).map (groupOf feeRate)).map (·.weightedUtxo.value) =
      (economic feeRate optional).map (·.value) := by
    rw [List.map_map]
    rfl
  obtain ⟨allFees, isFees, fee⟩ := @sumChecked_of_fits InsufficientFunds
    ((economic feeRate optional).map fun u => mulFeeRate (.ofNat u.weight) feeRate)
    (by rw [← feesOf]; omega)
  obtain ⟨all, isAll, value⟩ := @sumChecked_of_fits InsufficientFunds
    ((economic feeRate optional).map (·.value)) (by rw [← worthOf]; omega)
  rw [← feesOf] at fee
  rw [← worthOf] at value
  have needed : (targetAmount + allFees).toNat = targetAmount.toNat + allFees.toNat :=
    add_toNat_exact (by show _ < 2 ^ 64; omega)
  refine ⟨⟨targetAmount + allFees, all⟩, by dsimp only; omega, ?_⟩
  rw [insufficient, fees, values, isFees, bind_ok, isAll, bind_ok, plus_of_fits (by omega), bind_ok]

theorem scanUtxos_total {utxos : List (Bool × WeightedUtxo)} {start weight : UInt64}
    (asked : targetAmount.toNat + 2 ^ 56 < 2 ^ 64)
    (supply : start.toNat + worthOf (utxos.map (·.2)) ≤ maxMoney)
    (light : ∀ u ∈ utxos.map (·.2), u.weight < 2 ^ 64) :
    ∃ found, (scanUtxos feeRate targetAmount utxos start weight : Outcome ε _) = .ok found := by
  induction utxos generalizing start weight with
  | nil => exact ⟨_, rfl⟩
  | cons first rest ih =>
    obtain ⟨mustUse, u⟩ := first
    rw [List.map_cons, worthOf_cons] at supply
    rw [List.map_cons, List.forall_mem_cons] at light
    dsimp only at supply light
    have fee := mulFeeRate_small feeRate weight
    have room : start.toNat + u.value.toNat < 2 ^ 64 := by
      unfold maxMoney at supply
      omega
    obtain ⟨short, isShort⟩ : ∃ short, (stillShort feeRate targetAmount mustUse start weight :
        Outcome ε Bool) = .ok short := by
      unfold stillShort
      cases mustUse with
      | true => exact ⟨true, rfl⟩
      | false =>
        rw [plus_of_fits (by omega)]
        exact ⟨_, rfl⟩
    rw [scanUtxos, isShort, bind_ok]
    cases short with
    | false => exact ⟨_, rfl⟩
    | true =>
      obtain ⟨⟨taken, total⟩, run⟩ := @ih (start + u.value) (weight + .ofNat u.weight)
        (by rw [add_toNat_exact room]; omega) light.2
      rw [if_pos rfl, inputWeight_eq_ok.mpr ⟨light.1, rfl⟩, bind_ok, plus_of_fits room, bind_ok,
        run]
      exact ⟨_, rfl⟩

theorem scanUtxos_enough {coins taken : List WeightedUtxo} {start amount total : UInt64}
    {weight : ℕ}
    (fits : feeRate.toNat * (weight + weightOf coins) + 999 < 2 ^ 64)
    (cover : targetAmount.toNat + exactFee feeRate (weight + weightOf coins) ≤
      start.toNat + worthOf coins)
    (run : (scanUtxos feeRate targetAmount (coins.map (false, ·)) start (.ofNat weight) :
      Outcome ε _) = .ok (taken, amount, total)) :
    targetAmount.toNat + (mulFeeRate total feeRate).toNat ≤ amount.toNat := by
  induction coins generalizing start weight taken with
  | nil =>
    obtain ⟨rfl, rfl, rfl⟩ : [] = taken ∧ start = amount ∧ .ofNat weight = total := by
      simpa [scanUtxos] using run
    rw [mulFeeRate_toNat (by simpa using fits)]
    simpa using cover
  | cons u coins ih =>
    rw [List.map_cons, scanUtxos, bind_eq_ok] at run
    obtain ⟨short, isShort, run⟩ := run
    cases short with
    | false =>
      obtain ⟨rfl, rfl, rfl⟩ : [] = taken ∧ start = amount ∧ .ofNat weight = total := by
        simpa using run
      simp only [stillShort, Bool.false_eq_true, ↓reduceIte, bind_eq_ok, pure_eq_ok,
        decide_eq_false_iff_not] at isShort
      obtain ⟨needed, isNeeded, enough⟩ := isShort
      rw [plus_eq_ok] at isNeeded
      rw [UInt64.lt_iff_toNat_lt] at enough
      omega
    | true =>
      simp only [↓reduceIte, bind_eq_ok, pure_eq_ok] at run
      obtain ⟨own, isOwn, next, added, ⟨taken', total'⟩, later, same⟩ := run
      obtain ⟨rfl, rfl⟩ : u :: taken' = taken ∧ total' = (amount, total) := by simpa using same
      obtain ⟨_, rfl⟩ := inputWeight_eq_ok.mp isOwn
      rw [plus_eq_ok] at added
      rw [← UInt64.ofNat_add] at later
      rw [weightOf_cons, ← add_assoc] at fits cover
      rw [worthOf_cons] at cover
      exact ih fits (by omega) later

theorem singleRandomDraw_scan (feeRate : UInt64)
    (reasonable : Reasonable optional targetAmount drainScript) (rng : Draws) :
    ∃ taken amount total,
      (scanUtxos feeRate targetAmount ((knuth rng (optional.length - 1) optional).map (false, ·))
        0 0 : Outcome InsufficientFunds _) = .ok (taken, amount, total) ∧
      (amount.toNat < targetAmount.toNat + (mulFeeRate total feeRate).toNat →
        ∃ e : InsufficientFunds, e.available.toNat < e.needed.toNat ∧
          singleRandomDraw [] optional feeRate targetAmount drainScript rng = fail e) ∧
      (targetAmount.toNat + (mulFeeRate total feeRate).toNat ≤ amount.toNat →
        ∃ found, singleRandomDraw [] optional feeRate targetAmount drainScript rng =
          .ok found) := by
  have coins : ((knuth rng (optional.length - 1) optional).map (Prod.mk false)).map (·.2) =
      knuth rng (optional.length - 1) optional := by simp
  have supply : (0 : UInt64).toNat + worthOf (((knuth rng (optional.length - 1) optional).map
      (Prod.mk false)).map (·.2)) ≤ maxMoney := by
    rw [coins, worthOf_perm (knuth_perm rng (optional.length - 1) optional)]
    simpa using reasonable.supply
  have light : ∀ u ∈ ((knuth rng (optional.length - 1) optional).map (Prod.mk false)).map (·.2),
      u.weight < 2 ^ 64 := by
    rw [coins]
    intro u member
    exact reasonable.light u ((knuth_perm rng (optional.length - 1) optional).mem_iff.mp member)
  obtain ⟨⟨taken, amount, total⟩, scan⟩ := @scanUtxos_total InsufficientFunds feeRate targetAmount
    _ 0 0 reasonable.asked supply light
  have fee := mulFeeRate_small feeRate total
  have asked := reasonable.asked
  have room : targetAmount.toNat + (mulFeeRate total feeRate).toNat < 2 ^ 64 := by omega
  have needed : (targetAmount + mulFeeRate total feeRate).toNat =
      targetAmount.toNat + (mulFeeRate total feeRate).toNat := add_toNat_exact room
  refine ⟨taken, amount, total, scan, ?_, ?_⟩
  · intro short
    have less : amount < targetAmount + mulFeeRate total feeRate :=
      UInt64.lt_iff_toNat_lt.mpr (by omega)
    refine ⟨⟨targetAmount + mulFeeRate total feeRate, amount⟩, by dsimp only; omega, ?_⟩
    simp only [singleRandomDraw, shuffleSlice, selectSortedUtxos, List.map_nil, List.nil_append,
      scan, bind_ok, plus_of_fits room, rejectIf, if_pos less]
    rfl
  · intro enough
    have notLess : ¬ amount < targetAmount + mulFeeRate total feeRate := by
      rw [UInt64.lt_iff_toNat_lt]
      omega
    obtain ⟨remaining, isRemaining⟩ := @minus_of_le InsufficientFunds amount
      (targetAmount + mulFeeRate total feeRate) (by omega)
    simp only [singleRandomDraw, shuffleSlice, selectSortedUtxos, List.map_nil, List.nil_append,
      scan, bind_ok, plus_of_fits room, rejectIf_of_not _ notLess, isRemaining,
      decideChange_of_short reasonable.short]
    exact ⟨_, rfl⟩

theorem singleRandomDraw_decides (reasonable : Reasonable optional targetAmount drainScript)
    (rng : Draws) :
    (∃ found, singleRandomDraw [] optional feeRate targetAmount drainScript rng = .ok found) ∨
    ∃ e : InsufficientFunds, e.available.toNat < e.needed.toNat ∧
      singleRandomDraw [] optional feeRate targetAmount drainScript rng = fail e := by
  obtain ⟨_, amount, total, _, missing, found⟩ :=
    singleRandomDraw_scan feeRate reasonable rng
  by_cases short : amount.toNat < targetAmount.toNat + (mulFeeRate total feeRate).toNat
  · exact .inr (missing short)
  · exact .inl (found (not_lt.mp short))

theorem singleRandomDraw_succeeds (reasonable : Reasonable optional targetAmount drainScript)
    (fits : feeRate.toNat * weightOf optional + 999 < 2 ^ 64)
    (cover : targetAmount.toNat + exactFee feeRate (weightOf optional) ≤ worthOf optional)
    (rng : Draws) :
    ∃ found, singleRandomDraw [] optional feeRate targetAmount drainScript rng = .ok found := by
  obtain ⟨_, amount, total, scan, _, found⟩ :=
    singleRandomDraw_scan feeRate reasonable rng
  have perm := knuth_perm rng (optional.length - 1) optional
  rw [← worthOf_perm perm, ← weightOf_perm perm] at cover
  rw [← weightOf_perm perm] at fits
  refine found (@scanUtxos_enough _ _ _ _ _ _ _ _ 0 ?_ ?_ scan)
  · simpa using fits
  · simpa using cover

theorem search_ok_or_fail (reasonable : Reasonable optional targetAmount drainScript)
    (enough : (targetAmount.toNat : ℤ) ≤ effectiveOf feeRate (economic feeRate optional)) :
    (∃ r, search order [] optional feeRate targetAmount drainScript = .ok r) ∨
      ∃ e, search order [] optional feeRate targetAmount drainScript = fail e := by
  rcases search_ends rfl (search_fits_alone reasonable enough) reasonable.short with
    ⟨_, _, found, _⟩ | ⟨e, failed, _⟩
  · exact .inl ⟨_, found⟩
  · exact .inr ⟨e, failed⟩

theorem coinSelect_ends (order : ValueOrder) (feeRate : UInt64)
    (reasonable : Reasonable optional targetAmount drainScript) (rng : Draws) :
    (∃ found, coinSelect order [] optional feeRate targetAmount drainScript rng = .ok found) ∨
      ∃ e : InsufficientFunds, e.available.toNat < e.needed.toNat ∧
        coinSelect order [] optional feeRate targetAmount drainScript rng = fail e := by
  rw [coinSelect_eq reasonable]
  by_cases enough : (targetAmount.toNat : ℤ) ≤ effectiveOf feeRate (economic feeRate optional)
  · rw [if_pos enough]
    rcases search_ok_or_fail reasonable enough with ⟨r, found⟩ | ⟨e, failed⟩
    · rw [found]
      exact .inl ⟨(r, rng), rfl⟩
    · rw [failed]
      exact singleRandomDraw_decides reasonable rng
  · rw [if_neg enough]
    obtain ⟨e, missing, failed⟩ := insufficient_fails reasonable (not_le.mp enough)
    exact .inr ⟨e, missing, failed⟩

theorem coinSelect_succeeds (order : ValueOrder)
    (reasonable : Reasonable optional targetAmount drainScript)
    (fits : feeRate.toNat * weightOf optional + 999 < 2 ^ 64)
    (enough : (targetAmount.toNat : ℤ) ≤ effectiveOf feeRate (economic feeRate optional))
    (cover : targetAmount.toNat + exactFee feeRate (weightOf optional) ≤ worthOf optional)
    (rng : Draws) :
    ∃ found, coinSelect order [] optional feeRate targetAmount drainScript rng = .ok found := by
  rw [coinSelect_eq reasonable, if_pos enough]
  rcases search_ok_or_fail reasonable enough with ⟨r, found⟩ | ⟨e, failed⟩
  · rw [found]
    exact ⟨(r, rng), rfl⟩
  · rw [failed]
    exact singleRandomDraw_succeeds reasonable fits cover rng

/-- Coins are found or a true shortfall is reported, whatever the random source:
    always a shortfall where the coins worth their fee do not cover the target,
    never one where they do and all the coins together do as well. -/
theorem coin_select_decides (order : ValueOrder) (optional : List WeightedUtxo)
    (feeRate targetAmount : UInt64) (drainScript : Script)
    (reasonable : Reasonable optional targetAmount drainScript)
    (fits : feeRate.toNat * weightOf optional + 999 < 2 ^ 64) (rng : Draws) :
    ((∃ found, coinSelect order [] optional feeRate targetAmount drainScript rng = .ok found) ∨
      ∃ e : InsufficientFunds, e.available.toNat < e.needed.toNat ∧
        coinSelect order [] optional feeRate targetAmount drainScript rng = fail e) ∧
    (effectiveOf feeRate (economic feeRate optional) < targetAmount.toNat →
      ∀ found, coinSelect order [] optional feeRate targetAmount drainScript rng ≠ .ok found) ∧
    (targetAmount.toNat ≤ effectiveOf feeRate (economic feeRate optional) →
      targetAmount.toNat + exactFee feeRate (weightOf optional) ≤ worthOf optional →
        ∃ found, coinSelect order [] optional feeRate targetAmount drainScript rng =
          .ok found) := by
  refine ⟨coinSelect_ends order feeRate reasonable rng, ?_, fun enough cover =>
    coinSelect_succeeds order reasonable fits enough cover rng⟩
  intro short found
  obtain ⟨e, _, failed⟩ := insufficient_fails reasonable short
  rw [coinSelect_eq reasonable, if_neg (not_le.mpr short), failed]
  exact fail_ne_ok e found

theorem coin_select_decides_coins :
    ∃ found, coinSelect Sample.order [] Sample.coins Sample.feeRate 70000 (p2wshScript 0)
      (fun _ => 7) = .ok found :=
  (coin_select_decides Sample.order Sample.coins Sample.feeRate 70000 (p2wshScript 0)
    ⟨by decide, by decide, by decide, by decide⟩ (by decide) (fun _ => 7)).2.2 (by decide)
    (by decide)

theorem searchOf_worth (c : List Bool) :
    (searchOf order [] optional feeRate targetAmount).worth c =
      chosen c (searchOf order [] optional feeRate targetAmount).items := by
  rw [Problem.worth]
  show effectiveOf feeRate [] + _ = _
  rw [effectiveOf_nil, zero_add]

theorem exists_choice_of_subperm (order : ValueOrder) (targetAmount : UInt64)
    {coins : List WeightedUtxo} (sub : coins.Subperm (economic feeRate optional)) :
    ∃ c, (searchOf order [] optional feeRate targetAmount).Complete c ∧
      (searchOf order [] optional feeRate targetAmount).worth c = effectiveOf feeRate coins := by
  have sorted : (coins.map fun u => (groupOf feeRate u).effectiveValue).Subperm
      (searchOf order [] optional feeRate targetAmount).items := by
    have sorted := (order.perm ((economic feeRate optional).map (groupOf feeRate))).map
      (·.effectiveValue)
    rw [List.map_map] at sorted
    obtain ⟨coins', perm, sublist⟩ := sub
    have values := (sublist.map fun u => (groupOf feeRate u).effectiveValue).subperm
    exact ((perm.symm.map _).subperm.trans values).trans sorted.symm.subperm
  obtain ⟨values, perm, sublist⟩ := sorted
  obtain ⟨c, complete, sum⟩ := exists_choice sublist
  refine ⟨c, complete, ?_⟩
  rw [searchOf_worth, sum, perm.sum_eq]
  rfl

theorem not_outOfTries (few : (economic feeRate optional).length ≤ 15) :
    ¬ OutOfTries (searchOf order [] optional feeRate targetAmount) := by
  have count : (searchOf order [] optional feeRate targetAmount).items.length =
      (economic feeRate optional).length := by
    simp [searchOf, (order.perm _).length_eq]
  have power : 2 ^ ((economic feeRate optional).length + 1) ≤ 2 ^ 16 :=
    Nat.pow_le_pow_right (by omega) (by omega)
  rw [OutOfTries, count, nodesAhead_nil, bnbTotalTries]
  omega

theorem cost_le_changeFee (long : sizeOfChange.toNat ≤ serializedLen drainScript + 8)
    (fits : feeRate.toNat * (4 * (serializedLen drainScript + 8)) + 999 < 2 ^ 64) :
    (mulFeeRate (4 * sizeOfChange) feeRate).toNat ≤ (changeFee feeRate drainScript).toNat := by
  have weight : 4 * sizeOfChange.toNat ≤ 4 * (serializedLen drainScript + 8) := by omega
  have product := Nat.mul_le_mul_left feeRate.toNat weight
  have reckoned : 4 * sizeOfChange = .ofNat (4 * sizeOfChange.toNat) := rfl
  rw [changeFee_toNat fits, reckoned, mulFeeRate_toNat (by omega)]
  exact exactFee_mono feeRate weight

theorem search_least (order : ValueOrder) {coins : List WeightedUtxo}
    (reasonable : Reasonable optional targetAmount drainScript) (positive : 0 < targetAmount.toNat)
    (few : (economic feeRate optional).length ≤ 15)
    (sub : coins.Subperm (economic feeRate optional))
    (least : targetAmount.toNat ≤ effectiveOf feeRate coins)
    (most : effectiveOf feeRate coins ≤
      targetAmount.toNat + (mulFeeRate (4 * sizeOfChange) feeRate).toNat) :
    ∃ selection remaining, search order [] optional feeRate targetAmount drainScript =
        .ok (searchResult order [] optional feeRate drainScript selection remaining) ∧
      effectiveOf feeRate (takenBy order optional feeRate selection) =
        targetAmount.toNat + remaining.toNat ∧
      (targetAmount.toNat + remaining.toNat : ℤ) ≤ effectiveOf feeRate coins := by
  obtain ⟨c, complete, worth⟩ := exists_choice_of_subperm order targetAmount sub
  have reaches : (searchOf order [] optional feeRate targetAmount).Reaches c := by
    rw [Problem.Reaches, worth]
    exact ⟨least, most⟩
  have enough := least.trans (effectiveOf_le_economic sub)
  rcases search_ends rfl (search_fits_alone reasonable enough) reasonable.short with
    ⟨s, remaining, found, known, recorded, finished | spent⟩ | ⟨_, _, ⟨s, finished, empty⟩ | spent⟩
  · obtain ⟨b, isBest, low⟩ := finished.settled c complete reaches
    obtain rfl := Option.some.inj (isBest.symm.trans known)
    have isWorth := (recorded.best _ known).1
    rw [searchOf_worth, ← takenBy_effective] at isWorth
    exact ⟨s.bestSelection, remaining, found, isWorth, by rwa [← worth]⟩
  · exact absurd spent (not_outOfTries few)
  · -- The empty selection is not worth the target.
    obtain ⟨b, isBest, _⟩ := finished.settled c complete reaches
    obtain ⟨isWorth, low, _⟩ := finished.best b isBest
    rw [empty, searchOf_worth, chosen_nil] at isWorth
    have : (targetAmount.toNat : ℤ) ≤ b := low
    omega
  · exact absurd spent (not_outOfTries few)

/-- With at most fifteen coins worth their fee, if some of them match the target up
    to the cost of a change output, then the coins selected do, with the least
    excess, no change output and nothing left to chance. -/
theorem coin_select_changeless (order : ValueOrder) (optional coins : List WeightedUtxo)
    (feeRate targetAmount : UInt64) (drainScript : Script)
    (reasonable : Reasonable optional targetAmount drainScript) (positive : 0 < targetAmount.toNat)
    (few : (economic feeRate optional).length ≤ 15)
    (limit : 0 < minimalNonDust drainScript)
    (long : sizeOfChange.toNat ≤ serializedLen drainScript + 8)
    (fits : feeRate.toNat * (4 * (serializedLen drainScript + 8)) + 999 < 2 ^ 64)
    (sub : coins.Subperm (economic feeRate optional))
    (least : targetAmount.toNat ≤ effectiveOf feeRate coins)
    (most : effectiveOf feeRate coins ≤
      targetAmount.toNat + (mulFeeRate (4 * sizeOfChange) feeRate).toNat) :
    ∃ r taken, (∀ rng, coinSelect order [] optional feeRate targetAmount drainScript rng =
        .ok (r, rng)) ∧
      r.selected = taken.map (·.utxo) ∧ taken.Subperm (economic feeRate optional) ∧
      targetAmount.toNat ≤ effectiveOf feeRate taken ∧
      effectiveOf feeRate taken ≤ effectiveOf feeRate coins ∧
      ∃ left, r.excess =
        .noChange (minimalNonDust drainScript) left (changeFee feeRate drainScript) := by
  obtain ⟨selection, remaining, found, effective, low⟩ :=
    search_least order reasonable positive few sub least most
  have small : remaining.toNat ≤ (changeFee feeRate drainScript).toNat := by
    have cost := cost_le_changeFee long fits
    omega
  have enough := least.trans (effectiveOf_le_economic sub)
  refine ⟨searchResult order [] optional feeRate drainScript selection remaining,
    takenBy order optional feeRate selection, fun rng => ?_, ?_, takenBy_economic selection,
    by omega, by omega, remaining, excessOf_noChange limit small⟩
  · rw [coinSelect_eq reasonable, if_pos enough, found]
    rfl
  · rw [searchResult, calculateCsResult, List.map_nil, List.nil_append, List.map_map]
    rfl

/-- The first two coins match a target just below their worth. -/
theorem coin_select_changeless_coins : ∃ r, ∃ taken : List WeightedUtxo,
    (∀ rng, coinSelect Sample.order [] Sample.coins Sample.feeRate 87800 (p2wshScript 0) rng =
      .ok (r, rng)) ∧ r.selected = taken.map (·.utxo) ∧
      ∃ left, r.excess = .noChange 330 left 430 := by
  obtain ⟨r, taken, run, selected, _, _, _, excess⟩ := coin_select_changeless Sample.order
    Sample.coins [Sample.coin 0 60000, Sample.coin 1 30000] Sample.feeRate 87800 (p2wshScript 0)
    ⟨by decide, by decide, by decide, by decide⟩ (by decide) (by decide) (by decide) (by decide)
    (by decide) (by decide) (by decide) (by decide)
  exact ⟨r, taken, run, selected, excess⟩

end NoRequired

end Trinity.Watch
