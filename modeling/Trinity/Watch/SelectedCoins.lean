import Trinity.Watch.BranchAndBound

/-!
What a successful coin selection returns, whatever the random source gave: the
coins that had to be used and some of the others, worth the target, the fees of
the inputs and an excess to the satoshi. The search and the random draw are both
brought to this form.
-/
namespace Trinity.Watch

open Outcome Word BranchBound Shuffle

variable {ε : Type}

theorem plus_eq_ok {a b c : UInt64} :
    (plus a b : Outcome ε UInt64) = .ok c ↔ c.toNat = a.toNat + b.toNat := by
  rw [plus, expect_eq_ok, checkedAdd_eq_some]

theorem minus_eq_ok {a b c : UInt64} :
    (minus a b : Outcome ε UInt64) = .ok c ↔ a.toNat = b.toNat + c.toNat := by
  rw [minus, expect_eq_ok, checkedSub_eq_some]

theorem exactSum_append (xs ys : List UInt64) :
    exactSum (xs ++ ys) = exactSum xs + exactSum ys := by simp [exactSum]

theorem sumAmounts_toNat {xs : List UInt64} (fits : exactSum xs < 2 ^ 64) :
    (sumAmounts xs).toNat = exactSum xs := by
  have from_start : ∀ (start : UInt64), start.toNat + exactSum xs < 2 ^ 64 →
      (xs.foldl (· + ·) start).toNat = start.toNat + exactSum xs := by
    clear fits
    induction xs with
    | nil => simp
    | cons x xs ih =>
      intro start fits
      rw [exactSum_cons] at fits
      have first : (start + x).toNat = start.toNat + x.toNat :=
        add_toNat_exact (by show _ < 2 ^ 64; omega)
      rw [List.foldl_cons, ih (start + x) (by omega), first, exactSum_cons]
      omega
  simpa [sumAmounts] using from_start 0 (by simpa using fits)

theorem toUnsigned_eq_some {x : ℤ} {a : UInt64} (fits : x < 2 ^ 64)
    (run : toUnsigned x = some a) : (a.toNat : ℤ) = x := by
  unfold toUnsigned at run
  split at run
  · simp at run
  · obtain rfl : UInt64.ofNat x.toNat = a := by simpa using run
    rw [UInt64.toNat_ofNat_of_lt' (by show x.toNat < 2 ^ 64; omega)]
    omega

theorem toUnsigned_of_nonneg {x : ℤ} (nonneg : 0 ≤ x) :
    toUnsigned x = some (UInt64.ofNat x.toNat) := if_neg (by omega)

theorem toUnsigned_reaches {x : ℤ} {a : UInt64} (fits : x < 2 ^ 64) :
    (toUnsigned x).any (a ≤ ·) = true ↔ (a.toNat : ℤ) ≤ x := by
  cases whole : toUnsigned x with
  | none =>
    have negative : x < 0 := by
      by_contra nonneg
      simp [toUnsigned_of_nonneg (not_lt.mp nonneg)] at whole
    simp only [Option.any_none, Bool.false_eq_true, false_iff]
    omega
  | some b =>
    have value := toUnsigned_eq_some fits whole
    simp only [Option.any_some, decide_eq_true_eq, UInt64.le_iff_toNat_le]
    omega

theorem toSigned_eq_ok {a : UInt64} {x : ℤ} (run : (toSigned a : Outcome ε ℤ) = .ok x) :
    x = a.toNat := (signed_eq_ok.mp run).2

def exactFee (feeRate : UInt64) (weight : ℕ) : ℕ := (feeRate.toNat * weight + 999) / 1000

theorem mulFeeRate_toNat {feeRate : UInt64} {weight : ℕ}
    (fits : feeRate.toNat * weight + 999 < 2 ^ 64) :
    (mulFeeRate (.ofNat weight) feeRate).toNat = exactFee feeRate weight := by
  have product : (feeRate * .ofNat weight).toNat = feeRate.toNat * weight := by
    rw [UInt64.toNat_mul, UInt64.toNat_ofNat', Nat.mul_mod_mod, Nat.mod_eq_of_lt (by omega)]
  have sum : (feeRate * .ofNat weight + 999).toNat = feeRate.toNat * weight + 999 := by
    rw [add_toNat_exact (by rw [product]; exact fits), product]
    rfl
  rw [mulFeeRate, UInt64.toNat_div, sum]
  rfl

theorem mulFeeRate_small (feeRate weight : UInt64) :
    (mulFeeRate weight feeRate).toNat < 2 ^ 55 := by
  have below := (feeRate * weight + 999).toNat_lt
  rw [mulFeeRate, UInt64.toNat_div]
  show _ / 1000 < _
  omega

theorem exactFee_covers (feeRate : UInt64) (weight : ℕ) :
    feeRate.toNat * weight ≤ 1000 * exactFee feeRate weight := by
  unfold exactFee
  omega

theorem exactFee_le (feeRate : UInt64) (weight : ℕ) :
    1000 * exactFee feeRate weight ≤ feeRate.toNat * weight + 999 := by
  unfold exactFee
  omega

theorem exactFee_mono (feeRate : UInt64) {weight more : ℕ} (le : weight ≤ more) :
    exactFee feeRate weight ≤ exactFee feeRate more := by
  have product := Nat.mul_le_mul_left feeRate.toNat le
  unfold exactFee
  omega

theorem exactFee_add_le (feeRate : UInt64) (a b : ℕ) :
    exactFee feeRate (a + b) ≤ exactFee feeRate a + exactFee feeRate b := by
  have product := Nat.mul_add feeRate.toNat a b
  unfold exactFee
  omega

/-- The weight of the input that spends a coin, unbounded. -/
def WeightedUtxo.weight (u : WeightedUtxo) : ℕ :=
  segwitWeight.toNat + u.satisfactionWeight.toNat

theorem inputWeight_eq_ok {u : WeightedUtxo} {weight : UInt64} :
    (u.inputWeight : Outcome ε UInt64) = .ok weight ↔
      u.weight < 2 ^ 64 ∧ .ofNat u.weight = weight := by
  rw [WeightedUtxo.inputWeight, plus_eq_ok, ← WeightedUtxo.weight]
  constructor
  · intro exact_
    exact ⟨exact_ ▸ weight.toNat_lt, by rw [← exact_, UInt64.ofNat_toNat]⟩
  · rintro ⟨fits, rfl⟩
    exact UInt64.toNat_ofNat_of_lt' fits

def worthOf (us : List WeightedUtxo) : ℕ := exactSum (us.map (·.value))

def weightOf (us : List WeightedUtxo) : ℕ := (us.map (·.weight)).sum

/-- Each input's fee rounded up on its own. -/
def feesOf (feeRate : UInt64) (us : List WeightedUtxo) : ℕ :=
  exactSum (us.map fun u => mulFeeRate (.ofNat u.weight) feeRate)

@[simp] theorem worthOf_nil : worthOf [] = 0 := by simp [worthOf]

@[simp] theorem worthOf_cons (u : WeightedUtxo) (us : List WeightedUtxo) :
    worthOf (u :: us) = u.value.toNat + worthOf us := by simp [worthOf]

@[simp] theorem worthOf_append (us vs : List WeightedUtxo) :
    worthOf (us ++ vs) = worthOf us + worthOf vs := by simp [worthOf, exactSum_append]

@[simp] theorem weightOf_nil : weightOf [] = 0 := by simp [weightOf]

@[simp] theorem weightOf_cons (u : WeightedUtxo) (us : List WeightedUtxo) :
    weightOf (u :: us) = u.weight + weightOf us := by simp [weightOf]

@[simp] theorem weightOf_append (us vs : List WeightedUtxo) :
    weightOf (us ++ vs) = weightOf us + weightOf vs := by simp [weightOf]

@[simp] theorem feesOf_nil (feeRate : UInt64) : feesOf feeRate [] = 0 := by simp [feesOf]

@[simp] theorem feesOf_cons (feeRate : UInt64) (u : WeightedUtxo) (us : List WeightedUtxo) :
    feesOf feeRate (u :: us) =
      (mulFeeRate (.ofNat u.weight) feeRate).toNat + feesOf feeRate us := by
  simp [feesOf]

theorem worthOf_perm {us vs : List WeightedUtxo} (perm : us.Perm vs) : worthOf us = worthOf vs := by
  simp only [worthOf, exactSum]
  exact ((perm.map _).map _).sum_eq

theorem weightOf_perm {us vs : List WeightedUtxo} (perm : us.Perm vs) :
    weightOf us = weightOf vs := by
  simp only [weightOf]
  exact (perm.map _).sum_eq

theorem worthOf_le_of_sublist {us vs : List WeightedUtxo} (sub : us.Sublist vs) :
    worthOf us ≤ worthOf vs := by
  induction sub with
  | slnil => simp
  | cons u _ ih => rw [worthOf_cons]; omega
  | cons_cons u _ ih => rw [worthOf_cons, worthOf_cons]; omega

theorem worthOf_le_of_subperm {us vs : List WeightedUtxo} (sub : us.Subperm vs) :
    worthOf us ≤ worthOf vs := by
  obtain ⟨ws, perm, sublist⟩ := sub
  rw [← worthOf_perm perm]
  exact worthOf_le_of_sublist sublist

/-- As long as nothing wraps, the inputs' fees cover their weight at the rate, and
    exceed it by less than a satoshi each. -/
theorem feesOf_bounds {feeRate : UInt64} {us : List WeightedUtxo}
    (fits : feeRate.toNat * weightOf us + 999 < 2 ^ 64) :
    exactFee feeRate (weightOf us) ≤ feesOf feeRate us ∧
      1000 * feesOf feeRate us ≤ feeRate.toNat * weightOf us + 999 * us.length := by
  induction us with
  | nil => simp [exactFee]
  | cons u us ih =>
    rw [weightOf_cons] at fits ⊢
    have product := Nat.mul_add feeRate.toNat u.weight (weightOf us)
    obtain ⟨low, high⟩ := ih (by omega)
    have first : (mulFeeRate (.ofNat u.weight) feeRate).toNat = exactFee feeRate u.weight :=
      mulFeeRate_toNat (by omega)
    have split := exactFee_add_le feeRate u.weight (weightOf us)
    have here := exactFee_le feeRate u.weight
    rw [feesOf_cons, first, List.length_cons]
    omega

/-- The group of a coin, if none of its sums aborts. -/
def groupOf (feeRate : UInt64) (u : WeightedUtxo) : OutputGroup :=
  let fee := mulFeeRate (.ofNat u.weight) feeRate
  ⟨u, fee, (u.value.toNat : ℤ) - fee.toNat⟩

theorem OutputGroup.new_eq_ok {feeRate : UInt64} {u : WeightedUtxo} {g : OutputGroup}
    (run : (OutputGroup.new feeRate u : Outcome ε OutputGroup) = .ok g) :
    g = groupOf feeRate u := by
  simp only [OutputGroup.new, bind_eq_ok, pure_eq_ok] at run
  obtain ⟨weight, isWeight, value, isValue, cost, isCost, effective, isEffective, rfl⟩ := run
  obtain ⟨_, rfl⟩ := inputWeight_eq_ok.mp isWeight
  rw [(signed_eq_ok.mp isEffective).2, toSigned_eq_ok isValue, toSigned_eq_ok isCost, groupOf]

theorem mapM_new_eq_ok {feeRate : UInt64} {us : List WeightedUtxo} {gs : List OutputGroup}
    (run : (us.mapM (OutputGroup.new feeRate) : Outcome ε _) = .ok gs) :
    gs = us.map (groupOf feeRate) := by
  have each := mapM_eq_ok.mp run
  clear run
  induction each with
  | nil => rfl
  | cons here _ ih => rw [OutputGroup.new_eq_ok here, ih, List.map_cons]

theorem sumSigned_eq_ok {xs : List ℤ} {y : ℤ} (run : (sumSigned xs : Outcome ε ℤ) = .ok y) :
    y = xs.sum ∧ FitsSigned y := by
  have from_start : ∀ start, FitsSigned start →
      (xs.foldlM (fun acc x => signed (acc + x)) start : Outcome ε ℤ) = .ok y →
        y = start + xs.sum ∧ FitsSigned y := by
    clear run
    induction xs with
    | nil =>
      intro start fits run
      obtain rfl : start = y := by simpa using run
      exact ⟨by simp, fits⟩
    | cons x xs ih =>
      intro start _ run
      rw [List.foldlM_cons, bind_eq_ok] at run
      obtain ⟨next, added, rest⟩ := run
      obtain ⟨fits, rfl⟩ := signed_eq_ok.mp added
      obtain ⟨sum, small⟩ := ih _ fits rest
      exact ⟨by rw [sum, List.sum_cons]; omega, small⟩
  simpa using from_start 0 (by decide) run

def effectiveOf (feeRate : UInt64) (us : List WeightedUtxo) : ℤ :=
  (us.map fun u => (groupOf feeRate u).effectiveValue).sum

theorem effectiveOf_eq (feeRate : UInt64) (us : List WeightedUtxo) :
    effectiveOf feeRate us = worthOf us - feesOf feeRate us := by
  induction us with
  | nil => simp [effectiveOf]
  | cons u us ih =>
    simp only [effectiveOf, List.map_cons, List.sum_cons] at ih ⊢
    rw [ih, worthOf_cons, feesOf_cons]
    simp only [groupOf]
    omega

def economic (feeRate : UInt64) (us : List WeightedUtxo) : List WeightedUtxo :=
  us.filter fun u => 0 < (groupOf feeRate u).effectiveValue

theorem economic_sublist (feeRate : UInt64) (us : List WeightedUtxo) :
    (economic feeRate us).Sublist us := List.filter_sublist

theorem economic_groups (feeRate : UInt64) (us : List WeightedUtxo) :
    (us.map (groupOf feeRate)).filter (fun g => 0 < g.effectiveValue) =
      (economic feeRate us).map (groupOf feeRate) := by
  rw [economic, List.filter_map]
  rfl

def Excess.total : Excess → ℕ
  | .noChange _ remainingAmount _ => remainingAmount.toNat
  | .change amount fee => amount.toNat + fee.toNat

section Change

def changeFee (feeRate : UInt64) (drainScript : Script) : UInt64 :=
  mulFeeRate (4 * .ofNat (serializedLen drainScript + 8)) feeRate

def excessOf (remaining feeRate : UInt64) (drainScript : Script) : Excess :=
  excessAfter (changeFee feeRate drainScript) remaining drainScript

variable {remaining feeRate : UInt64} {drainScript : Script}

theorem fromVb_eq_ok {vb weight : UInt64} :
    (fromVb vb : Outcome ε UInt64) = .ok weight ↔ 4 * vb.toNat < UInt64.size ∧ 4 * vb = weight := by
  simp [fromVb, bind_eq_ok]

theorem decideChange_eq_ok {excess : Excess}
    (run : (decideChange remaining feeRate drainScript : Outcome ε Excess) = .ok excess) :
    excess = excessOf remaining feeRate drainScript := by
  simp only [decideChange, bind_eq_ok, pure_eq_ok] at run
  obtain ⟨weight, isWeight, rfl⟩ := run
  obtain ⟨_, rfl⟩ := fromVb_eq_ok.mp isWeight
  rfl

theorem decideChange_of_short (short : serializedLen drainScript + 8 < 2 ^ 62) :
    (decideChange remaining feeRate drainScript : Outcome ε Excess) =
      .ok (excessOf remaining feeRate drainScript) := by
  have length : (UInt64.ofNat (serializedLen drainScript + 8)).toNat =
      serializedLen drainScript + 8 := UInt64.toNat_ofNat_of_lt' (by show _ < 2 ^ 64; omega)
  have weight : (fromVb (.ofNat (serializedLen drainScript + 8)) : Outcome ε UInt64) =
      .ok (4 * .ofNat (serializedLen drainScript + 8)) :=
    fromVb_eq_ok.mpr ⟨by rw [length]; show _ < 2 ^ 64; omega, rfl⟩
  rw [decideChange, weight]
  rfl

theorem changeFee_toNat
    (fits : feeRate.toNat * (4 * (serializedLen drainScript + 8)) + 999 < 2 ^ 64) :
    (changeFee feeRate drainScript).toNat =
      exactFee feeRate (4 * (serializedLen drainScript + 8)) := by
  rw [← mulFeeRate_toNat fits, changeFee, UInt64.ofNat_mul]
  rfl

theorem excessOf_eq : excessOf remaining feeRate drainScript =
    if isDust ((checkedSub remaining (changeFee feeRate drainScript)).getD 0) drainScript then
      .noChange (minimalNonDust drainScript) remaining (changeFee feeRate drainScript)
    else
      .change ((checkedSub remaining (changeFee feeRate drainScript)).getD 0)
        (changeFee feeRate drainScript) := rfl

theorem excessOf_total (limit : 0 < minimalNonDust drainScript) :
    (excessOf remaining feeRate drainScript).total = remaining.toNat := by
  rw [excessOf_eq]
  split
  · simp [Excess.total]
  · rename_i paid
    cases taken : checkedSub remaining (changeFee feeRate drainScript) with
    | none => simp [taken, isDust, limit] at paid
    | some amount =>
      have split := checkedSub_eq_some.mp taken
      simp [Excess.total]
      omega

theorem excessOf_change {amount fee : UInt64}
    (paid : excessOf remaining feeRate drainScript = .change amount fee) :
    minimalNonDust drainScript ≤ amount ∧ fee = changeFee feeRate drainScript := by
  rw [excessOf_eq] at paid
  split at paid
  · simp at paid
  · rename_i notDust
    obtain ⟨rfl, rfl⟩ : _ = amount ∧ _ = fee := by simpa using paid
    exact ⟨by simpa [isDust] using notDust, rfl⟩

theorem excessOf_noChange (limit : 0 < minimalNonDust drainScript)
    (small : remaining.toNat ≤ (changeFee feeRate drainScript).toNat) :
    excessOf remaining feeRate drainScript =
      .noChange (minimalNonDust drainScript) remaining (changeFee feeRate drainScript) := by
  have nothing : (checkedSub remaining (changeFee feeRate drainScript)).getD 0 = 0 := by
    cases taken : checkedSub remaining (changeFee feeRate drainScript) with
    | none => rfl
    | some amount =>
      have split := checkedSub_eq_some.mp taken
      exact UInt64.toNat_inj.mp (by simp only [Option.getD_some, UInt64.toNat_zero]; omega)
  rw [excessOf_eq, nothing, isDust, if_pos (by simpa using limit)]

theorem excessOf_left {threshold left fee : UInt64}
    (kept : excessOf remaining feeRate drainScript = .noChange threshold left fee) :
    left = remaining ∧
      left.toNat < (changeFee feeRate drainScript).toNat + (minimalNonDust drainScript).toNat := by
  rw [excessOf_eq] at kept
  split at kept
  · rename_i dust
    obtain ⟨_, rfl, _⟩ : _ = threshold ∧ remaining = left ∧ _ = fee := by simpa using kept
    refine ⟨rfl, ?_⟩
    cases taken : checkedSub remaining (changeFee feeRate drainScript) with
    | none =>
      have less : ¬ (changeFee feeRate drainScript) ≤ remaining := by
        intro enough
        simp [checkedSub, enough] at taken
      rw [UInt64.le_iff_toNat_le] at less
      omega
    | some amount =>
      have split := checkedSub_eq_some.mp taken
      rw [taken, Option.getD_some, isDust, decide_eq_true_eq, UInt64.lt_iff_toNat_lt] at dust
      omega
  · simp at kept

end Change

structure Selects (required optional : List WeightedUtxo) (feeRate targetAmount : UInt64)
    (drainScript : Script) (taken : List WeightedUtxo) (r : CoinSelectionResult) : Prop where
  subset : taken.Subperm optional
  selected : r.selected = (required ++ taken).map (·.utxo)
  fee : r.feeAmount = mulFeeRate (.ofNat (weightOf (required ++ taken))) feeRate ∨
    r.feeAmount.toNat = feesOf feeRate (required ++ taken)
  balance : ∃ remaining : UInt64,
    worthOf (required ++ taken) = targetAmount.toNat + r.feeAmount.toNat + remaining.toNat ∧
      r.excess = excessOf remaining feeRate drainScript

section Draw

variable {feeRate targetAmount : UInt64} {drainScript : Script}

theorem scanUtxos_spec {utxos : List (Bool × WeightedUtxo)} {start amount weight total : UInt64}
    {taken : List WeightedUtxo}
    (run : (scanUtxos feeRate targetAmount utxos start weight : Outcome ε _) =
      .ok (taken, amount, total)) :
    taken <+: utxos.map (·.2) ∧ amount.toNat = start.toNat + worthOf taken ∧
      total = weight + .ofNat (weightOf taken) := by
  induction utxos generalizing start weight taken with
  | nil =>
    obtain ⟨rfl, rfl, rfl⟩ : [] = taken ∧ start = amount ∧ weight = total := by
      simpa [scanUtxos] using run
    simp
  | cons first rest ih =>
    obtain ⟨mustUse, u⟩ := first
    rw [scanUtxos, bind_eq_ok] at run
    obtain ⟨short, _, run⟩ := run
    cases short with
    | false =>
      obtain ⟨rfl, rfl, rfl⟩ : [] = taken ∧ start = amount ∧ weight = total := by
        simpa using run
      simp
    | true =>
      simp only [↓reduceIte, bind_eq_ok, pure_eq_ok] at run
      obtain ⟨own, isOwn, next, added, ⟨taken', amount', total'⟩, later, same⟩ := run
      obtain ⟨rfl, rfl, rfl⟩ : u :: taken' = taken ∧ amount' = amount ∧ total' = total := by
        simpa using same
      obtain ⟨before, sum, weights⟩ := ih later
      obtain ⟨_, rfl⟩ := inputWeight_eq_ok.mp isOwn
      rw [plus_eq_ok] at added
      rw [worthOf_cons, weightOf_cons, UInt64.ofNat_add, ← UInt64.add_assoc]
      exact ⟨List.cons_prefix_cons.mpr ⟨rfl, before⟩, by omega, weights⟩

theorem scanUtxos_required {required : List WeightedUtxo} {rest : List (Bool × WeightedUtxo)}
    {start amount weight total : UInt64} {taken : List WeightedUtxo}
    (run : (scanUtxos feeRate targetAmount (required.map (true, ·) ++ rest) start weight :
      Outcome ε _) = .ok (taken, amount, total)) : required <+: taken := by
  induction required generalizing start weight taken with
  | nil => exact List.nil_prefix
  | cons u us ih =>
    rw [List.map_cons, List.cons_append, scanUtxos] at run
    simp only [stillShort, ↓reduceIte, pure_ok, bind_ok, bind_eq_ok] at run
    obtain ⟨own, _, next, _, ⟨taken', total'⟩, later, same⟩ := run
    obtain ⟨rfl, rfl⟩ : u :: taken' = taken ∧ total' = (amount, total) := by simpa using same
    exact List.cons_prefix_cons.mpr ⟨rfl, ih later⟩

theorem selectSortedUtxos_selects {required optional order : List WeightedUtxo}
    {r : CoinSelectionResult} (perm : order.Perm optional)
    (run : selectSortedUtxos feeRate targetAmount
      (required.map (true, ·) ++ order.map (false, ·)) drainScript = .ok r) :
    ∃ taken, Selects required optional feeRate targetAmount drainScript taken r := by
  simp only [selectSortedUtxos, bind_eq_ok, pure_eq_ok] at run
  obtain ⟨⟨all, amount, total⟩, scan, needed, isNeeded, _, _, remaining, isRemaining, excess,
    isExcess, rfl⟩ := run
  obtain ⟨before, sum, weights⟩ := scanUtxos_spec scan
  obtain ⟨taken, rfl⟩ := scanUtxos_required scan
  dsimp only at isNeeded isRemaining
  rw [plus_eq_ok] at isNeeded
  rw [minus_eq_ok] at isRemaining
  have drawn : taken <+: order := by
    have : required ++ taken <+: required ++ order := by
      simpa [List.map_append, List.map_map, Function.comp_def] using before
    exact (List.prefix_append_right_inj required).mp this
  have weight : total = .ofNat (weightOf (required ++ taken)) := by simpa using weights
  refine ⟨taken, drawn.sublist.subperm.trans perm.subperm, rfl, ?_, remaining, ?_,
    decideChange_eq_ok isExcess⟩
  · exact .inl (by rw [weight])
  · rw [UInt64.toNat_zero] at sum
    dsimp only
    omega

theorem singleRandomDraw_selects {required optional : List WeightedUtxo} {rng rng' : Draws}
    {r : CoinSelectionResult}
    (run : singleRandomDraw required optional feeRate targetAmount drainScript rng =
      .ok (r, rng')) :
    ∃ taken, Selects required optional feeRate targetAmount drainScript taken r := by
  simp only [singleRandomDraw, shuffleSlice, bind_eq_ok, pure_eq_ok] at run
  obtain ⟨result, draw, same⟩ := run
  obtain ⟨rfl, _⟩ : result = r ∧ _ = rng' := by simpa using same
  exact selectSortedUtxos_selects (knuth_perm _ _ _) draw

end Draw

section Search

/-- The search problem of the coins worth their fee, in the order of the sort. -/
def searchOf (order : ValueOrder) (required optional : List WeightedUtxo)
    (feeRate targetAmount : UInt64) : Problem where
  items := (order.sort ((economic feeRate optional).map (groupOf feeRate))).map (·.effectiveValue)
  base := effectiveOf feeRate required
  target := targetAmount.toNat
  limit := targetAmount.toNat + (mulFeeRate (4 * sizeOfChange) feeRate).toNat
  nonneg v member := by
    obtain ⟨g, sorted, rfl⟩ := List.mem_map.mp member
    obtain ⟨u, chosen, rfl⟩ := List.mem_map.mp ((order.perm _).mem_iff.mp sorted)
    have positive : 0 < (groupOf feeRate u).effectiveValue := by
      simpa using (List.mem_filter.mp chosen).2
    omega

variable {order : ValueOrder} {required optional : List WeightedUtxo}
  {feeRate targetAmount : UInt64} {drainScript : Script}

theorem included_sublist (groups : List OutputGroup) (selection : List Bool) :
    (included groups selection).Sublist groups := by
  induction groups generalizing selection with
  | nil => simp [included]
  | cons g groups ih =>
    cases selection with
    | nil => simp [included]
    | cons b selection =>
      cases b with
      | true => simpa [included] using (ih selection).cons_cons g
      | false => simpa [included] using (ih selection).cons g

theorem included_effective (groups : List OutputGroup) (selection : List Bool) :
    ((included groups selection).map (·.effectiveValue)).sum =
      chosen selection (groups.map (·.effectiveValue)) := by
  induction groups generalizing selection with
  | nil => simp [included]
  | cons g groups ih =>
    cases selection with
    | nil => simp [included]
    | cons b selection =>
      have rest := ih selection
      cases b with
      | true => simpa [included, chosen] using rest
      | false => simpa [included, chosen] using rest

theorem searchOf_items_sum :
    (searchOf order required optional feeRate targetAmount).items.sum =
      effectiveOf feeRate (economic feeRate optional) := by
  rw [searchOf, ((order.perm _).map _).sum_eq, effectiveOf, List.map_map]
  rfl

def takenBy (order : ValueOrder) (optional : List WeightedUtxo) (feeRate : UInt64)
    (selection : List Bool) : List WeightedUtxo :=
  (included (order.sort ((economic feeRate optional).map (groupOf feeRate))) selection).map
    (·.weightedUtxo)

theorem takenBy_groups (selection : List Bool) :
    included (order.sort ((economic feeRate optional).map (groupOf feeRate))) selection =
      (takenBy order optional feeRate selection).map (groupOf feeRate) := by
  rw [takenBy, List.map_map]
  symm
  refine (List.map_congr_left fun g member => ?_).trans (List.map_id _)
  have sorted := (included_sublist _ selection).subset member
  obtain ⟨u, _, rfl⟩ := List.mem_map.mp ((order.perm _).mem_iff.mp sorted)
  rfl

theorem takenBy_economic (selection : List Bool) :
    (takenBy order optional feeRate selection).Subperm (economic feeRate optional) := by
  have first := ((included_sublist (order.sort ((economic feeRate optional).map
    (groupOf feeRate))) selection).map (·.weightedUtxo)).subperm
  have second := ((order.perm ((economic feeRate optional).map (groupOf feeRate))).map
    (·.weightedUtxo)).subperm
  have third : (((economic feeRate optional).map (groupOf feeRate)).map (·.weightedUtxo)) =
      economic feeRate optional := by
    rw [List.map_map]
    exact List.map_id _
  rw [third] at second
  exact first.trans second

theorem takenBy_effective (order : ValueOrder) (required optional : List WeightedUtxo)
    (feeRate targetAmount : UInt64) (selection : List Bool) :
    effectiveOf feeRate (takenBy order optional feeRate selection) =
      chosen selection (searchOf order required optional feeRate targetAmount).items := by
  rw [searchOf, ← included_effective, takenBy_groups, effectiveOf, List.map_map]
  rfl

def maxMoney : ℕ := 2100000000000000

theorem calculateCsResult_selects {taken : List WeightedUtxo} {remaining : UInt64}
    (subset : taken.Subperm optional) (supply : worthOf (required ++ optional) ≤ maxMoney)
    (effective : effectiveOf feeRate (required ++ taken) = targetAmount.toNat + remaining.toNat) :
    Selects required optional feeRate targetAmount drainScript taken
      (calculateCsResult (taken.map (groupOf feeRate)) (required.map (groupOf feeRate))
        (excessOf remaining feeRate drainScript)) := by
  have fees : (required.map (groupOf feeRate) ++ taken.map (groupOf feeRate)).map (·.fee) =
      (required ++ taken).map fun u => mulFeeRate (.ofNat u.weight) feeRate := by
    rw [← List.map_append, List.map_map]
    rfl
  have coins : (required.map (groupOf feeRate) ++ taken.map (groupOf feeRate)).map
      (·.weightedUtxo.utxo) = (required ++ taken).map (·.utxo) := by
    rw [← List.map_append, List.map_map]
    rfl
  rw [effectiveOf_eq] at effective
  have less := worthOf_le_of_subperm subset
  rw [worthOf_append] at supply effective
  unfold maxMoney at supply
  have fee : (calculateCsResult (taken.map (groupOf feeRate)) (required.map (groupOf feeRate))
      (excessOf remaining feeRate drainScript)).feeAmount.toNat =
        feesOf feeRate (required ++ taken) := by
    rw [calculateCsResult, fees, feesOf]
    exact sumAmounts_toNat (by rw [← feesOf]; omega)
  refine ⟨subset, by rw [calculateCsResult, coins], .inr fee, remaining, ?_, rfl⟩
  rw [fee, worthOf_append]
  omega

variable (order required optional feeRate targetAmount drainScript)

def search : Outcome BnbError CoinSelectionResult :=
  let P := searchOf order required optional feeRate targetAmount
  bnb order (required.map (groupOf feeRate)) ((economic feeRate optional).map (groupOf feeRate))
    P.base P.items.sum P.target (mulFeeRate (4 * sizeOfChange) feeRate).toNat drainScript feeRate

def searchResult (selection : List Bool) (remaining : UInt64) : CoinSelectionResult :=
  calculateCsResult ((takenBy order optional feeRate selection).map (groupOf feeRate))
    (required.map (groupOf feeRate)) (excessOf remaining feeRate drainScript)

variable {order required optional feeRate targetAmount drainScript}

/-- The search was cut short by its number of tries. -/
def OutOfTries (P : Problem) : Prop := bnbTotalTries < nodesAhead P.items.length []

theorem bnbResult_ends {P : Problem} {s : BnbState}
    (isProblem : P = searchOf order required optional feeRate targetAmount) (fits : Fits P)
    (short : serializedLen drainScript + 8 < 2 ^ 62) (recorded : Recorded P s) :
    (s.bestSelection = [] ∧ bnbResult (required.map (groupOf feeRate))
        (order.sort ((economic feeRate optional).map (groupOf feeRate))) P.target drainScript
        feeRate s = fail .totalTriesExceeded) ∨
    ∃ remaining, bnbResult (required.map (groupOf feeRate))
        (order.sort ((economic feeRate optional).map (groupOf feeRate))) P.target drainScript
        feeRate s =
          .ok (searchResult order required optional feeRate drainScript s.bestSelection remaining) ∧
      s.bestSelectionValue = some (P.target + remaining.toNat) := by
  by_cases empty : s.bestSelection = []
  · exact .inl ⟨empty, by simp [bnbResult, empty, rejectIf, fail, bind, Except.bind]⟩
  · cases known : s.bestSelectionValue with
    | none => exact absurd (recorded.unset known) empty
    | some b =>
      obtain ⟨_, least, most⟩ := recorded.best b known
      have positive : 0 ≤ P.target := by rw [isProblem]; exact Int.natCast_nonneg _
      have small := fits.limit.2
      have difference : (signed (b - P.target) : Outcome BnbError ℤ) = .ok (b - P.target) :=
        signed_of_bounds (by omega) (by omega)
      have amount := toUnsigned_of_nonneg (x := b - P.target) (by omega)
      have value := toUnsigned_eq_some (by omega) amount
      refine .inr ⟨UInt64.ofNat (b - P.target).toNat, ?_, by rw [value]; congr 1; omega⟩
      rw [bnbResult, rejectIf_of_not _ empty, known]
      simp only [expect, bind_ok, difference, amount, decideChange_of_short short, pure_ok,
        takenBy_groups, searchResult]

theorem search_ends {P : Problem}
    (isProblem : P = searchOf order required optional feeRate targetAmount) (fits : Fits P)
    (short : serializedLen drainScript + 8 < 2 ^ 62) :
    (∃ s remaining, search order required optional feeRate targetAmount drainScript =
        .ok (searchResult order required optional feeRate drainScript s.bestSelection remaining) ∧
      s.bestSelectionValue = some (P.target + remaining.toNat) ∧
        Recorded P s ∧ (Finished P s ∨ OutOfTries P)) ∨
    (∃ e, search order required optional feeRate targetAmount drainScript = fail e ∧
      ((∃ s, Finished P s ∧ s.bestSelection = []) ∨ OutOfTries P)) := by
  have limit : P.limit = P.target + (mulFeeRate (4 * sizeOfChange) feeRate).toNat := by
    rw [isProblem]
    rfl
  have ends := bnbLoop_ends fits limit (by omega) bnbTotalTries (tracks_start P)
  have shape : search order required optional feeRate targetAmount drainScript =
      (bnbLoop P.items P.target (mulFeeRate (4 * sizeOfChange) feeRate).toNat bnbTotalTries
        ⟨[], P.base, P.items.sum, [], none⟩ >>= bnbResult (required.map (groupOf feeRate))
          (order.sort ((economic feeRate optional).map (groupOf feeRate))) P.target drainScript
          feeRate) := by
    rw [isProblem]
    rfl
  rw [shape]
  generalize bnbLoop P.items P.target _ bnbTotalTries _ = loop at ends
  cases ends with
  | finished finished =>
    rcases bnbResult_ends isProblem fits short finished.toRecorded with
      ⟨empty, run⟩ | ⟨remaining, run, known⟩
    · exact .inr ⟨_, run, .inl ⟨_, finished, empty⟩⟩
    · exact .inl ⟨_, remaining, run, known, finished.toRecorded, .inl finished⟩
  | cut recorded few =>
    rcases bnbResult_ends isProblem fits short recorded with ⟨_, run⟩ | ⟨remaining, run, known⟩
    · exact .inr ⟨_, run, .inr few⟩
    · exact .inl ⟨_, remaining, run, known, recorded, .inr few⟩
  | noMatch finished empty => exact .inr ⟨_, rfl, .inl ⟨_, finished, empty⟩⟩

theorem searchResult_selects {P : Problem} {s : BnbState} {remaining : UInt64}
    (isProblem : P = searchOf order required optional feeRate targetAmount)
    (supply : worthOf (required ++ optional) ≤ maxMoney) (recorded : Recorded P s)
    (known : s.bestSelectionValue = some (P.target + remaining.toNat)) :
    Selects required optional feeRate targetAmount drainScript
      (takenBy order optional feeRate s.bestSelection)
      (searchResult order required optional feeRate drainScript s.bestSelection remaining) := by
  refine calculateCsResult_selects
    ((takenBy_economic _).trans (economic_sublist feeRate optional).subperm) supply ?_
  have worth := (recorded.best _ known).1
  subst isProblem
  rw [effectiveOf, List.map_append, List.sum_append, ← effectiveOf, ← effectiveOf,
    takenBy_effective order required optional feeRate targetAmount]
  exact worth

theorem effectiveOf_le_worthOf (feeRate : UInt64) (us : List WeightedUtxo) :
    effectiveOf feeRate us ≤ worthOf us := by
  rw [effectiveOf_eq]
  omega

theorem search_fits (base : FitsSigned (effectiveOf feeRate required))
    (items : FitsSigned (effectiveOf feeRate (economic feeRate optional)))
    (supply : worthOf (required ++ optional) ≤ maxMoney)
    (enough : (targetAmount.toNat : ℤ) ≤
      effectiveOf feeRate (economic feeRate optional) + effectiveOf feeRate required) :
    Fits (searchOf order required optional feeRate targetAmount) := by
  have first := effectiveOf_le_worthOf feeRate required
  have second := effectiveOf_le_worthOf feeRate (economic feeRate optional)
  have third := worthOf_le_of_sublist (economic_sublist feeRate optional)
  have cost := mulFeeRate_small feeRate (4 * sizeOfChange)
  rw [worthOf_append, maxMoney] at supply
  refine ⟨base.1, ?_, ?_, ?_, ?_⟩
  · rw [searchOf_items_sum]
    exact items.2
  · rw [searchOf_items_sum]
    show effectiveOf feeRate required + _ < 2 ^ 63
    omega
  · show -2 ^ 63 ≤ (targetAmount.toNat : ℤ) + (mulFeeRate (4 * sizeOfChange) feeRate).toNat
    omega
  · show (targetAmount.toNat : ℤ) + (mulFeeRate (4 * sizeOfChange) feeRate).toNat < 2 ^ 63
    omega

inductive SelectionFound (order : ValueOrder) (required optional : List WeightedUtxo)
    (feeRate targetAmount : UInt64) (drainScript : Script) (rng : Draws) :
    CoinSelectionResult → Draws → Prop where
  | required {remaining : UInt64}
      (effective : effectiveOf feeRate required = targetAmount.toNat + remaining.toNat) :
      SelectionFound order required optional feeRate targetAmount drainScript rng
        (calculateCsResult [] (required.map (groupOf feeRate))
          (excessOf remaining feeRate drainScript)) rng
  | search {r : CoinSelectionResult}
      (fits : Fits (searchOf order required optional feeRate targetAmount))
      (found : search order required optional feeRate targetAmount drainScript = .ok r) :
      SelectionFound order required optional feeRate targetAmount drainScript rng r rng
  | draw {r : CoinSelectionResult} {rng' : Draws}
      (drawn : singleRandomDraw required optional feeRate targetAmount drainScript rng =
        .ok (r, rng')) :
      SelectionFound order required optional feeRate targetAmount drainScript rng r rng'

theorem coinSelect_found {rng rng' : Draws} {r : CoinSelectionResult}
    (supply : worthOf (required ++ optional) ≤ maxMoney)
    (run : coinSelect order required optional feeRate targetAmount drainScript rng =
      .ok (r, rng')) :
    SelectionFound order required optional feeRate targetAmount drainScript rng r rng' := by
  simp only [coinSelect, bind_eq_ok] at run
  obtain ⟨requiredOgs, isRequired, allOgs, isAll, currValue, isCurr, available, isAvailable,
    weight, isWeight, cost, isCost, total, isTotal, run⟩ := run
  obtain ⟨_, rfl⟩ := fromVb_eq_ok.mp isWeight
  obtain rfl := mapM_new_eq_ok isRequired
  obtain rfl := mapM_new_eq_ok isAll
  rw [economic_groups, List.map_map] at isAvailable
  rw [List.map_map] at isCurr
  obtain ⟨rfl, currFits⟩ := sumSigned_eq_ok isCurr
  obtain ⟨rfl, availableFits⟩ := sumSigned_eq_ok isAvailable
  obtain ⟨totalFits, rfl⟩ := signed_eq_ok.mp isTotal
  obtain rfl := toSigned_eq_ok isCost
  split at run
  · rename_i enough
    have totalSmall := totalFits.2
    rw [toUnsigned_reaches (by omega)] at enough
    rw [bind_eq_ok] at run
    obtain ⟨signedTarget, isTarget, run⟩ := run
    obtain rfl := toSigned_eq_ok isTarget
    split at run
    · rename_i alone
      simp only [bind_eq_ok, pure_eq_ok, expect_eq_ok] at run
      obtain ⟨difference, isDifference, remaining, isRemaining, excess, isExcess, same⟩ := run
      obtain ⟨rfl, rfl⟩ : _ = r ∧ rng = rng' := by simpa using same
      obtain rfl := decideChange_eq_ok isExcess
      obtain ⟨small, rfl⟩ := signed_eq_ok.mp isDifference
      have value := toUnsigned_eq_some (by have := small.2; omega) isRemaining
      have base : effectiveOf feeRate required =
          (required.map ((·.effectiveValue) ∘ groupOf feeRate)).sum := rfl
      exact .required (by omega)
    · have fits : Fits (searchOf order required optional feeRate targetAmount) :=
        search_fits currFits availableFits supply enough
      have isSearch : bnb order (required.map (groupOf feeRate))
          ((optional.map (groupOf feeRate)).filter fun g => 0 < g.effectiveValue)
          (required.map ((·.effectiveValue) ∘ groupOf feeRate)).sum
          ((economic feeRate optional).map ((·.effectiveValue) ∘ groupOf feeRate)).sum
          targetAmount.toNat (mulFeeRate (4 * sizeOfChange) feeRate).toNat drainScript feeRate =
            search order required optional feeRate targetAmount drainScript := by
        rw [economic_groups, search, searchOf_items_sum]
        rfl
      rw [isSearch] at run
      cases found : search order required optional feeRate targetAmount drainScript with
      | ok result =>
        rw [found] at run
        obtain ⟨rfl, rfl⟩ : result = r ∧ rng = rng' := by simpa [orFallback] using run
        exact .search fits found
      | error fault =>
        rw [found] at run
        cases fault with
        | error e => exact .draw run
        | panic => simp [orFallback] at run
  · simp only [insufficient, bind_eq_ok, fail_ne_ok, and_false, exists_false] at run

/-- Whatever the random source gives, a selection that succeeds uses the required
    coins and some of the others, and balances. -/
theorem coinSelect_selects {rng rng' : Draws} {r : CoinSelectionResult}
    (supply : worthOf (required ++ optional) ≤ maxMoney)
    (short : serializedLen drainScript + 8 < 2 ^ 62)
    (run : coinSelect order required optional feeRate targetAmount drainScript rng =
      .ok (r, rng')) :
    ∃ taken, Selects required optional feeRate targetAmount drainScript taken r := by
  cases coinSelect_found supply run with
  | required effective =>
    exact ⟨[], calculateCsResult_selects List.nil_subperm supply (by simpa using effective)⟩
  | search fits found =>
    rcases search_ends rfl fits short with
      ⟨s, remaining, same, known, recorded, _⟩ | ⟨e, failed, _⟩
    · obtain rfl := Except.ok.inj (same.symm.trans found)
      exact ⟨_, searchResult_selects rfl supply recorded known⟩
    · exact absurd (failed.symm.trans found) (fail_ne_ok e r)
  | draw drawn => exact singleRandomDraw_selects drawn

end Search

end Trinity.Watch
