import Mathlib.Algebra.Ring.Nat
import Mathlib.Data.List.Induction
import Mathlib.Data.Nat.Bitwise
import Mathlib.Tactic.Common
import Mathlib.Tactic.Ring

/-!
Checksums of a shift register with feedback. A step shifts the state by one
symbol, adds the symbol, and adds the taps selected by the bits shifted out.
The symbols that bring the register to a given state are determined by what
zeros in their place would give.
-/
namespace ShiftRegister

def feed (taps : List (Nat × Nat)) (top start : Nat) : Nat :=
  taps.foldl (fun acc tap => if (top >>> tap.2) &&& 1 = 1 then acc ^^^ tap.1 else acc) start

/-- One symbol of `width` bits; `kept` bits of the state stay in the register. -/
def step (width kept : Nat) (taps : List (Nat × Nat)) (state symbol : Nat) : Nat :=
  feed taps (state >>> kept) (((state % 2 ^ kept) <<< width) ^^^ symbol)

def value (width : Nat) (symbols : List Nat) : Nat :=
  symbols.foldl (fun acc symbol => acc * 2 ^ width + symbol) 0

def symbols (width : Nat) : Nat → Nat → List Nat
  | 0, _ => []
  | n + 1, x => symbols width n (x / 2 ^ width) ++ [x % 2 ^ width]

variable {width kept : Nat} {taps : List (Nat × Nat)}

theorem value_concat (init : List Nat) (symbol : Nat) :
    value width (init ++ [symbol]) = value width init * 2 ^ width + symbol := by
  simp [value]

theorem value_lt {l : List Nat} (small : ∀ s ∈ l, s < 2 ^ width) :
    value width l < 2 ^ (width * l.length) := by
  induction l using List.reverseRecOn with
  | nil => simp [value]
  | append_singleton init symbol ih =>
    have low : symbol < 2 ^ width := small symbol (by simp)
    have high := ih fun s member => small s (by simp [member])
    rw [value_concat, List.length_append, List.length_singleton, Nat.mul_add_one, Nat.pow_add]
    calc value width init * 2 ^ width + symbol
        < (value width init + 1) * 2 ^ width := by
          rw [Nat.succ_mul]
          exact Nat.add_lt_add_left low _
      _ ≤ 2 ^ (width * init.length) * 2 ^ width := Nat.mul_le_mul_right _ high

@[simp] theorem symbols_length (n x : Nat) : (symbols width n x).length = n := by
  induction n generalizing x with
  | zero => rfl
  | succ n ih => rw [symbols, List.length_append, ih, List.length_singleton]

theorem symbols_lt {n x s : Nat} (member : s ∈ symbols width n x) : s < 2 ^ width := by
  induction n generalizing x with
  | zero => simp [symbols] at member
  | succ n ih =>
    rw [symbols, List.mem_append, List.mem_singleton] at member
    rcases member with earlier | rfl
    · exact ih earlier
    · exact Nat.mod_lt x (Nat.two_pow_pos width)

theorem value_symbols (n x : Nat) : value width (symbols width n x) = x % 2 ^ (width * n) := by
  induction n generalizing x with
  | zero => simp [symbols, value, Nat.mod_one]
  | succ n ih =>
    rw [symbols, value_concat, ih, Nat.mul_add_one, Nat.add_comm (width * n), Nat.pow_add,
      Nat.mod_mul, Nat.mul_comm, Nat.add_comm]

theorem symbols_value {l : List Nat} (small : ∀ s ∈ l, s < 2 ^ width) :
    symbols width l.length (value width l) = l := by
  induction l using List.reverseRecOn with
  | nil => rfl
  | append_singleton init symbol ih =>
    have low : symbol < 2 ^ width := small symbol (by simp)
    have high := ih fun s member => small s (by simp [member])
    have positive : 0 < 2 ^ width := Nat.two_pow_pos width
    rw [value_concat, List.length_append, List.length_singleton, symbols, Nat.mul_comm,
      Nat.mul_add_div positive, Nat.div_eq_of_lt low, Nat.add_zero, high, Nat.mul_add_mod,
      Nat.mod_eq_of_lt low]

theorem symbols_succ (n x : Nat) :
    symbols width (n + 1) x = x / 2 ^ (width * n) % 2 ^ width :: symbols width n x := by
  induction n generalizing x with
  | zero => simp [symbols]
  | succ n ih =>
    rw [symbols, ih, symbols, List.cons_append, Nat.div_div_eq_div_mul, ← Nat.pow_add,
      Nat.add_comm width, ← Nat.mul_add_one]

theorem symbols_mod (n x : Nat) : symbols width n (x % 2 ^ (width * n)) = symbols width n x := by
  have small : ∀ s ∈ symbols width n x, s < 2 ^ width := fun s member => symbols_lt member
  have same := symbols_value small
  rwa [symbols_length, value_symbols] at same

theorem symbols_inj {n x y : Nat} (small : x < 2 ^ (width * n)) (small' : y < 2 ^ (width * n))
    (same : symbols width n x = symbols width n y) : x = y := by
  rw [← Nat.mod_eq_of_lt small, ← Nat.mod_eq_of_lt small', ← value_symbols, ← value_symbols, same]

theorem symbols_xor (n x y : Nat) :
    symbols width n (x ^^^ y) =
      List.zipWith (· ^^^ ·) (symbols width n x) (symbols width n y) := by
  induction n generalizing x y with
  | zero => rfl
  | succ n ih =>
    rw [symbols, symbols, symbols, Nat.xor_div_two_pow, Nat.xor_mod_two_pow, ih,
      List.zipWith_append (by simp)]
    rfl

theorem shift_xor {x symbol : Nat} (low : symbol < 2 ^ width) :
    (x <<< width) ^^^ symbol = x * 2 ^ width + symbol := by
  rw [← Nat.div_add_mod ((x <<< width) ^^^ symbol) (2 ^ width), Nat.xor_div_two_pow,
    Nat.xor_mod_two_pow, Nat.shiftLeft_eq, Nat.mul_div_cancel _ (Nat.two_pow_pos width),
    Nat.div_eq_of_lt low, Nat.mul_mod_left, Nat.mod_eq_of_lt low, Nat.xor_zero, Nat.zero_xor,
    Nat.mul_comm]

theorem feed_xor (top start extra : Nat) :
    feed taps top (start ^^^ extra) = feed taps top start ^^^ extra := by
  unfold feed
  induction taps generalizing start with
  | nil => rfl
  | cons tap rest ih =>
    simp only [List.foldl_cons]
    split
    · rw [Nat.xor_assoc, Nat.xor_comm extra, ← Nat.xor_assoc]
      exact ih _
    · exact ih _

theorem step_xor {state extra : Nat} (symbol : Nat) (inside : extra < 2 ^ kept) :
    step width kept taps (state ^^^ extra) symbol =
      step width kept taps state 0 ^^^ ((extra <<< width) ^^^ symbol) := by
  have top : (state ^^^ extra) >>> kept = state >>> kept := by
    rw [Nat.shiftRight_xor_distrib, Nat.shiftRight_eq_div_pow extra, Nat.div_eq_of_lt inside,
      Nat.xor_zero]
  have rest : (state ^^^ extra) % 2 ^ kept = state % 2 ^ kept ^^^ extra := by
    rw [Nat.xor_mod_two_pow, Nat.mod_eq_of_lt inside]
  rw [step, step, top, rest, Nat.shiftLeft_xor_distrib, Nat.xor_assoc, feed_xor, Nat.xor_zero]

theorem foldl_step_value {l : List Nat} (state : Nat) (small : ∀ s ∈ l, s < 2 ^ width)
    (fits : width * l.length ≤ kept + width) :
    l.foldl (step width kept taps) state =
      (List.replicate l.length 0).foldl (step width kept taps) state ^^^ value width l := by
  induction l using List.reverseRecOn with
  | nil => simp [value]
  | append_singleton init symbol ih =>
    have low : symbol < 2 ^ width := small symbol (by simp)
    have lower : ∀ s ∈ init, s < 2 ^ width := fun s member => small s (by simp [member])
    rw [List.length_append, List.length_singleton, Nat.mul_add_one] at fits
    have inside : value width init < 2 ^ kept :=
      Nat.lt_of_lt_of_le (value_lt lower) (Nat.pow_le_pow_right (by decide) (by omega))
    rw [List.foldl_append, List.foldl_cons, List.foldl_nil, ih lower (by omega),
      step_xor symbol inside, shift_xor low, value_concat, List.length_append,
      List.length_singleton, List.replicate_succ', List.foldl_append]
    rfl

theorem feed_lt {top start bits : Nat} (small : start < 2 ^ bits)
    (bounded : ∀ tap ∈ taps, tap.1 < 2 ^ bits) : feed taps top start < 2 ^ bits := by
  unfold feed
  induction taps generalizing start with
  | nil => exact small
  | cons tap rest ih =>
    obtain ⟨here, later⟩ := List.forall_mem_cons.mp bounded
    rw [List.foldl_cons]
    split
    · exact ih (Nat.xor_lt_two_pow small here) later
    · exact ih small later

theorem step_lt {state symbol : Nat} (small : symbol < 2 ^ width)
    (bounded : ∀ tap ∈ taps, tap.1 < 2 ^ (kept + width)) :
    step width kept taps state symbol < 2 ^ (kept + width) := by
  refine feed_lt (Nat.xor_lt_two_pow ?_ ?_) bounded
  · rw [Nat.shiftLeft_eq, Nat.pow_add]
    exact Nat.mul_lt_mul_of_pos_right (Nat.mod_lt _ (Nat.two_pow_pos kept)) (Nat.two_pow_pos width)
  · exact Nat.lt_of_lt_of_le small (Nat.pow_le_pow_right (by decide) (by omega))

/-- The symbols that fill the register bring it to `target` exactly when they
    are the symbols of the difference that zeros leave. -/
theorem checksum_iff {l : List Nat} {state target : Nat} (small : ∀ s ∈ l, s < 2 ^ width)
    (inhabited : l ≠ []) (whole : width * l.length = kept + width)
    (reachable : target < 2 ^ (kept + width))
    (bounded : ∀ tap ∈ taps, tap.1 < 2 ^ (kept + width)) :
    l.foldl (step width kept taps) state = target ↔
      l = symbols width l.length
        ((List.replicate l.length 0).foldl (step width kept taps) state ^^^ target) := by
  have zeros : (List.replicate l.length 0).foldl (step width kept taps) state <
      2 ^ (kept + width) := by
    obtain ⟨n, count⟩ := Nat.exists_eq_succ_of_ne_zero (List.length_eq_zero_iff.not.mpr inhabited)
    rw [count, List.replicate_succ', List.foldl_append]
    exact step_lt (Nat.two_pow_pos width) bounded
  rw [foldl_step_value state small (by omega)]
  generalize (List.replicate l.length 0).foldl (step width kept taps) state = rest at zeros ⊢
  constructor
  · intro same
    rw [← same, ← Nat.xor_assoc, Nat.xor_self, Nat.zero_xor, symbols_value small]
  · intro same
    have exactly : value width l = rest ^^^ target := by
      rw [same, value_symbols, whole, Nat.mod_eq_of_lt (Nat.xor_lt_two_pow zeros reachable)]
    rw [exactly, ← Nat.xor_assoc, Nat.xor_self, Nat.zero_xor]

section Burst

theorem xor_xor_xor_cancel (a b c : Nat) : (a ^^^ c) ^^^ (b ^^^ c) = a ^^^ b := by
  rw [Nat.xor_comm b, Nat.xor_assoc, Nat.xor_xor_cancel_left]

theorem xor_eq_zero {a b : Nat} (none_ : a ^^^ b = 0) : a = b :=
  Decidable.not_not.mp fun different => Nat.xor_ne_zero_iff.mpr different none_

theorem tap_xor (top top' start start' n tap : Nat) :
    (if ((top ^^^ top') >>> n) &&& 1 = 1 then (start ^^^ start') ^^^ tap else start ^^^ start') =
      (if (top >>> n) &&& 1 = 1 then start ^^^ tap else start) ^^^
        (if (top' >>> n) &&& 1 = 1 then start' ^^^ tap else start') := by
  have parity : ((top ^^^ top') >>> n) % 2 = ((top >>> n) % 2 + (top' >>> n) % 2) % 2 := by
    rw [Nat.shiftRight_xor_distrib, Nat.xor_mod_two_eq, Nat.add_mod]
  simp only [Nat.and_one_is_mod, parity]
  rcases Nat.mod_two_eq_zero_or_one (top >>> n) with low | low
  · rcases Nat.mod_two_eq_zero_or_one (top' >>> n) with low' | low'
    · simp [low, low']
    · simp [low, low', Nat.xor_assoc]
  · rcases Nat.mod_two_eq_zero_or_one (top' >>> n) with low' | low'
    · simp [low, low', Nat.xor_assoc, Nat.xor_comm tap]
    · simp [low, low', xor_xor_xor_cancel]

theorem feed_xor_feed (top top' start start' : Nat) :
    feed taps (top ^^^ top') (start ^^^ start') =
      feed taps top start ^^^ feed taps top' start' := by
  unfold feed
  induction taps generalizing start start' with
  | nil => rfl
  | cons tap rest ih =>
    rw [List.foldl_cons, List.foldl_cons, List.foldl_cons, tap_xor]
    exact ih _ _

theorem step_xor_step (state state' symbol : Nat) :
    step width kept taps state symbol ^^^ step width kept taps state' symbol =
      step width kept taps (state ^^^ state') 0 := by
  unfold step
  rw [← feed_xor_feed, xor_xor_xor_cancel, Nat.shiftRight_xor_distrib, Nat.xor_mod_two_pow,
    Nat.shiftLeft_xor_distrib, Nat.xor_zero]

/-- The taps show in the lowest symbol: no combination of them is invisible
    there. -/
def Lossless (width : Nat) (taps : List (Nat × Nat)) : Prop :=
  ∀ top < 2 ^ width, feed taps top 0 % 2 ^ width = 0 → top = 0

theorem feed_zero (start : Nat) : feed taps 0 start = start := by
  unfold feed
  induction taps generalizing start with
  | nil => rfl
  | cons tap rest ih =>
    rw [List.foldl_cons, if_neg (by simp)]
    exact ih start

theorem step_eq_zero (lossless : Lossless width taps) {state : Nat}
    (small : state < 2 ^ (kept + width)) (emptied : step width kept taps state 0 = 0) :
    state = 0 := by
  have top : state >>> kept < 2 ^ width := by
    rw [Nat.shiftRight_eq_div_pow]
    exact Nat.div_lt_of_lt_mul (Nat.pow_add 2 kept width ▸ small)
  rw [step, Nat.xor_zero, ← Nat.zero_xor ((state % 2 ^ kept) <<< width), feed_xor] at emptied
  replace emptied := xor_eq_zero emptied
  have none_ : state >>> kept = 0 := by
    apply lossless _ top
    rw [emptied, Nat.shiftLeft_eq, Nat.mul_mod_left]
  rw [none_, feed_zero, Nat.shiftLeft_eq] at emptied
  have rest : state % 2 ^ kept = 0 :=
    (Nat.mul_eq_zero.mp emptied.symm).resolve_right (Nat.two_pow_pos width).ne'
  rw [Nat.shiftRight_eq_div_pow] at none_
  rw [← Nat.div_add_mod state (2 ^ kept), none_, rest]
  rfl

theorem step_injective (lossless : Lossless width taps) {state state' symbol : Nat}
    (small : state < 2 ^ (kept + width)) (small' : state' < 2 ^ (kept + width))
    (same : step width kept taps state symbol = step width kept taps state' symbol) :
    state = state' := by
  apply xor_eq_zero
  apply step_eq_zero lossless (Nat.xor_lt_two_pow small small')
  rw [← step_xor_step state state' symbol, same, Nat.xor_self]

theorem foldl_step_injective (lossless : Lossless width taps)
    (bounded : ∀ tap ∈ taps, tap.1 < 2 ^ (kept + width)) {l : List Nat} {state state' : Nat}
    (symbols : ∀ s ∈ l, s < 2 ^ width) (small : state < 2 ^ (kept + width))
    (small' : state' < 2 ^ (kept + width))
    (same : l.foldl (step width kept taps) state = l.foldl (step width kept taps) state') :
    state = state' := by
  induction l generalizing state state' with
  | nil => exact same
  | cons symbol rest ih =>
    obtain ⟨here, later⟩ := List.forall_mem_cons.mp symbols
    exact step_injective lossless small small'
      (ih later (step_lt here bounded) (step_lt here bounded) same)

theorem foldl_step_lt (bounded : ∀ tap ∈ taps, tap.1 < 2 ^ (kept + width)) {l : List Nat}
    {state : Nat} (symbols : ∀ s ∈ l, s < 2 ^ width) (small : state < 2 ^ (kept + width)) :
    l.foldl (step width kept taps) state < 2 ^ (kept + width) := by
  induction l generalizing state with
  | nil => exact small
  | cons symbol rest ih =>
    obtain ⟨here, later⟩ := List.forall_mem_cons.mp symbols
    exact ih later (step_lt here bounded)

/-- A burst no longer than the register is seen, whatever stands around it. -/
theorem burst_seen (lossless : Lossless width taps)
    (bounded : ∀ tap ∈ taps, tap.1 < 2 ^ (kept + width)) {before l l' after : List Nat}
    {state : Nat} (start : state < 2 ^ (kept + width)) (symbols : ∀ s ∈ before, s < 2 ^ width)
    (small : ∀ s ∈ l, s < 2 ^ width) (small' : ∀ s ∈ l', s < 2 ^ width)
    (rest : ∀ s ∈ after, s < 2 ^ width) (length : l'.length = l.length)
    (fits : width * l.length ≤ kept + width)
    (same : (before ++ l ++ after).foldl (step width kept taps) state =
      (before ++ l' ++ after).foldl (step width kept taps) state) : l = l' := by
  have first := foldl_step_lt bounded symbols start
  simp only [List.foldl_append] at same
  have met := foldl_step_injective lossless bounded rest (foldl_step_lt bounded small first)
    (foldl_step_lt bounded small' first) same
  rw [foldl_step_value _ small fits, foldl_step_value _ small' (length ▸ fits), length] at met
  rw [← symbols_value small, ← symbols_value small', Nat.xor_right_inj.mp met, length]

end Burst

end ShiftRegister
