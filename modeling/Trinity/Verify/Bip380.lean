import Trinity.Verify.Checksum

/-!
The descriptor checksum stated on its own, as BIP-380 defines it. A symbol is an
element of the field with 32 elements, and a text is the polynomial that has its
symbols for coefficients, behind a leading one. A checksum is right when division
by the generator leaves one. The register of `checksum.rs` holds that remainder.
-/
namespace Trinity.Bip380

def timesX (a : Nat) : Nat := if a < 16 then 2 * a else (2 * a) ^^^ 0b101001

/-- The product of two elements. The bits of a symbol are its coefficients. -/
def times (a b : Nat) : Nat :=
  ((List.range 5).filter b.testBit).foldl (fun sum i => sum ^^^ Nat.iterate timesX i a) 0

/-- The generator behind its leading one: `x^8 + {30}x^7 + {23}x^6 + ... + {9}`. -/
def generatorTail : List Nat := [30, 23, 15, 14, 10, 6, 12, 9]

/-- One step of the division: the next coefficient comes in below, and the leading
    one is cancelled by a multiple of the generator. -/
def divideStep (remainder : List Nat) (coefficient : Nat) : List Nat :=
  match remainder with
  | [] => []
  | leading :: rest =>
    List.zipWith (fun g r => times leading g ^^^ r) generatorTail (rest ++ [coefficient])

def one : List Nat := [0, 0, 0, 0, 0, 0, 0, 1]

def remainder (coefficients : List Nat) : List Nat := coefficients.foldl divideStep one

/-- The symbols of a text by the positions of its characters: five bits of each, and
    one symbol for the bits above them of every three. -/
def symbolsOf : List Nat → List Nat
  | [] => []
  | [a] => [a % 32, a / 32]
  | [a, b] => [a % 32, b % 32, a / 32 * 3 + b / 32]
  | a :: b :: c :: rest =>
    a % 32 :: b % 32 :: c % 32 :: (a / 32 * 9 + b / 32 * 3 + c / 32) :: symbolsOf rest

structure Checksummed (body checksum : Str) : Prop where
  known : ∀ b ∈ body, b ∈ inputCharset
  valid : ∃ tail : List Nat, tail.length = 8 ∧ (∀ t ∈ tail, t < 32) ∧
    checksum = tail.map (fun i => checksumCharset.getD i 0) ∧
    remainder (symbolsOf (body.map inputIndex) ++ tail) = one

section Register

theorem symbols_feed : ∀ top < 32,
    ShiftRegister.symbols 5 8 (ShiftRegister.feed generator.zipIdx top 0) =
      generatorTail.map (times top) := by
  decide

theorem symbols_polymodStep {chk value : Nat} (inside : chk < 2 ^ (35 + 5)) (low : value < 2 ^ 5) :
    ShiftRegister.symbols 5 8 (polymodStep chk value) =
      divideStep (ShiftRegister.symbols 5 8 chk) value := by
  have top : chk >>> 35 < 32 := by
    rw [Nat.shiftRight_eq_div_pow]
    omega
  have leading : ShiftRegister.symbols 5 8 chk =
      chk >>> 35 :: ShiftRegister.symbols 5 7 chk := by
    rw [ShiftRegister.symbols_succ, ← Nat.shiftRight_eq_div_pow]
    exact congrArg (· :: _) (Nat.mod_eq_of_lt top)
  have shifted : ShiftRegister.symbols 5 8 (((chk % 2 ^ 35) <<< 5) ^^^ value) =
      ShiftRegister.symbols 5 7 chk ++ [value] := by
    rw [ShiftRegister.shift_xor low, ShiftRegister.symbols, Nat.mul_comm,
      Nat.mul_add_div (by decide),
      Nat.mul_add_mod, Nat.div_eq_of_lt low, Nat.mod_eq_of_lt low, Nat.add_zero,
      ← ShiftRegister.symbols_mod 7 chk]
  rw [polymodStep_eq, ShiftRegister.step, ← Nat.zero_xor (((chk % 2 ^ 35) <<< 5) ^^^ value),
    ShiftRegister.feed_xor, ShiftRegister.symbols_xor, symbols_feed _ top, shifted, leading,
    divideStep, List.zipWith_map_left]

theorem symbols_polymod {coefficients : List Nat} (small : ∀ c ∈ coefficients, c < 2 ^ 5) :
    polymod coefficients < 2 ^ (35 + 5) ∧
      ShiftRegister.symbols 5 8 (polymod coefficients) = remainder coefficients := by
  induction coefficients using List.reverseRecOn with
  | nil => decide
  | append_singleton init c ih =>
    obtain ⟨inside, same⟩ := ih fun c member => small c (by simp [member])
    have low : c < 2 ^ 5 := small c (by simp)
    rw [polymod, remainder, List.foldl_append, List.foldl_append]
    refine ⟨?_, ?_⟩
    · rw [List.foldl_cons, polymodStep_eq]
      exact ShiftRegister.step_lt low generator_small
    · exact (symbols_polymodStep inside low).trans (congrArg (divideStep · c) same)

theorem polymod_eq_one_iff {coefficients : List Nat} (small : ∀ c ∈ coefficients, c < 2 ^ 5) :
    polymod coefficients = 1 ↔ remainder coefficients = one := by
  obtain ⟨inside, same⟩ := symbols_polymod small
  have unit : ShiftRegister.symbols 5 8 1 = one := by decide
  rw [← same, ← unit]
  constructor
  · intro left
    rw [left]
  · exact ShiftRegister.symbols_inj inside (by decide)

end Register

section Created

theorem expandValues_eq (positions : List Nat) :
    expandValues [] positions = symbolsOf positions := by
  induction positions using symbolsOf.induct with
  | case1 => rfl
  | case2 a => rfl
  | case3 a b => rfl
  | case4 a b c rest ih => simp [expandValues, symbolsOf, ih]

theorem symbolsOf_lt {positions : List Nat} (known : ∀ v ∈ positions, v < 96) :
    ∀ s ∈ symbolsOf positions, s < 2 ^ 5 := by
  induction positions using symbolsOf.induct with
  | case1 => simp [symbolsOf]
  | case2 a =>
    simp only [symbolsOf, List.forall_mem_cons] at known ⊢
    exact ⟨by omega, by omega, by simp⟩
  | case3 a b =>
    simp only [symbolsOf, List.forall_mem_cons] at known ⊢
    exact ⟨by omega, by omega, by omega, by simp⟩
  | case4 a b c rest ih =>
    simp only [symbolsOf, List.forall_mem_cons] at known ⊢
    obtain ⟨first, second, third, later⟩ := known
    exact ⟨by omega, by omega, by omega, by omega, ih later⟩

theorem checksummed_iff {body checksum : Str} :
    Checksummed body checksum ↔ createChecksum body = .ok (body ++ 35 :: checksum) := by
  have low {tail : List Nat} (known : ∀ b ∈ body, b ∈ inputCharset) (small : ∀ t ∈ tail, t < 32) :
      ∀ c ∈ symbolsOf (body.map inputIndex) ++ tail, c < 2 ^ 5 :=
    List.forall_mem_append.mpr ⟨symbolsOf_lt (inputIndices_lt known), small⟩
  simp only [createChecksum_eq_ok, expandFrom_eq_some, expandValues_eq, List.append_cancel_left_eq,
    List.cons.injEq, true_and]
  constructor
  · intro right
    obtain ⟨tail, eight, small, rfl, valid⟩ := right.valid
    refine ⟨_, ⟨right.known, rfl⟩, (checksum_passes_iff _ (by simpa using eight)).mp
      ⟨tail, checksum_symbols.mpr ⟨small, rfl⟩, ?_⟩⟩
    exact (polymod_eq_one_iff (low right.known small)).mpr valid
  · rintro ⟨_, ⟨known, rfl⟩, created⟩
    have eight : checksum.length = 8 := by rw [created, checksumChars_length]
    obtain ⟨tail, found, valid⟩ := (checksum_passes_iff _ eight).mpr created
    obtain ⟨small, rfl⟩ := checksum_symbols.mp found
    exact ⟨known, tail, by simpa using eight, small, rfl,
      (polymod_eq_one_iff (low known small)).mp valid⟩

end Created

end Trinity.Bip380
