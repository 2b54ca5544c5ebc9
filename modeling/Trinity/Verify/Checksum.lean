import Mathlib.Data.List.GetD
import Trinity.Lib.ShiftRegister
import Trinity.Verify.ParserReturns

/-!
The descriptor checksum is a function of the text in front of it. `checksum.rs`
checks a checksum by running the register over it; creating one, as the rule
for descriptor checksums has it, gives the only text that passes.
-/
namespace Trinity

open Outcome

/-- The eight characters of a checksum value. An index of five bits is inside
    the character set. -/
def checksumChars (checksumVal : Nat) : Str :=
  (List.range 8).map fun i => checksumCharset.getD ((checksumVal >>> (5 * (7 - i))) &&& 31) 0

def createChecksum (script : Str) : Outcome ParseError Str := do
  let symbols ← expand script
  let checksumVal := polymod (symbols ++ List.replicate 8 0) ^^^ 1
  return script ++ 35 :: checksumChars checksumVal

theorem polymodStep_eq : polymodStep = ShiftRegister.step 5 35 generator.zipIdx := by
  funext chk value
  rw [polymodStep, ShiftRegister.step, ← Nat.and_two_pow_sub_one_eq_mod]
  rfl

theorem generator_small : ∀ tap ∈ generator.zipIdx, tap.1 < 2 ^ (35 + 5) := by decide

theorem checksumChars_eq (checksumVal : Nat) :
    checksumChars checksumVal =
      (ShiftRegister.symbols 5 8 checksumVal).map fun i => checksumCharset.getD i 0 := by
  have five (x : Nat) : x &&& 31 = x % 2 ^ 5 := Nat.and_two_pow_sub_one_eq_mod x 5
  simp [checksumChars, ShiftRegister.symbols, List.range_succ, five, Nat.shiftRight_eq_div_pow,
    Nat.div_div_eq_div_mul]

theorem checksumCharset_nodup : checksumCharset.Nodup := by decide

theorem checksumCharset_index {c : UInt8} {i : Nat} :
    checksumCharset.findIdx? (· == c) = some i ↔ i < 32 ∧ checksumCharset.getD i 0 = c := by
  have size : checksumCharset.length = 32 := by decide
  rw [List.findIdx?_eq_some_iff_getElem]
  constructor
  · rintro ⟨inside, hit, _⟩
    refine ⟨size ▸ inside, ?_⟩
    rw [List.getD_eq_getElem _ _ inside]
    exact eq_of_beq hit
  · rintro ⟨below, hit⟩
    have inside : i < checksumCharset.length := size ▸ below
    rw [List.getD_eq_getElem _ _ inside] at hit
    refine ⟨inside, beq_iff_eq.mpr hit, ?_⟩
    intro j earlier same
    have before : j < checksumCharset.length := Nat.lt_trans earlier inside
    have twice : checksumCharset[j] = checksumCharset[i] := (eq_of_beq same).trans hit.symm
    exact absurd (checksumCharset_nodup.getElem_inj_iff.mp twice) (Nat.ne_of_lt earlier)

theorem checksum_symbols {c : Str} {tail : List Nat} :
    (c.mapM fun b => (expect (checksumCharset.findIdx? (· == b)) : Outcome ParseError Nat)) =
      .ok tail ↔ (∀ t ∈ tail, t < 32) ∧ c = tail.map fun i => checksumCharset.getD i 0 := by
  simp only [mapM_eq_ok, expect_eq_ok, checksumCharset_index]
  constructor
  · intro each
    induction each with
    | nil => simp
    | cons here _ ih =>
      obtain ⟨small, same⟩ := ih
      refine ⟨List.forall_mem_cons.mpr ⟨here.1, small⟩, ?_⟩
      rw [List.map_cons, here.2, ← same]
  · rintro ⟨small, rfl⟩
    rw [List.forall₂_map_left_iff, List.forall₂_same]
    exact fun i member => ⟨small i member, rfl⟩

theorem checksum_passes_iff (symbols : List Nat) {c : Str} (eight : c.length = 8) :
    (∃ tail, (c.mapM fun b => (expect (checksumCharset.findIdx? (· == b)) :
      Outcome ParseError Nat)) = .ok tail ∧ polymod (symbols ++ tail) = 1) ↔
      c = checksumChars (polymod (symbols ++ List.replicate 8 0) ^^^ 1) := by
  have register {tail : List Nat} (count : tail.length = 8) (small : ∀ t ∈ tail, t < 2 ^ 5) :
      polymod (symbols ++ tail) = 1 ↔
        tail = ShiftRegister.symbols 5 8 (polymod (symbols ++ List.replicate 8 0) ^^^ 1) := by
    have inhabited : tail ≠ [] := by
      rintro rfl
      simp at count
    simp only [polymod, List.foldl_append, polymodStep_eq]
    rw [ShiftRegister.checksum_iff small inhabited (by rw [count]) (by decide) generator_small,
      count]
  rw [checksumChars_eq]
  constructor
  · rintro ⟨tail, found, valid⟩
    obtain ⟨small, rfl⟩ := checksum_symbols.mp found
    rw [List.length_map] at eight
    rw [← (register eight small).mp valid]
  · intro same
    refine ⟨_, checksum_symbols.mpr ⟨?_, same⟩, ?_⟩
    · exact fun t member => ShiftRegister.symbols_lt member
    · exact (register (ShiftRegister.symbols_length _ _)
        fun t member => ShiftRegister.symbols_lt member).mpr rfl

theorem checksumChars_length (checksumVal : Nat) : (checksumChars checksumVal).length = 8 := by
  simp [checksumChars]

theorem checksumChars_known {checksumVal : Nat} {b : UInt8}
    (member : b ∈ checksumChars checksumVal) : b ∈ checksumCharset := by
  simp only [checksumChars, List.mem_map] at member
  obtain ⟨i, _, rfl⟩ := member
  have inside : (checksumVal >>> (5 * (7 - i))) &&& 31 < checksumCharset.length :=
    Nat.lt_of_le_of_lt Nat.and_le_right (by decide)
  rw [List.getD_eq_getElem _ _ inside]
  exact List.getElem_mem inside

def inputIndex (c : UInt8) : Nat := inputCharset.idxOf c

def expandValues : List Nat → List Nat → List Nat
  | groups, [] =>
    match groups with
    | [g] => [g]
    | [g, h] => [g * 3 + h]
    | _ => []
  | groups, v :: rest =>
    match groups with
    | [g, h] => (v % 32) :: (g * 9 + h * 3 + v / 32) :: expandValues [] rest
    | _ => (v % 32) :: expandValues (groups ++ [v / 32]) rest

theorem findIdx?_inputCharset (c : UInt8) :
    inputCharset.findIdx? (· == c) = if c ∈ inputCharset then some (inputIndex c) else none := by
  split
  · rename_i member
    rw [List.findIdx?_eq_some_iff_findIdx_eq]
    exact ⟨List.idxOf_lt_length_iff.mpr member, rfl⟩
  · rename_i missing
    rw [List.findIdx?_eq_none_iff]
    intro b member
    exact beq_false_of_ne fun same => missing (same ▸ member)

theorem expandFrom_eq_some {groups symbols : List Nat} {s : Str} :
    expandFrom groups s = some symbols ↔
      (∀ b ∈ s, b ∈ inputCharset) ∧ expandValues groups (s.map inputIndex) = symbols := by
  induction s generalizing groups symbols with
  | nil =>
    match groups with
    | [] | [_] | [_, _] | _ :: _ :: _ :: _ => simp [expandFrom, expandValues]
  | cons c rest ih =>
    have low (v : Nat) : v &&& 31 = v % 32 := Nat.and_two_pow_sub_one_eq_mod v 5
    have high (v : Nat) : v >>> 5 = v / 32 := Nat.shiftRight_eq_div_pow v 5
    rw [List.forall_mem_cons, List.map_cons]
    by_cases member : c ∈ inputCharset
    · have here : inputCharset.findIdx? (· == c) = some (inputIndex c) := by
        rw [findIdx?_inputCharset, if_pos member]
      match groups with
      | [] | [_] | [_, _] | _ :: _ :: _ :: _ =>
        simp only [expandFrom, expandValues, here, Option.map_eq_some_iff, ih, low, high, member,
          true_and, and_assoc, exists_and_left, exists_eq_left']
    · simp [expandFrom, findIdx?_inputCharset, member]

theorem inputIndex_lt {c : UInt8} (member : c ∈ inputCharset) : inputIndex c < 96 := by
  have inside := List.idxOf_lt_length_iff.mpr member
  have size : inputCharset.length < 96 := by decide
  exact Nat.lt_trans inside size

theorem inputIndices_lt {s : Str} (known : ∀ b ∈ s, b ∈ inputCharset) :
    ∀ v ∈ s.map inputIndex, v < 96 := by
  intro v member
  obtain ⟨b, inside, rfl⟩ := List.mem_map.mp member
  exact inputIndex_lt (known b inside)

theorem createChecksum_eq_ok {body s : Str} :
    createChecksum body = .ok s ↔ ∃ symbols, expandFrom [] body = some symbols ∧
      s = body ++ 35 :: checksumChars (polymod (symbols ++ List.replicate 8 0) ^^^ 1) := by
  simp only [createChecksum, expand, bind_eq_ok, okOr_eq_ok, pure_ok, Except.ok.injEq,
    @eq_comm _ _ s]

theorem verifyChecksum_eq_ok {s : Str} {u : Unit} :
    verifyChecksum s = .ok u ↔ ∃ body, body ≠ [] ∧ createChecksum body = .ok s := by
  simp only [verifyChecksum, expand, bind_eq_ok, rejectIf_eq_ok, expect_eq_ok, abortUnless_eq_ok,
    sliceTo_eq_ok, okOr_eq_ok, Decidable.not_not, List.all_eq_true, createChecksum_eq_ok]
  constructor
  · rintro ⟨_, long, hash, at_, _, rfl, _, _, _, eight, _, _, body, ⟨_, rfl⟩, symbols, expanded,
      tail, found, valid⟩
    have created := (checksum_passes_iff symbols eight).mp ⟨tail, found, valid⟩
    refine ⟨s.take (s.length - 9), ?_, symbols, expanded, ?_⟩
    · rw [Ne, List.take_eq_nil_iff, not_or]
      refine ⟨by omega, ?_⟩
      rintro rfl
      simp at long
    · obtain ⟨inside, same⟩ := List.getElem?_eq_some_iff.mp at_
      rw [← created, ← same, List.getElem_cons_drop, List.take_append_drop]
  · rintro ⟨body, nonempty, symbols, expanded, rfl⟩
    have eight := checksumChars_length (polymod (symbols ++ List.replicate 8 0) ^^^ 1)
    obtain ⟨tail, found, valid⟩ := (checksum_passes_iff symbols eight).mpr rfl
    have known : ∀ b ∈ checksumChars (polymod (symbols ++ List.replicate 8 0) ^^^ 1),
        b ∈ checksumCharset := fun b member => checksumChars_known member
    generalize checksumChars (polymod (symbols ++ List.replicate 8 0) ^^^ 1) = c at *
    have size : (body ++ 35 :: c).length - 9 = body.length := by
      simp only [List.length_append, List.length_cons, eight]
      omega
    have positive := List.length_pos_iff.mpr nonempty
    have rest : (body ++ 35 :: c).drop (body.length + 1) = c := by simp
    have marked : (body ++ 35 :: c)[body.length]? = some 35 := by simp
    rw [size, rest, List.take_left' rfl]
    refine ⟨(), ?_, 35, marked, (), rfl, (), ?_, (), eight, (), ?_, body,
      ⟨isCharBoundary_of_byte marked (by decide), rfl⟩, symbols, expanded, tail, found, valid⟩
    · simp only [List.length_append, List.length_cons, eight]
      omega
    · simp only [List.length_append, List.length_cons]
      omega
    · exact fun b member => List.contains_iff_mem.mpr (known b member)

end Trinity
