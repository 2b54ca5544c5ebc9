import Trinity.Verify.Grammar
import Trinity.Verify.Sample

/-!
The parser accepts exactly the grammar. Each token search of the cursor is
characterised by the token and by what may follow it; the parse of a text is
then its decomposition.
-/
namespace Trinity

open Outcome

section Tokens

theorem startsWith_iff {s lit : Str} : startsWith s lit = true ↔ ∃ rest, s = lit ++ rest := by
  rw [startsWith, List.isPrefixOf_iff_prefix]
  exact exists_congr fun rest => eq_comm

theorem endsWith_iff {s lit : Str} : endsWith s lit = true ↔ ∃ front, s = front ++ lit := by
  rw [endsWith, List.isSuffixOf_iff_suffix]
  exact exists_congr fun front => eq_comm

theorem ascii_left {s t : Str} (ascii : Ascii (s ++ t)) : Ascii s :=
  fun b member => ascii b (List.mem_append_left t member)

theorem ascii_right {s t : Str} (ascii : Ascii (s ++ t)) : Ascii t :=
  fun b member => ascii b (List.mem_append_right s member)

theorem sliceFrom_append {lit rest : Str} (ascii : Ascii (lit ++ rest)) {n : Nat}
    (whole : n = lit.length) : sliceFrom (lit ++ rest) n = .ok rest := by
  rw [sliceFrom_eq_ok]
  exact ⟨isCharBoundary_ascii ascii (by simp [whole]), List.drop_left' whole.symm⟩

theorem sliceTo_append {front rest : Str} (ascii : Ascii (front ++ rest)) {n : Nat}
    (whole : n = front.length) : sliceTo (front ++ rest) n = .ok front := by
  rw [sliceTo_eq_ok]
  exact ⟨isCharBoundary_ascii ascii (by simp [whole]), List.take_left' whole.symm⟩

theorem expectChar_eq_ok {c : UInt8} {rest rest' : Str} (ascii : Ascii rest) :
    expectChar c rest = .ok rest' ↔ rest = c :: rest' := by
  constructor
  · intro run
    unfold expectChar at run
    split at run
    · rename_i starts
      obtain ⟨tail, rfl⟩ := startsWith_iff.mp starts
      rw [@sliceFrom_append [c] tail ascii 1 rfl] at run
      rw [← Except.ok.inj run]
      rfl
    · split at run <;> simp at run
  · rintro rfl
    have starts : startsWith (c :: rest') [c] = true := startsWith_iff.mpr ⟨rest', rfl⟩
    rw [expectChar, if_pos starts]
    exact @sliceFrom_append [c] rest' ascii 1 rfl

/-- A token ends where the rest begins with a byte that is not part of it. -/
def Ends (p : UInt8 → Bool) (rest : Str) : Prop := ∀ b, rest.head? = some b → p b = false

theorem takeWhile_token {p : UInt8 → Bool} {token rest : Str} (inside : ∀ b ∈ token, p b = true)
    (ends : Ends p rest) : (token ++ rest).takeWhile p = token := by
  rw [List.takeWhile_append_of_pos inside]
  cases rest with
  | nil => simp
  | cons b tail => rw [List.takeWhile_cons_of_neg (by simp [ends b rfl]), List.append_nil]

theorem token_takeWhile (p : UInt8 → Bool) (s : Str) :
    ∃ rest, s = s.takeWhile p ++ rest ∧ Ends p rest := by
  refine ⟨s.dropWhile p, List.takeWhile_append_dropWhile.symm, ?_⟩
  intro b first
  have := List.head?_dropWhile_not p s
  rw [first] at this
  exact this

theorem takeWhileChar_eq_ok {p : UInt8 → Bool} {s token rest : Str} (ascii : Ascii s) :
    takeWhileChar p s = .ok (token, rest) ↔
      s = token ++ rest ∧ (∀ b ∈ token, p b = true) ∧ Ends p rest := by
  rw [takeWhileChar, splitToken_eq_ok]
  constructor
  · rintro ⟨_, rfl, rfl⟩
    obtain ⟨rest, split, ends⟩ := token_takeWhile p s
    have inside : ∀ b ∈ s.takeWhile p, p b = true := List.all_eq_true.mp List.all_takeWhile
    generalize s.takeWhile p = token at split inside ⊢
    subst split
    rw [List.take_left' rfl, List.drop_left' rfl]
    exact ⟨rfl, inside, ends⟩
  · rintro ⟨rfl, inside, ends⟩
    rw [takeWhile_token inside ends]
    exact ⟨isCharBoundary_ascii ascii (by simp), List.take_left' rfl, List.drop_left' rfl⟩

theorem takeUntilChar_eq_ok {c : UInt8} {s token rest : Str} (ascii : Ascii s) :
    takeUntilChar c s = .ok (token, rest) ↔
      s = token ++ rest ∧ c ∉ token ∧ ∃ tail, rest = c :: tail := by
  have same : takeUntilChar c s = .ok (token, rest) ↔
      c ∈ s ∧ takeWhileChar (· ≠ c) s = .ok (token, rest) := by
    unfold takeUntilChar takeWhileChar
    by_cases found : c ∈ s
    · simp [found]
    · simp [found]
  rw [same, takeWhileChar_eq_ok ascii]
  constructor
  · rintro ⟨found, rfl, inside, ends⟩
    have absent : c ∉ token := fun member => by simpa using inside c member
    refine ⟨rfl, absent, ?_⟩
    cases rest with
    | nil => exact absurd (by simpa using found) absent
    | cons b tail => exact ⟨tail, by simpa using ends b rfl⟩
  · rintro ⟨rfl, absent, tail, rfl⟩
    refine ⟨by simp, rfl, ?_, ?_⟩
    · intro b member
      rw [decide_eq_true_eq]
      rintro rfl
      exact absent member
    · intro b first
      simpa using first.symm

end Tokens

section Keys

def keyByte (c : UInt8) : Bool := c ≠ 44 ∧ c ≠ 41

theorem branch_text_length (branch : DerivationBranch) : branch.text.length = 4 := by
  cases branch <;> rfl

theorem branch_text_keyByte (branch : DerivationBranch) : ∀ b ∈ branch.text, keyByte b = true := by
  cases branch <;> exact List.all_iff_forall_prop.mp (by decide)

theorem branch_text_inj {a b : DerivationBranch} (same : a.text = b.text) : a = b := by
  cases a <;> cases b <;> first | rfl | exact absurd same (by decide)

theorem append_branch_inj {front front' : Str} {a b : DerivationBranch}
    (same : front ++ a.text = front' ++ b.text) : front = front' ∧ a = b := by
  obtain ⟨fronts, texts⟩ :=
    List.append_inj' same ((branch_text_length a).trans (branch_text_length b).symm)
  exact ⟨fronts, branch_text_inj texts⟩

theorem xpub_of_token {token xpub : Str} {written branch : DerivationBranch} {n : Nat}
    (ends : endsWith token written.text = true)
    (run : (do
      let xpub ← sliceTo token (token.length - 4)
      rejectIf xpub.isEmpty .malformedXpub
      return (xpub, written, token.length) : Outcome ParseError (Str × DerivationBranch × Nat)) =
        .ok (xpub, branch, n)) :
    token = xpub ++ branch.text ∧ xpub ≠ [] ∧ n = token.length := by
  obtain ⟨front, rfl⟩ := endsWith_iff.mp ends
  have cut : (front ++ written.text).length - 4 = front.length := by
    rw [List.length_append, branch_text_length]
    omega
  simp only [bind_eq_ok, sliceTo_eq_ok, rejectIf_eq_ok, pure_ok, Except.ok.injEq, Prod.mk.injEq,
    cut, List.take_left'] at run
  obtain ⟨_, ⟨_, rfl⟩, _, nonempty, rfl, rfl, rfl⟩ := run
  exact ⟨rfl, by simpa using nonempty, rfl⟩

theorem sliceTo_takeWhile {s : Str} (ascii : Ascii s) (p : UInt8 → Bool) :
    sliceTo s (s.takeWhile p).length = .ok (s.takeWhile p) := by
  rw [sliceTo_eq_ok]
  exact ⟨isCharBoundary_ascii ascii (takeWhile_length_le p s),
    (List.prefix_iff_eq_take.mp (List.takeWhile_prefix p)).symm⟩

theorem splitXpubAndDerivation_eq_ok {s xpub : Str} {branch : DerivationBranch} {n : Nat}
    (ascii : Ascii s) :
    splitXpubAndDerivation s = .ok (xpub, branch, n) ↔ ∃ rest, s = xpub ++ (branch.text ++ rest) ∧
      xpub ≠ [] ∧ (∀ b ∈ xpub, keyByte b = true) ∧ Ends keyByte rest ∧ n = xpub.length + 4 := by
  have cut : sliceTo s (s.takeWhile fun c => c ≠ 44 ∧ c ≠ 41).length = .ok (s.takeWhile keyByte) :=
    sliceTo_takeWhile ascii keyByte
  simp only [splitXpubAndDerivation, cut, bind_ok]
  constructor
  · intro run
    obtain ⟨rest, split, ends⟩ := token_takeWhile keyByte s
    have inside : ∀ b ∈ s.takeWhile keyByte, keyByte b = true :=
      List.all_eq_true.mp List.all_takeWhile
    obtain ⟨_, _, run⟩ := bind_eq_ok.mp run
    have whole : s.takeWhile keyByte = xpub ++ branch.text ∧ xpub ≠ [] ∧
        n = (s.takeWhile keyByte).length := by
      split at run
      · rename_i external
        exact @xpub_of_token _ _ .external _ _ external run
      · split at run
        · rename_i internal
          exact @xpub_of_token _ _ .internal _ _ internal run
        · simp [bind_eq_ok] at run
    obtain ⟨token, nonempty, consumed⟩ := whole
    rw [token] at split inside consumed
    rw [List.append_assoc] at split
    rw [List.length_append, branch_text_length] at consumed
    exact ⟨rest, split, nonempty, fun b member => inside b (List.mem_append_left _ member), ends,
      consumed⟩
  · rintro ⟨rest, rfl, nonempty, inside, ends, rfl⟩
    have token : (xpub ++ (branch.text ++ rest)).takeWhile keyByte = xpub ++ branch.text := by
      rw [← List.append_assoc]
      apply takeWhile_token _ ends
      intro b member
      rcases List.mem_append.mp member with front | back
      · exact inside b front
      · exact branch_text_keyByte branch b back
    have ascii' : Ascii (xpub ++ branch.text) :=
      ascii_left (List.append_assoc _ _ _ ▸ ascii : Ascii ((xpub ++ branch.text) ++ rest))
    have size : (xpub ++ branch.text).length = xpub.length + 4 := by
      rw [List.length_append, branch_text_length]
    have front : sliceTo (xpub ++ branch.text) (xpub.length + 4 - 4) = .ok xpub :=
      sliceTo_append ascii' (by omega)
    rw [token, rejectIf_of_not _ (by rw [size]; omega), size]
    simp only [bind_ok, front, List.isEmpty_iff, rejectIf_of_not _ nonempty, pure_ok]
    have ends (b : DerivationBranch) :
        endsWith (xpub ++ branch.text) b.text = true ↔ branch = b := by
      rw [endsWith_iff]
      constructor
      · rintro ⟨front, same⟩
        exact (append_branch_inj same).2
      · rintro rfl
        exact ⟨xpub, rfl⟩
    cases branch with
    | external => exact if_pos ((ends .external).mpr rfl)
    | internal =>
      refine (if_neg fun wrong => ?_).trans (if_pos ((ends .internal).mpr rfl))
      exact absurd ((ends .external).mp wrong) (by decide)

theorem hexNibble_isSome (c : UInt8) : (hexNibble c).isSome = isHexDigit c := by
  unfold hexNibble isHexDigit isAsciiDigit
  split
  · simp_all
  · split
    · simp_all
    · split <;> simp_all

theorem mapM_hexNibble {s : Str} (hex : ∀ c ∈ s, isHexDigit c = true) :
    s.mapM hexNibble = some (s.map fun c => (hexNibble c).getD 0) := by
  induction s with
  | nil => rfl
  | cons c rest ih =>
    obtain ⟨here, later⟩ := List.forall_mem_cons.mp hex
    rw [← hexNibble_isSome] at here
    obtain ⟨v, found⟩ := Option.isSome_iff_exists.mp here
    rw [List.mapM_cons, ih later, List.map_cons, found]
    rfl

theorem hex_of_mapM {s : Str} {nibbles : List Nat} (read : s.mapM hexNibble = some nibbles) :
    ∀ c ∈ s, isHexDigit c = true := by
  induction s generalizing nibbles with
  | nil => simp
  | cons c rest ih =>
    rw [List.mapM_cons] at read
    obtain ⟨v, found, read⟩ := Option.bind_eq_some_iff.mp read
    obtain ⟨tail, later, _⟩ := Option.bind_eq_some_iff.mp read
    rw [List.forall_mem_cons, ← hexNibble_isSome, found]
    exact ⟨rfl, ih later⟩

theorem fingerprintFromHex_eq_some {s : Str} {fingerprint : Fingerprint} :
    fingerprintFromHex s = some fingerprint ↔
      s.length = 8 ∧ (∀ c ∈ s, isHexDigit c = true) ∧ hexFingerprint s = fingerprint := by
  unfold fingerprintFromHex hexFingerprint
  by_cases eight : s.length = 8
  · rw [if_neg (not_not_intro eight), Option.map_eq_some_iff]
    constructor
    · rintro ⟨nibbles, read, rfl⟩
      have hex := hex_of_mapM read
      rw [mapM_hexNibble hex, Option.some.injEq] at read
      exact ⟨eight, hex, by rw [← read, List.foldl_map]⟩
    · rintro ⟨_, hex, rfl⟩
      exact ⟨_, mapM_hexNibble hex, by rw [List.foldl_map]⟩
  · rw [if_pos eight]
    simp [eight]

theorem literal_skipped {s lit rest : Str} {n : Nat} (ascii : Ascii s)
    (starts : startsWith s lit = true) (whole : n = lit.length)
    (cut : sliceFrom s n = .ok rest) : s = lit ++ rest := by
  obtain ⟨tail, rfl⟩ := startsWith_iff.mp starts
  rw [sliceFrom_append ascii whole] at cut
  rw [Except.ok.inj cut]

theorem ends_literal {p : UInt8 → Bool} {lit rest : Str} {c : UInt8} (single : lit = [c])
    (stops : p c = false) : Ends p (lit ++ rest) := by
  intro b first
  rw [single] at first
  rw [← Option.some.inj first]
  exact stops

variable {env : Primitives}

theorem origin_bytes (o : WrittenOrigin) : o.text ≠ [] ∧
    (∀ b ∈ o.text, (b ≠ 93 ∧ b ≠ 44 ∧ b ≠ 41)) := by
  have literal : ∀ lit ∈ [bytes "m/", bytes "48", bytes "/", bytes "0", bytes "1", bytes "/0",
      bytes "/2"], ∀ b ∈ lit, b ≠ 93 ∧ b ≠ 44 ∧ b ≠ 41 := by
    simp only [← List.all_iff_forall_prop]
    decide
  have mark : ∀ m : HardenedMark, m.byte ≠ 93 ∧ m.byte ≠ 44 ∧ m.byte ≠ 41 := by
    intro m
    cases m <;> decide
  simp only [List.forall_mem_cons] at literal
  obtain ⟨master, purpose, slash, mainnet, testnet, account, script, _⟩ := literal
  unfold WrittenOrigin.text
  constructor
  · simp
  · simp only [List.forall_mem_append, List.forall_mem_cons]
    refine ⟨?_, purpose, mark _, slash, ?_, mark _, account, mark _, script, mark _, by simp⟩
    · split
      · exact master
      · simp
    · split
      · exact mainnet
      · exact testnet

theorem hex_bytes {c : UInt8} (hex : isHexDigit c = true) : c ≠ 47 ∧ c ≠ 93 := by
  constructor
  · rintro rfl
    exact absurd hex (by decide)
  · rintro rfl
    exact absurd hex (by decide)

theorem base58_bytes : ∀ c ∈ base58Alphabet,
    keyByte c = true ∧ isMultipathMarker c = false :=
  List.all_iff_forall_prop.mp (by decide)

theorem not_private {xpub : Str}
    (public_ : startsWith xpub (bytes "xpub") = true ∨ startsWith xpub (bytes "tpub") = true) :
    ¬ (startsWith xpub (bytes "xprv") = true ∨ startsWith xpub (bytes "tprv") = true) := by
  have apart {lit lit' : Str} (here : startsWith xpub lit = true)
      (size : lit.length = lit'.length) (differ : lit ≠ lit') : ¬ startsWith xpub lit' = true := by
    intro there
    obtain ⟨rest, rfl⟩ := startsWith_iff.mp here
    obtain ⟨rest', same⟩ := startsWith_iff.mp there
    exact differ (List.append_inj same size).1
  rw [not_or]
  rcases public_ with x | t
  · exact ⟨apart x rfl (by decide), apart x rfl (by decide)⟩
  · exact ⟨apart t rfl (by decide), apart t rfl (by decide)⟩

/-- The parser reads a key expression exactly where one is written and a comma,
    a closing parenthesis or the end follows. -/
theorem parseKeyexpr_eq_ok (base58 : Base58Xpubs env) {s rest : Str} {key : KeyExpr}
    (ascii : Ascii s) :
    parseKeyexpr env s = .ok (key, rest) ↔ ∃ w : WrittenKey, w.Grammatical env ∧
      s = w.text ++ rest ∧ Ends keyByte rest ∧ w.meaning = key := by
  constructor
  · intro run
    simp only [parseKeyexpr, bind_eq_ok, rejectIf_eq_ok, okOr_eq_ok, Decidable.not_not] at run
    obtain ⟨_, opened, s₁, cut₁, ⟨fpStr, s₂⟩, token, _, _, fingerprint, hex, _, slash, s₃, cut₃,
      ⟨originPath, s₄⟩, path, _, closed, _, _, _, valid, s₅, cut₅, ⟨xpub, branch, consumed⟩, split,
      s₆, cut₆, _, _, _, public_, _, _, _, known, made⟩ := run
    obtain rfl := literal_skipped ascii opened rfl cut₁
    have ascii₁ := ascii_right ascii
    obtain ⟨rfl, _, _⟩ := (takeWhileChar_eq_ok ascii₁).mp token
    have ascii₂ := ascii_right ascii₁
    obtain rfl := literal_skipped ascii₂ slash rfl cut₃
    have ascii₃ := ascii_right ascii₂
    obtain ⟨rfl, _, _⟩ := (takeWhileChar_eq_ok ascii₃).mp path
    have ascii₄ := ascii_right ascii₃
    obtain rfl := literal_skipped ascii₄ closed rfl cut₅
    have ascii₅ := ascii_right ascii₄
    obtain ⟨t₆, rfl, _, _, ends, rfl⟩ := (splitXpubAndDerivation_eq_ok ascii₅).mp split
    rw [← List.append_assoc] at ascii₅ cut₆
    rw [sliceFrom_append ascii₅ (by rw [List.length_append, branch_text_length])] at cut₆
    obtain rfl := Except.ok.inj cut₆
    simp only [pure_ok, Except.ok.injEq, Prod.mk.injEq] at made
    obtain ⟨rfl, rfl⟩ := made
    obtain ⟨eight, digits, rfl⟩ := fingerprintFromHex_eq_some.mp hex
    refine ⟨⟨fpStr, originPath, xpub, branch⟩, ⟨eight, digits, ?_, public_, ?_⟩, ?_, ends, rfl⟩
    · exact validateOriginPath_iff.mp valid
    · rw [Bool.not_eq_true, Option.isNone_eq_false_iff] at known
      exact known
    · simp [WrittenKey.text]
  · rintro ⟨⟨fpStr, originPath, xpub, branch⟩, ⟨eight, hex, ⟨o, path⟩, public_, known⟩, rfl, ends,
      rfl⟩
    obtain ⟨nonempty, pathBytes⟩ := origin_bytes o
    have xpubBytes := fun c member => base58_bytes c (base58 xpub known c member)
    have inhabited : xpub ≠ [] := by
      rintro rfl
      revert public_
      simp only [imp_false]
      decide
    subst path
    simp only [WrittenKey.text, List.append_assoc] at ascii ⊢
    have ascii₁ := ascii_right ascii
    have ascii₂ := ascii_right ascii₁
    have ascii₃ := ascii_right ascii₂
    have ascii₄ := ascii_right ascii₃
    have ascii₅ := ascii_right ascii₄
    simp only [parseKeyexpr, bind_eq_ok, rejectIf_eq_ok, okOr_eq_ok, Decidable.not_not]
    refine ⟨(), startsWith_iff.mpr ⟨_, rfl⟩, _, sliceFrom_append ascii rfl, (fpStr, _),
      (takeWhileChar_eq_ok ascii₁).mpr ⟨rfl, ?_, ?_⟩, (), eight, hexFingerprint fpStr,
      fingerprintFromHex_eq_some.mpr ⟨eight, hex, rfl⟩, (), startsWith_iff.mpr ⟨_, rfl⟩, _,
      sliceFrom_append ascii₂ rfl, (o.text, _), (takeWhileChar_eq_ok ascii₃).mpr ⟨rfl, ?_, ?_⟩, (),
      startsWith_iff.mpr ⟨_, rfl⟩, (), by simpa using nonempty, (), validateOriginPath_text o, _,
      sliceFrom_append ascii₄ rfl, (xpub, branch, xpub.length + 4),
      (splitXpubAndDerivation_eq_ok ascii₅).mpr ⟨rest, rfl, inhabited, ?_, ends, rfl⟩, rest, ?_,
      (), not_private public_, (), public_, (), ?_, (), ?_, rfl⟩
    · intro b member
      exact decide_eq_true (hex_bytes (hex b member))
    · exact @ends_literal _ _ _ 47 (by decide) (by decide)
    · intro b member
      exact decide_eq_true (pathBytes b member)
    · exact @ends_literal _ _ _ 93 (by decide) (by decide)
    · exact fun b member => (xpubBytes b member).1
    · rw [← List.append_assoc] at ascii₅ ⊢
      exact sliceFrom_append ascii₅ (by rw [List.length_append, branch_text_length])
    · rw [Bool.not_eq_true, List.any_eq_false]
      intro b member
      simp [(xpubBytes b member).2]
    · rw [Bool.not_eq_true, Option.isNone_eq_false_iff]
      exact known

theorem rfind_last {c : UInt8} {front back : Str} (absent : c ∉ back) :
    rfind c (front ++ c :: back) = some front.length := by
  have position : (front ++ c :: back).reverse.findIdx? (· == c) = some back.length := by
    rw [List.reverse_append, List.reverse_cons, List.append_assoc, List.findIdx?_append]
    have none : back.reverse.findIdx? (· == c) = none := by
      rw [List.findIdx?_eq_none_iff]
      intro b member
      rw [beq_eq_false_iff_ne]
      rintro rfl
      exact absent (List.mem_reverse.mp member)
    simp [none, List.findIdx?_cons]
  rw [rfind, position, Option.map_some, List.length_append, List.length_cons]
  congr 1
  omega

theorem checksumCharset_plain : (35 : UInt8) ∉ checksumCharset := by decide

theorem created_body {body s : Str} (created : createChecksum body = .ok s) :
    Ascii body ∧ rfind 35 s = some body.length ∧ sliceTo s body.length = .ok body := by
  obtain ⟨symbols, expanded, rfl⟩ := createChecksum_eq_ok.mp created
  have plain : (35 : UInt8) ∉ checksumChars (polymod (symbols ++ List.replicate 8 0) ^^^ 1) :=
    fun member => checksumCharset_plain (checksumChars_known member)
  refine ⟨expandFrom_ascii expanded, rfind_last plain, ?_⟩
  rw [sliceTo_eq_ok]
  exact ⟨isCharBoundary_of_byte (by simp) (by decide : (35 : UInt8) < 0x80), List.take_left' rfl⟩

theorem parse_body (base58 : Base58Xpubs env) {body s : Str} {desc : ParsedDescriptor}
    (created : createChecksum body = .ok s) :
    parse env s = .ok desc ↔ ∃ k₀ k₁ k₂ : WrittenKey, k₀.Grammatical env ∧ k₁.Grammatical env ∧
      k₂.Grammatical env ∧ descriptorBody k₀ k₁ k₂ = body ∧
      ⟨2, k₀.meaning, k₁.meaning, k₂.meaning⟩ = desc := by
  obtain ⟨ascii, hash, cut⟩ := created_body created
  have comma : bytes "," = [44] := by decide
  have closer : bytes ")" = [41] := by decide
  constructor
  · intro run
    simp only [parse, bind_eq_ok, rejectIf_eq_ok, expect_eq_ok, Decidable.not_not] at run
    obtain ⟨_, _, _, hash', _, cut', _, top, s₁, cut₁, _, multi, s₂, cut₂, ⟨kToken, s₃⟩, token, _,
      threshold, s₄, comma₄, ⟨key0, s₅⟩, parsed₀, s₆, comma₆, ⟨key1, s₇⟩, parsed₁, s₈, comma₈,
      ⟨key2, s₉⟩, parsed₂, _, _, s₁₀, closer₁₀, s₁₁, closer₁₁, _, done, made⟩ := run
    obtain rfl := Option.some.inj (hash.symm.trans hash')
    obtain rfl := Except.ok.inj (cut.symm.trans cut')
    obtain rfl := literal_skipped ascii top rfl cut₁
    have ascii₁ := ascii_right ascii
    obtain rfl := literal_skipped ascii₁ multi rfl cut₂
    have ascii₂ := ascii_right ascii₁
    obtain ⟨rfl, _, _⟩ := (takeUntilChar_eq_ok ascii₂).mp token
    have ascii₃ := ascii_right ascii₂
    obtain rfl := (expectChar_eq_ok ascii₃).mp comma₄
    have ascii₄ : Ascii s₄ := ascii_suffix ascii₃ (List.suffix_cons _ _)
    obtain ⟨k₀, grammatical₀, rfl, _, rfl⟩ := (parseKeyexpr_eq_ok base58 ascii₄).mp parsed₀
    have ascii₅ := ascii_right ascii₄
    obtain rfl := (expectChar_eq_ok ascii₅).mp comma₆
    have ascii₆ : Ascii s₆ := ascii_suffix ascii₅ (List.suffix_cons _ _)
    obtain ⟨k₁, grammatical₁, rfl, _, rfl⟩ := (parseKeyexpr_eq_ok base58 ascii₆).mp parsed₁
    have ascii₇ := ascii_right ascii₆
    obtain rfl := (expectChar_eq_ok ascii₇).mp comma₈
    have ascii₈ : Ascii s₈ := ascii_suffix ascii₇ (List.suffix_cons _ _)
    obtain ⟨k₂, grammatical₂, rfl, _, rfl⟩ := (parseKeyexpr_eq_ok base58 ascii₈).mp parsed₂
    have ascii₉ := ascii_right ascii₈
    obtain rfl := (expectChar_eq_ok ascii₉).mp closer₁₀
    have ascii₁₀ : Ascii s₁₀ := ascii_suffix ascii₉ (List.suffix_cons _ _)
    obtain rfl := (expectChar_eq_ok ascii₁₀).mp closer₁₁
    obtain rfl : s₁₁ = [] := by simpa using done
    obtain rfl : kToken = bytes "2" := threshold
    refine ⟨k₀, k₁, k₂, grammatical₀, grammatical₁, grammatical₂, ?_, Except.ok.inj made⟩
    rw [descriptorBody, comma, closer]
    rfl
  · rintro ⟨k₀, k₁, k₂, grammatical₀, grammatical₁, grammatical₂, rfl, rfl⟩
    have nonempty : descriptorBody k₀ k₁ k₂ ≠ [] :=
      List.append_ne_nil_of_left_ne_nil (by decide) _
    have followed : ¬ startsWith (bytes ")" ++ bytes ")") (bytes ",") = true := by decide
    rw [descriptorBody] at ascii
    have ascii₁ := ascii_right ascii
    have ascii₂ := ascii_right ascii₁
    have ascii₃ := ascii_right ascii₂
    have ascii₄ := ascii_right ascii₃
    have ascii₅ := ascii_right ascii₄
    have ascii₆ := ascii_right ascii₅
    have ascii₇ := ascii_right ascii₆
    have ascii₈ := ascii_right ascii₇
    have ascii₉ := ascii_right ascii₈
    have ascii₁₀ := ascii_right ascii₉
    simp only [parse, bind_eq_ok, rejectIf_eq_ok, expect_eq_ok, Decidable.not_not]
    refine ⟨(), verifyChecksum_eq_ok.mpr ⟨_, nonempty, created⟩, _, hash, _, cut, (),
      startsWith_iff.mpr ⟨_, rfl⟩, _, sliceFrom_append ascii rfl, (), startsWith_iff.mpr ⟨_, rfl⟩,
      _, sliceFrom_append ascii₁ rfl, (bytes "2", _),
      (takeUntilChar_eq_ok ascii₂).mpr ⟨rfl, by decide, _, by rw [comma]; rfl⟩, (), rfl, _,
      (expectChar_eq_ok ascii₃).mpr (by rw [comma]; rfl), (k₀.meaning, _),
      (parseKeyexpr_eq_ok base58 ascii₄).mpr ⟨k₀, grammatical₀, rfl, ?_, rfl⟩, _,
      (expectChar_eq_ok ascii₅).mpr (by rw [comma]; rfl), (k₁.meaning, _),
      (parseKeyexpr_eq_ok base58 ascii₆).mpr ⟨k₁, grammatical₁, rfl, ?_, rfl⟩, _,
      (expectChar_eq_ok ascii₇).mpr (by rw [comma]; rfl), (k₂.meaning, _),
      (parseKeyexpr_eq_ok base58 ascii₈).mpr ⟨k₂, grammatical₂, rfl, ?_, rfl⟩, (), ?_, _,
      (expectChar_eq_ok ascii₉).mpr (by rw [closer]; rfl), [],
      (expectChar_eq_ok ascii₁₀).mpr (by rw [closer]), (), by simp, rfl⟩
    · exact ends_literal comma (by decide)
    · exact ends_literal comma (by decide)
    · exact ends_literal closer (by decide)
    · exact followed

theorem written_unique {k k' : WrittenKey} {rest rest' : Str} (eight : k.fingerprint.length = 8)
    (eight' : k'.fingerprint.length = 8) (meaning : k.meaning = k'.meaning)
    (same : k.text ++ rest = k'.text ++ rest') : k = k' ∧ rest = rest' := by
  rcases k with ⟨fingerprint, origin, xpub, branch⟩
  rcases k' with ⟨fingerprint', origin', xpub', branch'⟩
  simp only [WrittenKey.meaning, KeyExpr.mk.injEq] at meaning
  obtain ⟨_, rfl, rfl, rfl⟩ := meaning
  have size : fingerprint.length = fingerprint'.length := eight.trans eight'.symm
  simp only [WrittenKey.text, List.append_assoc, List.append_cancel_left_eq] at same
  obtain ⟨rfl, tails⟩ := List.append_inj same size
  simpa using tails

theorem WrittenDescriptor.Grammatical.eight {w : WrittenDescriptor} (here : w.Grammatical env) :
    w.checksum.length = 8 := by
  obtain ⟨tail, eight, _, same, _⟩ := here.checksum.valid
  rw [same, List.length_map, eight]

/-- A text is parsed exactly when it is a written descriptor, to what is written. -/
theorem parse_iff_written (base58 : Base58Xpubs env) {s : Str} {desc : ParsedDescriptor} :
    parse env s = .ok desc ↔
      ∃ w : WrittenDescriptor, w.Grammatical env ∧ w.text = s ∧ w.meaning = desc := by
  constructor
  · intro run
    have checked : ∃ u, verifyChecksum s = .ok u := by
      simp only [parse, bind_eq_ok] at run
      obtain ⟨u, checked, _⟩ := run
      exact ⟨u, checked⟩
    obtain ⟨u, checked⟩ := checked
    obtain ⟨body, _, created⟩ := verifyChecksum_eq_ok.mp checked
    obtain ⟨k₀, k₁, k₂, here₀, here₁, here₂, rfl, rfl⟩ := (parse_body base58 created).mp run
    obtain ⟨symbols, _, rfl⟩ := createChecksum_eq_ok.mp created
    exact ⟨⟨k₀, k₁, k₂, _⟩, ⟨here₀, here₁, here₂, Bip380.checksummed_iff.mpr created⟩, rfl, rfl⟩
  · rintro ⟨w, grammatical, rfl, rfl⟩
    exact (parse_body base58 (Bip380.checksummed_iff.mp grammatical.checksum)).mpr
      ⟨w.key0, w.key1, w.key2,
      grammatical.key0, grammatical.key1, grammatical.key2, rfl, rfl⟩

/-- The parser accepts exactly the grammar: a text is parsed if and only if it
    is a written descriptor with its checksum, what it is parsed to is what is
    written, and it is written in one way only. -/
theorem parse_exactly_grammar (env : Primitives) (base58 : Base58Xpubs env) (s : Str) :
    (∀ desc, parse env s = .ok desc ↔
      ∃ w : WrittenDescriptor, w.Grammatical env ∧ w.text = s ∧ w.meaning = desc) ∧
    ∀ w w' : WrittenDescriptor, w.Grammatical env → w.text = s → w'.Grammatical env →
      w'.text = s → w = w' := by
  have accepts (desc : ParsedDescriptor) := @parse_iff_written env base58 s desc
  refine ⟨accepts, ?_⟩
  intro w w' here text there text'
  have meaning : w.meaning = w'.meaning := Except.ok.inj
    (((accepts _).mpr ⟨w, here, text, rfl⟩).symm.trans ((accepts _).mpr ⟨w', there, text', rfl⟩))
  obtain ⟨bodies, checksums⟩ := List.append_inj' (text.trans text'.symm)
    (by rw [List.length_cons, List.length_cons, here.eight, there.eight])
  rcases w with ⟨k₀, k₁, k₂, checksum⟩
  rcases w' with ⟨k₀', k₁', k₂', checksum'⟩
  simp only [WrittenDescriptor.meaning, ParsedDescriptor.mk.injEq] at meaning
  obtain ⟨_, first, second, third⟩ := meaning
  simp only [WrittenDescriptor.body, descriptorBody, List.append_cancel_left_eq] at bodies
  obtain ⟨same₀, rest₀⟩ := written_unique here.key0.eight there.key0.eight first bodies
  obtain ⟨same₁, rest₁⟩ :=
    written_unique here.key1.eight there.key1.eight second (List.append_cancel_left rest₀)
  obtain ⟨same₂, _⟩ :=
    written_unique here.key2.eight there.key2.eight third (List.append_cancel_left rest₁)
  rw [WrittenDescriptor.mk.injEq]
  exact ⟨same₀, same₁, same₂, (List.cons.inj checksums).2⟩

end Keys

namespace Sample

theorem base58_xpubs : Base58Xpubs env := by
  have listed : ∀ x ∈ [xpubA, xpubB, xpubC], ∀ c ∈ x, c ∈ base58Alphabet := by
    simp only [← List.all_iff_forall_prop]
    decide
  intro x known
  apply listed
  obtain ⟨key, found⟩ := Option.isSome_iff_exists.mp known
  obtain ⟨before, after, split, _⟩ := List.lookup_eq_some_iff.mp found
  have entry : (x, key) ∈ tables.xpubs := split ▸ by simp
  simp only [tables, List.mem_cons, Prod.mk.injEq, List.not_mem_nil, or_false] at entry
  simp only [List.mem_cons, List.not_mem_nil, or_false]
  rcases entry with ⟨rfl, _⟩ | ⟨rfl, _⟩ | ⟨rfl, _⟩
  · exact .inl rfl
  · exact .inr (.inl rfl)
  · exact .inr (.inr rfl)

end Sample

theorem receive_written : ∃ w : WrittenDescriptor, w.Grammatical Sample.env ∧
    w.text = Sample.receiveDescriptor ∧ w.meaning = Sample.wallet .external :=
  ((parse_exactly_grammar Sample.env Sample.base58_xpubs Sample.receiveDescriptor).1 _).mp
    Sample.parsed_receive

end Trinity
