import Mathlib.Data.Bool.AllAny
import Trinity.Verify.DescriptorFacts

/-!
The descriptor parser never aborts: it slices at character boundaries and looks
up only characters it has found before. A valid checksum makes the whole string
ASCII, and every cursor position is a suffix of it.
-/
namespace Trinity

open Outcome

abbrev Returns {ε α : Type} (x : Outcome ε α) : Prop := OnlyFails (fun _ => True) x

def Ascii (s : Str) : Prop := ∀ b ∈ s, b < 0x80

theorem ascii_append {s t : Str} (left : Ascii s) (right : Ascii t) : Ascii (s ++ t) := by
  intro b member
  rcases List.mem_append.mp member with inLeft | inRight
  · exact left b inLeft
  · exact right b inRight

theorem ascii_suffix {s t : Str} (ascii : Ascii s) (suffix : t <:+ s) : Ascii t :=
  fun b member => ascii b (suffix.subset member)

theorem ascii_take {s : Str} (ascii : Ascii s) (n : Nat) : Ascii (s.take n) :=
  fun b member => ascii b (List.mem_of_mem_take member)

theorem isCharBoundary_of_byte {s : Str} {i : Nat} {b : UInt8} (at_ : s[i]? = some b)
    (ascii : b < 0x80) : isCharBoundary s i = true := by
  simp [isCharBoundary, at_, ascii]

theorem isCharBoundary_ascii {s : Str} (ascii : Ascii s) {i : Nat} (inside : i ≤ s.length) :
    isCharBoundary s i = true := by
  rcases Nat.lt_or_eq_of_le inside with below | rfl
  · exact isCharBoundary_of_byte (List.getElem?_eq_getElem below) (ascii _ (List.getElem_mem below))
  · simp [isCharBoundary]

theorem sliceTo_returns {s : Str} {i : Nat} (boundary : isCharBoundary s i = true) :
    Returns (sliceTo s i) := by
  refine onlyFails_bind (onlyFails_abortUnless boundary) ?_
  intro _ _
  exact onlyFails_ok _

theorem sliceFrom_returns {s : Str} {i : Nat} (boundary : isCharBoundary s i = true) :
    Returns (sliceFrom s i) := by
  refine onlyFails_bind (onlyFails_abortUnless boundary) ?_
  intro _ _
  exact onlyFails_ok _

theorem sliceFrom_ascii {s t : Str} {n : Nat} (ascii : Ascii s) (run : sliceFrom s n = .ok t) :
    Ascii t := by
  rw [sliceFrom_eq_ok] at run
  exact run.2 ▸ ascii_suffix ascii (List.drop_suffix _ _)

theorem startsWith_length {s lit : Str} (starts : startsWith s lit = true) :
    lit.length ≤ s.length :=
  (List.isPrefixOf_iff_prefix.mp starts).length_le

-- With all bytes enumerable, `decide` would try each of them and not those of the list.
theorem inputCharset_ascii : Ascii inputCharset :=
  List.all_iff_forall_prop.mp (by decide)

theorem checksumCharset_ascii : Ascii checksumCharset :=
  List.all_iff_forall_prop.mp (by decide)

theorem expandFrom_ascii {s : Str} {groups symbols : List Nat}
    (expanded : expandFrom groups s = some symbols) : Ascii s := by
  induction s generalizing groups symbols with
  | nil => exact fun b member => absurd member List.not_mem_nil
  | cons c rest ih =>
    rw [expandFrom] at expanded
    split at expanded
    · contradiction
    · rename_i v found
      have known : c < 0x80 := by
        obtain ⟨inside, hit, _⟩ := List.findIdx?_eq_some_iff_getElem.mp found
        rw [← eq_of_beq hit]
        exact inputCharset_ascii _ (List.getElem_mem inside)
      have later : Ascii rest := by
        split at expanded
        all_goals
          obtain ⟨_, run, _⟩ := Option.map_eq_some_iff.mp expanded
          exact ih run
      intro b member
      rcases List.mem_cons.mp member with rfl | there
      · exact known
      · exact later b there

theorem expand_returns (s : Str) : Returns (expand s) := onlyFails_okOr trivial

theorem verifyChecksum_returns (s : Str) : Returns (verifyChecksum s) := by
  apply onlyFails_rejectIf_bind trivial
  intro long
  have inside : s.length - 9 < s.length := by omega
  refine onlyFails_bind (onlyFails_expect ⟨_, List.getElem?_eq_getElem inside⟩) ?_
  intro hash at_
  apply onlyFails_rejectIf_bind trivial
  intro marked
  refine onlyFails_bind (onlyFails_abortUnless (by omega)) ?_
  intro _ _
  refine onlyFails_bind (onlyFails_abortUnless (by simp only [List.length_drop]; omega)) ?_
  intro _ _
  apply onlyFails_rejectIf_bind trivial
  intro known
  rw [Decidable.not_not, List.all_eq_true] at known
  have boundary : isCharBoundary s (s.length - 9) = true := by
    rw [Decidable.not_not] at marked
    rw [expect_eq_ok, marked] at at_
    exact isCharBoundary_of_byte at_ (by decide)
  refine onlyFails_bind (sliceTo_returns boundary) ?_
  intro payload _
  refine onlyFails_bind (expand_returns payload) ?_
  intro symbols _
  refine onlyFails_bind (onlyFails_mapM ?_) ?_
  · intro c member
    apply onlyFails_expect
    rw [← Option.isSome_iff_exists, List.findIdx?_isSome, List.any_beq', List.contains_iff_mem]
    simpa using known c member
  intro tail _
  exact onlyFails_rejectIf trivial

theorem verifyChecksum_ascii {s : Str} {u : Unit} (valid : verifyChecksum s = .ok u) :
    Ascii s ∧ 35 ∈ s := by
  simp only [verifyChecksum, expand, bind_eq_ok, rejectIf_eq_ok, expect_eq_ok, abortUnless_eq_ok,
    sliceTo_eq_ok, okOr_eq_ok, Decidable.not_not, List.all_eq_true] at valid
  obtain ⟨_, long, hash, at_, _, rfl, _, _, _, _, _, known, payload, ⟨_, rfl⟩, symbols, expanded,
    _⟩ := valid
  refine ⟨?_, List.mem_of_getElem? at_⟩
  have split : s = s.take (s.length - 9) ++ 35 :: s.drop (s.length - 9 + 1) := by
    obtain ⟨inside, same⟩ := List.getElem?_eq_some_iff.mp at_
    rw [← same, List.getElem_cons_drop, List.take_append_drop]
  rw [split]
  apply ascii_append (expandFrom_ascii expanded)
  intro b member
  rcases List.mem_cons.mp member with rfl | there
  · decide
  · exact checksumCharset_ascii b (by simpa using known b there)

theorem originIndex_returns (path segment : Str) : Returns (originIndex path segment) := by
  apply onlyFails_rejectIf_bind trivial
  intro nonempty
  apply onlyFails_rejectIf_bind trivial
  intro marked
  have boundary : isCharBoundary segment (segment.length - 1) = true := by
    cases last : segment.getLast? with
    | none => simp_all
    | some c =>
      have hardened := hardened_mark last marked
      rw [List.getLast?_eq_getElem?] at last
      rcases hardened with rfl | rfl
      · exact isCharBoundary_of_byte last (by decide)
      · exact isCharBoundary_of_byte last (by decide)
  refine onlyFails_bind (sliceTo_returns boundary) ?_
  intro num _
  apply onlyFails_rejectIf_bind trivial
  intro _
  apply onlyFails_rejectIf_bind trivial
  intro _
  apply onlyFails_rejectIf_bind trivial
  intro _
  apply onlyFails_okOr_bind trivial
  intro n _
  apply onlyFails_rejectIf_bind trivial
  intro _
  exact onlyFails_ok _

theorem validateOriginPath_returns (path : Str) : Returns (validateOriginPath path) := by
  apply onlyFails_rejectIf_bind trivial
  intro _
  apply onlyFails_rejectIf_bind trivial
  intro _
  apply onlyFails_rejectIf_bind trivial
  intro _
  refine onlyFails_bind (onlyFails_mapM fun segment _ => originIndex_returns path segment) ?_
  intro indices _
  split
  · exact onlyFails_rejectIf trivial
  · exact onlyFails_fail trivial

theorem expectChar_returns {rest : Str} (ascii : Ascii rest) (c : UInt8) :
    Returns (expectChar c rest) := by
  unfold expectChar
  split
  · rename_i starts
    exact sliceFrom_returns (isCharBoundary_ascii ascii (startsWith_length starts))
  · split
    · exact onlyFails_fail trivial
    · exact onlyFails_fail trivial

theorem expectChar_suffix {c : UInt8} {rest rest' : Str} (run : expectChar c rest = .ok rest') :
    rest' <:+ rest := by
  unfold expectChar at run
  split at run
  · rw [sliceFrom_eq_ok] at run
    exact run.2 ▸ List.drop_suffix _ _
  · split at run <;> simp at run

theorem splitToken_returns {rest : Str} (ascii : Ascii rest) {n : Nat} (inside : n ≤ rest.length) :
    Returns (splitToken rest n) := by
  refine onlyFails_bind (sliceTo_returns (isCharBoundary_ascii ascii inside)) ?_
  intro token _
  refine onlyFails_bind (sliceFrom_returns (isCharBoundary_ascii ascii inside)) ?_
  intro rest' _
  exact onlyFails_ok _

theorem splitToken_eq_ok {rest token rest' : Str} {n : Nat} :
    splitToken rest n = .ok (token, rest') ↔
      isCharBoundary rest n = true ∧ rest.take n = token ∧ rest.drop n = rest' := by
  simp only [splitToken, bind_eq_ok, sliceTo_eq_ok, sliceFrom_eq_ok, pure_ok, Except.ok.injEq,
    Prod.mk.injEq]
  constructor
  · rintro ⟨_, ⟨boundary, rfl⟩, _, ⟨_, rfl⟩, rfl, rfl⟩
    exact ⟨boundary, rfl, rfl⟩
  · rintro ⟨boundary, rfl, rfl⟩
    exact ⟨_, ⟨boundary, rfl⟩, _, ⟨boundary, rfl⟩, rfl, rfl⟩

theorem takeWhile_length_le (p : UInt8 → Bool) (s : Str) : (s.takeWhile p).length ≤ s.length :=
  (List.takeWhile_prefix p).length_le

theorem takeWhileChar_returns {rest : Str} (ascii : Ascii rest) (p : UInt8 → Bool) :
    Returns (takeWhileChar p rest) := splitToken_returns ascii (takeWhile_length_le p rest)

theorem takeUntilChar_returns {rest : Str} (ascii : Ascii rest) (c : UInt8) :
    Returns (takeUntilChar c rest) := by
  unfold takeUntilChar
  split
  · exact splitToken_returns ascii (takeWhile_length_le _ rest)
  · exact onlyFails_fail trivial

theorem takeUntilChar_suffix {c : UInt8} {rest token rest' : Str}
    (run : takeUntilChar c rest = .ok (token, rest')) : rest' <:+ rest := by
  unfold takeUntilChar at run
  split at run
  · exact (splitToken_eq_ok.mp run).2.2 ▸ List.drop_suffix _ _
  · simp at run

theorem splitXpubAndDerivation_returns {rest : Str} (ascii : Ascii rest) :
    Returns (splitXpubAndDerivation rest) := by
  unfold splitXpubAndDerivation
  refine onlyFails_bind
    (sliceTo_returns (isCharBoundary_ascii ascii (takeWhile_length_le _ rest))) ?_
  intro token cut
  rw [sliceTo_eq_ok] at cut
  have tokenAscii : Ascii token := cut.2 ▸ ascii_take ascii _
  have xpub : Returns (sliceTo token (token.length - 4)) :=
    sliceTo_returns (isCharBoundary_ascii tokenAscii (Nat.sub_le _ _))
  apply onlyFails_rejectIf_bind trivial
  intro _
  have tail : ∀ branch : DerivationBranch, Returns (do
      let xpub ← sliceTo token (token.length - 4)
      rejectIf xpub.isEmpty .malformedXpub
      return (xpub, branch, token.length)) := by
    intro branch
    refine onlyFails_bind xpub ?_
    intro _ _
    apply onlyFails_rejectIf_bind trivial
    intro _
    exact onlyFails_ok _
  split
  · exact tail .external
  · split
    · exact tail .internal
    · apply onlyFails_rejectIf_bind trivial
      intro _
      refine onlyFails_bind (onlyFails_fail trivial) ?_
      intro branch _
      exact tail branch

theorem splitXpubAndDerivation_consumed {rest xpub : Str} {branch : DerivationBranch} {n : Nat}
    (run : splitXpubAndDerivation rest = .ok (xpub, branch, n)) : n ≤ rest.length := by
  unfold splitXpubAndDerivation at run
  obtain ⟨token, cut, run⟩ := bind_eq_ok.mp run
  rw [sliceTo_eq_ok] at cut
  have short : token.length ≤ rest.length := by
    rw [← cut.2, List.length_take]
    exact Nat.min_le_right _ _
  obtain ⟨_, _, run⟩ := bind_eq_ok.mp run
  have consumed : ∀ branch' : DerivationBranch, (do
      let xpub ← sliceTo token (token.length - 4)
      rejectIf xpub.isEmpty .malformedXpub
      return (xpub, branch', token.length)) = (.ok (xpub, branch, n) : Outcome ParseError _) →
      n = token.length := by
    intro branch' run
    simp only [bind_eq_ok, pure_ok, Except.ok.injEq, Prod.mk.injEq] at run
    obtain ⟨_, _, _, _, _, _, same⟩ := run
    exact same.symm
  have same : n = token.length := by
    split at run
    · exact consumed _ run
    · split at run
      · exact consumed _ run
      · simp [bind_eq_ok] at run
  omega

variable {env : Primitives}

theorem parseKeyexpr_returns {rest : Str} (ascii : Ascii rest) :
    Returns (parseKeyexpr env rest) := by
  have single : ∀ {s lit : Str}, Ascii s → lit.length = 1 → ¬ ¬ startsWith s lit →
      isCharBoundary s 1 = true := by
    intro s lit asciiS one starts
    exact isCharBoundary_ascii asciiS (one ▸ startsWith_length (Decidable.not_not.mp starts))
  apply onlyFails_rejectIf_bind trivial
  intro opened
  refine onlyFails_bind (sliceFrom_returns (single ascii rfl opened)) ?_
  intro rest₁ cut
  have ascii₁ := sliceFrom_ascii ascii cut
  refine onlyFails_bind (takeWhileChar_returns ascii₁ _) ?_
  rintro ⟨fpStr, rest₂⟩ token
  have ascii₂ : Ascii rest₂ :=
    (splitToken_eq_ok.mp token).2.2 ▸ ascii_suffix ascii₁ (List.drop_suffix _ _)
  apply onlyFails_rejectIf_bind trivial
  intro _
  apply onlyFails_okOr_bind trivial
  intro fingerprint _
  apply onlyFails_rejectIf_bind trivial
  intro slash
  refine onlyFails_bind (sliceFrom_returns (single ascii₂ rfl slash)) ?_
  intro rest₃ cut
  have ascii₃ := sliceFrom_ascii ascii₂ cut
  refine onlyFails_bind (takeWhileChar_returns ascii₃ _) ?_
  rintro ⟨originPath, rest₄⟩ token
  have ascii₄ : Ascii rest₄ :=
    (splitToken_eq_ok.mp token).2.2 ▸ ascii_suffix ascii₃ (List.drop_suffix _ _)
  apply onlyFails_rejectIf_bind trivial
  intro closed
  apply onlyFails_rejectIf_bind trivial
  intro _
  refine onlyFails_bind (validateOriginPath_returns originPath) ?_
  intro _ _
  refine onlyFails_bind (sliceFrom_returns (single ascii₄ rfl closed)) ?_
  intro rest₅ cut
  have ascii₅ := sliceFrom_ascii ascii₄ cut
  refine onlyFails_bind (splitXpubAndDerivation_returns ascii₅) ?_
  rintro ⟨xpub, branch, consumed⟩ split
  have within := splitXpubAndDerivation_consumed split
  refine onlyFails_bind (sliceFrom_returns (isCharBoundary_ascii ascii₅ within)) ?_
  intro rest₆ _
  apply onlyFails_rejectIf_bind trivial
  intro _
  apply onlyFails_rejectIf_bind trivial
  intro _
  apply onlyFails_rejectIf_bind trivial
  intro _
  apply onlyFails_rejectIf_bind trivial
  intro _
  exact onlyFails_ok _

theorem parseKeyexpr_suffix {rest rest' : Str} {key : KeyExpr}
    (parsed : parseKeyexpr env rest = .ok (key, rest')) : rest' <:+ rest := by
  simp only [parseKeyexpr, takeWhileChar, bind_eq_ok, sliceFrom_eq_ok, Prod.exists,
    splitToken_eq_ok] at parsed
  obtain ⟨_, _, _, ⟨_, rfl⟩, _, _, ⟨_, _, rfl⟩, _, _, _, _, _, _, _, ⟨_, rfl⟩, _, _, ⟨_, _, rfl⟩,
    _, _, _, _, _, _, _, ⟨_, rfl⟩, _, _, _, _, _, ⟨_, rfl⟩, _, _, _, _, _, _, _, _, made⟩ := parsed
  simp only [pure_ok, Except.ok.injEq, Prod.mk.injEq] at made
  rw [← made.2]
  simp only [List.drop_drop]
  exact List.drop_suffix _ _

theorem parse_returns (descriptor : Str) : Returns (parse env descriptor) := by
  refine onlyFails_bind (verifyChecksum_returns descriptor) ?_
  intro _ valid
  obtain ⟨ascii, marked⟩ := verifyChecksum_ascii valid
  have found : ∃ i, rfind 35 descriptor = some i := by
    have : (descriptor.reverse.findIdx? (· == 35)).isSome := by
      rw [List.findIdx?_isSome, List.any_beq', List.contains_iff_mem, List.mem_reverse]
      exact marked
    obtain ⟨back, at_⟩ := Option.isSome_iff_exists.mp this
    exact ⟨_, by rw [rfind, at_, Option.map_some]⟩
  refine onlyFails_bind (onlyFails_expect found) ?_
  intro hashPos hash
  have inside : hashPos ≤ descriptor.length := by
    rw [expect_eq_ok, rfind, Option.map_eq_some_iff] at hash
    obtain ⟨back, _, rfl⟩ := hash
    omega
  refine onlyFails_bind (sliceTo_returns (isCharBoundary_ascii ascii inside)) ?_
  intro body cut
  rw [sliceTo_eq_ok] at cut
  have ascii₀ : Ascii body := cut.2 ▸ ascii_take ascii _
  apply onlyFails_rejectIf_bind trivial
  intro top
  rw [Decidable.not_not] at top
  refine onlyFails_bind (sliceFrom_returns (isCharBoundary_ascii ascii₀ (startsWith_length top))) ?_
  intro rest₁ cut
  have ascii₁ := sliceFrom_ascii ascii₀ cut
  apply onlyFails_rejectIf_bind trivial
  intro multi
  rw [Decidable.not_not] at multi
  refine onlyFails_bind
    (sliceFrom_returns (isCharBoundary_ascii ascii₁ (startsWith_length multi))) ?_
  intro rest₂ cut
  have ascii₂ := sliceFrom_ascii ascii₁ cut
  refine onlyFails_bind (takeUntilChar_returns ascii₂ 44) ?_
  rintro ⟨kToken, rest₃⟩ token
  have ascii₃ := ascii_suffix ascii₂ (takeUntilChar_suffix token)
  apply onlyFails_rejectIf_bind trivial
  intro _
  refine onlyFails_bind (expectChar_returns ascii₃ 44) ?_
  intro rest₄ comma
  have ascii₄ := ascii_suffix ascii₃ (expectChar_suffix comma)
  refine onlyFails_bind (parseKeyexpr_returns ascii₄) ?_
  rintro ⟨key0, rest₅⟩ parsed
  have ascii₅ := ascii_suffix ascii₄ (parseKeyexpr_suffix parsed)
  refine onlyFails_bind (expectChar_returns ascii₅ 44) ?_
  intro rest₆ comma
  have ascii₆ := ascii_suffix ascii₅ (expectChar_suffix comma)
  refine onlyFails_bind (parseKeyexpr_returns ascii₆) ?_
  rintro ⟨key1, rest₇⟩ parsed
  have ascii₇ := ascii_suffix ascii₆ (parseKeyexpr_suffix parsed)
  refine onlyFails_bind (expectChar_returns ascii₇ 44) ?_
  intro rest₈ comma
  have ascii₈ := ascii_suffix ascii₇ (expectChar_suffix comma)
  refine onlyFails_bind (parseKeyexpr_returns ascii₈) ?_
  rintro ⟨key2, rest₉⟩ parsed
  have ascii₉ := ascii_suffix ascii₈ (parseKeyexpr_suffix parsed)
  apply onlyFails_rejectIf_bind trivial
  intro _
  refine onlyFails_bind (expectChar_returns ascii₉ 41) ?_
  intro rest₁₀ closer
  refine onlyFails_bind (expectChar_returns (ascii_suffix ascii₉ (expectChar_suffix closer)) 41) ?_
  intro rest₁₁ _
  apply onlyFails_rejectIf_bind trivial
  intro _
  exact onlyFails_ok _

end Trinity
