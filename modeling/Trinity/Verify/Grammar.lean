import Mathlib.Data.Nat.Digits.Lemmas
import Trinity.Verify.Bip380

/-!
The descriptor grammar, stated on its own: a descriptor as written, its keys and
their account paths, and what it means. The origin check of the parser accepts
exactly the written account paths.
-/
namespace Trinity

open Outcome

inductive HardenedMark where
  | apostrophe
  | letter
  deriving DecidableEq, Repr

def HardenedMark.byte : HardenedMark → UInt8
  | .apostrophe => 39
  | .letter => 104

structure WrittenOrigin where
  master : Bool
  mainnet : Bool
  purposeMark : HardenedMark
  coinMark : HardenedMark
  accountMark : HardenedMark
  scriptMark : HardenedMark
  deriving DecidableEq, Repr

def WrittenOrigin.text (o : WrittenOrigin) : Str :=
  (if o.master then bytes "m/" else []) ++
    (bytes "48" ++ o.purposeMark.byte :: (bytes "/" ++ ((if o.mainnet then bytes "0" else bytes "1")
      ++ o.coinMark.byte :: (bytes "/0" ++ o.accountMark.byte ::
      (bytes "/2" ++ [o.scriptMark.byte])))))

def DerivationBranch.text : DerivationBranch → Str
  | .external => bytes "/0/*"
  | .internal => bytes "/1/*"

/-- A key expression as written: `[fingerprint/origin]xpub/branch/*`. -/
structure WrittenKey where
  fingerprint : Str
  origin : Str
  xpub : Str
  branch : DerivationBranch
  deriving DecidableEq, Repr

def WrittenKey.text (w : WrittenKey) : Str :=
  bytes "[" ++ (w.fingerprint ++ (bytes "/" ++ (w.origin ++ (bytes "]" ++
    (w.xpub ++ w.branch.text)))))

structure WrittenDescriptor where
  key0 : WrittenKey
  key1 : WrittenKey
  key2 : WrittenKey
  checksum : Str
  deriving DecidableEq, Repr

def descriptorBody (key0 key1 key2 : WrittenKey) : Str :=
  bytes "wsh(" ++ (bytes "sortedmulti(" ++ (bytes "2" ++ (bytes "," ++ (key0.text ++ (bytes "," ++
    (key1.text ++ (bytes "," ++ (key2.text ++ (bytes ")" ++ bytes ")")))))))))

def WrittenDescriptor.body (w : WrittenDescriptor) : Str := descriptorBody w.key0 w.key1 w.key2

def WrittenDescriptor.text (w : WrittenDescriptor) : Str := w.body ++ 35 :: w.checksum

def isHexDigit (c : UInt8) : Bool :=
  isAsciiDigit c || (97 ≤ c && c ≤ 102) || (65 ≤ c && c ≤ 70)

structure WrittenKey.Grammatical (env : Primitives) (w : WrittenKey) : Prop where
  eight : w.fingerprint.length = 8
  hex : ∀ c ∈ w.fingerprint, isHexDigit c = true
  origin : ∃ o : WrittenOrigin, o.text = w.origin
  starts : startsWith w.xpub (bytes "xpub") = true ∨ startsWith w.xpub (bytes "tpub") = true
  xpub : (env.xpubFromStr w.xpub).isSome = true

/-- The checksum is the one of the part in front of it. -/
structure WrittenDescriptor.Grammatical (env : Primitives) (w : WrittenDescriptor) : Prop where
  key0 : w.key0.Grammatical env
  key1 : w.key1.Grammatical env
  key2 : w.key2.Grammatical env
  checksum : Bip380.Checksummed w.body w.checksum

def hexFingerprint (s : Str) : Fingerprint :=
  BitVec.ofNat 32 (s.foldl (fun acc c => acc * 16 + (hexNibble c).getD 0) 0)

def WrittenKey.meaning (w : WrittenKey) : KeyExpr :=
  ⟨hexFingerprint w.fingerprint, w.origin, w.xpub, w.branch⟩

def WrittenDescriptor.meaning (w : WrittenDescriptor) : ParsedDescriptor :=
  ⟨2, w.key0.meaning, w.key1.meaning, w.key2.meaning⟩

def base58Alphabet : Str :=
  bytes "123456789ABCDEFGHJKLMNPQRSTUVWXYZ" ++ bytes "abcdefghijkmnopqrstuvwxyz"

/-- `Xpub::from_str` accepts base58 text only. -/
def Base58Xpubs (env : Primitives) : Prop :=
  ∀ x, (env.xpubFromStr x).isSome = true → ∀ c ∈ x, c ∈ base58Alphabet

section Origin

theorem splitOn_ne_nil (c : UInt8) (s : Str) : splitOn c s ≠ [] := by
  cases s with
  | nil => simp [splitOn]
  | cons b rest =>
    rw [splitOn]
    split
    · simp
    · split <;> simp

theorem splitOn_join (c : UInt8) (s : Str) : List.intercalate [c] (splitOn c s) = s := by
  induction s with
  | nil => rfl
  | cons b rest ih =>
    rw [splitOn]
    cases tail : splitOn c rest with
    | nil => exact absurd tail (splitOn_ne_nil c rest)
    | cons segment segments =>
      rw [tail] at ih
      split
      · rename_i same
        rw [← ih, same]
        rfl
      · rw [← ih]
        cases segments <;> rfl

def numeral (n : Nat) : Str :=
  if n = 0 then [48] else (Nat.digits 10 n).reverse.map fun d => UInt8.ofNat (48 + d)

theorem digitsValue_from {s : Str} {start n : Nat} (digits : ∀ b ∈ s, isAsciiDigit b = true)
    (parsed : s.foldlM (fun acc b => if isAsciiDigit b then some (acc * 10 + (b - 48).toNat)
      else none) start = some n) :
    n = Nat.ofDigits 10 ((s.map fun b => (b - 48).toNat).reverse) + start * 10 ^ s.length := by
  induction s generalizing start with
  | nil => simpa using parsed.symm
  | cons b rest ih =>
    obtain ⟨digit, later⟩ := List.forall_mem_cons.mp digits
    rw [List.foldlM_cons, if_pos digit] at parsed
    rw [ih later parsed, List.map_cons, List.reverse_cons, Nat.ofDigits_append, List.length_reverse,
      List.length_map, Nat.ofDigits_singleton, List.length_cons, Nat.pow_succ]
    ring

theorem digit_byte {b : UInt8} (digit : isAsciiDigit b = true) :
    (b - 48).toNat < 10 ∧ UInt8.ofNat (48 + (b - 48).toNat) = b ∧
      ((b - 48).toNat = 0 → b = 48) := by
  simp only [isAsciiDigit, Bool.and_eq_true, decide_eq_true_eq, UInt8.le_iff_toNat_le] at digit
  have low : (48 : UInt8).toNat = 48 := rfl
  have high : (57 : UInt8).toNat = 57 := rfl
  have value : (b - 48).toNat = b.toNat - 48 :=
    UInt8.toNat_sub_of_le _ _ (UInt8.le_iff_toNat_le.mpr digit.1)
  refine ⟨by omega, ?_, ?_⟩
  · apply UInt8.toNat_inj.mp
    rw [UInt8.toNat_ofNat', value]
    omega
  · intro zero
    apply UInt8.toNat_inj.mp
    omega

theorem numeral_of_digits {s : Str} {n : Nat} (nonempty : s ≠ [])
    (digits : ∀ b ∈ s, isAsciiDigit b = true) (canonical : ¬ (1 < s.length ∧ s.head? = some 48))
    (parsed : digitsValue s = some n) : s = numeral n := by
  have value := digitsValue_from digits parsed
  rw [Nat.zero_mul, Nat.add_zero] at value
  obtain ⟨b, rest, rfl⟩ := List.exists_cons_of_ne_nil nonempty
  by_cases zero : b = 48
  · subst zero
    have single : rest = [] := by
      by_contra more
      exact canonical ⟨by simpa using List.length_pos_iff.mpr more, rfl⟩
    subst single
    rw [value]
    rfl
  · have small : ∀ d ∈ ((b :: rest).map fun b => (b - 48).toNat).reverse, d < 10 := by
      intro d member
      rw [List.mem_reverse, List.mem_map] at member
      obtain ⟨c, there, rfl⟩ := member
      exact (digit_byte (digits c there)).1
    have leading : ∀ h : ((b :: rest).map fun b => (b - 48).toNat).reverse ≠ [],
        ((b :: rest).map fun b => (b - 48).toNat).reverse.getLast h ≠ 0 := by
      intro _ same
      rw [List.getLast_reverse] at same
      exact zero ((digit_byte (digits b (by simp))).2.2 same)
    have shown := Nat.digits_ofDigits 10 (by decide) _ small leading
    rw [← value] at shown
    have positive : n ≠ 0 := by
      rintro rfl
      simp at shown
    rw [numeral, if_neg positive, shown, List.reverse_reverse, List.map_map]
    refine (List.map_id _).symm.trans (List.map_congr_left ?_)
    intro c member
    exact (digit_byte (digits c member)).2.1.symm

theorem digitsValue_of_parseUnsigned {bound n : Nat} {s : Str} (nonempty : s ≠ [])
    (digits : ∀ b ∈ s, isAsciiDigit b = true) (parsed : parseUnsigned bound s = some n) :
    digitsValue s = some n := by
  have unsigned : startsWith s (bytes "+") = false := by
    obtain ⟨b, rest, rfl⟩ := List.exists_cons_of_ne_nil nonempty
    have digit := digits b (by simp)
    have plus : bytes "+" = [43] := by decide
    rw [startsWith, plus, List.isPrefixOf_cons_cons, Bool.and_eq_false_iff]
    left
    rw [beq_eq_false_iff_ne]
    rintro rfl
    exact absurd digit (by decide)
  simp only [parseUnsigned, unsigned, Bool.false_eq_true, if_false] at parsed
  split at parsed
  · contradiction
  · split at parsed
    · rename_i m value
      rw [Option.ite_none_right_eq_some, Option.some.injEq] at parsed
      rw [value, parsed.2]
    · contradiction

theorem originIndex_numeral {path segment : Str} {n : Nat}
    (checked : originIndex path segment = .ok n) :
    ∃ mark : HardenedMark, segment = numeral n ++ [mark.byte] := by
  simp only [originIndex, bind_eq_ok, rejectIf_eq_ok, okOr_eq_ok, sliceTo_eq_ok, pure_ok,
    Except.ok.injEq, Decidable.not_not, List.all_eq_true] at checked
  obtain ⟨_, _, _, marked, num, ⟨_, cut⟩, _, nonempty, _, digits, _, canonical, m, parsed, _, _,
    rfl⟩ := checked
  rw [← List.dropLast_eq_take] at cut
  subst cut
  have inhabited : segment.dropLast ≠ [] := by simpa using nonempty
  have written := numeral_of_digits inhabited digits canonical
    (digitsValue_of_parseUnsigned inhabited digits parsed)
  cases last : segment.getLast? with
  | none =>
    rw [List.getLast?_eq_none_iff.mp last] at inhabited
    exact absurd rfl inhabited
  | some c =>
    obtain ⟨front, rfl⟩ := List.getLast?_eq_some_iff.mp last
    rw [List.dropLast_concat] at written
    rw [last] at marked
    have hardened : c = 39 ∨ c = 104 := by
      by_contra neither
      rw [not_or] at neither
      exact marked ⟨by simpa using neither.1, by simpa using neither.2⟩
    rcases hardened with rfl | rfl
    · exact ⟨.apostrophe, by rw [← written]; rfl⟩
    · exact ⟨.letter, by rw [← written]; rfl⟩

theorem numerals : numeral 48 = bytes "48" ∧ numeral 0 = bytes "0" ∧ numeral 1 = bytes "1" ∧
    numeral 2 = bytes "2" := by
  decide

theorem validateOriginPath_text (o : WrittenOrigin) : validateOriginPath o.text = .ok () := by
  rcases o with ⟨master, mainnet, p, c, a, s⟩
  cases master <;> cases mainnet <;> cases p <;> cases c <;> cases a <;> cases s <;> decide

theorem validateOriginPath_iff {path : Str} {u : Unit} :
    validateOriginPath path = .ok u ↔ ∃ o : WrittenOrigin, o.text = path := by
  constructor
  · intro valid
    obtain ⟨coin, small, each⟩ := validateOriginPath_segments valid
    have joined := splitOn_join 47 (if startsWith path (bytes "m/") then path.drop 2 else path)
    generalize splitOn 47 (if startsWith path (bytes "m/") then path.drop 2 else path) =
      segments at each joined
    obtain ⟨n48, n0, n1, n2⟩ := numerals
    rcases each with _ | ⟨purpose, _ | ⟨coin', _ | ⟨account, _ | ⟨script, _ | _⟩⟩⟩⟩
    obtain ⟨m₁, rfl⟩ := originIndex_numeral purpose
    obtain ⟨m₂, rfl⟩ := originIndex_numeral coin'
    obtain ⟨m₃, rfl⟩ := originIndex_numeral account
    obtain ⟨m₄, rfl⟩ := originIndex_numeral script
    have plain : ∃ mainnet : Bool, (WrittenOrigin.mk false mainnet m₁ m₂ m₃ m₄).text =
        if startsWith path (bytes "m/") then path.drop 2 else path := by
      rw [← joined]
      have : coin = 0 ∨ coin = 1 := by omega
      rcases this with rfl | rfl
      · exact ⟨true, by rw [n48, n0, n2]; rfl⟩
      · exact ⟨false, by rw [n48, n0, n1, n2]; rfl⟩
    obtain ⟨mainnet, trimmed⟩ := plain
    by_cases master : startsWith path (bytes "m/") = true
    · rw [if_pos master] at trimmed
      obtain ⟨rest, rfl⟩ := List.isPrefixOf_iff_prefix.mp master
      refine ⟨⟨true, mainnet, m₁, m₂, m₃, m₄⟩, ?_⟩
      rw [List.drop_left' (show (bytes "m/").length = 2 from rfl)] at trimmed
      rw [← trimmed]
      rfl
    · rw [if_neg master] at trimmed
      exact ⟨_, trimmed⟩
  · rintro ⟨o, rfl⟩
    exact validateOriginPath_text o

end Origin

end Trinity
