import Mathlib.Data.Nat.Digits.Defs
import Trinity.Lib.Framing

/-!
Text formats as a writer and a reader. What is written is read back in front of any
further text, which is left to the next reader; so formats are put together from
parts, and the whole is read back because every part is.
-/

structure Codec (τ α : Type) where
  write : α → List τ
  read : List τ → Option (α × List τ)
  inverse : ∀ a rest, read (write a ++ rest) = some (a, rest)

namespace Codec

variable {τ α β : Type} [DecidableEq τ]

section Words

def dropWord (word text : List τ) : Option (List τ) :=
  if word.isPrefixOf text then some (text.drop word.length) else none

@[simp] theorem dropWord_append (word rest : List τ) :
    dropWord word (word ++ rest) = some rest := by
  simp [dropWord]

theorem dropWord_apart {word word' : List τ} (apart : ¬ word <+: word' ∧ ¬ word' <+: word)
    (rest : List τ) : dropWord word (word' ++ rest) = none := by
  unfold dropWord
  split
  next begins =>
    rw [List.isPrefixOf_iff_prefix] at begins
    rcases List.prefix_or_prefix_of_prefix begins (List.prefix_append word' rest) with
      shorter | longer
    · exact absurd shorter apart.1
    · exact absurd longer apart.2
  next => rfl

theorem dropWord_cons_apart {a b : τ} (apart : a ≠ b) (word text : List τ) :
    dropWord (a :: word) (b :: text) = none := by
  simp [dropWord, apart]

end Words

def nothing : Codec τ Unit where
  write _ := []
  read text := some ((), text)
  inverse _ _ := rfl

def after (word : List τ) (c : Codec τ α) : Codec τ α where
  write a := word ++ c.write a
  read text := (dropWord word text).bind c.read
  inverse a rest := by simp [c.inverse]

def before (c : Codec τ α) (word : List τ) : Codec τ α where
  write a := c.write a ++ word
  read text := (c.read text).bind fun front =>
    (dropWord word front.2).map fun rest => (front.1, rest)
  inverse a rest := by simp [c.inverse]

def both (c : Codec τ α) (d : Codec τ β) : Codec τ (α × β) where
  write p := c.write p.1 ++ d.write p.2
  read text := (c.read text).bind fun front =>
    (d.read front.2).map fun back => ((front.1, back.1), back.2)
  inverse p rest := by simp [c.inverse, d.inverse]

/-- Values written as others, of which not every one may be read. -/
def as (c : Codec τ α) (parse : α → Option β) (show' : β → α)
    (parsed : ∀ b, parse (show' b) = some b) : Codec τ β where
  write b := c.write (show' b)
  read text := (c.read text).bind fun front => (parse front.1).map fun b => (b, front.2)
  inverse b rest := by simp [c.inverse, parsed]

/-- Two forms told apart by the words they begin with. -/
def either (word word' : List τ) (apart : ¬ word <+: word' ∧ ¬ word' <+: word) (c : Codec τ α)
    (d : Codec τ β) : Codec τ (α ⊕ β) where
  write
    | .inl a => word ++ c.write a
    | .inr b => word' ++ d.write b
  read text :=
    match dropWord word text with
    | some text => (c.read text).map fun front => (.inl front.1, front.2)
    | none => (dropWord word' text).bind fun text =>
      (d.read text).map fun front => (.inr front.1, front.2)
  inverse
    | .inl a, rest => by simp [c.inverse]
    | .inr b, rest => by simp [dropWord_apart apart, d.inverse]

section OneOf

variable (word : β → List τ) (all : List β)

def readOneOf (text : List τ) : Option (β × List τ) :=
  (all.find? fun b => (word b).isPrefixOf text).map fun b => (b, text.drop (word b).length)

theorem readOneOf_append (complete : ∀ b, b ∈ all) (free : Framing.PrefixFree word) (b : β)
    (rest : List τ) : readOneOf word all (word b ++ rest) = some (b, rest) := by
  have here : (word b).isPrefixOf (word b ++ rest) := by simp
  obtain ⟨b', found⟩ : ∃ b', all.find? (fun b' => (word b').isPrefixOf (word b ++ rest)) =
      some b' :=
    Option.isSome_iff_exists.mp (List.find?_isSome.mpr ⟨b, complete b, here⟩)
  have begins := List.find?_some found
  obtain ⟨rest', same⟩ := List.isPrefixOf_iff_prefix.mp begins
  obtain ⟨rfl, rfl⟩ := free.eq_of_append same
  simp [readOneOf, found]

def oneOf (complete : ∀ b, b ∈ all) (free : Framing.PrefixFree word) : Codec τ β where
  write := word
  read := readOneOf word all
  inverse := readOneOf_append word all complete free

end OneOf

section Until

/-- The symbols of a format can be told from the word that ends a run of them. -/
structure Before (c : Codec τ α) (stop : List τ) : Prop where
  inhabited : ∀ a, c.write a ≠ []
  apart : ∀ a rest, dropWord stop (c.write a ++ rest) = none

variable (c : Codec τ α) (stop : List τ)

def readUntil : Nat → List τ → Option (List α × List τ)
  | 0, _ => none
  | fuel + 1, text =>
    match dropWord stop text with
    | some rest => some ([], rest)
    | none => (c.read text).bind fun front =>
      (readUntil fuel front.2).map fun back => (front.1 :: back.1, back.2)

theorem readUntil_append {c : Codec τ α} {stop : List τ} (ends : c.Before stop) (as : List α)
    (rest : List τ) {fuel : Nat} (enough : as.length < fuel) :
    readUntil c stop fuel (as.flatMap c.write ++ (stop ++ rest)) = some (as, rest) := by
  induction as generalizing fuel with
  | nil =>
    obtain ⟨fuel, rfl⟩ := Nat.exists_eq_add_of_lt enough
    simp [readUntil]
  | cons a as ih =>
    obtain ⟨fuel, rfl⟩ : ∃ f, fuel = f + 1 := ⟨fuel - 1, by grind⟩
    have shorter : as.length < fuel := by simpa using enough
    simp [readUntil, ends.apart, c.inverse, ih shorter]

theorem length_le_flatMap {c : Codec τ α} {stop : List τ} (ends : c.Before stop) (as : List α) :
    as.length ≤ (as.flatMap c.write).length := by
  induction as with
  | nil => exact Nat.le_refl 0
  | cons a as ih =>
    have more := List.length_pos_of_ne_nil (ends.inhabited a)
    rw [List.flatMap_cons, List.length_append, List.length_cons]
    omega

def untilWord (ends : c.Before stop) : Codec τ (List α) where
  write as := as.flatMap c.write ++ stop
  read text := readUntil c stop (text.length + 1) text
  inverse as rest := by
    rw [List.append_assoc]
    refine readUntil_append ends as rest ?_
    have := length_le_flatMap ends as
    simp only [List.length_append]
    omega

end Until

section Json

/-! Numbers and strings of JSON, as bytes. -/

def digitWord (d : Fin 10) : List UInt8 := [48 + UInt8.ofNat d]

theorem digitWord_prefixFree : Framing.PrefixFree digitWord where
  inhabited _ := List.cons_ne_nil _ _
  apart := by decide

def digit : Codec UInt8 (Fin 10) :=
  oneOf digitWord (List.finRange 10) List.mem_finRange digitWord_prefixFree

theorem digit_before {stop : List UInt8}
    (apart : ∀ d, ¬ stop <+: digitWord d ∧ ¬ digitWord d <+: stop) : digit.Before stop where
  inhabited _ := List.cons_ne_nil _ _
  apart d := dropWord_apart (apart d)

def digitsOf (n : Nat) : List (Fin 10) :=
  if n = 0 then [0] else ((Nat.digits 10 n).map (Fin.ofNat 10)).reverse

def valueOf (digits : List (Fin 10)) : Nat := Nat.ofDigits 10 (digits.reverse.map Fin.val)

theorem valueOf_digitsOf (n : Nat) : valueOf (digitsOf n) = n := by
  unfold valueOf digitsOf
  split
  next zero => simp [zero]
  next =>
    have kept : ((Nat.digits 10 n).map (Fin.ofNat 10)).map Fin.val = Nat.digits 10 n := by
      rw [List.map_map]
      refine (List.map_congr_left fun d member => ?_).trans (List.map_id _)
      exact Nat.mod_eq_of_lt (Nat.digits_lt_base (by decide) member)
    rw [List.reverse_reverse, kept, Nat.ofDigits_digits]

def number (bound : Nat) (stop : List UInt8) (ends : digit.Before stop) :
    Codec UInt8 (Fin bound) :=
  (digit.untilWord stop ends).as
    (fun digits => if below : valueOf digits < bound then some ⟨valueOf digits, below⟩ else none)
    (fun n => digitsOf n)
    (fun n => by simp [valueOf_digitsOf])

def hexDigit (n : Nat) : UInt8 := UInt8.ofNat (if n < 10 then 48 + n else 87 + n)

/-- Quotes, backslashes and control bytes are escaped, and nothing else. -/
def escape (b : UInt8) : List UInt8 :=
  if b = 0x22 then [0x5c, 0x22]
  else if b = 0x5c then [0x5c, 0x5c]
  else if 0x20 ≤ b then [b]
  else if b = 0x08 then [0x5c, 0x62]
  else if b = 0x09 then [0x5c, 0x74]
  else if b = 0x0a then [0x5c, 0x6e]
  else if b = 0x0c then [0x5c, 0x66]
  else if b = 0x0d then [0x5c, 0x72]
  else [0x5c, 0x75, 0x30, 0x30, hexDigit (b.toNat / 16), hexDigit (b.toNat % 16)]

def escapedBytes : List UInt8 := 0x22 :: 0x5c :: (List.range 32).map UInt8.ofNat

theorem mem_escapedBytes {b : UInt8} (low : ¬ 0x20 ≤ b) : b ∈ escapedBytes := by
  have small : b.toNat < 32 := by simpa [UInt8.le_iff_toNat_le] using low
  exact .tail _ (.tail _ (List.mem_map.mpr ⟨b.toNat, List.mem_range.mpr small, by simp⟩))

theorem escape_cases (b : UInt8) :
    (escape b = [b] ∧ b ≠ 0x22 ∧ b ≠ 0x5c) ∨
      (b ∈ escapedBytes ∧ ∃ c rest, escape b = 0x5c :: c :: rest) := by
  unfold escape
  by_cases quote : b = 0x22
  · exact .inr ⟨quote ▸ .head _, 0x22, [], if_pos quote⟩
  by_cases backslash : b = 0x5c
  · exact .inr ⟨backslash ▸ .tail _ (.head _), 0x5c, [], by rw [if_neg quote, if_pos backslash]⟩
  rw [if_neg quote, if_neg backslash]
  by_cases low : 0x20 ≤ b
  · exact .inl ⟨if_pos low, quote, backslash⟩
  · rw [if_neg low]
    refine .inr ⟨mem_escapedBytes low, ?_⟩
    split_ifs <;> exact ⟨_, _, rfl⟩

theorem escape_prefixFree : Framing.PrefixFree escape where
  inhabited b := by
    rcases escape_cases b with plain | ⟨_, c, rest, escaped⟩
    · simp [plain.1]
    · simp [escaped]
  apart b b' begins := by
    rcases escape_cases b with plain | ⟨member, c, rest, escaped⟩ <;>
      rcases escape_cases b' with plain' | ⟨member', c', rest', escaped'⟩
    · rw [plain.1, plain'.1] at begins
      simpa using begins
    · rw [plain.1, escaped'] at begins
      exact absurd (by simpa using begins) plain.2.2
    · rw [escaped, plain'.1] at begins
      simp at begins
    · have table : escapedBytes.all fun x => escapedBytes.all fun y =>
          !(escape x).isPrefixOf (escape y) || x == y := by decide +kernel
      have row := List.all_eq_true.mp (List.all_eq_true.mp table b member) b' member'
      simpa [List.isPrefixOf_iff_prefix.mpr begins] using row

def everyByte : List UInt8 := (List.range 256).map UInt8.ofNat

theorem mem_everyByte (b : UInt8) : b ∈ everyByte :=
  List.mem_map.mpr ⟨b.toNat, List.mem_range.mpr b.toNat_lt, by simp⟩

def escaped : Codec UInt8 UInt8 := oneOf escape everyByte mem_everyByte escape_prefixFree

theorem escaped_before : escaped.Before [0x22] where
  inhabited := escape_prefixFree.inhabited
  apart b rest := by
    show dropWord [0x22] (escape b ++ rest) = none
    rcases escape_cases b with plain | ⟨_, c, tail, escaped⟩
    · rw [plain.1]
      exact dropWord_cons_apart plain.2.1.symm _ _
    · rw [escaped]
      exact dropWord_cons_apart (by decide) _ _

def string : Codec UInt8 (List UInt8) := escaped.untilWord [0x22] escaped_before

end Json

end Codec
