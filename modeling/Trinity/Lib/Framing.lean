import Mathlib.Data.List.Basic
import Mathlib.Data.List.Infix
import Mathlib.Tactic.Common

/-!
Several lists framed in one: words of a code none of which begins another, and
slots behind a separator with the empty slots at the end left out. Both framings
are read back in one way only.
-/
namespace Framing

variable {α β : Type}

/-- No word is empty, and no word begins the word of another symbol. -/
structure PrefixFree (code : β → List α) : Prop where
  inhabited : ∀ b, code b ≠ []
  apart : ∀ b b', code b <+: code b' → b = b'

theorem PrefixFree.eq_of_append {code : β → List α} (free : PrefixFree code) {b b' : β}
    {rest rest' : List α} (same : code b ++ rest = code b' ++ rest') : b = b' ∧ rest = rest' := by
  have first : code b <+: code b' ++ rest' := ⟨rest, same⟩
  have equal : b = b' := by
    rcases List.prefix_or_prefix_of_prefix first (List.prefix_append _ _) with shorter | longer
    · exact free.apart b b' shorter
    · exact (free.apart b' b longer).symm
  subst equal
  exact ⟨rfl, List.append_cancel_left same⟩

theorem PrefixFree.flatMap_injective {code : β → List α} (free : PrefixFree code) {l l' : List β}
    (same : l.flatMap code = l'.flatMap code) : l = l' := by
  induction l generalizing l' with
  | nil =>
    cases l' with
    | nil => rfl
    | cons b' rest' =>
      rw [List.flatMap_nil, List.flatMap_cons] at same
      exact absurd (List.append_eq_nil_iff.mp same.symm).1 (free.inhabited b')
  | cons b rest ih =>
    cases l' with
    | nil =>
      rw [List.flatMap_nil, List.flatMap_cons] at same
      exact absurd (List.append_eq_nil_iff.mp same).1 (free.inhabited b)
    | cons b' rest' =>
      rw [List.flatMap_cons, List.flatMap_cons] at same
      obtain ⟨rfl, later⟩ := free.eq_of_append same
      rw [ih later]

variable (sep : α)

/-- The slots, each behind a separator but the first, up to the last one that is
    not empty. -/
def slots : List (List α) → List α
  | [] => []
  | slot :: rest => if rest.all List.isEmpty then slot else slot ++ sep :: slots rest

theorem slots_cons (slot : List α) (rest : List (List α)) :
    slots sep (slot :: rest) =
      if rest.all List.isEmpty then slot else slot ++ sep :: slots sep rest := rfl

theorem eq_of_all_empty {l l' : List (List α)} (empty : l.all List.isEmpty)
    (empty' : l'.all List.isEmpty) (count : l'.length = l.length) : l = l' := by
  have blank {l : List (List α)} (empty : l.all List.isEmpty) : l = List.replicate l.length [] :=
    List.eq_replicate_iff.mpr ⟨rfl, by simpa using empty⟩
  rw [blank empty, blank empty', count]

theorem eq_of_append_sep {s s' rest rest' : List α} (clean : sep ∉ s) (clean' : sep ∉ s')
    (same : s ++ sep :: rest = s' ++ sep :: rest') : s = s' ∧ rest = rest' := by
  rcases List.append_eq_append_iff.mp same with ⟨middle, longer, split⟩ | ⟨middle, longer, split⟩
  · cases middle with
    | nil => exact ⟨by simpa using longer.symm, (List.cons.inj split).2⟩
    | cons a _ =>
      obtain ⟨rfl, _⟩ := List.cons.inj split
      exact absurd (longer ▸ by simp) clean'
  · cases middle with
    | nil => exact ⟨by simpa using longer, (List.cons.inj split).2.symm⟩
    | cons a _ =>
      obtain ⟨rfl, _⟩ := List.cons.inj split
      exact absurd (longer ▸ by simp) clean

theorem slots_injective {l l' : List (List α)} (count : l'.length = l.length)
    (clean : ∀ slot ∈ l.dropLast, sep ∉ slot) (clean' : ∀ slot ∈ l'.dropLast, sep ∉ slot)
    (same : slots sep l = slots sep l') : l = l' := by
  induction l generalizing l' with
  | nil => exact (List.length_eq_zero_iff.mp count).symm
  | cons slot rest ih =>
    match l', count with
    | slot' :: rest', count =>
      rw [List.length_cons, List.length_cons, Nat.succ.injEq] at count
      cases rest with
      | nil =>
        obtain rfl := List.length_eq_zero_iff.mp count
        simpa [slots] using same
      | cons next later =>
        match rest', count with
        | next' :: later', count =>
          rw [List.dropLast_cons_cons, List.forall_mem_cons] at clean clean'
          rw [slots_cons sep slot (next :: later), slots_cons sep slot' (next' :: later')] at same
          by_cases empty : (next :: later).all List.isEmpty
          · by_cases empty' : (next' :: later').all List.isEmpty
            · rw [if_pos empty, if_pos empty'] at same
              rw [same, eq_of_all_empty empty empty' count]
            · rw [if_pos empty, if_neg empty'] at same
              exact absurd (same ▸ by simp) clean.1
          · by_cases empty' : (next' :: later').all List.isEmpty
            · rw [if_neg empty, if_pos empty'] at same
              exact absurd (same ▸ by simp) clean'.1
            · rw [if_neg empty, if_neg empty'] at same
              obtain ⟨here, rests⟩ := eq_of_append_sep sep clean.1 clean'.1 same
              rw [here, ih count clean.2 clean'.2 rests]

end Framing
