import Mathlib.Data.List.Forall2
import Mathlib.Tactic.Common

/-!
One element of a list before another, how that order passes through sublists,
concatenations and maps, and lists related element by element.
-/
namespace List

variable {α β : Type}

/-- Some occurrence of `x` stands before some occurrence of `y`. -/
def Precedes (x y : α) (l : List α) : Prop := [x, y].Sublist l

theorem Precedes.mono {x y : α} {l l' : List α} (before : Precedes x y l) (inside : l.Sublist l') :
    Precedes x y l' :=
  before.trans inside

theorem Precedes.mem_left {x y : α} {l : List α} (before : Precedes x y l) : x ∈ l :=
  before.subset (mem_cons_self ..)

theorem Precedes.mem_right {x y : α} {l : List α} (before : Precedes x y l) : y ∈ l :=
  before.subset (mem_cons_of_mem _ (mem_cons_self ..))

theorem precedes_cons {x y a : α} {l : List α} :
    Precedes x y (a :: l) ↔ Precedes x y l ∨ x = a ∧ y ∈ l := by
  constructor
  · intro before
    cases before with
    | cons _ later => exact .inl later
    | cons_cons _ rest => exact .inr ⟨rfl, singleton_sublist.mp rest⟩
  · rintro (later | ⟨rfl, member⟩)
    · exact later.cons a
    · exact (singleton_sublist.mpr member).cons_cons x

theorem precedes_append {x y : α} {l l' : List α} :
    Precedes x y (l ++ l') ↔ Precedes x y l ∨ Precedes x y l' ∨ x ∈ l ∧ y ∈ l' := by
  induction l with
  | nil => simp [Precedes]
  | cons a l ih =>
    rw [cons_append, precedes_cons, ih, precedes_cons, mem_append, mem_cons]
    constructor
    · rintro ((first | second | ⟨left, right⟩) | ⟨here, inside | beyond⟩)
      · exact .inl (.inl first)
      · exact .inr (.inl second)
      · exact .inr (.inr ⟨.inr left, right⟩)
      · exact .inl (.inr ⟨here, inside⟩)
      · exact .inr (.inr ⟨.inl here, beyond⟩)
    · rintro ((first | ⟨here, inside⟩) | second | ⟨here | left, right⟩)
      · exact .inl (.inl first)
      · exact .inr ⟨here, .inl inside⟩
      · exact .inl (.inr (.inl second))
      · exact .inr ⟨here, .inr right⟩
      · exact .inl (.inr (.inr ⟨left, right⟩))

theorem precedes_concat {x y a : α} {l : List α} :
    Precedes x y (l ++ [a]) ↔ Precedes x y l ∨ x ∈ l ∧ y = a := by
  have short : ¬ Precedes x y [a] := by
    intro before
    simpa using before.length_le
  rw [precedes_append, mem_singleton]
  simp [short]

theorem precedes_flatMap {x y : β} {l : List α} {f : α → List β} :
    Precedes x y (l.flatMap f) ↔ (∃ a ∈ l, Precedes x y (f a)) ∨
      ∃ a b, Precedes a b l ∧ x ∈ f a ∧ y ∈ f b := by
  induction l with
  | nil => simp [Precedes]
  | cons c l ih =>
    rw [flatMap_cons, precedes_append, ih]
    simp only [precedes_cons, mem_flatMap, exists_mem_cons_iff]
    constructor
    · rintro (here | (⟨a, member, there⟩ | ⟨a, b, order, left, right⟩) | ⟨left, b, member, right⟩)
      · exact .inl (.inl here)
      · exact .inl (.inr ⟨a, member, there⟩)
      · exact .inr ⟨a, b, .inl order, left, right⟩
      · exact .inr ⟨c, b, .inr ⟨rfl, member⟩, left, right⟩
    · rintro ((here | ⟨a, member, there⟩) | ⟨a, b, order | ⟨rfl, member⟩, left, right⟩)
      · exact .inl here
      · exact .inr (.inl (.inl ⟨a, member, there⟩))
      · exact .inr (.inl (.inr ⟨a, b, order, left, right⟩))
      · exact .inr (.inr ⟨left, b, member, right⟩)

theorem precedes_filter {x y : α} {l : List α} {p : α → Bool} (before : Precedes x y l)
    (left : p x = true) (right : p y = true) : Precedes x y (l.filter p) := by
  have kept := before.filter p
  rwa [filter_cons_of_pos left, filter_cons_of_pos right] at kept

theorem precedes_map {x y : β} {l : List α} {f : α → β} (before : Precedes x y (l.map f)) :
    ∃ a b, Precedes a b l ∧ f a = x ∧ f b = y := by
  obtain ⟨picked, inside, shown⟩ := sublist_map_iff.mp before
  rcases picked with _ | ⟨a, _ | ⟨b, _ | ⟨c, rest⟩⟩⟩ <;> simp at shown
  exact ⟨a, b, inside, shown.1.symm, shown.2.symm⟩

theorem forall₂_mem_left {R : α → β → Prop} {x : α} {l : List α} {l' : List β}
    (related : Forall₂ R l l') (member : x ∈ l) : ∃ b ∈ l', R x b := by
  induction related with
  | nil => simp at member
  | cons here _ ih =>
    rcases mem_cons.mp member with rfl | later
    · exact ⟨_, mem_cons_self .., here⟩
    · obtain ⟨b, there, related⟩ := ih later
      exact ⟨b, mem_cons_of_mem _ there, related⟩

theorem forall₂_mem_right {R : α → β → Prop} {y : β} {l : List α} {l' : List β}
    (related : Forall₂ R l l') (member : y ∈ l') : ∃ a ∈ l, R a y :=
  forall₂_mem_left related.flip member

theorem precedes_forall₂ {R : α → β → Prop} {x y : α} {l : List α} {l' : List β}
    (related : Forall₂ R l l') (before : Precedes x y l) :
    ∃ a b, Precedes a b l' ∧ R x a ∧ R y b := by
  induction related with
  | nil => simp [Precedes] at before
  | cons here rest ih =>
    rcases precedes_cons.mp before with later | ⟨rfl, member⟩
    · obtain ⟨a, b, order, left, right⟩ := ih later
      exact ⟨a, b, precedes_cons.mpr (.inl order), left, right⟩
    · obtain ⟨b, there, right⟩ := forall₂_mem_left rest member
      exact ⟨_, b, precedes_cons.mpr (.inr ⟨rfl, there⟩), here, right⟩

end List
