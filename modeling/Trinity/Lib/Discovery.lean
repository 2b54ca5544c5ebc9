import Mathlib.Data.List.Nodup
import Mathlib.Tactic.Common

/-!
Discovery with a growing set of known tokens. An item is found if it is marked
or uses a known token; a found item makes its own tokens known. Since an item
that makes tokens is marked, one pass over a list learns every token there is to
learn, and a second pass finds every item there is to find, in any order.
-/
namespace Discovery

variable {τ κ ι : Type} [DecidableEq κ]

structure Rules (τ κ ι : Type) where
  id : τ → ι
  marked : τ → Bool
  makes : τ → List κ
  uses : τ → List κ
  marked_of_makes : ∀ t, ∀ k ∈ makes t, marked t = true

structure State (τ κ ι : Type) where
  known : List κ
  seen : List ι
  found : List τ

def touches (r : Rules τ κ ι) (known : List κ) (t : τ) : Bool :=
  r.marked t || (r.uses t).any known.contains

def Identified (r : Rules τ κ ι) (items : τ → Prop) : Prop :=
  ∀ t t', items t → items t' → r.id t = r.id t' → r.makes t = r.makes t'

/-- Every found item is seen once and its tokens are known. -/
structure Consistent (r : Rules τ κ ι) (items : τ → Prop) (s : State τ κ ι) : Prop where
  once : (s.found.map r.id).Nodup
  seen : ∀ i, i ∈ s.seen ↔ i ∈ s.found.map r.id
  known : ∀ t, items t → r.id t ∈ s.seen → ∀ k ∈ r.makes t, k ∈ s.known

/-- What a pass does to the known tokens and to what is seen. -/
structure Passed (r : Rules τ κ ι) (items : τ → Prop) (s : State τ κ ι) (ts : List τ)
    (s' : State τ κ ι) : Prop where
  consistent : Consistent r items s'
  known : ∀ k, k ∈ s'.known ↔ k ∈ s.known ∨ ∃ t ∈ ts, k ∈ r.makes t
  keeps : ∀ i ∈ s.seen, i ∈ s'.seen
  seen : ∀ i ∈ s'.seen, i ∈ s.seen ∨ ∃ t ∈ ts, r.id t = i ∧ touches r s'.known t = true
  finds : ∀ t ∈ ts, touches r s.known t = true → r.id t ∈ s'.seen
  found : ∀ t ∈ s'.found, t ∈ s.found ∨ t ∈ ts

variable {r : Rules τ κ ι} {items : τ → Prop} {s : State τ κ ι}

theorem touches_iff {known : List κ} {t : τ} :
    touches r known t = true ↔ r.marked t = true ∨ ∃ k ∈ r.uses t, k ∈ known := by
  simp [touches]

theorem touches_mono {known known' : List κ} {t : τ} (more : ∀ k ∈ known, k ∈ known')
    (here : touches r known t = true) : touches r known' t = true := by
  rw [touches_iff] at here ⊢
  rcases here with marked | ⟨k, used, there⟩
  · exact .inl marked
  · exact .inr ⟨k, used, more k there⟩

theorem Passed.trans {s' s'' : State τ κ ι} {ts ts' : List τ} (first : Passed r items s ts s')
    (second : Passed r items s' ts' s'') : Passed r items s (ts ++ ts') s'' where
  consistent := second.consistent
  known k := by
    rw [second.known, first.known]
    simp only [List.mem_append, or_and_right, exists_or, or_assoc]
  keeps i member := second.keeps i (first.keeps i member)
  seen i member := by
    rcases second.seen i member with earlier | ⟨t, there, same, here⟩
    · rcases first.seen i earlier with old | ⟨t, there, same, here⟩
      · exact .inl old
      · exact .inr ⟨t, List.mem_append_left _ there, same,
          touches_mono (fun k known => (second.known k).mpr (.inl known)) here⟩
    · exact .inr ⟨t, List.mem_append_right _ there, same, here⟩
  finds t member here := by
    rcases List.mem_append.mp member with there | there
    · exact second.keeps _ (first.finds t there here)
    · have still := touches_mono (fun k known => (first.known k).mpr (.inl known)) here
      exact second.finds t there still
  found t member := by
    rcases second.found t member with earlier | there
    · rcases first.found t earlier with old | there
      · exact .inl old
      · exact .inr (List.mem_append_left _ there)
    · exact .inr (List.mem_append_right _ there)

variable [DecidableEq ι]

def visit (r : Rules τ κ ι) (s : State τ κ ι) (t : τ) : State τ κ ι :=
  if touches r s.known t then
    if r.id t ∈ s.seen then s
    else ⟨r.makes t ++ s.known, r.id t :: s.seen, s.found ++ [t]⟩
  else s

def pass (r : Rules τ κ ι) (s : State τ κ ι) (ts : List τ) : State τ κ ι := ts.foldl (visit r) s

theorem visit_found {t : τ} (here : touches r s.known t = true) (new : r.id t ∉ s.seen) :
    visit r s t = ⟨r.makes t ++ s.known, r.id t :: s.seen, s.found ++ [t]⟩ := by
  rw [visit, if_pos here, if_neg new]

theorem visit_known {t : τ} (k : κ) (here : k ∈ s.known) : k ∈ (visit r s t).known := by
  unfold visit
  split_ifs
  · exact here
  · exact List.mem_append_right _ here
  · exact here

theorem visit_seen {t : τ} {i : ι} (here : i ∈ s.seen) : i ∈ (visit r s t).seen := by
  unfold visit
  split_ifs
  · exact here
  · exact List.mem_cons_of_mem _ here
  · exact here

theorem visit_consistent (identified : Identified r items) (consistent : Consistent r items s)
    {t : τ} (item : items t) : Consistent r items (visit r s t) := by
  unfold visit
  split_ifs with here old
  · exact consistent
  · refine ⟨?_, ?_, ?_⟩
    · have absent : r.id t ∉ s.found.map r.id := fun member => old ((consistent.seen _).mpr member)
      rw [List.map_append, List.map_cons, List.map_nil]
      rw [← List.concat_eq_append]
      exact consistent.once.concat absent
    · intro i
      rw [List.map_append, List.mem_append, List.mem_cons, consistent.seen]
      simp [or_comm]
    · intro t' item' member k made
      rcases List.mem_cons.mp member with same | earlier
      · exact List.mem_append_left _ (identified t' t item' item same ▸ made)
      · exact List.mem_append_right _ (consistent.known t' item' earlier k made)
  · exact consistent

/-- After a visit the tokens of the item are known: if it makes any, it is
    marked, so it is found now or was found before. -/
theorem visit_learns (consistent : Consistent r items s) {t : τ} (item : items t) {k : κ}
    (made : k ∈ r.makes t) : k ∈ (visit r s t).known := by
  have here : touches r s.known t = true := touches_iff.mpr (.inl (r.marked_of_makes t k made))
  by_cases old : r.id t ∈ s.seen
  · exact visit_known k (consistent.known t item old k made)
  · rw [visit_found here old]
    exact List.mem_append_left _ made

theorem visit_finds {t : τ} (here : touches r s.known t = true) : r.id t ∈ (visit r s t).seen := by
  by_cases old : r.id t ∈ s.seen
  · exact visit_seen old
  · rw [visit_found here old]
    exact List.mem_cons_self ..

def Distinct (r : Rules τ κ ι) (s : State τ κ ι) : Prop :=
  (s.found.map r.id).Nodup ∧ ∀ i ∈ s.found.map r.id, i ∈ s.seen

def Stable (r : Rules τ κ ι) (P : State τ κ ι → Prop) : Prop :=
  ∀ s t, P s → r.id t ∉ s.seen → P ⟨r.makes t ++ s.known, r.id t :: s.seen, s.found ++ [t]⟩

omit [DecidableEq κ] [DecidableEq ι] in
theorem distinct_stable : Stable r (Distinct r) := by
  intro s t distinct new
  have absent : r.id t ∉ s.found.map r.id := fun member => new (distinct.2 _ member)
  constructor
  · rw [List.map_append, List.map_cons, List.map_nil, ← List.concat_eq_append]
    exact distinct.1.concat absent
  · intro i member
    rw [List.map_append, List.mem_append] at member
    rcases member with earlier | last
    · exact List.mem_cons_of_mem _ (distinct.2 i earlier)
    · exact List.mem_singleton.mp last ▸ List.mem_cons_self

theorem pass_stable {P : State τ κ ι → Prop} (stable : Stable r P) (holds : P s) (ts : List τ) :
    P (pass r s ts) := by
  unfold pass
  induction ts generalizing s with
  | nil => exact holds
  | cons t rest ih =>
    apply ih
    unfold visit
    split_ifs with _ old
    · exact holds
    · exact stable s t holds old
    · exact holds

theorem visit_passed (identified : Identified r items) (consistent : Consistent r items s)
    {t : τ} (item : items t) : Passed r items s [t] (visit r s t) where
  consistent := visit_consistent identified consistent item
  known k := by
    constructor
    · intro member
      unfold visit at member
      split_ifs at member
      · exact .inl member
      · rcases List.mem_append.mp member with made | old
        · exact .inr ⟨t, List.mem_singleton_self t, made⟩
        · exact .inl old
      · exact .inl member
    · rintro (old | ⟨t', member, made⟩)
      · exact visit_known k old
      · rw [List.mem_singleton.mp member] at made
        exact visit_learns consistent item made
  keeps _ := visit_seen
  seen i member := by
    unfold visit at member ⊢
    split_ifs at member ⊢ with here old
    · exact .inl member
    · rcases List.mem_cons.mp member with rfl | earlier
      · refine .inr ⟨t, List.mem_singleton_self t, rfl, ?_⟩
        exact touches_mono (fun k => List.mem_append_right _) here
      · exact .inl earlier
    · exact .inl member
  finds t' member here := by
    rw [List.mem_singleton.mp member] at here ⊢
    exact visit_finds here
  found t' member := by
    unfold visit at member
    split_ifs at member
    · exact .inl member
    · simpa using member
    · exact .inl member

theorem pass_passed (identified : Identified r items) (consistent : Consistent r items s)
    {ts : List τ} (listed : ∀ t ∈ ts, items t) : Passed r items s ts (pass r s ts) := by
  induction ts generalizing s with
  | nil =>
    exact ⟨consistent, by simp [pass], fun _ member => member, fun _ member => .inl member,
      by simp, fun _ member => .inl member⟩
  | cons t rest ih =>
    obtain ⟨item, later⟩ := List.forall_mem_cons.mp listed
    have first := visit_passed identified consistent item
    exact first.trans (ih first.consistent later)

/-- After two passes over a list the tokens known are the old ones and those its
    items make, and exactly the items that touch these are seen. -/
theorem two_passes (identified : Identified r items) (consistent : Consistent r items s)
    {ts : List τ} (listed : ∀ t ∈ ts, items t) :
    Consistent r items (pass r (pass r s ts) ts) ∧
    (∀ k, k ∈ (pass r (pass r s ts) ts).known ↔ k ∈ s.known ∨ ∃ t ∈ ts, k ∈ r.makes t) ∧
    (∀ i, i ∈ (pass r (pass r s ts) ts).seen ↔ i ∈ s.seen ∨ ∃ t ∈ ts, r.id t = i ∧
      (r.marked t = true ∨ ∃ k ∈ r.uses t, k ∈ s.known ∨ ∃ t' ∈ ts, k ∈ r.makes t')) ∧
    ∀ t ∈ (pass r (pass r s ts) ts).found, t ∈ s.found ∨ t ∈ ts := by
  have first := pass_passed identified consistent listed
  have second := pass_passed identified first.consistent listed
  have known (k : κ) : k ∈ (pass r (pass r s ts) ts).known ↔
      k ∈ s.known ∨ ∃ t ∈ ts, k ∈ r.makes t := by
    rw [second.known, first.known, or_assoc, or_self]
  have both := first.trans second
  refine ⟨both.consistent, known, fun i => ⟨fun member => ?_, ?_⟩, fun t member => ?_⟩
  · rcases both.seen i member with old | ⟨t, there, same, here⟩
    · exact .inl old
    · refine .inr ⟨t, (by simpa using there), same, ?_⟩
      rw [touches_iff] at here
      simpa only [known] using here
  · rintro (old | ⟨t, there, rfl, here⟩)
    · exact both.keeps i old
    · refine second.finds t there (touches_iff.mpr ?_)
      simpa only [first.known] using here
  · rcases both.found t member with old | there
    · exact .inl old
    · exact .inr ((by simpa using there))

end Discovery
