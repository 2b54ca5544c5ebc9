import Mathlib.Order.Basic
import Mathlib.Data.List.Sort
import Mathlib.Data.Finset.Dedup
import Mathlib.Tactic.Common

/-!
Finite maps and sets kept in key order, as iteration over them sees them. The
order of the entries is a field of the type.
-/
/-- Order a type by an integer code, with the equality test it already has. -/
@[reducible] def orderByCode {K : Type} [DecidableEq K] (code : K → Nat)
    (injective : Function.Injective code) : LinearOrder K where
  le a b := code a ≤ code b
  lt a b := code a < code b
  le_refl a := Nat.le_refl (code a)
  le_trans _ _ _ := Nat.le_trans
  lt_iff_le_not_ge _ _ := Nat.lt_iff_le_and_not_ge
  le_antisymm _ _ first second := injective (Nat.le_antisymm first second)
  le_total a b := Nat.le_total (code a) (code b)
  toDecidableLE a b := inferInstanceAs (Decidable (code a ≤ code b))
  toDecidableLT a b := inferInstanceAs (Decidable (code a < code b))
  toDecidableEq := inferInstance

structure OrderedMap (K V : Type) [LinearOrder K] where
  entries : List (K × V)
  sorted : entries.Pairwise fun a b => a.1 < b.1

namespace OrderedMap

variable {K V : Type} [LinearOrder K]

instance [DecidableEq V] : DecidableEq (OrderedMap K V) := fun a b =>
  decidable_of_iff (a.entries = b.entries) (by
    cases a; cases b; simp)

def empty : OrderedMap K V := ⟨[], List.Pairwise.nil⟩

def size (m : OrderedMap K V) : Nat := m.entries.length
def keys (m : OrderedMap K V) : List K := m.entries.map Prod.fst
def values (m : OrderedMap K V) : List V := m.entries.map Prod.snd
def get? (m : OrderedMap K V) (k : K) : Option V := m.entries.lookup k

def insertEntry (k : K) (v : V) : List (K × V) → List (K × V)
  | [] => [(k, v)]
  | (k', v') :: rest =>
    if k < k' then (k, v) :: (k', v') :: rest
    else if k' < k then (k', v') :: insertEntry k v rest
    else (k, v) :: rest

theorem insertEntry_member {k : K} {v : V} {es : List (K × V)} {e : K × V}
    (h : e ∈ insertEntry k v es) : e = (k, v) ∨ e ∈ es := by
  induction es with
  | nil => simpa [insertEntry] using h
  | cons head rest ih =>
    unfold insertEntry at h
    split_ifs at h <;> grind

theorem insertEntry_sorted {k : K} {v : V} {es : List (K × V)}
    (sorted : es.Pairwise fun a b => a.1 < b.1) :
    (insertEntry k v es).Pairwise fun a b => a.1 < b.1 := by
  induction es with
  | nil => simp [insertEntry]
  | cons head rest ih =>
    obtain ⟨below, tail⟩ := List.pairwise_cons.mp sorted
    unfold insertEntry
    split_ifs with before after
    · refine List.pairwise_cons.mpr ⟨?_, sorted⟩
      intro e member
      rcases List.mem_cons.mp member with rfl | later
      · exact before
      · exact before.trans (below e later)
    · refine List.pairwise_cons.mpr ⟨?_, ih tail⟩
      intro e member
      rcases insertEntry_member member with rfl | old
      · exact after
      · exact below e old
    · have same : k = head.1 := le_antisymm (not_lt.mp after) (not_lt.mp before)
      exact List.pairwise_cons.mpr ⟨fun e member => same ▸ below e member, tail⟩

def insert (m : OrderedMap K V) (k : K) (v : V) : OrderedMap K V :=
  ⟨insertEntry k v m.entries, insertEntry_sorted m.sorted⟩

def erase (m : OrderedMap K V) (k : K) : OrderedMap K V :=
  ⟨m.entries.filter fun e => e.1 ≠ k, m.sorted.filter _⟩

@[simp] theorem keys_length (m : OrderedMap K V) : m.keys.length = m.size := by
  simp [keys, size]

theorem get?_eq_some {m : OrderedMap K V} {k : K} {v : V} :
    m.get? k = some v ↔ (k, v) ∈ m.entries := by
  obtain ⟨es, sorted⟩ := m
  simp only [get?]
  induction es with
  | nil => simp
  | cons head rest ih =>
    obtain ⟨below, tail⟩ := List.pairwise_cons.mp sorted
    obtain ⟨k', v'⟩ := head
    rw [List.lookup_cons, List.mem_cons]
    by_cases same : k = k'
    · subst same
      have absent : (k, v) ∉ rest := fun member => lt_irrefl k (below (k, v) member)
      simp only [beq_self_eq_true, Option.some.injEq, Prod.mk.injEq, true_and, absent, or_false]
      exact eq_comm
    · rw [beq_false_of_ne same]
      simp [same, ih tail]

theorem insertEntry_lookup (k k' : K) (v : V) (es : List (K × V)) :
    (insertEntry k v es).lookup k' = if k' = k then some v else es.lookup k' := by
  induction es with
  | nil => by_cases h : k' = k <;> simp [insertEntry, h]
  | cons head rest ih =>
    obtain ⟨j, w⟩ := head
    unfold insertEntry
    split_ifs with before after here <;> simp only [List.lookup_cons] <;> grind

theorem get?_insert (m : OrderedMap K V) (k k' : K) (v : V) :
    (m.insert k v).get? k' = if k' = k then some v else m.get? k' :=
  insertEntry_lookup k k' v m.entries

theorem mem_keys {m : OrderedMap K V} {k : K} : k ∈ m.keys ↔ ∃ v, m.get? k = some v := by
  simp only [get?_eq_some, keys, List.mem_map, Prod.exists, exists_and_right, exists_eq_right]

theorem mem_keys_insert {m : OrderedMap K V} {k k' : K} {v : V} :
    k' ∈ (m.insert k v).keys ↔ k' = k ∨ k' ∈ m.keys := by
  simp only [mem_keys, get?_insert]
  by_cases same : k' = k <;> simp [same]

theorem mem_values_insert {m : OrderedMap K V} {k : K} {v w : V}
    (member : w ∈ (m.insert k v).values) : w = v ∨ w ∈ m.values := by
  obtain ⟨e, held, rfl⟩ := List.mem_map.mp member
  rcases insertEntry_member held with rfl | old
  · exact .inl rfl
  · exact .inr (List.mem_map_of_mem old)

theorem mem_keys_erase {m : OrderedMap K V} {k k' : K} (member : k' ∈ (m.erase k).keys) :
    k' ∈ m.keys := by
  obtain ⟨e, kept, rfl⟩ := List.mem_map.mp member
  exact List.mem_map_of_mem (List.mem_of_mem_filter kept)

theorem get?_insertAll_other {es : List (K × V)} {m : OrderedMap K V} {k : K}
    (absent : k ∉ es.map Prod.fst) :
    (es.foldl (fun m e => m.insert e.1 e.2) m).get? k = m.get? k := by
  induction es generalizing m with
  | nil => rfl
  | cons e rest ih =>
    simp only [List.map_cons, List.mem_cons, not_or] at absent
    rw [List.foldl_cons, ih absent.2, get?_insert, if_neg absent.1]

theorem get?_insertAll {es : List (K × V)} {m : OrderedMap K V} {k : K} {v : V}
    (once : (es.map Prod.fst).Nodup) (member : (k, v) ∈ es) :
    (es.foldl (fun m e => m.insert e.1 e.2) m).get? k = some v := by
  induction es generalizing m with
  | nil => simp at member
  | cons e rest ih =>
    obtain ⟨absent, once'⟩ := List.nodup_cons.mp once
    rw [List.foldl_cons]
    rcases List.mem_cons.mp member with rfl | later
    · rw [get?_insertAll_other absent, get?_insert, if_pos rfl]
    · exact ih once' later

end OrderedMap

/-- The distinct members of a list in increasing order: what collecting into
    an ordered set and iterating gives. -/
def collectSorted {K : Type} [LinearOrder K] (ks : List K) : List K :=
  ks.dedup.insertionSort (· ≤ ·)

section CollectSorted

variable {K : Type} [LinearOrder K]

@[simp] theorem mem_collectSorted {k : K} {ks : List K} : k ∈ collectSorted ks ↔ k ∈ ks := by
  simp [collectSorted]

theorem collectSorted_nodup (ks : List K) : (collectSorted ks).Nodup :=
  (List.perm_insertionSort _ _).nodup_iff.mpr (List.nodup_dedup ks)

theorem collectSorted_length_le (ks : List K) : (collectSorted ks).length ≤ ks.length := by
  rw [collectSorted, List.length_insertionSort]
  exact (List.dedup_sublist ks).length_le

theorem collectSorted_strict (ks : List K) : (collectSorted ks).Pairwise (· < ·) := by
  have sorted := List.pairwise_insertionSort (fun a b : K => a ≤ b) ks.dedup
  refine (sorted.and (collectSorted_nodup ks)).imp ?_
  rintro a b ⟨le, ne⟩
  exact lt_of_le_of_ne le ne

@[simp] theorem collectSorted_toFinset (ks : List K) :
    (collectSorted ks).toFinset = ks.toFinset := by
  ext k
  simp

theorem toFinset_eq_collectSorted {ks ls : List K} :
    collectSorted ks = collectSorted ls ↔ ks.toFinset = ls.toFinset := by
  constructor
  · intro same
    rw [← collectSorted_toFinset ks, same, collectSorted_toFinset]
  · intro same
    refine List.Perm.eq_of_pairwise (fun a b _ _ ab ba => absurd ab (lt_asymm ba))
      (collectSorted_strict ks) (collectSorted_strict ls) ?_
    · refine (List.perm_ext_iff_of_nodup (collectSorted_nodup ks) (collectSorted_nodup ls)).mpr ?_
      intro k
      rw [mem_collectSorted, mem_collectSorted, ← List.mem_toFinset, same, List.mem_toFinset]

end CollectSorted

structure OrderedSet (K : Type) [LinearOrder K] where
  elems : List K
  sorted : elems.Pairwise (· < ·)

namespace OrderedSet

variable {K : Type} [LinearOrder K]

instance : DecidableEq (OrderedSet K) := fun a b =>
  decidable_of_iff (a.elems = b.elems) (by cases a; cases b; simp)

def collect (ks : List K) : OrderedSet K := ⟨collectSorted ks, collectSorted_strict ks⟩

def insert (s : OrderedSet K) (k : K) : OrderedSet K := collect (k :: s.elems)

def erase (s : OrderedSet K) (k : K) : OrderedSet K :=
  ⟨s.elems.filter fun k' => k' ≠ k, s.sorted.filter _⟩

theorem elems_nodup (s : OrderedSet K) : s.elems.Nodup := s.sorted.imp fun h => ne_of_lt h

@[simp] theorem collect_toFinset (ks : List K) : (collect ks).elems.toFinset = ks.toFinset :=
  collectSorted_toFinset ks

end OrderedSet
