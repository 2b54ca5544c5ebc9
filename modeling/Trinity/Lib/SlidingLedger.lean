import Mathlib.Algebra.BigOperators.Group.List.Basic
import Mathlib.Algebra.Order.BigOperators.Group.List
import Mathlib.Algebra.Order.Group.Nat
import Mathlib.Algebra.Ring.Nat
import Mathlib.Data.List.Nodup
import Mathlib.Tactic.Common

/-!
Ledgers of dated amounts with at most one row for each key. Time passes by
expiring rows older than a start, spending books a key at the current time.
Amounts and times are exact integers, keys are arbitrary.
-/
namespace SlidingLedger

def updateFirst {α : Type} (p : α → Bool) (f : α → α) : List α → List α
  | [] => []
  | x :: xs => if p x then f x :: xs else x :: updateFirst p f xs

theorem updateFirst_of_find {α : Type} {p : α → Bool} {f : α → α} {xs : List α} {x : α}
    (found : xs.find? p = some x) :
    ∃ before after, xs = before ++ x :: after ∧
      updateFirst p f xs = before ++ f x :: after := by
  induction xs with
  | nil => simp at found
  | cons y ys ih =>
    unfold updateFirst
    by_cases here : p y
    · rw [List.find?_cons_of_pos here, Option.some.injEq] at found
      subst found
      exact ⟨[], ys, rfl, if_pos here⟩
    · rw [List.find?_cons_of_neg here] at found
      obtain ⟨before, after, split, updated⟩ := ih found
      refine ⟨y :: before, after, by rw [split]; rfl, ?_⟩
      rw [if_neg here, updated]
      rfl

theorem mem_updateFirst {α : Type} {p : α → Bool} {f : α → α} {xs : List α} {y : α}
    (member : y ∈ updateFirst p f xs) : y ∈ xs ∨ ∃ x ∈ xs, p x = true ∧ y = f x := by
  induction xs with
  | nil => exact .inl member
  | cons x xs ih =>
    unfold updateFirst at member
    split at member
    · rename_i here
      rcases List.mem_cons.mp member with same | later
      · exact .inr ⟨x, List.mem_cons_self, here, same⟩
      · exact .inl (List.mem_cons_of_mem x later)
    · rcases List.mem_cons.mp member with same | later
      · exact .inl (same ▸ List.mem_cons_self)
      · rcases ih later with old | ⟨z, there, hit, same⟩
        · exact .inl (List.mem_cons_of_mem x old)
        · exact .inr ⟨z, List.mem_cons_of_mem x there, hit, same⟩

theorem updateFirst_length {α : Type} (p : α → Bool) (f : α → α) (xs : List α) :
    (updateFirst p f xs).length = xs.length := by
  induction xs with
  | nil => rfl
  | cons x xs ih =>
    unfold updateFirst
    split <;> simp [ih]

theorem updateFirst_map {α β : Type} (g : α → β) {p : α → Bool} {q : β → Bool} {f : α → α}
    {h : β → β} {xs : List α} (tests : ∀ x ∈ xs, q (g x) = p x)
    (commutes : ∀ x, g (f x) = h (g x)) :
    (updateFirst p f xs).map g = updateFirst q h (xs.map g) := by
  induction xs with
  | nil => rfl
  | cons x xs ih =>
    obtain ⟨head, tail⟩ := List.forall_mem_cons.mp tests
    simp only [updateFirst, List.map_cons, head]
    split
    · rw [List.map_cons, commutes]
    · rw [List.map_cons, ih tail]

theorem find_map {α β : Type} (g : α → β) {p : α → Bool} {q : β → Bool} {xs : List α}
    (tests : ∀ x ∈ xs, q (g x) = p x) : (xs.map g).find? q = (xs.find? p).map g := by
  induction xs with
  | nil => rfl
  | cons x xs ih =>
    obtain ⟨head, tail⟩ := List.forall_mem_cons.mp tests
    rw [List.map_cons, List.find?_cons, List.find?_cons, head, ih tail]
    cases p x <;> rfl

structure Row (K : Type) where
  key : K
  amount : Nat
  time : Nat

/-- A higher amount replaces the booked one and dates the row anew; any other
    amount leaves the row and its date. -/
def Row.raise {K : Type} (amount now : Nat) (r : Row K) : Row K :=
  if r.amount < amount then { r with amount := amount, time := now } else r

@[simp] theorem Row.raise_key {K : Type} (amount now : Nat) (r : Row K) :
    (r.raise amount now).key = r.key := by
  unfold Row.raise
  split <;> rfl

theorem Row.raise_amount {K : Type} (amount now : Nat) (r : Row K) :
    (r.raise amount now).amount = max r.amount amount := by
  unfold Row.raise
  split
  · rename_i lower
    exact (Nat.max_eq_right (Nat.le_of_lt lower)).symm
  · rename_i enough
    exact (Nat.max_eq_left (Nat.le_of_not_lt enough)).symm

def total {K : Type} (rows : List (Row K)) : Nat := (rows.map Row.amount).sum

@[simp] theorem total_nil {K : Type} : total ([] : List (Row K)) = 0 := rfl

@[simp] theorem total_cons {K : Type} (r : Row K) (rows : List (Row K)) :
    total (r :: rows) = r.amount + total rows := by simp [total]

@[simp] theorem total_append {K : Type} (first second : List (Row K)) :
    total (first ++ second) = total first + total second := by simp [total]

def totalSince {K : Type} (start : Nat) (rows : List (Row K)) : Nat :=
  total (rows.filter fun r => start ≤ r.time)

theorem totalSince_le_total {K : Type} (start : Nat) (rows : List (Row K)) :
    totalSince start rows ≤ total rows := by
  unfold totalSince
  induction rows with
  | nil => rfl
  | cons r rows ih =>
    rw [List.filter_cons]
    split <;> simp only [total_cons] <;> omega

theorem totalSince_append {K : Type} (start : Nat) (first second : List (Row K)) :
    totalSince start (first ++ second) = totalSince start first + totalSince start second := by
  simp [totalSince]

theorem totalSince_cons {K : Type} (start : Nat) (r : Row K) (rows : List (Row K)) :
    totalSince start (r :: rows) =
      (if start ≤ r.time then r.amount else 0) + totalSince start rows := by
  unfold totalSince
  rw [List.filter_cons]
  split <;> simp_all

theorem total_le_of_dominated {K : Type} {rows rows' : List (Row K)}
    (distinct : (rows'.map Row.key).Nodup)
    (dominated : ∀ r' ∈ rows', ∃ r ∈ rows, r.key = r'.key ∧ r'.amount ≤ r.amount) :
    total rows' ≤ total rows := by
  induction rows' generalizing rows with
  | nil => simp
  | cons r' rest ih =>
    obtain ⟨fresh, tail⟩ := List.nodup_cons.mp distinct
    obtain ⟨head, others⟩ := List.forall_mem_cons.mp dominated
    obtain ⟨r, member, same, le⟩ := head
    obtain ⟨before, after, split⟩ := List.append_of_mem member
    subst split
    have smaller : total rest ≤ total (before ++ after) := by
      refine ih tail fun s' later => ?_
      obtain ⟨s, there, key, bound⟩ := others s' later
      refine ⟨s, ?_, key, bound⟩
      have other : s ≠ r := by
        rintro rfl
        exact fresh (by rw [← same, key]; exact List.mem_map_of_mem later)
      simpa [other] using there
    simp only [total_cons, total_append] at smaller ⊢
    omega

theorem Row.raise_time {K : Type} {amount now since : Nat} {r : Row K} (recent : since ≤ now)
    (dated : since ≤ r.time) : since ≤ (r.raise amount now).time := by
  unfold Row.raise
  split
  · exact recent
  · exact dated

@[ext] structure Ledger (K : Type) where
  rows : List (Row K)
  distinct : (rows.map Row.key).Nodup

namespace Ledger

variable {K : Type}

def empty : Ledger K := ⟨[], List.nodup_nil⟩

def expire (start : Nat) (L : Ledger K) : Ledger K where
  rows := L.rows.filter fun r => start ≤ r.time
  distinct := L.distinct.sublist (List.filter_sublist.map _)

theorem mem_expire {start : Nat} {L : Ledger K} {r : Row K} :
    r ∈ (L.expire start).rows ↔ r ∈ L.rows ∧ start ≤ r.time := by
  simp [expire]

theorem row_unique {L : Ledger K} {r s : Row K} (first : r ∈ L.rows)
    (second : s ∈ L.rows) (same : r.key = s.key) : r = s :=
  List.inj_on_of_nodup_map L.distinct first second same

theorem total_expire_le (start : Nat) (L : Ledger K) : total (L.expire start).rows ≤ total L.rows :=
  totalSince_le_total start L.rows

theorem totalSince_expire {start since : Nat} (older : start ≤ since) (L : Ledger K) :
    totalSince since (L.expire start).rows = totalSince since L.rows := by
  unfold totalSince expire
  rw [List.filter_filter]
  congr 1
  refine List.filter_congr fun r _ => ?_
  by_cases recent : since ≤ r.time
  · simp [recent, older.trans recent]
  · simp [recent]

/-- `spent` was booked since `since`, and it never exceeded `cap`. -/
structure Within (since cap spent : Nat) (L : Ledger K) : Prop where
  booked : spent ≤ totalSince since L.rows
  capped : spent ≤ cap

theorem within_expire {start since cap spent : Nat} {L : Ledger K}
    (within : L.Within since cap spent) (older : start ≤ since) :
    (L.expire start).Within since cap spent :=
  ⟨by rw [totalSince_expire older]; exact within.booked, within.capped⟩

def Holds (k : K) (amount since : Nat) (L : Ledger K) : Prop :=
  ∃ r ∈ L.rows, r.key = k ∧ amount ≤ r.amount ∧ since ≤ r.time

theorem holds_expire {k : K} {amount since start : Nat} {L : Ledger K}
    (held : L.Holds k amount since) (older : start ≤ since) :
    (L.expire start).Holds k amount since := by
  obtain ⟨r, member, key, enough, recent⟩ := held
  exact ⟨r, mem_expire.mpr ⟨member, older.trans recent⟩, key, enough, recent⟩

/-- Whatever the second ledger holds at `now'`, the first holds at `now` in an
    amount as high and a row as recent. -/
def Covers (now now' : Nat) (L L' : Ledger K) : Prop :=
  ∀ r' ∈ L'.rows, ∃ r ∈ L.rows,
    r.key = r'.key ∧ r'.amount ≤ r.amount ∧ now + r'.time ≤ now' + r.time ∧ r'.time ≤ now'

theorem covers_empty (now now' : Nat) (L : Ledger K) : Covers now now' L empty := by
  intro r' member
  simp [empty] at member

theorem total_le_of_covers {now now' : Nat} {L L' : Ledger K} (covers : Covers now now' L L') :
    total L'.rows ≤ total L.rows := by
  refine total_le_of_dominated L'.distinct fun r' member => ?_
  obtain ⟨r, there, key, enough, _⟩ := covers r' member
  exact ⟨r, there, key, enough⟩

theorem covers_pass {now now' gain gain' : Nat} {L L' : Ledger K} (covers : Covers now now' L L')
    (slower : gain ≤ gain') : Covers (now + gain) (now' + gain') L L' := by
  intro r' member
  obtain ⟨r, there, key, enough, age, past⟩ := covers r' member
  exact ⟨r, there, key, enough, by omega, by omega⟩

theorem covers_expire {now now' window : Nat} {L L' : Ledger K} (covers : Covers now now' L L') :
    Covers now now' (L.expire (now - window)) (L'.expire (now' - window)) := by
  intro r' live
  obtain ⟨member, recent⟩ := mem_expire.mp live
  obtain ⟨r, there, key, enough, age⟩ := covers r' member
  exact ⟨r, mem_expire.mpr ⟨there, by omega⟩, key, enough, age⟩

variable [DecidableEq K]

def row? (L : Ledger K) (k : K) : Option (Row K) := L.rows.find? fun r => r.key == k

def amountOf (L : Ledger K) (k : K) : Nat := (L.row? k).elim 0 Row.amount

def extra (L : Ledger K) (k : K) (amount : Nat) : Nat := amount - L.amountOf k

theorem row?_eq_some {L : Ledger K} {k : K} {r : Row K} :
    L.row? k = some r ↔ r ∈ L.rows ∧ r.key = k := by
  constructor
  · intro found
    exact ⟨List.mem_of_find?_eq_some found, by simpa using List.find?_some found⟩
  · rintro ⟨member, same⟩
    cases found : L.row? k with
    | none =>
      have := List.find?_eq_none.mp found r member
      simp [same] at this
    | some s =>
      have key : s.key = k := by simpa using List.find?_some found
      rw [row_unique (List.mem_of_find?_eq_some found) member (key.trans same.symm)]

theorem row?_eq_none {L : Ledger K} {k : K} :
    L.row? k = none ↔ ∀ r ∈ L.rows, r.key ≠ k := by
  simp [row?, List.find?_eq_none]

def bookRows (capacity : Nat) (k : K) (amount now : Nat) (rows : List (Row K)) : List (Row K) :=
  if rows.any fun r => r.key == k then
    updateFirst (fun r => r.key == k) (Row.raise amount now) rows
  else if rows.length < capacity then rows ++ [⟨k, amount, now⟩]
  else rows

/-- Everything a booking can do to the rows: raise the row of its key, open
    one at the end, or, on a full ledger, nothing. -/
theorem bookRows_cases (capacity : Nat) (k : K) (amount now : Nat) (L : Ledger K) :
    (∃ before r after, L.row? k = some r ∧ L.rows = before ++ r :: after ∧
      bookRows capacity k amount now L.rows = before ++ r.raise amount now :: after) ∨
    (L.row? k = none ∧ L.rows.length < capacity ∧
      bookRows capacity k amount now L.rows = L.rows ++ [⟨k, amount, now⟩]) ∨
    (L.row? k = none ∧ capacity ≤ L.rows.length ∧
      bookRows capacity k amount now L.rows = L.rows) := by
  unfold bookRows
  cases found : L.row? k with
  | some r =>
    have known : (L.rows.any fun r => r.key == k) = true := by
      rw [List.any_eq_true]
      exact ⟨r, List.mem_of_find?_eq_some found, by simpa using List.find?_some found⟩
    obtain ⟨before, after, split, updated⟩ := updateFirst_of_find found
    exact .inl ⟨before, r, after, rfl, split, by rw [if_pos known, updated]⟩
  | none =>
    have unknown : ¬ (L.rows.any fun r => r.key == k) = true := by
      simpa using row?_eq_none.mp found
    rw [if_neg unknown]
    split
    · rename_i room
      exact .inr (.inl ⟨rfl, room, rfl⟩)
    · rename_i full
      exact .inr (.inr ⟨rfl, Nat.le_of_not_lt full, rfl⟩)

theorem bookRows_distinct (capacity : Nat) (k : K) (amount now : Nat) (L : Ledger K) :
    ((bookRows capacity k amount now L.rows).map Row.key).Nodup := by
  have distinct := L.distinct
  rcases bookRows_cases capacity k amount now L with
    ⟨before, r, after, _, split, updated⟩ | ⟨fresh, _, updated⟩ | ⟨_, _, updated⟩
  · rw [split] at distinct
    rw [updated]
    simpa using distinct
  · have absent := row?_eq_none.mp fresh
    rw [updated]
    simpa [List.nodup_append, distinct] using absent
  · rw [updated]
    exact distinct

def book (capacity : Nat) (k : K) (amount now : Nat) (L : Ledger K) : Ledger K :=
  ⟨bookRows capacity k amount now L.rows, bookRows_distinct capacity k amount now L⟩

theorem book_cases (capacity : Nat) (k : K) (amount now : Nat) (L : Ledger K) :
    (∃ before r after, L.row? k = some r ∧ L.rows = before ++ r :: after ∧
      (L.book capacity k amount now).rows = before ++ r.raise amount now :: after) ∨
    (L.row? k = none ∧ L.rows.length < capacity ∧
      (L.book capacity k amount now).rows = L.rows ++ [⟨k, amount, now⟩]) ∨
    (L.row? k = none ∧ capacity ≤ L.rows.length ∧
      (L.book capacity k amount now).rows = L.rows) :=
  bookRows_cases capacity k amount now L

def Writes (capacity : Nat) (k : K) (amount : Nat) (L : Ledger K) : Prop :=
  match L.row? k with
  | some r => r.amount < amount
  | none => L.rows.length < capacity

def Open (capacity : Nat) (k : K) (L : Ledger K) : Prop :=
  (L.row? k).isSome ∨ L.rows.length < capacity

theorem open_of_writes {capacity : Nat} {k : K} {amount : Nat} {L : Ledger K}
    (written : L.Writes capacity k amount) : L.Open capacity k := by
  unfold Writes at written
  unfold Open
  cases found : L.row? k with
  | some r => exact .inl rfl
  | none =>
    rw [found] at written
    exact .inr written

theorem amountOf_of_row {L : Ledger K} {k : K} {r : Row K} (found : L.row? k = some r) :
    L.amountOf k = r.amount := by simp [amountOf, found]

theorem amountOf_of_none {L : Ledger K} {k : K} (missing : L.row? k = none) :
    L.amountOf k = 0 := by simp [amountOf, missing]

theorem total_book {capacity : Nat} {k : K} {L : Ledger K} (room : L.Open capacity k)
    (amount now : Nat) :
    total (L.book capacity k amount now).rows = total L.rows + L.extra k amount := by
  unfold extra
  rcases book_cases capacity k amount now L with
    ⟨before, r, after, found, split, updated⟩ | ⟨fresh, _, updated⟩ | ⟨fresh, full, _⟩
  · rw [amountOf_of_row found, updated, split]
    simp only [total_append, total_cons, Row.raise_amount]
    omega
  · simp [updated, amountOf_of_none fresh]
  · rcases room with known | room
    · simp [fresh] at known
    · omega

theorem totalSince_book {capacity : Nat} {k : K} {L : Ledger K} (room : L.Open capacity k)
    {since now : Nat} (recent : since ≤ now) (amount : Nat) :
    totalSince since L.rows + L.extra k amount ≤
      totalSince since (L.book capacity k amount now).rows := by
  unfold extra
  rcases book_cases capacity k amount now L with
    ⟨before, r, after, found, split, updated⟩ | ⟨fresh, _, updated⟩ | ⟨fresh, full, _⟩
  · rw [amountOf_of_row found, updated, split]
    simp only [totalSince_append, totalSince_cons, Row.raise_amount]
    by_cases lower : r.amount < amount
    · rw [Row.raise, if_pos lower, if_pos recent]
      split <;> omega
    · rw [Row.raise, if_neg lower]
      split <;> omega
  · simp [updated, amountOf_of_none fresh, totalSince_append, totalSince_cons, recent]
  · rcases room with known | room
    · simp [fresh] at known
    · omega

theorem within_book {capacity since now cap spent allowed amount : Nat} {k : K} {L : Ledger K}
    (within : L.Within since cap spent) (recent : since ≤ now) (room : L.Open capacity k)
    (granted : L.extra k amount ≤ allowed - total L.rows) (bounded : allowed ≤ cap) :
    (L.book capacity k amount now).Within since cap (spent + L.extra k amount) := by
  have booked := totalSince_book room recent amount
  have since_le := totalSince_le_total since (L.book capacity k amount now).rows
  have exact_ := total_book room amount now
  have := within.booked
  have := within.capped
  refine ⟨by omega, ?_⟩
  rcases Nat.eq_zero_or_pos (L.extra k amount) with none | some
  · omega
  · omega

theorem total_book_le {capacity allowed amount now : Nat} {k : K} {L : Ledger K}
    (room : L.Open capacity k) (granted : L.extra k amount ≤ allowed - total L.rows) :
    total (L.book capacity k amount now).rows ≤ max (total L.rows) allowed := by
  rw [total_book room]
  omega

theorem mem_book (capacity : Nat) (k : K) (amount now : Nat) {L : Ledger K} {r : Row K}
    (member : r ∈ L.rows) :
    r ∈ (L.book capacity k amount now).rows ∨
      (r.key = k ∧ r.raise amount now ∈ (L.book capacity k amount now).rows) := by
  rcases book_cases capacity k amount now L with
    ⟨before, s, after, found, split, updated⟩ | ⟨_, _, updated⟩ | ⟨_, _, updated⟩
  · rw [split] at member
    simp only [updated]
    rcases List.mem_append.mp member with early | later
    · exact .inl (List.mem_append_left _ early)
    · rcases List.mem_cons.mp later with rfl | late
      · exact .inr ⟨(row?_eq_some.mp found).2, by simp⟩
      · exact .inl (by simp [late])
  · exact .inl (by simp [updated, member])
  · exact .inl (by simp [updated, member])

theorem holds_book {capacity : Nat} {k k' : K} {amount amount' since now : Nat} {L : Ledger K}
    (held : L.Holds k amount since) (recent : since ≤ now) :
    (L.book capacity k' amount' now).Holds k amount since := by
  obtain ⟨r, member, key, enough, dated⟩ := held
  rcases mem_book capacity k' amount' now member with kept | ⟨_, raised⟩
  · exact ⟨r, kept, key, enough, dated⟩
  · refine ⟨_, raised, by simpa using key, ?_, Row.raise_time recent dated⟩
    rw [Row.raise_amount]
    exact enough.trans (Nat.le_max_left _ _)

/-- A booking that is not dropped is held at the time of its row: now if it
    wrote the row, the row's own time otherwise. -/
theorem book_holds {capacity : Nat} {k : K} {L : Ledger K} (room : L.Open capacity k)
    (amount now : Nat) :
    ∃ r ∈ (L.book capacity k amount now).rows, r.key = k ∧ amount ≤ r.amount ∧
      ((L.Writes capacity k amount ∧ r.time = now) ∨
        (¬ L.Writes capacity k amount ∧ L.row? k = some r)) := by
  unfold Writes
  rcases book_cases capacity k amount now L with
    ⟨before, r, after, found, split, updated⟩ | ⟨fresh, free, updated⟩ | ⟨fresh, full, _⟩
  · refine ⟨r.raise amount now, by simp [updated], ?_, ?_, ?_⟩
    · simpa using (row?_eq_some.mp found).2
    · rw [Row.raise_amount]
      exact Nat.le_max_right _ _
    · rw [found]
      by_cases lower : r.amount < amount
      · exact .inl ⟨lower, by rw [Row.raise, if_pos lower]⟩
      · exact .inr ⟨lower, by rw [Row.raise, if_neg lower]⟩
  · refine ⟨⟨k, amount, now⟩, by simp [updated], rfl, le_rfl, .inl ⟨?_, rfl⟩⟩
    rw [fresh]
    exact free
  · rcases room with known | room
    · simp [fresh] at known
    · omega

theorem book_member {capacity : Nat} {k : K} {amount now : Nat} {L : Ledger K} {r : Row K}
    (member : r ∈ (L.book capacity k amount now).rows) :
    (L.Writes capacity k amount ∧ r = ⟨k, amount, now⟩) ∨ r ∈ L.rows := by
  unfold Writes
  rcases book_cases capacity k amount now L with
    ⟨before, s, after, found, split, updated⟩ | ⟨fresh, free, updated⟩ | ⟨_, _, updated⟩
  · rw [updated] at member
    rw [split, found]
    rcases List.mem_append.mp member with early | later
    · exact .inr (List.mem_append_left _ early)
    · rcases List.mem_cons.mp later with rfl | late
      · by_cases lower : s.amount < amount
        · exact .inl ⟨lower, by rw [Row.raise, if_pos lower, (row?_eq_some.mp found).2]⟩
        · exact .inr (by simp [Row.raise, lower])
      · exact .inr (by simp [late])
  · rw [updated] at member
    rcases List.mem_append.mp member with old | new
    · exact .inr old
    · rw [fresh]
      exact .inl ⟨free, List.mem_singleton.mp new⟩
  · exact .inr (updated ▸ member)

theorem covers_book {capacity : Nat} {k : K} {amount now now' : Nat} {L L' : Ledger K}
    (covers : Covers now now' L L')
    (together : L'.Writes capacity k amount →
      L.Writes capacity k amount ∨ L.Holds k amount now) :
    Covers now now' (L.book capacity k amount now) (L'.book capacity k amount now') := by
  intro r' member
  rcases book_member member with ⟨written', rfl⟩ | old
  · have held : (L.book capacity k amount now).Holds k amount now := by
      rcases together written' with written | held
      · obtain ⟨r, there, key, enough, dated⟩ :=
          book_holds (open_of_writes written) amount now
        rcases dated with ⟨_, time⟩ | ⟨kept, _⟩
        · exact ⟨r, there, key, enough, time.ge⟩
        · exact absurd written kept
      · exact holds_book held le_rfl
    obtain ⟨r, there, key, enough, recent⟩ := held
    exact ⟨r, there, key, enough, by simp only; omega, le_rfl⟩
  · obtain ⟨r, there, key, enough, age, past⟩ := covers r' old
    rcases mem_book capacity k amount now there with kept | ⟨_, raised⟩
    · exact ⟨r, kept, key, enough, age, past⟩
    · refine ⟨_, raised, by simpa using key, ?_, ?_, past⟩
      · rw [Row.raise_amount]
        exact enough.trans (Nat.le_max_left _ _)
      · unfold Row.raise
        split
        · simp only
          omega
        · exact age

end Ledger
end SlidingLedger
