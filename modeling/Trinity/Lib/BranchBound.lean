import Mathlib

/-!
Depth-first search for a choice of items whose worth falls in a range, including
an item before leaving it out. A path holds the decisions made so far, the newest
first. What such a search has settled is stated over complete choices: those
below the path, those pending at an inclusion of the path, and the rest. How many
nodes lie ahead of a path bounds the tries a search needs.
-/
namespace BranchBound

def chosen : List Bool → List ℤ → ℤ
  | true :: c, v :: vs => v + chosen c vs
  | false :: c, _ :: vs => chosen c vs
  | _, _ => 0

@[simp] theorem chosen_nil (vs : List ℤ) : chosen [] vs = 0 := by simp [chosen]

@[simp] theorem chosen_no_items (c : List Bool) : chosen c [] = 0 := by
  cases c with
  | nil => simp [chosen]
  | cons b c => cases b <;> simp [chosen]

theorem chosen_append (p c : List Bool) (vs : List ℤ) :
    chosen (p ++ c) vs = chosen p vs + chosen c (vs.drop p.length) := by
  induction p generalizing vs with
  | nil => simp
  | cons b p ih =>
    cases vs with
    | nil => simp
    | cons v vs => cases b <;> simp [chosen, ih, add_assoc]

theorem chosen_nonneg (c : List Bool) {vs : List ℤ} (nonneg : ∀ v ∈ vs, 0 ≤ v) :
    0 ≤ chosen c vs := by
  induction c generalizing vs with
  | nil => simp
  | cons b c ih =>
    cases vs with
    | nil => simp
    | cons v vs =>
      have rest := ih (fun w member => nonneg w (List.mem_cons_of_mem v member))
      have first := nonneg v List.mem_cons_self
      cases b <;> simp only [chosen] <;> omega

theorem chosen_le_sum (c : List Bool) {vs : List ℤ} (nonneg : ∀ v ∈ vs, 0 ≤ v) :
    chosen c vs ≤ vs.sum := by
  induction c generalizing vs with
  | nil => simpa using List.sum_nonneg nonneg
  | cons b c ih =>
    cases vs with
    | nil => simp
    | cons v vs =>
      have rest := ih (fun w member => nonneg w (List.mem_cons_of_mem v member))
      have first := nonneg v List.mem_cons_self
      cases b <;> simp only [chosen, List.sum_cons] <;> omega

theorem chosen_add_drop_le (c : List Bool) {vs : List ℤ} (nonneg : ∀ v ∈ vs, 0 ≤ v) :
    chosen c vs + (vs.drop c.length).sum ≤ vs.sum := by
  induction c generalizing vs with
  | nil => simp
  | cons b c ih =>
    cases vs with
    | nil => simp
    | cons v vs =>
      have rest := ih (fun w member => nonneg w (List.mem_cons_of_mem v member))
      have first := nonneg v List.mem_cons_self
      cases b <;> simp only [chosen, List.sum_cons, List.length_cons, List.drop_succ_cons] <;> omega

theorem exists_choice {ws vs : List ℤ} (sub : ws.Sublist vs) :
    ∃ c : List Bool, c.length = vs.length ∧ chosen c vs = ws.sum := by
  induction sub with
  | slnil => exact ⟨[], by simp⟩
  | cons v _ ih =>
    obtain ⟨c, length, sum⟩ := ih
    exact ⟨false :: c, by simp [length], by simp [chosen, sum]⟩
  | cons_cons v _ ih =>
    obtain ⟨c, length, sum⟩ := ih
    exact ⟨true :: c, by simp [length], by simp [chosen, sum]⟩

/-- Items no one of which lowers the worth of a choice, and the range asked for. -/
structure Problem where
  items : List ℤ
  base : ℤ
  target : ℤ
  limit : ℤ
  nonneg : ∀ v ∈ items, 0 ≤ v

namespace Problem

variable (P : Problem)

def worth (c : List Bool) : ℤ := P.base + chosen c P.items

def Reaches (c : List Bool) : Prop := P.target ≤ P.worth c ∧ P.worth c ≤ P.limit

def Complete (c : List Bool) : Prop := c.length = P.items.length

def reached (path : List Bool) : ℤ := P.worth path.reverse

def left (path : List Bool) : ℤ := (P.items.drop path.length).sum

@[simp] theorem reached_nil : P.reached [] = P.base := by simp [reached, worth]

@[simp] theorem left_nil : P.left [] = P.items.sum := by simp [left]

variable {P} {path c : List Bool} {v : ℤ}

theorem reached_include (item : P.items[path.length]? = some v) :
    P.reached (true :: path) = P.reached path + v := by
  obtain ⟨low, value⟩ := List.getElem?_eq_some_iff.mp item
  have here : P.items.drop path.length = v :: P.items.drop (path.length + 1) := by
    rw [List.drop_eq_getElem_cons low, value]
  simp [reached, worth, chosen_append, here, chosen, add_assoc]

theorem reached_exclude (path : List Bool) : P.reached (false :: path) = P.reached path := by
  have none_added : chosen [false] (P.items.drop path.length) = 0 := by
    cases P.items.drop path.length <;> simp [chosen]
  simp [reached, worth, chosen_append, none_added]

theorem left_decide (b : Bool) (item : P.items[path.length]? = some v) :
    P.left (b :: path) = P.left path - v := by
  obtain ⟨low, value⟩ := List.getElem?_eq_some_iff.mp item
  simp only [left, List.length_cons]
  rw [List.drop_eq_getElem_cons low, List.sum_cons, value]
  omega

theorem left_nonneg (path : List Bool) : 0 ≤ P.left path :=
  List.sum_nonneg fun v member => P.nonneg v (List.mem_of_mem_drop member)

theorem base_le_reached (path : List Bool) : P.base ≤ P.reached path := by
  have more : 0 ≤ chosen path.reverse P.items := chosen_nonneg _ P.nonneg
  simp only [reached, worth]
  omega

theorem reached_add_left_le (path : List Bool) :
    P.reached path + P.left path ≤ P.base + P.items.sum := by
  have most := chosen_add_drop_le path.reverse P.nonneg
  rw [List.length_reverse] at most
  simp only [reached, left, worth]
  omega

def Below (path c : List Bool) : Prop := path.reverse <+: c

/-- The choice agrees with the path up to an item that the path includes and the
    choice leaves out. -/
def Pending (path c : List Bool) : Prop :=
  ∃ s, (true :: s) <:+ path ∧ (false :: s).reverse <+: c

theorem Below.worth_ge (below : Below path c) : P.reached path ≤ P.worth c := by
  obtain ⟨rest, rfl⟩ := below
  have more : 0 ≤ chosen rest (P.items.drop path.length) :=
    chosen_nonneg rest fun v member => P.nonneg v (List.mem_of_mem_drop member)
  simp only [reached, worth, chosen_append, List.length_reverse]
  omega

theorem Below.worth_le (below : Below path c) : P.worth c ≤ P.reached path + P.left path := by
  obtain ⟨rest, rfl⟩ := below
  have most : chosen rest (P.items.drop path.length) ≤ (P.items.drop path.length).sum :=
    chosen_le_sum rest fun v member => P.nonneg v (List.mem_of_mem_drop member)
  simp only [reached, left, worth, chosen_append, List.length_reverse]
  omega

/-- A choice in range is no better than the best one known. -/
def Settled (P : Problem) (best : Option ℤ) (c : List Bool) : Prop :=
  P.Reaches c → ∃ b ∈ best, b ≤ P.worth c

/-- Everything outside the subtree of the path, and not pending, is settled. -/
structure Explored (P : Problem) (path : List Bool) (best : Option ℤ) : Prop where
  fits : path.length ≤ P.items.length
  settled : ∀ c, P.Complete c → Below path c ∨ Pending path c ∨ P.Settled best c

structure Closed (P : Problem) (path : List Bool) (best : Option ℤ) : Prop where
  fits : path.length ≤ P.items.length
  settled : ∀ c, P.Complete c → Pending path c ∨ P.Settled best c

variable {best : Option ℤ}

theorem explored_nil : Explored P [] none where
  fits := Nat.zero_le _
  settled c _ := by simp [Below]

theorem Explored.improve {better : ℤ} (explored : Explored P path best)
    (lower : ∀ b ∈ best, better ≤ b) : Explored P path (some better) where
  fits := explored.fits
  settled c complete := by
    rcases explored.settled c complete with below | pending | settled
    · exact .inl below
    · exact .inr (.inl pending)
    · right; right
      intro reaches
      obtain ⟨b, known, low⟩ := settled reaches
      exact ⟨better, by simp, (lower b known).trans low⟩

theorem Explored.include_next (explored : Explored P path best)
    (room : path.length < P.items.length) : Explored P (true :: path) best where
  fits := room
  settled c complete := by
    rcases explored.settled c complete with below | pending | settled
    · -- The choice decides the next item too: it is below the longer path or pending at it.
      obtain ⟨rest, rfl⟩ := below
      cases rest with
      | nil => simp only [Complete, List.append_nil, List.length_reverse] at complete; omega
      | cons b rest =>
        cases b with
        | true => left; exact ⟨rest, by simp⟩
        | false => right; left; exact ⟨path, List.suffix_refl _, rest, by simp⟩
    · obtain ⟨s, suffix, agrees⟩ := pending
      exact .inr (.inl ⟨s, suffix.trans (List.suffix_cons true path), agrees⟩)
    · exact .inr (.inr settled)

theorem Explored.close (explored : Explored P path best)
    (subtree : ∀ c, P.Complete c → Below path c → P.Settled best c) : Closed P path best where
  fits := explored.fits
  settled c complete := by
    rcases explored.settled c complete with below | pending | settled
    · exact .inr (subtree c complete below)
    · exact .inl pending
    · exact .inr settled

theorem Explored.prune (explored : Explored P path best)
    (out : P.reached path + P.left path < P.target ∨ P.limit < P.reached path) :
    Closed P path best :=
  explored.close fun c _ below reaches => by
    have high := below.worth_le (P := P)
    have low := below.worth_ge (P := P)
    obtain ⟨least, most⟩ := reaches
    omega

theorem Explored.record {b : ℤ} (explored : Explored P path (some b))
    (least : b ≤ P.reached path) : Closed P path (some b) :=
  explored.close fun _ _ below _ => ⟨b, by simp, least.trans below.worth_ge⟩

theorem Closed.pop (closed : Closed P (false :: path) best) : Closed P path best where
  fits := (Nat.le_succ _).trans closed.fits
  settled c complete := by
    rcases closed.settled c complete with ⟨s, suffix, agrees⟩ | settled
    · rcases List.suffix_cons_iff.mp suffix with same | suffix
      · simp at same
      · exact .inl ⟨s, suffix, agrees⟩
    · exact .inr settled

theorem Closed.exclude (closed : Closed P (true :: path) best) :
    Explored P (false :: path) best where
  fits := closed.fits
  settled c complete := by
    rcases closed.settled c complete with ⟨s, suffix, agrees⟩ | settled
    · rcases List.suffix_cons_iff.mp suffix with same | suffix
      · obtain rfl : s = path := by simpa using same
        exact .inl agrees
      · exact .inr (.inl ⟨s, suffix.trans (List.suffix_cons false path), agrees⟩)
    · exact .inr (.inr settled)

theorem Closed.all_settled (closed : Closed P [] best) :
    ∀ c, P.Complete c → P.Settled best c := by
  intro c complete
  rcases closed.settled c complete with ⟨s, suffix, _⟩ | settled
  · simp at suffix
  · exact settled

end Problem

def pendingNodes (n : ℕ) : List Bool → ℕ
  | [] => 0
  | true :: s => pendingNodes n s + (2 ^ (n - s.length) - 1)
  | false :: s => pendingNodes n s

/-- Nodes still ahead of a search that stands at a path. -/
def nodesAhead (n : ℕ) (path : List Bool) : ℕ :=
  pendingNodes n path + (2 ^ (n - path.length + 1) - 1)

theorem nodesAhead_nil (n : ℕ) : nodesAhead n [] = 2 ^ (n + 1) - 1 := by
  simp [nodesAhead, pendingNodes]

theorem nodesAhead_pos (n : ℕ) (path : List Bool) : 0 < nodesAhead n path := by
  have two : 2 ≤ 2 ^ (n - path.length + 1) := by
    rw [pow_succ]
    have := Nat.one_le_two_pow (n := n - path.length)
    omega
  simp only [nodesAhead]
  omega

theorem nodesAhead_include {n : ℕ} {path : List Bool} (room : path.length < n) :
    nodesAhead n (true :: path) + 1 = nodesAhead n path := by
  obtain ⟨m, rfl⟩ : ∃ m, n = path.length + (m + 1) := ⟨n - path.length - 1, by omega⟩
  have after : path.length + (m + 1) - (path.length + 1) + 1 = m + 1 := by omega
  have before : path.length + (m + 1) - path.length = m + 1 := by omega
  have positive := Nat.one_le_two_pow (n := m + 1)
  simp only [nodesAhead, pendingNodes, List.length_cons, after, before]
  rw [pow_succ 2 (m + 1)]
  omega

theorem nodesAhead_exclude {n : ℕ} {path : List Bool} (k : ℕ)
    (room : path.length < n) :
    nodesAhead n (false :: path) < nodesAhead n (List.replicate k false ++ true :: path) := by
  have falses : pendingNodes n (List.replicate k false ++ true :: path) =
      pendingNodes n (true :: path) := by
    induction k with
    | zero => simp
    | succ k ih => simpa [List.replicate_succ, pendingNodes] using ih
  have width : n - (path.length + 1) + 1 = n - path.length := by omega
  have two : 2 ≤ 2 ^ (n - (k + (path.length + 1)) + 1) := by
    rw [pow_succ]
    have := Nat.one_le_two_pow (n := n - (k + (path.length + 1)))
    omega
  simp only [nodesAhead, falses, pendingNodes, List.length_cons, List.length_append,
    List.length_replicate, width]
  omega

end BranchBound
