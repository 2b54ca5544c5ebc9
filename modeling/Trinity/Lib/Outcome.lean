import Mathlib.Data.List.Forall2
import Mathlib.Tactic.Common

/-!
Results of fallible code that may also abort. `error` carries a value the
caller sees, `panic` ends the program. The lemmas turn a successful run of a
sequence, a loop or a search into the facts each of its steps established.
-/
inductive Fault (ε : Type) where
  | error (e : ε)
  | panic
  deriving DecidableEq, Repr

abbrev Outcome (ε α : Type) : Type := Except (Fault ε) α

namespace Outcome

variable {ε ε' α β : Type}

instance [DecidableEq ε] [DecidableEq α] : DecidableEq (Outcome ε α)
  | .ok a, .ok b => decidable_of_iff (a = b) (by simp)
  | .error a, .error b => decidable_of_iff (a = b) (by simp)
  | .ok _, .error _ => isFalse (by simp)
  | .error _, .ok _ => isFalse (by simp)

def fail (e : ε) : Outcome ε α := .error (.error e)

def rejectIf (p : Prop) [Decidable p] (e : ε) : Outcome ε Unit :=
  if p then fail e else .ok ()

def okOr (o : Option α) (e : ε) : Outcome ε α :=
  match o with
  | some a => .ok a
  | none => fail e

/-- The value of an option that the program relies on: `none` aborts. -/
def expect (o : Option α) : Outcome ε α :=
  match o with
  | some a => .ok a
  | none => .error .panic

/-- A condition the program relies on: a debug assertion, the bound of an index. -/
def abortUnless (p : Prop) [Decidable p] : Outcome ε Unit :=
  if p then .ok () else .error .panic

def mapErr (f : ε → ε') (x : Outcome ε α) : Outcome ε' α :=
  match x with
  | .ok a => .ok a
  | .error (.error e) => fail (f e)
  | .error .panic => .error .panic

def ofExcept {δ : Type} (x : Except δ α) (f : δ → ε) : Outcome ε α :=
  match x with
  | .ok a => .ok a
  | .error e => fail (f e)

theorem bind_eq_ok {x : Outcome ε α} {f : α → Outcome ε β} {b : β} :
    (x >>= f) = .ok b ↔ ∃ a, x = .ok a ∧ f a = .ok b := by
  cases x with
  | error e => simp [bind, Except.bind]
  | ok a => simp [bind, Except.bind]

@[simp] theorem bind_ok (a : α) (f : α → Outcome ε β) :
    ((Except.ok a : Outcome ε α) >>= f) = f a := rfl

@[simp] theorem pure_ok (a : α) : (pure a : Outcome ε α) = .ok a := rfl

/-- For a `pure` that must not be rewritten inside the loop around it. -/
theorem pure_eq_ok {a b : α} : (pure a : Outcome ε α) = .ok b ↔ a = b := by
  rw [pure_ok, Except.ok.injEq]

@[simp] theorem fail_ne_ok (e : ε) (a : α) : (fail e : Outcome ε α) ≠ .ok a := by
  simp [fail]

@[simp] theorem rejectIf_eq_ok {p : Prop} [Decidable p] {e : ε} {u : Unit} :
    rejectIf p e = .ok u ↔ ¬ p := by
  unfold rejectIf
  split <;> simp_all

theorem rejectIf_of_not {p : Prop} [Decidable p] (e : ε) (not : ¬ p) :
    rejectIf p e = .ok () := if_neg not

@[simp] theorem okOr_eq_ok {o : Option α} {e : ε} {a : α} :
    okOr o e = .ok a ↔ o = some a := by
  cases o <;> simp [okOr]

@[simp] theorem expect_eq_ok {o : Option α} {a : α} :
    (expect o : Outcome ε α) = .ok a ↔ o = some a := by
  cases o <;> simp [expect]

@[simp] theorem ofExcept_eq_ok {δ : Type} {x : Except δ α} {f : δ → ε} {a : α} :
    ofExcept x f = .ok a ↔ x = .ok a := by
  cases x <;> simp [ofExcept]

@[simp] theorem abortUnless_eq_ok {p : Prop} [Decidable p] {u : Unit} :
    (abortUnless p : Outcome ε Unit) = .ok u ↔ p := by
  unfold abortUnless
  split <;> simp_all

@[simp] theorem mapErr_eq_ok {f : ε → ε'} {x : Outcome ε α} {a : α} :
    mapErr f x = .ok a ↔ x = .ok a := by
  match x with
  | .ok b => simp [mapErr]
  | .error (.error e) => simp [mapErr]
  | .error .panic => simp [mapErr]

@[simp] theorem toOption_eq_some {x : Outcome ε α} {a : α} : x.toOption = some a ↔ x = .ok a := by
  cases x <;> simp [Except.toOption]

theorem foldlM_toOption (xs : List α) (f : β → α → Outcome ε β) (b : β) :
    (xs.foldlM f b).toOption = xs.foldlM (fun c x => (f c x).toOption) b := by
  induction xs generalizing b with
  | nil => rfl
  | cons x xs ih =>
    rw [List.foldlM_cons, List.foldlM_cons]
    cases f b x with
    | error e => rfl
    | ok c => exact ih c

theorem forM_eq_ok {xs : List α} {f : α → Outcome ε PUnit} {u : PUnit} :
    forM xs f = .ok u ↔ ∀ x ∈ xs, f x = .ok () := by
  induction xs with
  | nil => simp
  | cons x xs ih =>
    rw [List.forM_cons, bind_eq_ok, List.forall_mem_cons]
    constructor
    · rintro ⟨⟨⟩, head, rest⟩
      exact ⟨head, ih.mp rest⟩
    · rintro ⟨head, rest⟩
      exact ⟨(), head, ih.mpr rest⟩

theorem bind_congr_ok {x : Outcome ε α} {f g : α → Outcome ε β}
    (same : ∀ a, x = .ok a → f a = g a) : (x >>= f) = (x >>= g) := by
  cases x with
  | error e => rfl
  | ok a => exact same a rfl

theorem forM_congr {xs : List α} {ys : List β} {f : α → Outcome ε PUnit}
    {g : β → Outcome ε PUnit} (same : List.Forall₂ (fun x y => f x = g y) xs ys) :
    forM xs f = forM ys g := by
  induction same with
  | nil => rfl
  | cons here _ ih => rw [List.forM_cons, List.forM_cons, here, ih]

theorem foldlM_congr {γ : Type} {xs : List α} {ys : List β} {f : γ → α → Outcome ε γ}
    {g : γ → β → Outcome ε γ} (same : List.Forall₂ (fun x y => ∀ c, f c x = g c y) xs ys) (c : γ) :
    xs.foldlM f c = ys.foldlM g c := by
  induction same generalizing c with
  | nil => rfl
  | cons here _ ih =>
    rw [List.foldlM_cons, List.foldlM_cons, here]
    exact bind_congr_ok fun next _ => ih next

theorem forM_zipIdx_eq_ok {xs : List α} {f : α × Nat → Outcome ε PUnit} {u : PUnit} :
    forM xs.zipIdx f = .ok u ↔ ∀ i x, xs[i]? = some x → f (x, i) = .ok () := by
  rw [forM_eq_ok]
  constructor
  · intro all i x at_
    exact all (x, i) (List.mem_zipIdx_iff_getElem?.mpr at_)
  · rintro all ⟨x, i⟩ member
    exact all i x (List.mem_zipIdx_iff_getElem?.mp member)

theorem forM_zipIdx_congr {R : α → β → Prop} {xs : List α} {ys : List β}
    {f : α × Nat → Outcome ε PUnit} {g : β × Nat → Outcome ε PUnit}
    (related : List.Forall₂ R xs ys) (same : ∀ i x y, R x y → f (x, i) = g (y, i)) :
    forM xs.zipIdx f = forM ys.zipIdx g := by
  generalize 0 = start
  induction related generalizing start with
  | nil => rfl
  | cons here _ ih =>
    rw [List.zipIdx_cons, List.zipIdx_cons, List.forM_cons, List.forM_cons, same _ _ _ here]
    exact bind_congr_ok fun _ _ => ih _

theorem allM_eq_true {xs : List α} {f : α → Outcome ε Bool} :
    xs.allM f = .ok true ↔ ∀ x ∈ xs, f x = .ok true := by
  induction xs with
  | nil => simp [List.allM]
  | cons x xs ih =>
    rw [List.forall_mem_cons, ← ih]
    constructor
    · intro run
      obtain ⟨r, head, rest⟩ := bind_eq_ok.mp run
      cases r with
      | true => exact ⟨head, rest⟩
      | false => simp at rest
    · rintro ⟨head, rest⟩
      exact bind_eq_ok.mpr ⟨true, head, rest⟩

theorem mapM_eq_ok {xs : List α} {f : α → Outcome ε β} {ys : List β} :
    xs.mapM f = .ok ys ↔ List.Forall₂ (fun x y => f x = .ok y) xs ys := by
  induction xs generalizing ys with
  | nil =>
    simp only [List.mapM_nil, pure_ok, Except.ok.injEq, List.forall₂_nil_left_iff]
    exact eq_comm
  | cons x xs ih =>
    simp only [List.mapM_cons, bind_eq_ok, pure_ok, Except.ok.injEq, ih]
    constructor
    · rintro ⟨y, here, rest, later, rfl⟩
      exact .cons here later
    · intro all
      obtain ⟨y, rest, here, later, rfl⟩ := List.forall₂_cons_left_iff.mp all
      exact ⟨y, here, rest, later, rfl⟩

theorem mapM_length {xs : List α} {f : α → Outcome ε β} {ys : List β} (run : xs.mapM f = .ok ys) :
    ys.length = xs.length := (mapM_eq_ok.mp run).length_eq.symm

theorem mapM_total {xs : List α} {f : α → Outcome ε β} (each : ∀ x ∈ xs, ∃ y, f x = .ok y) :
    ∃ ys, xs.mapM f = .ok ys := by
  induction xs with
  | nil => exact ⟨[], rfl⟩
  | cons x xs ih =>
    obtain ⟨⟨y, here⟩, tail⟩ := List.forall_mem_cons.mp each
    obtain ⟨ys, later⟩ := ih tail
    exact ⟨y :: ys, mapM_eq_ok.mpr (.cons here (mapM_eq_ok.mp later))⟩

theorem mapM_getElem {xs : List α} {f : α → Outcome ε β} {ys : List β} (run : xs.mapM f = .ok ys)
    {i : Nat} {x : α} (at_ : xs[i]? = some x) : ∃ y, ys[i]? = some y ∧ f x = .ok y := by
  obtain ⟨inside, rfl⟩ := List.getElem?_eq_some_iff.mp at_
  have inside' : i < ys.length := mapM_length run ▸ inside
  exact ⟨ys[i], List.getElem?_eq_getElem inside', (mapM_eq_ok.mp run).get inside inside'⟩

theorem mapM_mem {xs : List α} {f : α → Outcome ε β} {ys : List β} (run : xs.mapM f = .ok ys)
    {y : β} (member : y ∈ ys) : ∃ x ∈ xs, f x = .ok y := by
  obtain ⟨i, inside, rfl⟩ := List.getElem_of_mem member
  have inside' : i < xs.length := mapM_length run ▸ inside
  exact ⟨xs[i], List.getElem_mem inside', (mapM_eq_ok.mp run).get inside' inside⟩

theorem findSomeM?_congr {xs : List α} {f g : α → Outcome ε (Option β)}
    (same : ∀ x ∈ xs, f x = g x) : xs.findSomeM? f = xs.findSomeM? g := by
  induction xs with
  | nil => rfl
  | cons x xs ih =>
    obtain ⟨here, later⟩ := List.forall_mem_cons.mp same
    rw [List.findSomeM?, List.findSomeM?, here, ih later]

theorem findSomeM?_some {xs : List α} {f : α → Outcome ε (Option β)} {b : β}
    (found : xs.findSomeM? f = .ok (some b)) : ∃ x ∈ xs, f x = .ok (some b) := by
  induction xs with
  | nil => simp [List.findSomeM?] at found
  | cons x xs ih =>
    obtain ⟨r, head, rest⟩ := bind_eq_ok.mp found
    cases r with
    | some c =>
      simp only [pure_ok, Except.ok.injEq, Option.some.injEq] at rest
      exact ⟨x, List.mem_cons_self, rest ▸ head⟩
    | none =>
      obtain ⟨y, member, at_⟩ := ih rest
      exact ⟨y, List.mem_cons_of_mem x member, at_⟩

theorem findSomeM?_none {xs : List α} {f : α → Outcome ε (Option β)} :
    xs.findSomeM? f = .ok none ↔ ∀ x ∈ xs, f x = .ok none := by
  induction xs with
  | nil => simp [List.findSomeM?]
  | cons x xs ih =>
    rw [List.forall_mem_cons, ← ih]
    constructor
    · intro run
      obtain ⟨r, head, rest⟩ := bind_eq_ok.mp run
      cases r with
      | some c => simp at rest
      | none => exact ⟨head, rest⟩
    · rintro ⟨head, rest⟩
      exact bind_eq_ok.mpr ⟨none, head, rest⟩

theorem findSomeM?_total {xs : List α} {f : α → Outcome ε (Option β)}
    (probes : ∀ x ∈ xs, ∃ r, f x = .ok r) : ∃ r, xs.findSomeM? f = .ok r := by
  induction xs with
  | nil => exact ⟨none, rfl⟩
  | cons x xs ih =>
    obtain ⟨head, tail⟩ := List.forall_mem_cons.mp probes
    obtain ⟨r, here⟩ := head
    cases r with
    | some b => exact ⟨some b, bind_eq_ok.mpr ⟨some b, here, rfl⟩⟩
    | none =>
      obtain ⟨r, run⟩ := ih tail
      exact ⟨r, bind_eq_ok.mpr ⟨none, here, run⟩⟩

theorem findSomeM?_hit {xs : List α} {f : α → Outcome ε (Option β)} {x : α} {b : β}
    (probes : ∀ y ∈ xs, ∃ r, f y = .ok r) (member : x ∈ xs) (hit : f x = .ok (some b)) :
    ∃ c, xs.findSomeM? f = .ok (some c) := by
  induction xs with
  | nil => simp at member
  | cons y ys ih =>
    obtain ⟨r, head⟩ := probes y List.mem_cons_self
    cases r with
    | some c => exact ⟨c, bind_eq_ok.mpr ⟨some c, head, rfl⟩⟩
    | none =>
      rcases List.mem_cons.mp member with same | later
      · rw [← same, hit] at head
        simp at head
      · obtain ⟨c, run⟩ := ih (fun z zin => probes z (List.mem_cons_of_mem y zin)) later
        exact ⟨c, bind_eq_ok.mpr ⟨none, head, run⟩⟩

section Panics

theorem bind_eq_panic {x : Outcome ε α} {f : α → Outcome ε β} :
    (x >>= f) = .error .panic ↔ x = .error .panic ∨ ∃ a, x = .ok a ∧ f a = .error .panic := by
  cases x with
  | error e => simp [bind, Except.bind]
  | ok a => simp [bind, Except.bind]

@[simp] theorem expect_eq_panic {o : Option α} :
    (expect o : Outcome ε α) = .error .panic ↔ o = none := by
  cases o <;> simp [expect]

@[simp] theorem mapErr_eq_panic {f : ε → ε'} {x : Outcome ε α} :
    mapErr f x = .error .panic ↔ x = .error .panic := by
  match x with
  | .ok b => simp [mapErr]
  | .error (.error e) => simp [mapErr, fail]
  | .error .panic => simp [mapErr]

theorem rejectIf_bind_eq_panic {p : Prop} [Decidable p] {e : ε} {f : Unit → Outcome ε β} :
    (rejectIf p e >>= f) = .error .panic ↔ ¬ p ∧ f () = .error .panic := by
  unfold rejectIf
  split <;> simp_all [fail, bind, Except.bind]

theorem okOr_bind_eq_panic {o : Option α} {e : ε} {f : α → Outcome ε β} :
    (okOr o e >>= f) = .error .panic ↔ ∃ a, o = some a ∧ f a = .error .panic := by
  cases o <;> simp [okOr, fail, bind, Except.bind]

theorem mapM_eq_panic {xs : List α} {f : α → Outcome ε β} :
    xs.mapM f = .error .panic ↔ ∃ (i : Nat) (x : α), xs[i]? = some x ∧
      (∀ j < i, ∃ z y, xs[j]? = some z ∧ f z = .ok y) ∧ f x = .error .panic := by
  induction xs with
  | nil => simp
  | cons head tail ih =>
    rw [List.mapM_cons, bind_eq_panic]
    constructor
    · rintro (here | ⟨y, passed, rest⟩)
      · exact ⟨0, head, rfl, by simp, here⟩
      · rcases bind_eq_panic.mp rest with later | ⟨ys, _, done⟩
        · obtain ⟨i, x, at_, reached, aborts⟩ := ih.mp later
          refine ⟨i + 1, x, at_, ?_, aborts⟩
          intro j below
          cases j with
          | zero => exact ⟨head, y, rfl, passed⟩
          | succ j => exact reached j (by omega)
        · simp at done
    · rintro ⟨i, x, at_, reached, aborts⟩
      cases i with
      | zero =>
        obtain rfl := Option.some.inj at_
        exact .inl aborts
      | succ i =>
        obtain ⟨z, y, first, passed⟩ := reached 0 (by omega)
        obtain rfl := Option.some.inj first
        have later := ih.mpr ⟨i, x, at_, fun j below => reached (j + 1) (by omega), aborts⟩
        exact .inr ⟨y, passed, bind_eq_panic.mpr (.inl later)⟩

theorem mapM_zipIdx_eq_panic {xs : List α} {f : α × Nat → Outcome ε β} :
    xs.zipIdx.mapM f = .error .panic ↔ ∃ (i : Nat) (x : α), xs[i]? = some x ∧
      (∀ j < i, ∃ z y, xs[j]? = some z ∧ f (z, j) = .ok y) ∧ f (x, i) = .error .panic := by
  simp only [mapM_eq_panic, List.getElem?_zipIdx, Nat.zero_add, Option.map_eq_some_iff]
  constructor
  · rintro ⟨i, _, ⟨x, at_, rfl⟩, reached, aborts⟩
    refine ⟨i, x, at_, ?_, aborts⟩
    intro j below
    obtain ⟨_, y, ⟨z, earlier, rfl⟩, passed⟩ := reached j below
    exact ⟨z, y, earlier, passed⟩
  · rintro ⟨i, x, at_, reached, aborts⟩
    refine ⟨i, _, ⟨x, at_, rfl⟩, ?_, aborts⟩
    intro j below
    obtain ⟨z, y, earlier, passed⟩ := reached j below
    exact ⟨_, y, ⟨z, earlier, rfl⟩, passed⟩

end Panics

/-- The run does not abort, and an error it ends with satisfies the predicate. -/
def OnlyFails (P : ε → Prop) : Outcome ε α → Prop
  | .ok _ => True
  | .error (.error e) => P e
  | .error .panic => False

section OnlyFails

variable {P : ε → Prop}

theorem OnlyFails.ok_or_fail {x : Outcome ε α} (only : OnlyFails P x) :
    (∃ a, x = .ok a) ∨ ∃ e, x = fail e ∧ P e := by
  match x, only with
  | .ok a, _ => exact .inl ⟨a, rfl⟩
  | .error (.error e), here => exact .inr ⟨e, rfl, here⟩

theorem OnlyFails.ne_panic {x : Outcome ε α} (only : OnlyFails P x) : x ≠ .error .panic := by
  rintro rfl
  exact only

theorem OnlyFails.bind_eq_panic {x : Outcome ε α} {f : α → Outcome ε β} (only : OnlyFails P x) :
    (x >>= f) = .error .panic ↔ ∃ a, x = .ok a ∧ f a = .error .panic := by
  rw [Outcome.bind_eq_panic, or_iff_right only.ne_panic]

theorem onlyFails_ok (a : α) : OnlyFails P (.ok a : Outcome ε α) := trivial

theorem onlyFails_fail {e : ε} (here : P e) : OnlyFails P (fail e : Outcome ε α) := here

theorem onlyFails_rejectIf {p : Prop} [Decidable p] {e : ε} (here : P e) :
    OnlyFails P (rejectIf p e) := by
  unfold rejectIf
  split
  · exact here
  · trivial

theorem onlyFails_okOr {o : Option α} {e : ε} (here : P e) : OnlyFails P (okOr o e) := by
  cases o with
  | none => exact here
  | some a => trivial

theorem onlyFails_ofExcept {δ : Type} {x : Except δ α} {f : δ → ε}
    (here : ∀ e, x = .error e → P (f e)) : OnlyFails P (ofExcept x f) := by
  cases x with
  | ok a => trivial
  | error e => exact here e rfl

theorem onlyFails_expect {o : Option α} (present : ∃ a, o = some a) :
    OnlyFails P (expect o : Outcome ε α) := by
  obtain ⟨a, rfl⟩ := present
  trivial

theorem onlyFails_abortUnless {p : Prop} [Decidable p] (holds : p) :
    OnlyFails P (abortUnless p : Outcome ε Unit) := by
  unfold abortUnless
  rw [if_pos holds]
  trivial

theorem onlyFails_bind {x : Outcome ε α} {f : α → Outcome ε β} (first : OnlyFails P x)
    (rest : ∀ a, x = .ok a → OnlyFails P (f a)) : OnlyFails P (x >>= f) := by
  obtain ⟨a, rfl⟩ | ⟨e, rfl, here⟩ := first.ok_or_fail
  · exact rest a rfl
  · exact here

theorem onlyFails_rejectIf_bind {p : Prop} [Decidable p] {e : ε} {f : Unit → Outcome ε β}
    (here : P e) (rest : ¬ p → OnlyFails P (f ())) : OnlyFails P (rejectIf p e >>= f) := by
  apply onlyFails_bind (onlyFails_rejectIf here)
  intro _ passed
  exact rest (rejectIf_eq_ok.mp passed)

theorem onlyFails_okOr_bind {o : Option α} {e : ε} {f : α → Outcome ε β}
    (here : P e) (rest : ∀ a, o = some a → OnlyFails P (f a)) : OnlyFails P (okOr o e >>= f) := by
  apply onlyFails_bind (onlyFails_okOr here)
  intro a found
  exact rest a (okOr_eq_ok.mp found)

theorem onlyFails_mapErr {Q : ε' → Prop} {x : Outcome ε α} {f : ε → ε'} (first : OnlyFails P x)
    (mapped : ∀ e, P e → Q (f e)) : OnlyFails Q (mapErr f x) := by
  obtain ⟨a, rfl⟩ | ⟨e, rfl, here⟩ := first.ok_or_fail
  · trivial
  · exact mapped e here

theorem onlyFails_forM {xs : List α} {f : α → Outcome ε PUnit}
    (each : ∀ x ∈ xs, OnlyFails P (f x)) : OnlyFails P (forM xs f) := by
  induction xs with
  | nil => trivial
  | cons x xs ih =>
    obtain ⟨head, tail⟩ := List.forall_mem_cons.mp each
    rw [List.forM_cons]
    apply onlyFails_bind head
    intro _ _
    exact ih tail

theorem onlyFails_mapM {xs : List α} {f : α → Outcome ε β} (each : ∀ x ∈ xs, OnlyFails P (f x)) :
    OnlyFails P (xs.mapM f) := by
  induction xs with
  | nil => trivial
  | cons x xs ih =>
    obtain ⟨head, tail⟩ := List.forall_mem_cons.mp each
    rw [List.mapM_cons]
    apply onlyFails_bind head
    intro y _
    apply onlyFails_bind (ih tail)
    intro ys _
    trivial

theorem onlyFails_allM {xs : List α} {f : α → Outcome ε Bool}
    (each : ∀ x ∈ xs, OnlyFails P (f x)) : OnlyFails P (xs.allM f) := by
  induction xs with
  | nil => trivial
  | cons x xs ih =>
    obtain ⟨head, tail⟩ := List.forall_mem_cons.mp each
    refine onlyFails_bind head ?_
    intro passed _
    cases passed with
    | true => exact ih tail
    | false => trivial

theorem onlyFails_findSomeM? {xs : List α} {f : α → Outcome ε (Option β)}
    (each : ∀ x ∈ xs, OnlyFails P (f x)) : OnlyFails P (xs.findSomeM? f) := by
  induction xs with
  | nil => trivial
  | cons x xs ih =>
    obtain ⟨head, tail⟩ := List.forall_mem_cons.mp each
    refine onlyFails_bind head ?_
    intro found _
    cases found with
    | some b => trivial
    | none => exact ih tail

theorem onlyFails_foldlM {xs : List α} {f : β → α → Outcome ε β}
    (each : ∀ x ∈ xs, ∀ b, OnlyFails P (f b x)) (b : β) : OnlyFails P (xs.foldlM f b) := by
  induction xs generalizing b with
  | nil => trivial
  | cons x xs ih =>
    obtain ⟨head, tail⟩ := List.forall_mem_cons.mp each
    rw [List.foldlM_cons]
    refine onlyFails_bind (head b) ?_
    intro b' _
    exact ih tail b'

theorem onlyFails_of_not_ok {x : Outcome ε α} (only : OnlyFails P x) (stopped : ∀ a, x ≠ .ok a) :
    ∃ e, x = fail e ∧ P e := by
  obtain ⟨a, done⟩ | failed := only.ok_or_fail
  · exact absurd done (stopped a)
  · exact failed

end OnlyFails

end Outcome
