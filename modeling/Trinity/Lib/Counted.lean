import Trinity.Lib.Outcome

/-!
Fallible code that counts its calls of one operation. The code is written once, over
any `M` with marked calls, and is run as it is (`Outcome`) or counted. A counted run
gives the result of the plain one (`_result`), and the rules bound its calls (`_calls`).
-/

/-- Runs in which one operation is called under a mark. -/
class Marked (M : Type → Type → Type) where
  call : {ε α : Type} → Outcome ε α → M ε α
  mapErr : {ε ε' α : Type} → (ε → ε') → M ε α → M ε' α

instance markedOutcome : Marked Outcome where
  call x := x
  mapErr := Outcome.mapErr

namespace Marked

variable {ε ε' α : Type}

@[simp] theorem call_outcome (x : Outcome ε α) : call (M := Outcome) x = x := rfl

@[simp] theorem mapErr_outcome (f : ε → ε') (x : Outcome ε α) :
    mapErr (M := Outcome) f x = x.mapErr f := rfl

end Marked

structure Counted (ε α : Type) where
  calls : Nat
  result : Outcome ε α

namespace Counted

open Outcome

variable {ε ε' α β γ : Type}

def free (x : Outcome ε α) : Counted ε α := ⟨0, x⟩

def once (x : Outcome ε α) : Counted ε α := ⟨1, x⟩

def mapErr (f : ε → ε') (x : Counted ε α) : Counted ε' α := ⟨x.calls, x.result.mapErr f⟩

/-- An error ends the run: what would follow it is not called. -/
def bind (x : Counted ε α) (f : α → Counted ε β) : Counted ε β :=
  match x.result with
  | .ok a => ⟨x.calls + (f a).calls, (f a).result⟩
  | .error e => ⟨x.calls, .error e⟩

instance instMonad : Monad (Counted ε) where
  pure a := free (.ok a)
  bind := bind

instance instMonadLiftT : MonadLiftT (Outcome ε) (Counted ε) := ⟨free⟩

instance instMarked : Marked Counted where
  call := once
  mapErr := mapErr

@[simp] theorem pure_calls (a : α) : (pure a : Counted ε α).calls = 0 := rfl

@[simp] theorem pure_result (a : α) : (pure a : Counted ε α).result = .ok a := rfl

@[simp] theorem bind_result (x : Counted ε α) (f : α → Counted ε β) :
    (x >>= f).result = x.result >>= fun a => (f a).result := by
  obtain ⟨n, _ | a⟩ := x <;> rfl

theorem bind_error {x : Counted ε α} (f : α → Counted ε β) {e : Fault ε}
    (stopped : x.result = .error e) : (x >>= f).calls = x.calls := by
  obtain ⟨n, result⟩ := x
  subst stopped
  rfl

theorem bind_ok {x : Counted ε α} (f : α → Counted ε β) {a : α} (passed : x.result = .ok a) :
    (x >>= f).calls = x.calls + (f a).calls := by
  obtain ⟨n, result⟩ := x
  subst passed
  rfl

theorem bind_calls {x : Counted ε α} {f : α → Counted ε β} {n m : Nat} (first : x.calls ≤ n)
    (rest : ∀ a, x.result = .ok a → (f a).calls ≤ m) : (x >>= f).calls ≤ n + m := by
  cases outcome : x.result with
  | error e =>
    rw [bind_error f outcome]
    omega
  | ok a =>
    rw [bind_ok f outcome]
    have later := rest a outcome
    omega

theorem bind_idle_calls (x : Counted ε α) {f : α → Counted ε β} (idle : ∀ a, (f a).calls = 0) :
    (x >>= f).calls = x.calls := by
  cases outcome : x.result with
  | error e => exact bind_error f outcome
  | ok a => rw [bind_ok f outcome, idle a, Nat.add_zero]

theorem bind_free_calls (x : Counted ε α) (g : α → Outcome ε β) :
    (x >>= fun a => free (g a)).calls = x.calls := bind_idle_calls x fun _ => rfl

theorem bind_pure_calls (x : Counted ε α) (g : α → β) :
    (x >>= fun a => pure (g a)).calls = x.calls := bind_free_calls x fun a => .ok (g a)

theorem free_bind_calls {x : Outcome ε α} {f : α → Counted ε β} {m : Nat}
    (rest : ∀ a, x = .ok a → (f a).calls ≤ m) : (free x >>= f).calls ≤ m := by
  have bound := @bind_calls _ _ _ (free x) f 0 m (Nat.le_refl 0) rest
  omega

theorem le_bind_calls (x : Counted ε α) (f : α → Counted ε β) : x.calls ≤ (x >>= f).calls := by
  cases outcome : x.result with
  | error e => exact Nat.le_of_eq (bind_error f outcome).symm
  | ok a =>
    rw [bind_ok f outcome]
    omega

theorem free_bind_pos {x : Outcome ε α} {f : α → Counted ε β} :
    0 < (free x >>= f).calls ↔ ∃ a, x = .ok a ∧ 0 < (f a).calls := by
  cases x with
  | error e =>
    rw [bind_error f (e := e) rfl]
    simp [free]
  | ok a =>
    rw [bind_ok f (a := a) rfl]
    simp [free]

@[simp] theorem free_calls (x : Outcome ε α) : (free x).calls = 0 := rfl

@[simp] theorem free_result (x : Outcome ε α) : (free x).result = x := rfl

@[simp] theorem once_calls (x : Outcome ε α) : (once x).calls = 1 := rfl

@[simp] theorem once_result (x : Outcome ε α) : (once x).result = x := rfl

@[simp] theorem mapErr_calls (f : ε → ε') (x : Counted ε α) : (mapErr f x).calls = x.calls := rfl

@[simp] theorem mapErr_result (f : ε → ε') (x : Counted ε α) :
    (mapErr f x).result = x.result.mapErr f := rfl

@[simp] theorem monadLift_eq (x : Outcome ε α) : (monadLift x : Counted ε α) = free x := rfl

@[simp] theorem marked_call (x : Outcome ε α) : Marked.call (M := Counted) x = once x := rfl

@[simp] theorem marked_mapErr (f : ε → ε') (x : Counted ε α) :
    Marked.mapErr (M := Counted) f x = mapErr f x := rfl

theorem ext {x y : Counted ε α} (calls : x.calls = y.calls) (result : x.result = y.result) :
    x = y := by
  obtain ⟨n, r⟩ := x
  obtain ⟨m, s⟩ := y
  subst calls result
  rfl

theorem bind_assoc_counted (x : Counted ε α) (f : α → Counted ε β) (g : β → Counted ε γ) :
    x >>= f >>= g = x >>= fun a => f a >>= g := by
  cases first : x.result with
  | error e =>
    have stopped : (x >>= f).result = .error e := by rw [bind_result, first]; rfl
    apply ext
    · rw [bind_error g stopped, bind_error f first, bind_error _ first]
    · rw [bind_result, stopped, bind_result, first]
      rfl
  | ok a =>
    have passed : (x >>= f).result = (f a).result := by rw [bind_result, first]; rfl
    apply ext
    · rw [bind_ok _ first]
      cases second : (f a).result with
      | error e => rw [bind_error g (passed.trans second), bind_ok f first, bind_error g second]
      | ok b =>
        rw [bind_ok g (passed.trans second), bind_ok f first, bind_ok g second, Nat.add_assoc]
    · rw [bind_result, passed, bind_result, first]
      exact (bind_result (f a) g).symm

instance instLawfulMonad : LawfulMonad (Counted ε) :=
  LawfulMonad.mk' _
    (fun x => by obtain ⟨n, _ | a⟩ := x <;> rfl)
    (fun a f => ext (Nat.zero_add _) rfl)
    bind_assoc_counted

theorem forM_result (xs : List α) (f : α → Counted ε PUnit) :
    (forM xs f).result = forM xs fun x => (f x).result := by
  induction xs with
  | nil => rfl
  | cons x xs ih => rw [List.forM_cons, List.forM_cons, bind_result, ih]

theorem forM_calls {xs : List α} {f : α → Counted ε PUnit} {n : Nat}
    (each : ∀ x ∈ xs, (f x).calls ≤ n) : (forM xs f).calls ≤ xs.length * n := by
  induction xs with
  | nil => exact Nat.zero_le _
  | cons x xs ih =>
    obtain ⟨here, later⟩ := List.forall_mem_cons.mp each
    rw [List.forM_cons, List.length_cons, Nat.succ_mul, Nat.add_comm]
    exact bind_calls here fun _ _ => ih later

theorem mapM_result (xs : List α) (f : α → Counted ε β) :
    (xs.mapM f).result = xs.mapM fun x => (f x).result := by
  induction xs with
  | nil => rfl
  | cons x xs ih => simp only [List.mapM_cons, bind_result, ih, pure_result, pure_ok]

theorem mapM_calls {xs : List α} {f : α → Counted ε β} {n : Nat}
    (each : ∀ x ∈ xs, (f x).calls ≤ n) : (xs.mapM f).calls ≤ xs.length * n := by
  induction xs with
  | nil => exact Nat.zero_le _
  | cons x xs ih =>
    obtain ⟨here, later⟩ := List.forall_mem_cons.mp each
    rw [List.mapM_cons, List.length_cons, Nat.succ_mul, Nat.add_comm]
    apply bind_calls here
    intro y _
    rw [bind_pure_calls]
    exact ih later

theorem foldlM_result (xs : List α) (f : β → α → Counted ε β) (b : β) :
    (xs.foldlM f b).result = xs.foldlM (fun c x => (f c x).result) b := by
  induction xs generalizing b with
  | nil => rfl
  | cons x xs ih => simp only [List.foldlM_cons, bind_result, ih]

theorem foldlM_calls {xs : List α} {f : β → α → Counted ε β} {n : Nat}
    (each : ∀ x ∈ xs, ∀ b, (f b x).calls ≤ n) (b : β) :
    (xs.foldlM f b).calls ≤ xs.length * n := by
  induction xs generalizing b with
  | nil => exact Nat.zero_le _
  | cons x xs ih =>
    obtain ⟨here, later⟩ := List.forall_mem_cons.mp each
    rw [List.foldlM_cons, List.length_cons, Nat.succ_mul, Nat.add_comm]
    exact bind_calls (here b) fun next _ => ih later next

theorem findSomeM?_result (xs : List α) (f : α → Counted ε (Option β)) :
    (xs.findSomeM? f).result = xs.findSomeM? fun x => (f x).result := by
  induction xs with
  | nil => rfl
  | cons x xs ih =>
    rw [List.findSomeM?, List.findSomeM?, bind_result]
    congr 1
    funext found
    cases found with
    | some b => rfl
    | none => exact ih

theorem findSomeM?_calls {xs : List α} {f : α → Counted ε (Option β)} {n : Nat}
    (each : ∀ x ∈ xs, (f x).calls ≤ n) : (xs.findSomeM? f).calls ≤ xs.length * n := by
  induction xs with
  | nil => exact Nat.zero_le _
  | cons x xs ih =>
    obtain ⟨here, later⟩ := List.forall_mem_cons.mp each
    rw [List.findSomeM?, List.length_cons, Nat.succ_mul, Nat.add_comm]
    apply bind_calls here
    intro found _
    cases found with
    | some b => exact Nat.zero_le _
    | none => exact ih later

theorem findSomeM?_skip (xs : List α) (p : α → Prop) [DecidablePred p]
    (f : α → Counted ε (Option β)) :
    xs.findSomeM? (fun x => if p x then pure none else f x) =
      (xs.filter fun x => ¬ p x).findSomeM? f := by
  induction xs with
  | nil => rfl
  | cons x xs ih =>
    by_cases skipped : p x
    · rw [List.findSomeM?, if_pos skipped, pure_bind, ih, List.filter_cons_of_neg (by simpa)]
    · rw [List.findSomeM?, if_neg skipped, ih, List.filter_cons_of_pos (by simpa), List.findSomeM?]

end Counted
