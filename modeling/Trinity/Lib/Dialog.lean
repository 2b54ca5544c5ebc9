import Trinity.Lib.Outcome

/-!
Fallible programs that ask questions and go on with the answers. A run takes any
answers at all; `eval` is the run in which a question always has the same answer,
`play` the run against an answerer that knows what was asked before. A program
heeds its answers if those of one kind end it with an error at once, and those of
another never do.
-/
inductive Dialog (Q : Type) (A : Q → Type) (ε α : Type) where
  | done (result : Outcome ε α)
  /-- The rounds a loop was given are used up. -/
  | halt
  | ask (q : Q) (next : A q → Dialog Q A ε α)

namespace Dialog

open Outcome

variable {Q : Type} {A : Q → Type} {ε ε' α β σ : Type}

def bind : Dialog Q A ε α → (α → Dialog Q A ε β) → Dialog Q A ε β
  | .done (.ok a), f => f a
  | .done (.error e), _ => .done (.error e)
  | .halt, _ => .halt
  | .ask q next, f => .ask q fun a => bind (next a) f

instance instMonad : Monad (Dialog Q A ε) where
  pure a := .done (.ok a)
  bind := bind

def mapErr (f : ε → ε') : Dialog Q A ε α → Dialog Q A ε' α
  | .done x => .done (x.mapErr f)
  | .halt => .halt
  | .ask q next => .ask q fun a => mapErr f (next a)

def query (q : Q) : Dialog Q A ε (A q) := .ask q fun a => .done (.ok a)

theorem returned_inj {a b : α} (same : some (Except.ok a : Outcome ε α) = some (.ok b)) : a = b :=
  Except.ok.inj (Option.some.inj same)

section Eval

variable (o : (q : Q) → A q)

/-- The result with these answers, none if the rounds do not suffice. -/
def eval : Dialog Q A ε α → Option (Outcome ε α)
  | .done x => some x
  | .halt => none
  | .ask q next => eval (next (o q))

@[simp] theorem eval_done (x : Outcome ε α) : (done x : Dialog Q A ε α).eval o = some x := rfl

@[simp] theorem eval_pure (a : α) : (pure a : Dialog Q A ε α).eval o = some (.ok a) := rfl

@[simp] theorem eval_halt : (halt : Dialog Q A ε α).eval o = none := rfl

variable {o} {p : Dialog Q A ε α} {f : α → Dialog Q A ε β}

theorem eval_bind_ok {b : β} :
    (p >>= f).eval o = some (.ok b) ↔
      ∃ a, p.eval o = some (.ok a) ∧ (f a).eval o = some (.ok b) := by
  induction p with
  | done x =>
    cases x with
    | ok a => simp [Bind.bind, bind]
    | error e => simp [Bind.bind, bind]
  | halt => simp [Bind.bind, bind]
  | ask q next ih => exact ih (o q)

theorem eval_bind_of_ok {a : α} (first : p.eval o = some (.ok a)) :
    (p >>= f).eval o = (f a).eval o := by
  induction p with
  | done x =>
    obtain rfl := Option.some.inj first
    rfl
  | halt => cases first
  | ask q next ih => exact ih (o q) first

theorem eval_bind_some {x : Outcome ε α} {g : α → Outcome ε β} (first : p.eval o = some x)
    (rest : ∀ a, x = .ok a → (f a).eval o = some (g a)) :
    (p >>= f).eval o = some (x >>= g) := by
  induction p with
  | done y =>
    obtain rfl := Option.some.inj first
    cases y with
    | ok a => exact rest a rfl
    | error e => rfl
  | halt => cases first
  | ask q next ih => exact ih (o q) first

theorem eval_foldlM_some {xs : List α} {step : σ → α → Dialog Q A ε σ}
    {step' : σ → α → Outcome ε σ} (each : ∀ s x, (step s x).eval o = some (step' s x)) (s : σ) :
    (xs.foldlM step s).eval o = some (xs.foldlM step' s) := by
  induction xs generalizing s with
  | nil => rfl
  | cons x xs ih =>
    rw [List.foldlM_cons, List.foldlM_cons]
    exact eval_bind_some (each s x) fun s _ => ih s

theorem eval_foldlM_keeps {P : List α → σ → Prop} {step : σ → α → Dialog Q A ε σ}
    (turn : ∀ past s x s', P past s → (step s x).eval o = some (.ok s') → P (past ++ [x]) s')
    {past xs : List α} {s s' : σ} (start : P past s)
    (run : (xs.foldlM step s).eval o = some (.ok s')) : P (past ++ xs) s' := by
  induction xs generalizing past s with
  | nil =>
    rw [List.append_nil, ← returned_inj run]
    exact start
  | cons x xs ih =>
    rw [List.foldlM_cons] at run
    obtain ⟨next, here, later⟩ := eval_bind_ok.mp run
    rw [List.append_cons]
    exact ih (turn past s x next start here) later

theorem eval_bind_of_fail {e : ε} (first : p.eval o = some (fail e)) :
    (p >>= f).eval o = some (fail e) := by
  induction p with
  | done x =>
    obtain rfl := Option.some.inj first
    rfl
  | halt => cases first
  | ask q next ih => exact ih (o q) first

theorem eval_mapErr_ok {g : ε → ε'} {a : α} :
    (p.mapErr g).eval o = some (.ok a) ↔ p.eval o = some (.ok a) := by
  induction p with
  | done x => simp [mapErr]
  | halt => simp [mapErr]
  | ask q next ih => exact ih (o q)

end Eval

inductive Run : Dialog Q A ε α → List (Sigma A) → Option (Outcome ε α) → Prop where
  | done (x : Outcome ε α) : Run (.done x) [] (some x)
  | halt : Run .halt [] none
  | ask {q : Q} {a : A q} {next : A q → Dialog Q A ε α} {past : List (Sigma A)}
      {result : Option (Outcome ε α)} (rest : Run (next a) past result) :
      Run (.ask q next) (⟨q, a⟩ :: past) result

section Play

variable (node : List (Sigma A) → (q : Q) → A q)

def play : Dialog Q A ε α → List (Sigma A) → List (Sigma A) × Option (Outcome ε α)
  | .done x, _ => ([], some x)
  | .halt, _ => ([], none)
  | .ask q next, past =>
    let answered := ⟨q, node past q⟩
    let rest := play (next (node past q)) (past ++ [answered])
    (answered :: rest.1, rest.2)

theorem play_run (p : Dialog Q A ε α) (past : List (Sigma A)) :
    Run p (p.play node past).1 (p.play node past).2 := by
  induction p generalizing past with
  | done x => exact .done x
  | halt => exact .halt
  | ask q next ih => exact .ask (ih _ _)

end Play

theorem returned_of_shown {run : Option (Outcome ε α)} {f : α → β} {b : β}
    (shown : (run.bind fun result => result.toOption.map f) = some b) :
    ∃ a, run = some (.ok a) ∧ f a = b := by
  obtain ⟨result, finished, shown⟩ := Option.bind_eq_some_iff.mp shown
  obtain ⟨a, done, same⟩ := Option.map_eq_some_iff.mp shown
  rw [toOption_eq_some] at done
  exact ⟨a, done ▸ finished, same⟩

def Quiet (p : Dialog Q A ε α) : Prop := ∀ e, p ≠ .done (fail e)

section Quiet

variable {p : Dialog Q A ε α} {f : α → Dialog Q A ε β}

theorem quiet_pure (a : α) : Quiet (pure a : Dialog Q A ε α) := by
  intro e same
  cases same

theorem quiet_halt : Quiet (.halt : Dialog Q A ε α) := by
  intro e same
  cases same

theorem quiet_ask (q : Q) (next : A q → Dialog Q A ε α) : Quiet (.ask q next) := by
  intro e same
  cases same

theorem Quiet.bind (first : Quiet p) (rest : ∀ a, Quiet (f a)) : Quiet (p >>= f) := by
  intro e same
  cases p with
  | done x =>
    cases x with
    | ok a => exact rest a e same
    | error fault =>
      obtain rfl : fault = .error e := by simpa [Bind.bind, Dialog.bind, fail] using same
      exact first e rfl
  | halt => cases same
  | ask q next => cases same

theorem Quiet.mapErr (quiet : Quiet p) (g : ε → ε') : Quiet (p.mapErr g) := by
  intro e same
  cases p with
  | done x =>
    cases x with
    | ok a => simp [Dialog.mapErr, Outcome.mapErr, fail] at same
    | error fault =>
      cases fault with
      | panic => simp [Dialog.mapErr, Outcome.mapErr, fail] at same
      | error e' => exact quiet e' rfl
  | halt => cases same
  | ask q next => cases same

theorem quiet_foldlM {xs : List α} {g : σ → α → Dialog Q A ε σ} (each : ∀ s x, Quiet (g s x))
    (s : σ) : Quiet (xs.foldlM g s) := by
  induction xs generalizing s with
  | nil => exact quiet_pure s
  | cons x xs ih =>
    rw [List.foldlM_cons]
    exact (each s x).bind ih

end Quiet

section Heeds

variable (bad tolerated : Sigma A → Prop)

/-- A bad answer ends the program with an error at once, a tolerated one does not. -/
def Heeds : Dialog Q A ε α → Prop
  | .done _ => True
  | .halt => True
  | .ask q next => ∀ a, (bad ⟨q, a⟩ → ∃ e, next a = .done (fail e)) ∧
      (tolerated ⟨q, a⟩ → Quiet (next a)) ∧ Heeds (next a)

def Firm : Dialog Q A ε α → Prop
  | .done _ => True
  | .halt => True
  | .ask q next => ∀ a, ¬ tolerated ⟨q, a⟩ ∧ Firm (next a)

variable {bad tolerated} {p : Dialog Q A ε α} {f : α → Dialog Q A ε β}

theorem heeds_done (x : Outcome ε α) : Heeds bad tolerated (.done x : Dialog Q A ε α) := trivial

theorem heeds_pure (a : α) : Heeds bad tolerated (pure a : Dialog Q A ε α) := trivial

theorem heeds_halt : Heeds bad tolerated (.halt : Dialog Q A ε α) := trivial

theorem firm_done (x : Outcome ε α) : Firm tolerated (.done x : Dialog Q A ε α) := trivial

theorem firm_pure (a : α) : Firm tolerated (pure a : Dialog Q A ε α) := trivial

theorem firm_halt : Firm tolerated (.halt : Dialog Q A ε α) := trivial

theorem Firm.bind (first : Firm tolerated p) (rest : ∀ a, Firm tolerated (f a)) :
    Firm tolerated (p >>= f) := by
  induction p with
  | done x =>
    cases x with
    | ok a => exact rest a
    | error e => trivial
  | halt => trivial
  | ask q next ih => exact fun a => ⟨(first a).1, ih a (first a).2⟩

/-- What comes after a tolerated answer must not fail at once, also if it is the
    other half of a sequence. -/
theorem Heeds.bind (first : Heeds bad tolerated p) (rest : ∀ a, Heeds bad tolerated (f a))
    (quiet : ∀ a, Quiet (f a)) : Heeds bad tolerated (p >>= f) := by
  induction p with
  | done x =>
    cases x with
    | ok a => exact rest a
    | error e => trivial
  | halt => trivial
  | ask q next ih =>
    intro a
    obtain ⟨wrong, fine, later⟩ := first a
    refine ⟨fun isBad => ?_, fun isFine => (fine isFine).bind quiet, ih a later⟩
    obtain ⟨e, ended⟩ := wrong isBad
    exact ⟨e, congrArg (· >>= f) ended⟩

theorem Heeds.bind_firm (first : Heeds bad tolerated p) (firm : Firm tolerated p)
    (rest : ∀ a, Heeds bad tolerated (f a)) : Heeds bad tolerated (p >>= f) := by
  induction p with
  | done x =>
    cases x with
    | ok a => exact rest a
    | error e => trivial
  | halt => trivial
  | ask q next ih =>
    intro a
    obtain ⟨wrong, _, later⟩ := first a
    obtain ⟨none, firm⟩ := firm a
    refine ⟨fun isBad => ?_, fun isFine => absurd isFine none, ih a later firm⟩
    obtain ⟨e, ended⟩ := wrong isBad
    exact ⟨e, congrArg (· >>= f) ended⟩

theorem Heeds.mapErr (heeds : Heeds bad tolerated p) (g : ε → ε') :
    Heeds bad tolerated (p.mapErr g) := by
  induction p with
  | done x => trivial
  | halt => trivial
  | ask q next ih =>
    intro a
    obtain ⟨wrong, fine, later⟩ := heeds a
    refine ⟨fun isBad => ?_, fun isFine => (fine isFine).mapErr g, ih a later⟩
    obtain ⟨e, ended⟩ := wrong isBad
    exact ⟨g e, congrArg (Dialog.mapErr g) ended⟩

theorem heeds_foldlM {xs : List α} {g : σ → α → Dialog Q A ε σ}
    (each : ∀ s x, Heeds bad tolerated (g s x)) (quiet : ∀ s x, Quiet (g s x)) (s : σ) :
    Heeds bad tolerated (xs.foldlM g s) := by
  induction xs generalizing s with
  | nil => exact heeds_pure s
  | cons x xs ih =>
    rw [List.foldlM_cons]
    exact (each s x).bind ih (quiet_foldlM quiet)

/-- In a run, a bad answer is the last one and the result an error; a tolerated
    answer is not the last one of a run that returns an error. -/
theorem Heeds.run {past : List (Sigma A)} {result : Option (Outcome ε α)}
    (heeds : Heeds bad tolerated p) (run : Run p past result) {before after : List (Sigma A)}
    {x : Sigma A} (split : past = before ++ x :: after) :
    (bad x → after = [] ∧ ∃ e, result = some (fail e)) ∧
      (tolerated x → ¬ (after = [] ∧ ∃ e, result = some (fail e))) := by
  induction run generalizing before with
  | done y => simp at split
  | halt => simp at split
  | @ask q a next past result rest ih =>
    obtain ⟨wrong, fine, later⟩ := heeds a
    cases before with
    | cons y before => exact ih later (List.cons.inj split).2
    | nil =>
      obtain ⟨rfl, rfl⟩ := List.cons.inj split
      constructor
      · intro isBad
        obtain ⟨e, ended⟩ := wrong isBad
        rw [ended] at rest
        cases rest
        exact ⟨rfl, e, rfl⟩
      · rintro isFine ⟨rfl, e, rfl⟩
        generalize next a = p at fine rest
        cases rest
        exact fine isFine e rfl

end Heeds

end Dialog
