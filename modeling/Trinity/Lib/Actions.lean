/-!
Systems of parties that act one at a time. A schedule is a list of actions; an
action that is not enabled in a state has no successor, so a theorem about
every schedule with a run is one about every interleaving.
-/
namespace Actions

variable {S A : Type} {step : A → S → Option S}

def run (step : A → S → Option S) : S → List A → Option S
  | s, [] => some s
  | s, a :: rest => (step a s).bind fun s => run step s rest

theorem run_append {s : S} (xs ys : List A) :
    run step s (xs ++ ys) = (run step s xs).bind fun t => run step t ys := by
  induction xs generalizing s with
  | nil => rfl
  | cons a rest ih =>
    simp only [List.cons_append, run, Option.bind_assoc]
    congr
    funext t
    exact ih

theorem run_around {s u : S} {before after : List A} {a : A}
    (whole : run step s (before ++ a :: after) = some u) :
    ∃ t t', run step s before = some t ∧ step a t = some t' ∧ run step t' after = some u := by
  rw [run_append] at whole
  obtain ⟨t, first, rest⟩ := Option.bind_eq_some_iff.mp whole
  obtain ⟨t', here, later⟩ := Option.bind_eq_some_iff.mp rest
  exact ⟨t, t', first, here, later⟩

theorem run_keeps {P : S → Prop} {actions : List A} {s t : S}
    (keeps : ∀ a ∈ actions, ∀ s t, P s → step a s = some t → P t) (start : P s)
    (ran : run step s actions = some t) : P t := by
  induction actions generalizing s with
  | nil =>
    obtain rfl : s = t := Option.some.inj ran
    exact start
  | cons a rest ih =>
    obtain ⟨u, here, later⟩ := Option.bind_eq_some_iff.mp ran
    obtain ⟨first, others⟩ := List.forall_mem_cons.mp keeps
    exact ih others (first s u start here) later

end Actions
