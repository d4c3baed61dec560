import Mathlib.Logic.Basic

/-! Finite runs of a step function. A step is partial: an action that is not
enabled has no successor, so a run exists only when each of its actions is
enabled in the state it is taken in. -/
namespace Transition
variable {S A : Type*} {step : S → A → Option S}

def run (step : S → A → Option S) : S → List A → Option S
  | s, [] => some s
  | s, a :: rest => (step s a).bind fun t => run step t rest

/-- Every action of the run meets `P` in the state it is taken in. -/
def Along (step : S → A → Option S) (P : S → A → Prop) : S → List A → Prop
  | _, [] => True
  | s, a :: rest => P s a ∧ ∀ t, step s a = some t → Along step P t rest

theorem run_cons_some {s t a rest} :
    run step s (a :: rest) = some t ↔ ∃ u, step s a = some u ∧ run step u rest = some t := by
  simp only [run, Option.bind_eq_some_iff]

theorem run_append_some {s t first second} :
    run step s (first ++ second) = some t ↔
      ∃ u, run step s first = some u ∧ run step u second = some t := by
  induction first generalizing s with
  | nil => simp [run]
  | cons a rest ih =>
    simp only [List.cons_append, run_cons_some, ih]
    constructor
    · rintro ⟨v, stepped, u, path, last⟩
      exact ⟨u, ⟨v, stepped, path⟩, last⟩
    · rintro ⟨u, ⟨v, stepped, path⟩, last⟩
      exact ⟨v, stepped, u, path, last⟩

/-- The run goes through the state. -/
def Visits (step : S → A → Option S) (s : S) (actions : List A) (v : S) : Prop :=
  ∃ front rest, actions = front ++ rest ∧ run step s front = some v

theorem Visits.start (s : S) (actions : List A) : Visits step s actions s := ⟨[], actions, rfl, rfl⟩

theorem Visits.cons {s u v a rest} (stepped : step s a = some u) (visits : Visits step u rest v) :
    Visits step s (a :: rest) v := by
  obtain ⟨front, back, rfl, path⟩ := visits
  exact ⟨a :: front, back, rfl, run_cons_some.mpr ⟨u, stepped, path⟩⟩

theorem Along.cons {P s t a rest} (holds : P s a) (stepped : step s a = some t)
    (along : Along step P t rest) : Along step P s (a :: rest) := by
  refine ⟨holds, fun u stepped' => ?_⟩
  cases stepped.symm.trans stepped'
  exact along

instance decidableAlong {P : S → A → Prop} [∀ s a, Decidable (P s a)] :
    (s : S) → (actions : List A) → Decidable (Along step P s actions)
  | _, [] => .isTrue trivial
  | s, a :: rest =>
    match next : step s a with
    | none => decidable_of_iff (P s a)
      ⟨fun holds => ⟨holds, fun _ stepped => nomatch next.symm.trans stepped⟩, fun along => along.1⟩
    | some t =>
      have : Decidable (Along step P t rest) := decidableAlong t rest
      decidable_of_iff (P s a ∧ Along step P t rest)
        ⟨fun both => .cons both.1 next both.2, fun along => ⟨along.1, along.2 t next⟩⟩

theorem Along.append_left {P s first second} (along : Along step P s (first ++ second)) : Along step P s first := by
  induction first generalizing s with
  | nil => trivial
  | cons a rest ih => exact ⟨along.1, fun t stepped => ih (along.2 t stepped)⟩

theorem Along.append_right {P s t first second} (along : Along step P s (first ++ second))
    (path : run step s first = some t) :
    Along step P t second := by
  induction first generalizing s with
  | nil => cases path; exact along
  | cons a rest ih =>
    obtain ⟨u, stepped, path⟩ := run_cons_some.mp path
    exact ih (along.2 u stepped) path

theorem invariant_along {P : S → A → Prop} {Inv : S → Prop}
    (preserves : ∀ {s a t}, Inv s → P s a → step s a = some t → Inv t)
    {s t : S} {actions : List A} (initial : Inv s) (along : Along step P s actions)
    (path : run step s actions = some t) : Inv t := by
  induction actions generalizing s with
  | nil => cases path; exact initial
  | cons a rest ih =>
    obtain ⟨u, stepped, path⟩ := run_cons_some.mp path
    exact ih (preserves initial along.1 stepped) (along.2 u stepped) path

theorem along_true {s actions} : Along step (fun _ _ => True) s actions := by
  induction actions generalizing s with
  | nil => trivial
  | cons a rest ih => exact ⟨trivial, fun _ _ => ih⟩

/-- A condition on the actions alone. -/
theorem along_of_mem {P : A → Prop} {s : S} {actions : List A} (holds : ∀ a ∈ actions, P a) :
    Along step (fun _ a => P a) s actions := by
  induction actions generalizing s with
  | nil => trivial
  | cons a rest ih =>
    exact ⟨holds a List.mem_cons_self, fun _ _ => ih fun b member => holds b (List.mem_cons_of_mem _ member)⟩

theorem Along.mono {P Q s actions} (weaker : ∀ s a, P s a → Q s a) (along : Along step P s actions) :
    Along step Q s actions := by
  induction actions generalizing s with
  | nil => trivial
  | cons a rest ih => exact ⟨weaker s a along.1, fun t stepped => ih (along.2 t stepped)⟩

theorem Along.and {P Q s actions} (first : Along step P s actions) (second : Along step Q s actions) :
    Along step (fun s a => P s a ∧ Q s a) s actions := by
  induction actions generalizing s with
  | nil => trivial
  | cons a rest ih =>
    exact ⟨⟨first.1, second.1⟩, fun t stepped => ih (first.2 t stepped) (second.2 t stepped)⟩

/-- What one step preserves, every run preserves. -/
theorem invariant {Inv : S → Prop} (preserves : ∀ {s a t}, Inv s → step s a = some t → Inv t)
    {s t : S} {actions : List A} (initial : Inv s) (path : run step s actions = some t) : Inv t :=
  invariant_along (fun kept _ stepped => preserves kept stepped) initial along_true path

end Transition
