import TagLang.Session.Run

/-! What a run answers. A plan reaches a result over answers that a relation allows to its requests; a finished
run is such a passage for every relation that the evaluation of a request keeps, and a passage over answers
that runs give is itself the end of a run. -/

namespace TagLang

/-- Which answer a request may get in a session, with the session after it. -/
abbrev Answering := Request → Session → Except EvalError Value → Session → Prop

namespace Plan

variable {α β : Type}

/-- Whether a plan comes to a result when its requests are answered as allowed. -/
def Reaches (answering : Answering) : Plan α → α → Prop
  | done result, final => final = result
  | outOfRange, _ => False
  | ask request session resume, final =>
    ∃ answer after, answering request session answer after ∧ (resume answer after).Reaches answering final

theorem reaches_done (answering : Answering) (outcome inner : α) (after session : β) :
    (done (inner, session)).Reaches answering (outcome, after) ↔ outcome = inner ∧ after = session :=
  Prod.mk.injEq .. ▸ Iff.rfl

theorem reaches_bind (answering : Answering) (plan : Plan α) (next : α → Plan β) (final : β) :
    (plan.bind next).Reaches answering final ↔
      ∃ middle, plan.Reaches answering middle ∧ (next middle).Reaches answering final := by
  induction plan with
  | done result =>
    constructor
    · exact fun reached => ⟨result, rfl, reached⟩
    · rintro ⟨_, rfl, reached⟩
      exact reached
  | outOfRange => exact ⟨False.elim, fun ⟨_, never, _⟩ => never⟩
  | ask request session resume resumed =>
    constructor
    · rintro ⟨answer, after, allowed, reached⟩
      obtain ⟨middle, first, second⟩ := (resumed answer after).mp reached
      exact ⟨middle, ⟨answer, after, allowed, first⟩, second⟩
    · rintro ⟨middle, ⟨answer, after, allowed, first⟩, second⟩
      exact ⟨answer, after, allowed, (resumed answer after).mpr ⟨middle, first, second⟩⟩

private def Resumes (answering : Answering) :
    List Pending → Except EvalError Value × Session → Except EvalError Value × Session → Prop
  | [], given, final => final = given
  | resume :: pending, given, final =>
    ∃ middle, (resume given.1 given.2).Reaches answering middle ∧ Resumes answering pending middle final

/-- An answering that holds of a request whenever its evaluation reaches the answer. -/
def Answering.Sound (answering : Answering) : Prop :=
  ∀ request session answer after,
    (request.evaluate.run.run session).Reaches answering (answer, after) → answering request session answer after

private theorem run_resumes (answering : Answering) (sound : Answering.Sound answering) (fuel : Nat)
    (plan : Plan (Except EvalError Value × Session)) (pending : List Pending) (answer : Except EvalError Value)
    (after : Session) (finished : plan.run fuel pending = .finished answer after) :
    ∃ middle, plan.Reaches answering middle ∧ Resumes answering pending middle (answer, after) := by
  induction fuel generalizing plan pending with
  | zero => cases finished
  | succ fuel continued =>
    cases plan with
    | done result =>
      cases pending with
      | nil =>
        cases finished
        exact ⟨_, rfl, rfl⟩
      | cons resume pending => exact ⟨result, rfl, continued _ _ finished⟩
    | outOfRange => cases finished
    | ask request session resume =>
      obtain ⟨⟨given, middle⟩, evaluated, final, resumed, rest⟩ := continued _ _ finished
      exact ⟨final, ⟨given, middle, sound request session given middle evaluated, resumed⟩, rest⟩

theorem run_reaches (answering : Answering) (sound : Answering.Sound answering) (fuel : Nat)
    (plan : Plan (Except EvalError Value × Session)) (answer : Except EvalError Value) (after : Session)
    (finished : plan.run fuel [] = .finished answer after) : plan.Reaches answering (answer, after) := by
  obtain ⟨middle, reached, same⟩ := run_resumes answering sound fuel plan [] answer after finished
  exact same ▸ reached

/-- The answers that runs give. -/
def Answers : Answering := fun request session answer after =>
  ∃ fuel, (request.evaluate.run.run session).run fuel [] = .finished answer after

/-- A run that finishes on its own takes the same steps above other pending plans. -/
theorem run_above (fuel : Nat) (plan : Plan (Except EvalError Value × Session)) (own : List Pending)
    (answer : Except EvalError Value) (after : Session) (finished : plan.run fuel own = .finished answer after) :
    ∃ steps, ∀ more pending, plan.run (more + steps) (own ++ pending) = (done (answer, after)).run more pending := by
  induction fuel generalizing plan own with
  | zero => cases finished
  | succ fuel continued =>
    cases plan with
    | done result =>
      cases own with
      | nil =>
        cases finished
        exact ⟨0, fun _ _ => rfl⟩
      | cons resume own =>
        obtain ⟨steps, taken⟩ := continued _ _ finished
        exact ⟨steps + 1, fun more pending => taken more pending⟩
    | outOfRange => cases finished
    | ask request session resume =>
      obtain ⟨steps, taken⟩ := continued _ _ finished
      exact ⟨steps + 1, fun more pending => taken more pending⟩

private theorem reaches_run_above (plan : Plan (Except EvalError Value × Session))
    (final : Except EvalError Value × Session) (reached : plan.Reaches Answers final) :
    ∃ steps, ∀ more pending, plan.run (more + steps) pending = (done final).run more pending := by
  induction plan with
  | done result =>
    cases reached
    exact ⟨0, fun _ _ => rfl⟩
  | outOfRange => cases reached
  | ask request session resume resumed =>
    obtain ⟨answer, after, ⟨fuel, finished⟩, reached⟩ := reached
    obtain ⟨first, answered⟩ := run_above fuel _ [] answer after finished
    obtain ⟨second, ended⟩ := resumed answer after reached
    refine ⟨second + 1 + first + 1, fun more pending => ?_⟩
    calc (ask request session resume).run (more + (second + 1 + first + 1)) pending
        = (request.evaluate.run.run session).run (more + second + 1 + first) (resume :: pending) := by
          rw [show more + (second + 1 + first + 1) = more + second + 1 + first + 1 by omega]
          rfl
      _ = (done (answer, after)).run (more + second + 1) (resume :: pending) := answered _ _
      _ = (resume answer after).run (more + second) pending := rfl
      _ = (done final).run more pending := ended more pending

/-- A result that is reached over the answers of runs is where every run with enough fuel ends. -/
theorem reaches_run (plan : Plan (Except EvalError Value × Session)) (answer : Except EvalError Value)
    (after : Session) (reached : plan.Reaches Answers (answer, after)) :
    ∃ enough, ∀ fuel, enough ≤ fuel → plan.run fuel [] = .finished answer after := by
  obtain ⟨steps, taken⟩ := reaches_run_above plan (answer, after) reached
  refine ⟨steps + 1, fun fuel sufficient => ?_⟩
  obtain ⟨more, rfl⟩ := Nat.exists_eq_add_of_le sufficient
  rw [show steps + 1 + more = more + 1 + steps by omega]
  exact taken (more + 1) []

end Plan

end TagLang
