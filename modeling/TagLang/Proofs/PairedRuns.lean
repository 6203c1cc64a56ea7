import TagLang.Proofs.SessionFrame

/-! Two runs side by side. A pairing says what belongs together on the two sides while both make the same requests.
Plans that are paired run in step, whatever the fuel, and come to ends that are paired again. -/

namespace TagLang

/-- What belongs together in two runs, which expressions of a program may be asked for, and whether tables may be
read outside their bounds. -/
structure Pairing where
  values : Value → Value → Prop
  closures : Closure Value → Closure Value → Prop
  envs : Environment → Environment → Prop
  programs : Program → Program → Prop
  errors : EvalError → EvalError → Prop
  spans : Span → Span → Prop
  inside : Program → ExprId → Prop
  gaps : Prop

inductive OutcomePair {α β : Type} (errors : EvalError → EvalError → Prop) (results : α → β → Prop) :
    Except EvalError α → Except EvalError β → Prop
  | ok {left : α} {right : β} (related : results left right) : OutcomePair errors results (.ok left) (.ok right)
  | error {left right : EvalError} (related : errors left right) :
      OutcomePair errors results (.error left) (.error right)

structure Session.Abreast (p : Pairing) (left right : Session) : Prop where
  interner : left.interner = right.interner
  program : p.programs left.program right.program
  env : p.envs left.env right.env
  mode : left.mode = right.mode
  calls : left.calls = right.calls
  depth : left.depth = right.depth
  nextClosure : left.nextClosure = right.nextClosure

namespace Pairing

variable {α β : Type} (p : Pairing)

/-- Ends of two evaluations that started in paired sessions: each side has restored its own session. -/
structure Ended (results : α → β → Prop) (left right : Session) (final : Except EvalError α × Session)
    (last : Except EvalError β × Session) : Prop where
  outcome : OutcomePair p.errors results final.1 last.1
  first : left.Restores final.2
  second : right.Restores last.2
  interner : final.2.interner = last.2.interner
  calls : final.2.calls = last.2.calls
  nextClosure : final.2.nextClosure = last.2.nextClosure

structure Asks (asked : Request → Session → Prop) (request : Request) (left right : Session) : Prop where
  abreast : left.Abreast p right
  inside : p.inside left.program request.id
  asked : asked request left

variable {p}

theorem Ended.abreast {results : α → β → Prop} {left right : Session} {final : Except EvalError α × Session}
    {last : Except EvalError β × Session} (ended : p.Ended results left right final last)
    (abreast : left.Abreast p right) : final.2.Abreast p last.2 where
  interner := ended.interner
  program := by
    rw [ended.first.program, ended.second.program]
    exact abreast.program
  env := by
    rw [ended.first.env, ended.second.env]
    exact abreast.env
  mode := by rw [ended.first.mode, ended.second.mode, abreast.mode]
  calls := ended.calls
  depth := by rw [ended.first.depth, ended.second.depth, abreast.depth]
  nextClosure := ended.nextClosure

theorem Ended.at_once {results : α → β → Prop} {left right : Session} (abreast : left.Abreast p right)
    {outcome : Except EvalError α} {another : Except EvalError β}
    (outcomes : OutcomePair p.errors results outcome another) :
    p.Ended results left right (outcome, left) (another, right) :=
  ⟨outcomes, .refl left, .refl right, abreast.interner, abreast.calls, abreast.nextClosure⟩

theorem Ended.trans {γ δ : Type} {results : α → β → Prop} {finals : γ → δ → Prop} {left right : Session}
    {middle : Except EvalError α × Session} {between : Except EvalError β × Session}
    {final : Except EvalError γ × Session} {last : Except EvalError δ × Session}
    (earlier : p.Ended results left right middle between)
    (later : p.Ended finals middle.2 between.2 final last) : p.Ended finals left right final last :=
  { later with
    first := earlier.first.trans _ _ _ later.first
    second := earlier.second.trans _ _ _ later.second }

end Pairing

inductive Outcome.Paired (gaps : Prop)
    (finals : Except EvalError Value × Session → Except EvalError Value × Session → Prop) : Outcome → Outcome → Prop
  | finished {result other : Except EvalError Value} {after final : Session}
      (ended : finals (result, after) (other, final)) :
      Paired gaps finals (.finished result after) (.finished other final)
  | outOfRange (gap : gaps) : Paired gaps finals .outOfRange .outOfRange
  | outOfFuel : Paired gaps finals .outOfFuel .outOfFuel

theorem Outcome.Paired.imp {gaps : Prop}
    {finals others : Except EvalError Value × Session → Except EvalError Value × Session → Prop}
    (implied : ∀ final last, finals final last → others final last) {left right : Outcome}
    (paired : left.Paired gaps finals right) : left.Paired gaps others right := by
  cases paired with
  | finished ended => exact .finished (implied _ _ ended)
  | outOfRange gap => exact .outOfRange gap
  | outOfFuel => exact .outOfFuel

namespace Plan

variable {α β γ δ : Type}

/-- Plans that make the same requests in paired sessions and, over answers that belong together, come to results
that belong together. -/
def Paired (p : Pairing) (asked : Request → Session → Prop) (results : α → β → Prop) : Plan α → Plan β → Prop
  | done result, done other => results result other
  | outOfRange, outOfRange => p.gaps
  | ask request session resume, ask another entered again =>
    another = request ∧ p.Asks asked request session entered ∧
      ∀ answer after reply final, p.Ended p.values session entered (answer, after) (reply, final) →
        (resume answer after).Paired p asked results (again reply final)
  | _, _ => False

namespace Paired

variable {p : Pairing} {asked : Request → Session → Prop}

theorem imp {results finals : α → β → Prop} (implied : ∀ result other, results result other → finals result other)
    (plan : Plan α) (other : Plan β) (paired : plan.Paired p asked results other) :
    plan.Paired p asked finals other := by
  induction plan generalizing other with
  | done result =>
    cases other with
    | done other => exact implied result other paired
    | outOfRange | ask => exact paired
  | outOfRange =>
    cases other with
    | done | outOfRange | ask => exact paired
  | ask request session resume resumed =>
    cases other with
    | done | outOfRange => exact paired
    | ask another entered again =>
      obtain ⟨same, asks, continued⟩ := paired
      exact ⟨same, asks, fun answer after reply final ended =>
        resumed answer after _ (continued answer after reply final ended)⟩

theorem bind {results : α → β → Prop} {finals : γ → δ → Prop} (plan : Plan α) (other : Plan β) (next : α → Plan γ)
    (after : β → Plan δ) (paired : plan.Paired p asked results other)
    (rest : ∀ result another, results result another → (next result).Paired p asked finals (after another)) :
    (plan.bind next).Paired p asked finals (other.bind after) := by
  induction plan generalizing other with
  | done result =>
    cases other with
    | done another => exact rest result another paired
    | outOfRange | ask => cases paired
  | outOfRange =>
    cases other with
    | outOfRange => exact paired
    | done | ask => cases paired
  | ask request session resume resumed =>
    cases other with
    | done | outOfRange => cases paired
    | ask another entered again =>
      obtain ⟨same, asks, continued⟩ := paired
      exact ⟨same, asks, fun answer after reply final ended =>
        resumed answer after _ (continued answer after reply final ended)⟩

end Paired

/-- Pending plans that take over from results that belong together and hand on such results in turn. -/
inductive PendingPaired (p : Pairing) (asked : Request → Session → Prop)
    (finals : Except EvalError Value × Session → Except EvalError Value × Session → Prop) :
    (Except EvalError Value × Session → Except EvalError Value × Session → Prop) → List Pending → List Pending → Prop
  | nil : PendingPaired p asked finals finals [] []
  | cons {results middle : Except EvalError Value × Session → Except EvalError Value × Session → Prop}
      {resume again : Pending} {pending others : List Pending}
      (resumed : ∀ given other, results given other →
        (resume given.1 given.2).Paired p asked middle (again other.1 other.2))
      (rest : PendingPaired p asked finals middle pending others) :
      PendingPaired p asked finals results (resume :: pending) (again :: others)

namespace Paired

variable {p : Pairing} {asked : Request → Session → Prop}

/-- If the evaluations of all requests that both sides may make are paired, runs of paired plans stay in step. -/
theorem run (served : ∀ request left right, p.Asks asked request left right →
      (request.evaluate.run.run left).Paired p asked (p.Ended p.values left right) (request.evaluate.run.run right))
    {results finals : Except EvalError Value × Session → Except EvalError Value × Session → Prop} (fuel : Nat)
    (plan other : Plan (Except EvalError Value × Session)) (pending others : List Pending)
    (paired : plan.Paired p asked results other) (waiting : PendingPaired p asked finals results pending others) :
    Outcome.Paired p.gaps finals (plan.run fuel pending) (other.run fuel others) := by
  induction fuel generalizing plan other pending others results with
  | zero => exact .outOfFuel
  | succ fuel continued =>
    cases plan with
    | done given =>
      cases other with
      | outOfRange | ask => cases paired
      | done another =>
        cases waiting with
        | nil => exact .finished paired
        | cons resumed rest => exact continued _ _ _ _ (resumed given another paired) rest
    | outOfRange =>
      cases other with
      | outOfRange => exact .outOfRange paired
      | done | ask => cases paired
    | ask request session resume =>
      cases other with
      | done | outOfRange => cases paired
      | ask another entered again =>
        obtain ⟨rfl, asks, resumed⟩ := paired
        have evaluated := served another session entered asks
        -- What both sides do with the answer waits on top of what was pending before.
        have waiting := PendingPaired.cons (fun given reply => resumed given.1 given.2 reply.1 reply.2) waiting
        exact continued _ _ _ _ evaluated waiting

end Paired

end Plan

end TagLang
