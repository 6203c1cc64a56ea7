import TagLang.Session.Basic

/-! Plans: computations that stop to ask for the value of another expression and go on with the answer.
A plan holds no call stack of its own, so whoever runs it decides how to keep the pending ones. -/

namespace TagLang

/-- An expression whose value is asked for: a part of the current one, or the body of a called function. -/
inductive Request where
  | part (id : ExprId)
  | body (id : ExprId)
deriving DecidableEq, Repr

namespace Request

def id : Request → ExprId
  | part id => id
  | body id => id

end Request

inductive Plan (α : Type) where
  | done (result : α)
  /-- The plan needs a table entry that the arena does not have. -/
  | outOfRange
  | ask (request : Request) (session : Session) (resume : Except EvalError Value → Session → Plan α)

namespace Plan

variable {α β : Type}

def bind : Plan α → (α → Plan β) → Plan β
  | done result, next => next result
  | outOfRange, _ => outOfRange
  | ask request session resume, next => ask request session fun answer session => (resume answer session).bind next

instance : Monad Plan where
  pure := done
  bind := bind

private theorem bind_done (plan : Plan α) : plan.bind done = plan := by
  induction plan with
  | done result => rfl
  | outOfRange => rfl
  | ask request session resume resumed =>
    simp only [bind]
    congr
    funext answer session
    exact resumed answer session

private theorem bind_bind {γ : Type} (plan : Plan α) (next : α → Plan β) (last : β → Plan γ) :
    (plan.bind next).bind last = plan.bind fun result => (next result).bind last := by
  induction plan with
  | done result => rfl
  | outOfRange => rfl
  | ask request session resume resumed =>
    simp only [bind]
    congr
    funext answer session
    exact resumed answer session

instance : LawfulMonad Plan := LawfulMonad.mk' Plan bind_done (fun _ _ => rfl) bind_bind

end Plan

/-- Computations on a session that can fail and can ask for the values of expressions. -/
abbrev Evaluation := ExceptT EvalError (StateT Session Plan)

namespace Evaluation

variable {α : Type}

def ask (request : Request) : Evaluation Value :=
  ExceptT.mk fun session => .ask request session fun answer session => .done (answer, session)

def outOfRange : Evaluation α := ExceptT.mk fun _ => .outOfRange

def entry : Option α → Evaluation α
  | some found => pure found
  | none => outOfRange

def settled (outcome : Except EvalError α) : Evaluation α := ExceptT.mk (pure outcome)

/-- Locates the error of a computation that fails, unless the place is a dummy. -/
def locate (span : Span) (evaluation : Evaluation α) : Evaluation α :=
  ExceptT.mk do
    let outcome ← evaluation.run
    return if span.isDummy then outcome else outcome.mapError (·.withSpan span)

/-- Runs a computation in a new scope with the given bindings and leaves the scope also on failure. -/
def inScope (bindings : List (Name × Value)) (evaluation : Evaluation α) : Evaluation α :=
  ExceptT.mk do
    modify fun session => { session with env := session.env.push.defineAll bindings }
    let outcome ← evaluation.run
    modify fun session => { session with env := session.env.pop }
    return outcome

end Evaluation

end TagLang
