import TagLang.Session.Evaluate
import TagLang.Value.Display

/-! Runs. Pending plans are kept in a list, so a run is a loop however deep a program's calls and
expressions nest, and fuel bounds the number of its steps. -/

namespace TagLang

inductive Outcome where
  | finished (result : Except EvalError Value) (session : Session)
  | outOfRange
  | outOfFuel

namespace Plan

abbrev Pending := Except EvalError Value → Session → Plan (Except EvalError Value × Session)

/-- Runs a plan and then the pending ones, the latest first. -/
def run : Nat → Plan (Except EvalError Value × Session) → List Pending → Outcome
  | 0, _, _ => .outOfFuel
  | _ + 1, done (result, session), [] => .finished result session
  | fuel + 1, done (result, session), resume :: pending => run fuel (resume result session) pending
  | _ + 1, outOfRange, _ => .outOfRange
  | fuel + 1, ask request session resume, pending =>
    run fuel (request.evaluate.run.run session) (resume :: pending)

end Plan

namespace Session

def run (session : Session) (fuel : Nat) (evaluation : Evaluation Value) : Outcome :=
  (evaluation.run.run session).run fuel []

def eval (session : Session) (fuel : Nat) (id : ExprId) : Outcome := session.run fuel (Request.part id).evaluate

def call (session : Session) (fuel : Nat) (func : Value) (args : List Value) : Outcome :=
  session.run fuel (Evaluation.call func args)

def callMethod (session : Session) (fuel : Nat) (receiver : Value) (method : String) (args : List Value) :
    Outcome :=
  session.run fuel (receiver.callMethod Evaluation.host method args)

def display (session : Session) (value : Value) : String := value.display session.interner (some session.enums)

end Session

end TagLang
