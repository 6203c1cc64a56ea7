/-! How a run is bounded. -/

namespace TagLang

inductive Mode where
  | interpret
  | constEval (budget : Nat)
  | testRun
deriving DecidableEq, Repr

namespace Mode

/-- How many calls may be active at once; without a limit when interpreting. -/
def depthLimit? : Mode → Option Nat
  | interpret => none
  | constEval _ => some 64
  | testRun => some 500

def budget? : Mode → Option Nat
  | constEval budget => some budget
  | interpret | testRun => none

def isBudgeted (mode : Mode) : Bool := mode.budget?.isSome

/-- The number of counted calls after one more; calls count only against a budget. -/
def countCall (mode : Mode) (calls : Nat) : Nat := if mode.isBudgeted then calls + 1 else calls

def exceeded? (mode : Mode) (calls : Nat) : Option Nat := mode.budget?.filter fun budget => budget < calls

end Mode

end TagLang
