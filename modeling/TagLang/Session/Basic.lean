import TagLang.Environment
import TagLang.Mode

/-! The state of a run: names, the program that is running, the visible bindings, and counters. -/

namespace TagLang

structure Session where
  interner : Interner
  program : Program
  env : Environment
  mode : Mode
  /-- Calls counted against the budget. -/
  calls : Nat
  depth : Nat
  nextClosure : Nat

namespace Session

def new (interner : Interner) (program : Program) (env : Environment) (mode : Mode) (nextClosure : Nat) :
    Session :=
  { interner, program, env, mode, calls := 0, depth := 0, nextClosure }

def defineGlobal (session : Session) (name : Name) (value : Value) : Session :=
  { session with env := session.env.defineGlobal name value }

def enums (session : Session) : EnumRegistry := session.program.arena.enums

/-- The state in which a closure's body starts. The closure's own name is bound beside its captures,
and the parameters in a scope of their own. -/
def entering (session : Session) (closure : Closure Value) (args : List Value) : Session :=
  let env := Environment.ofCaptures closure.captures
  let env := if closure.name = .empty then env else env.define closure.name (.function closure)
  { session with
    env := env.push.defineAll (closure.params.zip args)
    program := closure.program
    depth := session.depth + 1 }

/-- The state after a call's body, back in the caller's environment and program. -/
def leaving (session caller : Session) : Session :=
  { session with env := caller.env, program := caller.program, depth := session.depth - 1 }

end Session

end TagLang
