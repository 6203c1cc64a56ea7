import TagLang.Value.Basic

/-! Environments: a stack of scopes on top of the global one. An inner binding hides the outer ones of
its name. -/

namespace TagLang

abbrev Scope := Bindings Value

/-- The local scopes, the innermost first, and the global scope, which is always there. -/
structure Environment where
  locals : List Scope
  globals : Scope

namespace Environment

def new : Environment := ⟨[], .empty⟩

/-- The environment in which a closure's body starts: its captures are the global scope. -/
def ofCaptures (captures : Scope) : Environment := ⟨[], captures⟩

def depth (env : Environment) : Nat := env.locals.length + 1

def push (env : Environment) : Environment := { env with locals := .empty :: env.locals }

/-- Leaves the innermost scope; the global one stays. -/
def pop (env : Environment) : Environment := { env with locals := env.locals.tail }

def define (env : Environment) (name : Name) (value : Value) : Environment :=
  match env.locals with
  | [] => { env with globals := env.globals.set name value }
  | scope :: outer => { env with locals := scope.set name value :: outer }

def defineAll (env : Environment) (bindings : List (Name × Value)) : Environment :=
  bindings.foldl (fun env (name, value) => env.define name value) env

/-- The environment of a list of scopes, the global one first; an empty list stands for an empty one. -/
def ofScopes : List (List (Name × Value)) → Environment
  | [] => new
  | globals :: scopes => scopes.foldl (fun env scope => env.push.defineAll scope) (new.defineAll globals)

def defineGlobal (env : Environment) (name : Name) (value : Value) : Environment :=
  { env with globals := env.globals.set name value }

def scopes (env : Environment) : List Scope := env.locals ++ [env.globals]

/-- The binding of a name in the innermost scope that has one. -/
def lookup? (env : Environment) (name : Name) : Option Value := env.scopes.findSome? fun scope => scope.get? name

/-- All visible bindings in one scope, gathered from the global scope inward. The first entry of a name is the one
that its scope shows, so it is set last. -/
def capture (env : Environment) : Scope :=
  env.scopes.foldr (fun scope captured => captured.setAll scope.entries.reverse) .empty

end Environment

end TagLang
