import Mathlib.Data.List.Infix
import Mathlib.Data.List.ModifyLast
import TagLang.Proofs.BindingLaws

/-! Runs of scope operations. An environment is a stack of scopes that is never empty, as the global scope cannot be
popped. Its capture shows what it shows, and operations that close the scopes they open leave no trace once the scope
they were made in is popped. -/

namespace TagLang

inductive ScopeStep where
  | push
  | pop
  | define (name : Name) (value : Value)
  | defineGlobal (name : Name) (value : Value)

namespace ScopeStep

/-- What a step does to a stack of scopes, the innermost first: the bottom one stays. -/
def onStack (stack : List Scope) : ScopeStep → List Scope
  | push => .empty :: stack
  | pop => if 1 < stack.length then stack.tail else stack
  | define name value => stack.modifyHead fun scope => scope.set name value
  | defineGlobal name value => stack.modifyLast fun scope => scope.set name value

def isPush : ScopeStep → Bool
  | push => true
  | _ => false

def isPop : ScopeStep → Bool
  | pop => true
  | _ => false

def isLocal : ScopeStep → Bool
  | defineGlobal _ _ => false
  | _ => true

/-- Whether every pop closes an earlier push of the steps and every push is closed, with no global definition. -/
structure Balanced (steps : List ScopeStep) : Prop where
  stays : ∀ step ∈ steps, step.isLocal = true
  opened : ∀ earlier, earlier <+: steps → earlier.countP isPop ≤ earlier.countP isPush
  closed : steps.countP isPop = steps.countP isPush

end ScopeStep

open ScopeStep

namespace Environment

def perform (env : Environment) : ScopeStep → Environment
  | .push => env.push
  | .pop => env.pop
  | .define name value => env.define name value
  | .defineGlobal name value => env.defineGlobal name value

def performAll (env : Environment) (steps : List ScopeStep) : Environment := steps.foldl perform env

theorem scopes_perform (env : Environment) (step : ScopeStep) :
    (env.perform step).scopes = onStack env.scopes step := by
  obtain ⟨locals, globals⟩ := env
  cases step with
  | push => rfl
  | pop => cases locals <;> simp [perform, onStack, Environment.pop, scopes]
  | define name value => cases locals <;> simp [perform, onStack, Environment.define, scopes]
  | defineGlobal name value =>
    exact (List.modifyLast_concat (fun scope : Scope => scope.set name value) globals locals).symm

theorem scopes_performAll (env : Environment) (steps : List ScopeStep) :
    (env.performAll steps).scopes = steps.foldl onStack env.scopes := by
  induction steps generalizing env with
  | nil => rfl
  | cons step steps later =>
    rw [List.foldl_cons, ← scopes_perform]
    exact later (env.perform step)

theorem length_scopes (env : Environment) : env.scopes.length = env.depth := by
  simp [scopes, depth]

/-- Whether an environment is another one with a number of scopes opened on top. -/
def Above (base env : Environment) (count : Nat) : Prop :=
  ∃ inner : List Scope, inner.length = count ∧ env = ⟨inner ++ base.locals, base.globals⟩

variable {base env : Environment} {count : Nat}

theorem above_push (base : Environment) : Above base base.push 1 := ⟨[.empty], rfl, rfl⟩

theorem Above.eq (above : Above base env 0) : env = base := by
  obtain ⟨inner, none, rfl⟩ := above
  rw [List.length_eq_zero_iff.mp none]
  rfl

theorem Above.push (above : Above base env count) : Above base env.push (count + 1) := by
  obtain ⟨inner, counted, rfl⟩ := above
  exact ⟨.empty :: inner, by simp [counted], rfl⟩

theorem Above.pop (above : Above base env (count + 1)) : Above base env.pop count := by
  obtain ⟨inner, counted, rfl⟩ := above
  obtain ⟨scope, outer, rfl⟩ := List.exists_cons_of_length_eq_add_one counted
  exact ⟨outer, by simpa using counted, rfl⟩

theorem Above.define (above : Above base env (count + 1)) (name : Name) (value : Value) :
    Above base (env.define name value) (count + 1) := by
  obtain ⟨inner, counted, rfl⟩ := above
  obtain ⟨scope, outer, rfl⟩ := List.exists_cons_of_length_eq_add_one counted
  exact ⟨scope.set name value :: outer, by simpa using counted, rfl⟩

theorem Above.perform (above : Above base env (count + 1)) (step : ScopeStep) (stays : step.isLocal = true)
    (opened : [step].countP isPop ≤ count + [step].countP isPush) :
    ∃ left, left + [step].countP isPop = count + [step].countP isPush ∧ Above base (env.perform step) (left + 1) := by
  cases step with
  | push => exact ⟨count + 1, rfl, above.push⟩
  | pop =>
    obtain ⟨outer, rfl⟩ := Nat.exists_eq_add_one.mpr (show 0 < count from opened)
    exact ⟨outer, rfl, above.pop⟩
  | define name value => exact ⟨count, rfl, above.define name value⟩
  | defineGlobal name value => cases stays

/-- Local steps that close no scope of the base leave as many as they open and do not close. -/
theorem Above.performAll (steps : List ScopeStep) (stay : ∀ step ∈ steps, step.isLocal = true)
    (above : Above base env (count + 1))
    (opened : ∀ earlier, earlier <+: steps → earlier.countP isPop ≤ count + earlier.countP isPush) :
    ∃ left, left + steps.countP isPop = count + steps.countP isPush ∧ Above base (env.performAll steps) (left + 1) := by
  -- The scopes above the base are counted along the steps; one more is always there for definitions to go into.
  induction steps generalizing env count with
  | nil => exact ⟨count, rfl, above⟩
  | cons step steps later =>
    obtain ⟨first, rest⟩ := List.forall_mem_cons.mp stay
    obtain ⟨next, counted, above⟩ := above.perform step first (opened [step] (by simp))
    have within (earlier : List ScopeStep) (initial : earlier <+: steps) :
        earlier.countP isPop ≤ next + earlier.countP isPush := by
      have bound := opened (step :: earlier) (List.cons_prefix_cons.mpr ⟨rfl, initial⟩)
      simp only [List.countP_cons, List.countP_nil] at counted bound
      omega
    obtain ⟨left, balance, reached⟩ := later rest above within
    refine ⟨left, ?_, reached⟩
    simp only [List.countP_cons, List.countP_nil] at counted ⊢
    omega

theorem pop_performAll_push (env : Environment) (steps : List ScopeStep) (balanced : Balanced steps) :
    (env.push.performAll steps).pop = env := by
  obtain ⟨left, counted, above⟩ := Above.performAll steps balanced.stays (above_push env) fun earlier initial => by
    simpa using balanced.opened earlier initial
  have none : left = 0 := by
    have closed := balanced.closed
    omega
  subst none
  exact above.pop.eq

end Environment

/-- However scopes are pushed and popped and names defined, from a single scope on, the scopes form a stack that is
never empty. A new environment on the capture shows every name as before, and what is done in a scope of its own, with
balanced steps, is undone when the scope is popped. -/
theorem Environment.performAll_laws (start : Environment)
    (fresh : start = .new ∨ ∃ captures, start = .ofCaptures captures) (steps : List ScopeStep) :
    let env := start.performAll steps
    (∃ bottom, start.scopes = [bottom] ∧ env.scopes = steps.foldl onStack [bottom]) ∧
      env.scopes ≠ [] ∧ env.depth = env.scopes.length ∧
      (∀ name, (Environment.ofCaptures env.capture).lookup? name = env.lookup? name) ∧
      ∀ inner, Balanced inner → (env.push.performAll inner).pop = env := by
  intro env
  refine ⟨?_, by simp [scopes], env.length_scopes.symm, ?_, env.pop_performAll_push⟩
  · have single : start.scopes = [start.globals] := by
      rcases fresh with rfl | ⟨captures, rfl⟩ <;> rfl
    exact ⟨start.globals, single, single ▸ start.scopes_performAll steps⟩
  · intro name
    rw [lookup?_ofCaptures, get?_capture]

/-- The global scope is popped twice, to no effect, and a name is shadowed in scopes that are closed again. -/
theorem Environment.performAll_laws_shadowed :
    let x : Name := ⟨7⟩
    let steps : List ScopeStep := [.define x (.number .zero), .pop, .pop, .push, .define x (.number .one),
      .defineGlobal ⟨8⟩ (.bool true)]
    let inner : List ScopeStep := [.define x (.bool true), .push, .define x (.bool false), .pop, .push, .pop]
    let env := Environment.new.performAll steps
    Balanced inner ∧ env.depth = 2 ∧ env.lookup? x = some (.number .one) ∧
      (env.push.performAll inner).lookup? x = some (.bool true) ∧
      (Environment.ofCaptures env.capture).lookup? x = some (.number .one) ∧
      (Environment.ofCaptures env.capture).lookup? ⟨8⟩ = some (.bool true) ∧ env.scopes ≠ [] ∧
      (env.push.performAll inner).pop = env := by
  intro x steps inner env
  have balanced : Balanced inner := by
    refine ⟨by decide, ?_, by decide⟩
    have counted : ∀ earlier ∈ inner.inits, earlier.countP isPop ≤ earlier.countP isPush := by decide
    exact fun earlier initial => counted earlier ((List.mem_inits earlier inner).mpr initial)
  obtain ⟨_, stacked, _, captured, undone⟩ := Environment.performAll_laws .new (.inl rfl) steps
  exact ⟨balanced, rfl, rfl, rfl, captured x, captured ⟨8⟩, stacked, undone inner balanced⟩

end TagLang
