import TagLang.Proofs.CallAccounts
import TagLang.Proofs.EvaluationEffects

/-! The limits on calls over all that a host does with one session. The bodies that are entered stay within the
budget and the depth limit, and the counter passes the budget only by the one call that is refused for it. -/

namespace TagLang

inductive HostOp where
  | eval (id : ExprId)
  | call (func : Value) (args : List Value)
  | defineGlobal (name : Name) (value : Value)

def Outcome.session? : Outcome → Option Session
  | finished _ session => some session
  | outOfRange | outOfFuel => none

namespace HostOp

def after? (fuel : Nat) (session : Session) : HostOp → Option Session
  | eval id => (session.eval fuel id).session?
  | call func args => (session.call fuel func args).session?
  | defineGlobal name value => some (session.defineGlobal name value)

/-- The sessions in which an operation enters function bodies, also if it does not finish. -/
def bodies (fuel : Nat) (session : Session) : HostOp → List Session
  | eval id => (((Request.part id).evaluate.run.run session).traced fuel []).1
  | call func args => (((Evaluation.call func args).run.run session).traced fuel []).1
  | defineGlobal _ _ => []

private theorem run_accounts (fuel : Nat) (session : Session) (evaluation : Evaluation Value)
    (accountable : (evaluation.run.run session).Accountable session) :
    ∃ last, session.Accounts ((evaluation.run.run session).traced fuel []).1 last ∧
      ∀ next, (session.run fuel evaluation).session? = some next → next = last := by
  obtain ⟨last, accounts, ended⟩ := Plan.traced_accounts fuel _ [] session accountable (by simp)
  refine ⟨last, accounts, ?_⟩
  intro next finished
  unfold Session.run at finished
  rw [← Plan.traced_outcome] at finished
  cases outcome : ((evaluation.run.run session).traced fuel []).2 with
  | finished result final =>
    rw [outcome] at finished
    exact Option.some.inj finished ▸ ended result final outcome
  | outOfRange | outOfFuel =>
    rw [outcome] at finished
    cases finished

theorem bodies_accounts (fuel : Nat) (session : Session) (op : HostOp) :
    ∃ last, session.Accounts (op.bodies fuel session) last ∧
      ∀ next, op.after? fuel session = some next → next = last := by
  cases op with
  | eval id => exact run_accounts fuel session _ ((Request.part id).evaluate_matched.accountable session)
  | call func args => exact run_accounts fuel session _ ((Evaluation.call_matched func args).accountable session)
  | defineGlobal name value =>
    exact ⟨session.defineGlobal name value, .quiet _ _ rfl rfl, fun _ same => (Option.some.inj same).symm⟩

end HostOp

namespace Session

def after? (fuel : Nat) : Session → List HostOp → Option Session
  | session, [] => some session
  | session, op :: ops =>
    match op.after? fuel session with
    | some next => next.after? fuel ops
    | none => none

/-- The sessions in which a sequence of operations enters function bodies. It ends with an operation that does not
finish. -/
def bodies (fuel : Nat) : Session → List HostOp → List Session
  | _, [] => []
  | session, op :: ops =>
    op.bodies fuel session ++
      match op.after? fuel session with
      | some next => next.bodies fuel ops
      | none => []

theorem bodies_accounts (fuel : Nat) (session : Session) (ops : List HostOp) :
    ∃ last, session.Accounts (session.bodies fuel ops) last ∧
      ∀ final, session.after? fuel ops = some final → final = last := by
  induction ops generalizing session with
  | nil => exact ⟨session, .quiet session session rfl rfl, fun _ same => (Option.some.inj same).symm⟩
  | cons op ops followed =>
    obtain ⟨middle, first, same⟩ := op.bodies_accounts fuel session
    simp only [bodies, after?]
    cases finished : op.after? fuel session with
    | none => exact ⟨middle, by simpa using first, fun _ impossible => (nomatch impossible)⟩
    | some next =>
      obtain rfl := same next finished
      obtain ⟨last, rest, ended⟩ := followed next
      exact ⟨last, first.trans _ _ _ _ _ rest, ended⟩

/-- Calls that are rejected before they are counted, with their errors. -/
inductive Rejects (session : Session) : Value → List Value → EvalError → Prop
  | notCallable (func : Value) (args : List Value) (plain : ∀ closure, func ≠ .function closure) :
      Rejects session func args (.of (.notCallable func.typeName))
  | arity (closure : Closure Value) (args : List Value) (different : closure.arity ≠ args.length) :
      Rejects session (.function closure) args
        (.of (.arityMismatch (session.interner.lookup closure.name) closure.arity args.length))

theorem Rejects.call_run {session : Session} {func : Value} {args : List Value} {error : EvalError}
    (rejected : session.Rejects func args error) :
    (Evaluation.call func args).run.run session = .done (.error error, session) := by
  cases rejected with
  | notCallable _ _ plain =>
    cases func with
    | function closure => exact absurd rfl (plain closure)
    | _ => rfl
  | arity closure _ different =>
    change ((if closure.arity = args.length then _ else throw _ : Evaluation Value).run.run session) = _
    rw [if_neg different]
    rfl

/-- An evaluation that starts within the budget ends there too, or with the one call that the budget refuses. -/
structure Stops (before : Session) (error? : Option EvalError) (after : Session) : Prop where
  mode : after.mode = before.mode
  calls : ∀ budget, before.mode.budget? = some budget → before.calls ≤ budget →
    after.calls ≤ budget ∧ error?.map EvalError.cause ≠ some (.budgetExceeded budget) ∨
      after.calls = budget + 1 ∧ error?.map EvalError.cause = some (.budgetExceeded budget)

theorem Stops.quiet (before after : Session) (error? : Option EvalError) (mode : after.mode = before.mode)
    (calls : after.calls = before.calls)
    (ordinary : ∀ budget, error?.map EvalError.cause ≠ some (.budgetExceeded budget)) : before.Stops error? after :=
  ⟨mode, fun budget _ bound => .inl ⟨calls ▸ bound, ordinary budget⟩⟩

theorem Stops.trans (first second third : Session) (error? : Option EvalError) (one : first.Stops none second)
    (two : second.Stops error? third) : first.Stops error? third := by
  refine ⟨two.mode.trans one.mode, fun budget bounded bound => ?_⟩
  rcases one.calls budget bounded bound with ⟨within, _⟩ | ⟨_, impossible⟩
  · exact two.calls budget (by rw [one.mode, bounded]) within
  · cases impossible

theorem refused_stops (session : Session) (error : EvalError) (refused : session.charged.refusal? = some error) :
    session.Stops (some error) session.charged := by
  refine ⟨rfl, fun budget bounded bound => ?_⟩
  have counted := session.charged_calls budget bounded
  have bounded : session.charged.mode.budget? = some budget := bounded
  unfold refusal? Mode.exceeded? at refused
  rw [bounded, Option.filter_some] at refused
  -- The depth is looked at only if the budget allows the call.
  by_cases overdrawn : budget < session.charged.calls
  · simp only [overdrawn, decide_true, if_true] at refused
    cases refused
    exact .inr ⟨by omega, rfl⟩
  · simp only [overdrawn, decide_false, Bool.false_eq_true, if_false] at refused
    obtain ⟨limit, _, rfl⟩ := Option.map_eq_some_iff.mp refused
    exact .inl ⟨Nat.le_of_not_lt overdrawn, fun impossible => (nomatch impossible)⟩

theorem called_stops (session inner : Session) (closure : Closure Value) (args : List Value)
    (error? : Option EvalError) (accepted : session.charged.refusal? = none)
    (body : (session.charged.entering closure args).Stops error? inner) :
    session.Stops error? (inner.leaving session.charged) := by
  obtain ⟨paid, _⟩ := session.charged.refusal?_eq_none_iff.mp accepted
  exact ⟨body.mode, fun budget bounded _ => body.calls budget bounded (paid budget bounded)⟩

theorem ordinary_stops (session : Session) (error : EvalError) (ordinary : error.Ordinary) :
    session.Stops (some error) session := by
  refine .quiet session session (some error) rfl rfl fun budget exceeded => ?_
  have free := ordinary.free
  rw [Option.some.inj exceeded] at free
  cases free

theorem stops_laws : Effect.Laws Stops where
  done session := .quiet session session none rfl rfl fun _ impossible => (nomatch impossible)
  failed := ordinary_stops
  intern session _ := .quiet session _ none rfl rfl fun _ impossible => (nomatch impossible)
  closure session := .quiet session _ none rfl rfl fun _ impossible => (nomatch impossible)
  refused := refused_stops
  called session closure args error? inner accepted body :=
    session.called_stops inner closure args error? accepted body
  inScope _ _ _ _ body := ⟨body.mode, body.calls⟩
  located _ _ _ _ body := ⟨body.mode, body.calls⟩
  trans := Stops.trans

end Session

/-- Whatever a host does with a new session, the bodies that are entered stay within the budget of its mode, and no
deeper than 64 calls under a budget and 500 in a test, the depth limits of these modes. Calls are counted only against
a budget and only up, and a rejected call is not counted. A single evaluation counts one call beyond the budget exactly
if it fails for that. -/
theorem Session.calls_limited (interner : Interner) (program : Program) (env : Environment) (mode : Mode)
    (nextClosure fuel : Nat) :
    let start := Session.new interner program env mode nextClosure
    (∀ ops,
      (∀ budget, mode = .constEval budget →
        (start.bodies fuel ops).length ≤ budget ∧ ∀ body ∈ start.bodies fuel ops, body.depth ≤ 64) ∧
      (mode = .testRun → ∀ body ∈ start.bodies fuel ops, body.depth ≤ 500) ∧
      (∀ limit, mode.depthLimit? = some limit → ∀ body ∈ start.bodies fuel ops, body.depth ≤ limit) ∧
      ∀ reached, start.after? fuel ops = some reached →
        (mode = .interpret ∨ mode = .testRun → reached.calls = 0) ∧
        ∀ again more last, reached.after? again more = some last → reached.calls ≤ last.calls) ∧
    (∀ session func args error, Session.Rejects session func args error →
      (Evaluation.call func args).run.run session = .done (.error error, session) ∧
        session.call (fuel + 1) func args = .finished (.error error) session) ∧
    ∀ budget id result final, mode = .constEval budget → start.eval fuel id = .finished result final →
      final.calls ≤ budget + 1 ∧ (final.calls = budget + 1 ↔
        ∃ error, result = .error error ∧ error.cause = .budgetExceeded budget) := by
  intro start
  refine ⟨fun ops => ?_, ?_, ?_⟩
  · obtain ⟨last, accounts, ended⟩ := start.bodies_accounts fuel ops
    refine ⟨?_, ?_, accounts.depth, ?_⟩
    · rintro budget rfl
      refine ⟨?_, accounts.depth 64 rfl⟩
      by_cases called : start.bodies fuel ops = []
      · simp [called]
      · have within : 0 + _ ≤ budget := accounts.within budget rfl called
        omega
    · rintro rfl
      exact accounts.depth 500 rfl
    · intro reached finished
      obtain rfl := ended reached finished
      constructor
      · rintro (rfl | rfl)
        · exact accounts.uncounted rfl
        · exact accounts.uncounted rfl
      · intro again more last finished
        obtain ⟨final, later, same⟩ := reached.bodies_accounts again more
        exact same last finished ▸ later.calls_le
  · intro session func args error rejected
    have done := rejected.call_run
    refine ⟨done, ?_⟩
    unfold Session.call Session.run
    rw [done]
    rfl
  · rintro budget id result final rfl finished
    have stops := Session.stops_laws.eval start fuel id result final finished
    have exceeded : (failure? result).map EvalError.cause = some (.budgetExceeded budget) ↔
        ∃ error, result = .error error ∧ error.cause = .budgetExceeded budget := by
      simp only [Option.map_eq_some_iff, failure?_eq_some_iff]
    rw [← exceeded]
    rcases stops.calls budget rfl (Nat.zero_le _) with ⟨within, quiet⟩ | ⟨beyond, exceeds⟩
    · refine ⟨Nat.le_succ_of_le within, fun beyond => ?_, fun exceeds => absurd exceeds quiet⟩
      omega
    · exact ⟨Nat.le_of_eq beyond, fun _ => exceeds, fun _ => beyond⟩

/-- A function that calls itself without end, under a budget of one call and in a test. -/
theorem Session.calls_limited_endless :
    let program : Program := ⟨0, { Arena.empty with
      exprs := #[⟨.ident ⟨8⟩, .dummy⟩, ⟨.ident ⟨7⟩, .dummy⟩, ⟨.call ⟨0⟩ ⟨0, 1⟩, .dummy⟩,
        ⟨.lambda ⟨8⟩ ⟨0, 1⟩ ⟨2⟩, .dummy⟩, ⟨.int .one, .dummy⟩, ⟨.call ⟨3⟩ ⟨1, 1⟩, .dummy⟩]
      exprLists := #[⟨1⟩, ⟨4⟩]
      names := #[⟨7⟩] }⟩
    let start := Session.new .new program .new (.constEval 1) 0
    let test := Session.new .new program .new .testRun 0
    (∃ result final, start.eval 14 ⟨5⟩ = .finished result final ∧ final.calls = 1 + 1 ∧
        ∃ error, result = .error error ∧ error.cause = .budgetExceeded 1) ∧
      start.bodies 14 [.eval ⟨5⟩] ≠ [] ∧ (start.bodies 14 [.eval ⟨5⟩, .eval ⟨5⟩]).length ≤ 1 ∧
      (∀ body ∈ start.bodies 14 [.eval ⟨5⟩, .eval ⟨5⟩], body.depth ≤ 64) ∧
      test.bodies 14 [.eval ⟨5⟩] ≠ [] ∧ ∀ body ∈ test.bodies 14 [.eval ⟨5⟩], body.depth ≤ 500 := by
  intro program start test
  obtain ⟨hosted, _, single⟩ := Session.calls_limited .new program .new (.constEval 1) 0 14
  obtain ⟨tested, _⟩ := Session.calls_limited .new program .new .testRun 0 14
  obtain ⟨within, shallow⟩ := (hosted [.eval ⟨5⟩, .eval ⟨5⟩]).1 1 rfl
  refine ⟨⟨_, _, rfl, rfl, ?_⟩, List.cons_ne_nil _ _, within, shallow, List.cons_ne_nil _ _, ?_⟩
  · exact (single 1 ⟨5⟩ _ _ rfl rfl).2.mp rfl
  · exact (tested [.eval ⟨5⟩]).2.1 rfl

end TagLang
