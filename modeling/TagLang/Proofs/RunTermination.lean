import TagLang.Proofs.HereditaryValues

/-! Runs that end. Under a limit on the depth of calls every run ends in which expressions are ranked above their
parts: an expression asks for parts of a lower rank or for the body of a function one call deeper. -/

namespace TagLang

namespace Plan

theorem run_more (fuel more : Nat) (plan : Plan (Except EvalError Value × Session)) (pending : List Pending)
    (ended : plan.run fuel pending ≠ .outOfFuel) : plan.run (fuel + more) pending = plan.run fuel pending := by
  fun_induction run fuel plan pending with
  | case1 => exact absurd rfl ended
  | case2 fuel result session =>
    rw [Nat.succ_add]
    rfl
  | case3 fuel result session resume pending ran =>
    rw [Nat.succ_add]
    exact ran ended
  | case4 fuel pending =>
    rw [Nat.succ_add]
    rfl
  | case5 fuel request session resume pending ran =>
    rw [Nat.succ_add]
    exact ran ended

theorem run_outOfRange_above (fuel : Nat) (plan : Plan (Except EvalError Value × Session)) (own pending : List Pending)
    (ran : plan.run fuel own = .outOfRange) : plan.run fuel (own ++ pending) = .outOfRange := by
  fun_induction run fuel plan own with
  | case1 => cases ran
  | case2 fuel result session => cases ran
  | case3 fuel result session resume own followed => exact followed ran
  | case4 fuel own => rfl
  | case5 fuel request session resume own followed => exact followed ran

/-- Whether some amount of fuel is enough for a plan. -/
def Ends (plan : Plan (Except EvalError Value × Session)) : Prop := ∃ fuel, plan.run fuel [] ≠ .outOfFuel

theorem Ends.ask (request : Request) (session : Session) (resume : Pending)
    (evaluated : (request.evaluate.run.run session).Ends)
    (resumed : ∀ answer after, Answers request session answer after → (resume answer after).Ends) :
    (ask request session resume).Ends := by
  obtain ⟨fuel, ended⟩ := evaluated
  cases ran : (request.evaluate.run.run session).run fuel [] with
  | outOfFuel => exact absurd ran ended
  | outOfRange =>
    have above := run_outOfRange_above fuel _ [] [resume] ran
    refine ⟨fuel + 1, ?_⟩
    change run fuel (request.evaluate.run.run session) ([] ++ [resume]) ≠ .outOfFuel
    rw [above]
    exact nofun
  | finished answer after =>
    obtain ⟨later, finished⟩ := resumed answer after ⟨fuel, ran⟩
    obtain ⟨steps, taken⟩ := run_above fuel _ [] answer after ran
    refine ⟨later + 1 + steps + 1, ?_⟩
    change run (later + 1 + steps) (request.evaluate.run.run session) ([] ++ [resume]) ≠ .outOfFuel
    rw [taken]
    exact finished

/-- A plan that is paired ends if the evaluations of all that it may ask for end. -/
theorem Paired.ends {p : Pairing} (laws : p.Laws) {asked : Request → Session → Prop}
    {results : Except EvalError Value × Session → Except EvalError Value × Session → Prop}
    (evaluated : ∀ request left right, p.Asks asked request left right → (request.evaluate.run.run left).Ends)
    (plan other : Plan (Except EvalError Value × Session)) (paired : plan.Paired p asked results other) :
    plan.Ends := by
  induction plan generalizing other with
  | done result => exact ⟨1, nofun⟩
  | outOfRange => exact ⟨1, nofun⟩
  | ask request session resume resumed =>
    cases other with
    | done | outOfRange => cases paired
    | ask another entered again =>
      obtain ⟨rfl, asks, continued⟩ := paired
      refine .ask another session resume (evaluated another session entered asks) ?_
      -- The answer has a counterpart on the other side, so the rest of the plan is paired with the rest there.
      rintro answer after ⟨fuel, ran⟩
      have beside := laws.run another session entered asks.abreast asks.inside fuel
      change Outcome.Paired _ _ (Plan.run fuel _ []) _ at beside
      rw [ran] at beside
      generalize entered.run fuel another.evaluate = outcome at beside
      cases beside with
      | @finished _ reply _ final ended => exact resumed answer after _ (continued answer after reply final ended)

end Plan

namespace Arena

/-- Whether expressions can be ranked above their parts; the body of a function is no part. -/
def Ranked (arena : Arena) : Prop :=
  ∃ rank : ExprId → Nat, ∀ id expr, arena.expr? id = some expr → ∀ part ∈ expr.kind.parts arena, rank part < rank id

theorem ranked_of_ordered (arena : Arena)
    (ordered : ∀ position (bound : position < arena.exprs.size), ∀ part ∈ arena.exprs[position].kind.parts arena,
      part.index < position) : arena.Ranked := by
  refine ⟨ExprId.index, ?_⟩
  intro id expr found part member
  obtain ⟨bound, rfl⟩ := Array.getElem?_eq_some_iff.mp found
  exact ordered id.index bound part member

end Arena

namespace Demand

def rankedCode : Demand where
  program program := program.arena.Ranked

theorem rankedCode_laws : rankedCode.Laws True := ofPrograms_laws _

end Demand

theorem Mode.depthLimit?_of_bounded (mode : Mode) (bounded : mode ≠ .interpret) :
    ∃ limit, mode.depthLimit? = some limit := by
  cases mode with
  | interpret => exact absurd rfl bounded
  | constEval budget => exact ⟨64, rfl⟩
  | testRun => exact ⟨500, rfl⟩

namespace Request

/-- What an evaluation that starts on some level, at some rank, may ask for: a part of a lower rank on the same
level, or a body one call deeper. -/
def Below (rank : ExprId → Nat) (limit : Nat) (start : Session) (bound : Nat) (request : Request) (session : Session) :
    Prop :=
  session.OnLevelOf start ∧ rank request.id < bound ∨
    session.mode = start.mode ∧ start.depth < limit ∧ session.depth = start.depth + 1

theorem ends_of_below (rank : ExprId → Nat) (limit : Nat) (session : Session)
    (limited : session.mode.depthLimit? = some limit)
    (lower : ∀ id expr, session.program.arena.expr? id = some expr →
      ∀ part ∈ expr.kind.parts session.program.arena, rank part < rank id)
    (env : session.env.All Demand.rankedCode.Holds) (request : Request)
    (below : ∀ another inner, Below rank limit session (rank request.id) another inner → inner.program.arena.Ranked →
      inner.env.All Demand.rankedCode.Holds → (another.evaluate.run.run inner).Ends) :
    (request.evaluate.run.run session).Ends := by
  have abreast : session.Abreast (Demand.rankedCode.pairing True) session :=
    ⟨rfl, ⟨rfl, rank, lower⟩, ⟨rfl, env⟩, rfl, rfl, rfl, rfl⟩
  have parts : ∀ expr, session.program.arena.expr? request.id = some expr →
      ∀ id ∈ expr.kind.parts session.program.arena, ∀ inner, inner.OnLevelOf session →
        Below rank limit session (rank request.id) (.part id) inner :=
    fun expr found id member inner level => .inl ⟨level, lower request.id expr found id member⟩
  have bodies : ∀ (inner : Session) (closure : Closure Value) args, inner.OnLevelOf session →
      inner.charged.refusal? = none →
        Below rank limit session (rank request.id) (.body closure.body) (inner.charged.entering closure args) := by
    intro inner closure args level accepted
    obtain ⟨_, shallow⟩ := inner.charged.refusal?_eq_none_iff.mp accepted
    have mode : inner.charged.mode = session.mode := level.mode
    have room : inner.depth < limit := shallow limit (by rw [mode, limited])
    rw [level.depth] at room
    exact .inr ⟨mode, room, congrArg (· + 1) level.depth⟩
  have paired := request.evaluate_paired Demand.rankedCode_laws.pairing session session abreast trivial parts bodies
  refine paired.ends Demand.rankedCode_laws.pairing ?_ _ _
  intro another left right asks
  exact below another left asks.asked asks.abreast.program.2 asks.abreast.env.2

theorem evaluate_ends (limit : Nat) (request : Request) (session : Session)
    (limited : session.mode.depthLimit? = some limit) (program : session.program.arena.Ranked)
    (env : session.env.All Demand.rankedCode.Holds) : (request.evaluate.run.run session).Ends := by
  -- The outer induction is on how many calls deeper a run can go, the inner one on the rank of the request.
  induction room : limit - session.depth using Nat.strongRecOn generalizing request session with
  | ind room deeper =>
    obtain ⟨rank, lower⟩ := program
    induction bound : rank request.id using Nat.strongRecOn generalizing request session with
    | ind bound lesser =>
      refine ends_of_below rank limit session limited lower env request ?_
      intro another inner asked program env
      rcases asked with ⟨level, smaller⟩ | ⟨mode, shallow, depth⟩
      · refine lesser (rank another.id) (bound ▸ smaller) another inner ?_ env ?_ ?_ rfl
        · rw [level.mode, limited]
        · rw [level.depth, room]
        · rw [level.program]
          exact lower
      · exact deeper (limit - inner.depth) (by omega) another inner (by rw [mode, limited]) program env rfl

end Request

/-- Under a bound on calls every evaluation of ranked programs ends, and more fuel than enough changes nothing. -/
theorem Session.eval_settles (session : Session) (bounded : session.mode ≠ .interpret)
    (program : session.program.arena.Ranked) (env : session.env.All Demand.rankedCode.Holds) (id : ExprId) :
    ∃ enough outcome, outcome ≠ .outOfFuel ∧ ∀ fuel, enough ≤ fuel → session.eval fuel id = outcome := by
  obtain ⟨limit, limited⟩ := session.mode.depthLimit?_of_bounded bounded
  obtain ⟨enough, ended⟩ := (Request.part id).evaluate_ends limit session limited program env
  refine ⟨enough, session.eval enough id, ended, ?_⟩
  intro fuel sufficient
  obtain ⟨more, rfl⟩ := Nat.exists_eq_add_of_le sufficient
  exact Plan.run_more enough more _ [] ended

/-- `f(1)` for the function `f(x) = [x]:mapWithResult(f)`, which calls itself without end. -/
theorem Session.eval_settles_endless :
    let interner : Interner := ⟨["x", "f", "mapWithResult"], by decide⟩
    let program : Program := ⟨0, { Arena.empty with
      exprs := #[⟨.ident ⟨7⟩, .dummy⟩, ⟨.list ⟨0, 1⟩, .dummy⟩, ⟨.ident ⟨8⟩, .dummy⟩, ⟨.method ⟨1⟩ ⟨9⟩ ⟨1, 1⟩, .dummy⟩,
        ⟨.lambda ⟨8⟩ ⟨0, 1⟩ ⟨3⟩, .dummy⟩, ⟨.int .one, .dummy⟩, ⟨.call ⟨4⟩ ⟨2, 1⟩, .dummy⟩]
      exprLists := #[⟨0⟩, ⟨2⟩, ⟨5⟩]
      names := #[⟨7⟩] }⟩
    let session := Session.new interner program .new .testRun 0
    program.arena.Ranked ∧ session.env.All Demand.rankedCode.Holds ∧ session.eval 20 ⟨6⟩ = .outOfFuel ∧
      ∃ enough outcome, outcome ≠ .outOfFuel ∧ ∀ fuel, enough ≤ fuel → session.eval fuel ⟨6⟩ = outcome := by
  intro interner program session
  have ranked : program.arena.Ranked := program.arena.ranked_of_ordered (by decide)
  have env : session.env.All Demand.rankedCode.Holds := Environment.all_new _
  exact ⟨ranked, env, rfl, Session.eval_settles session nofun ranked env ⟨6⟩⟩

end TagLang
