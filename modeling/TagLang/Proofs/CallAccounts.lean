import TagLang.Proofs.EvaluationAnswers

/-! Accounts of the calls that a run makes. Every function body that a run evaluates has been counted before it is
entered, within the budget and the depth limit of the mode. -/

namespace TagLang

namespace Session

/-- What a session's counter and limits say about the sessions in which function bodies were entered on the way
from it to a later one. -/
structure Accounts (before : Session) (bodies : List Session) (after : Session) : Prop where
  mode : after.mode = before.mode
  uncounted : before.mode.budget? = none → after.calls = before.calls
  counted : ∀ budget, before.mode.budget? = some budget → before.calls + bodies.length ≤ after.calls
  within : ∀ budget, before.mode.budget? = some budget → bodies ≠ [] → before.calls + bodies.length ≤ budget
  depth : ∀ limit, before.mode.depthLimit? = some limit → ∀ body ∈ bodies, body.depth ≤ limit

theorem Accounts.quiet (before after : Session) (mode : after.mode = before.mode)
    (calls : after.calls = before.calls) : before.Accounts [] after where
  mode := mode
  uncounted _ := calls
  counted _ _ := Nat.le_of_eq calls.symm
  within _ _ called := absurd rfl called
  depth _ _ _ member := absurd member List.not_mem_nil

theorem Accounts.trans (first second third : Session) (early late : List Session) (one : first.Accounts early second)
    (two : second.Accounts late third) : first.Accounts (early ++ late) third := by
  have mode := one.mode
  constructor
  · exact two.mode.trans mode
  · intro unbudgeted
    rw [two.uncounted (by rw [mode, unbudgeted]), one.uncounted unbudgeted]
  · intro budget bounded
    have before := one.counted budget bounded
    have later := two.counted budget (by rw [mode, bounded])
    rw [List.length_append]
    omega
  · intro budget bounded called
    have before := one.counted budget bounded
    have later := two.within budget (by rw [mode, bounded])
    rw [List.length_append]
    cases late with
    | nil => exact one.within budget bounded (by simpa using called)
    | cons body late =>
      have enough := later (List.cons_ne_nil _ _)
      omega
  · intro limit bounded body member
    rcases List.mem_append.mp member with member | member
    · exact one.depth limit bounded body member
    · exact two.depth limit (by rw [mode, bounded]) body member

theorem Accounts.calls_le {before after : Session} {bodies : List Session} (accounts : before.Accounts bodies after) :
    before.calls ≤ after.calls := by
  cases bounded : before.mode.budget? with
  | none => exact Nat.le_of_eq (accounts.uncounted bounded).symm
  | some budget => exact Nat.le_of_add_right_le (accounts.counted budget bounded)

theorem charged_calls (session : Session) (budget : Nat) (bounded : session.mode.budget? = some budget) :
    session.charged.calls = session.calls + 1 := by
  simp only [charged, Mode.countCall, Mode.isBudgeted, bounded, Option.isSome_some, if_true]

theorem charged_accounts (session : Session) : session.Accounts [] session.charged where
  mode := rfl
  uncounted unbudgeted := by
    simp only [charged, Mode.countCall, Mode.isBudgeted, unbudgeted, Option.isSome_none, Bool.false_eq_true, if_false]
  counted budget bounded := by
    rw [session.charged_calls budget bounded]
    exact Nat.le_succ _
  within _ _ called := absurd rfl called
  depth _ _ _ member := absurd member List.not_mem_nil

theorem entering_accounts (session : Session) (closure : Closure Value) (args : List Value)
    (accepted : session.charged.refusal? = none) :
    session.Accounts [session.charged.entering closure args] (session.charged.entering closure args) := by
  obtain ⟨paid, shallow⟩ := session.charged.refusal?_eq_none_iff.mp accepted
  constructor
  · rfl
  · exact session.charged_accounts.uncounted
  · intro budget bounded
    exact Nat.le_of_eq (session.charged_calls budget bounded).symm
  · intro budget bounded _
    have counted := session.charged_calls budget bounded
    exact counted ▸ paid budget bounded
  · intro limit bounded body member
    obtain rfl := List.mem_singleton.mp member
    exact shallow limit bounded

end Session

def Request.entered : Request → Session → List Session
  | .part _, _ => []
  | .body _, session => [session]

namespace Plan

variable {α β : Type}

/-- Whether a plan that starts in a session accounts for the bodies it asks for, whatever the answers are. -/
def Accountable : Plan (α × Session) → Session → Prop
  | done (_, after), session => session.Accounts [] after
  | outOfRange, _ => True
  | ask request entered resume, session =>
    session.Accounts (request.entered entered) entered ∧ ∀ answer after, (resume answer after).Accountable after

theorem Accountable.earlier (plan : Plan (α × Session)) (before session : Session) (quiet : before.Accounts [] session)
    (accountable : plan.Accountable session) : plan.Accountable before := by
  cases plan with
  | done result => exact quiet.trans _ _ _ _ _ accountable
  | outOfRange => trivial
  | ask request entered resume => exact ⟨quiet.trans _ _ _ _ _ accountable.1, accountable.2⟩

/-- The second plan needs to account only for what the first can come to. -/
theorem Accountable.bind (plan : Plan (α × Session)) (next : α × Session → Plan (β × Session)) (session : Session)
    (first : plan.Accountable session)
    (rest : ∀ result after, plan.Reaches (fun _ _ _ _ => True) (result, after) →
      (next (result, after)).Accountable after) :
    (plan.bind next).Accountable session := by
  induction plan generalizing session with
  | done result => exact .earlier _ session result.2 first (rest result.1 result.2 rfl)
  | outOfRange => trivial
  | ask request entered resume resumed =>
    refine ⟨first.1, fun answer middle => resumed answer middle middle (first.2 answer middle) ?_⟩
    intro result after reached
    exact rest result after ⟨answer, middle, trivial, reached⟩

end Plan

namespace Evaluation.Matched

theorem accountable {α β : Type} {results : α → β → Prop} {asks : ExprId → Prop} {left : Evaluation α}
    {right : Evaluation β} (matched : Matched .identity asks results left right) (session : Session) :
    (left.run.run session).Accountable session := by
  induction matched generalizing session with
  | returns | fails => exact .quiet session session rfl rfl
  | outOfRange => trivial
  | reading rest accounted => exact accounted session session ⟨rfl, rfl, rfl⟩ session
  | part => exact ⟨.quiet session session rfl rfl, fun _ after => .quiet after after rfl rfl⟩
  | intern | closure => exact .quiet session _ rfl rfl
  | invoke =>
    rw [invoke_run]
    cases accepted : session.charged.refusal? with
    | some error => exact session.charged_accounts
    | none => exact ⟨session.entering_accounts _ _ accepted, fun _ inner => .quiet inner _ rfl rfl⟩
  | @inScope _ _ _ _ _ bindings _ bound body accounted =>
    rw [inScope_run]
    refine .earlier _ session (session.withScope bindings) (.quiet _ _ rfl rfl) ?_
    refine .bind _ _ _ (accounted _) ?_
    exact fun outcome after _ => .quiet after _ rfl rfl
  | locate places inner accounted =>
    refine .bind _ _ _ (accounted session) ?_
    exact fun outcome after _ => .quiet after _ rfl rfl
  | bind first rest firstAccounted restAccounted =>
    refine .bind _ _ _ (firstAccounted session) ?_
    intro outcome after reached
    cases outcome with
    | ok value =>
      obtain ⟨other, related⟩ := first.counterpart _ session value after reached
      exact restAccounted value other related after
    | error error => exact .quiet after after rfl rfl

end Evaluation.Matched

namespace Plan

/-- A run together with the sessions in which it enters function bodies. -/
def traced : Nat → Plan (Except EvalError Value × Session) → List Pending → List Session × Outcome
  | 0, _, _ => ([], .outOfFuel)
  | _ + 1, done (result, session), [] => ([], .finished result session)
  | fuel + 1, done (result, session), resume :: pending => traced fuel (resume result session) pending
  | _ + 1, outOfRange, _ => ([], .outOfRange)
  | fuel + 1, ask request session resume, pending =>
    let (bodies, outcome) := traced fuel (request.evaluate.run.run session) (resume :: pending)
    (request.entered session ++ bodies, outcome)

theorem traced_outcome (fuel : Nat) (plan : Plan (Except EvalError Value × Session)) (pending : List Pending) :
    (plan.traced fuel pending).2 = plan.run fuel pending := by
  fun_induction run fuel plan pending with
  | case1 => rfl
  | case2 => rfl
  | case3 fuel result session resume pending ran => exact ran
  | case4 => rfl
  | case5 fuel request session resume pending ran => exact ran

/-- A run accounts for the bodies it enters if its plan and the pending ones do. -/
theorem traced_accounts (fuel : Nat) (plan : Plan (Except EvalError Value × Session)) (pending : List Pending)
    (session : Session) (current : plan.Accountable session)
    (later : ∀ resume ∈ pending, ∀ answer after, (resume answer after).Accountable after) :
    ∃ last, session.Accounts (plan.traced fuel pending).1 last ∧
      ∀ result final, (plan.traced fuel pending).2 = .finished result final → final = last := by
  induction fuel generalizing plan pending session with
  | zero => exact ⟨session, .quiet session session rfl rfl, fun _ _ impossible => (nomatch impossible)⟩
  | succ fuel continued =>
    cases plan with
    | outOfRange => exact ⟨session, .quiet session session rfl rfl, fun _ _ impossible => (nomatch impossible)⟩
    | done result =>
      obtain ⟨answer, after⟩ := result
      cases pending with
      | nil =>
        refine ⟨after, current, ?_⟩
        rintro result final ⟨⟩
        rfl
      | cons resume pending =>
        simp only [List.forall_mem_cons] at later
        obtain ⟨last, accounts, ended⟩ := continued (resume answer after) pending after (later.1 answer after) later.2
        exact ⟨last, current.trans _ _ _ _ _ accounts, ended⟩
    | ask request entered resume =>
      have served := request.evaluate_matched.accountable entered
      have resumed := List.forall_mem_cons.mpr ⟨current.2, later⟩
      obtain ⟨last, accounts, ended⟩ := continued _ (resume :: pending) entered served resumed
      exact ⟨last, current.1.trans _ _ _ _ _ accounts, ended⟩

end Plan

end TagLang
