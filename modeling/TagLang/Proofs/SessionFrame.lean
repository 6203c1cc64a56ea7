import TagLang.Proofs.EvaluationEffects

/-! What an evaluation leaves as it was. However it ends, the scopes, the program, the mode and the call depth are
those of its start; calls are only counted up, and names keep their strings. -/

namespace TagLang

namespace Interner

def KeptBy (before after : Interner) : Prop :=
  ∀ name, name.index < before.size → name.index < after.size ∧ after.lookup name = before.lookup name

theorem KeptBy.refl (interner : Interner) : interner.KeptBy interner := fun _ known => ⟨known, rfl⟩

theorem KeptBy.trans (first second third : Interner) (one : first.KeptBy second) (two : second.KeptBy third) :
    first.KeptBy third := by
  intro name known
  obtain ⟨still, same⟩ := one name known
  obtain ⟨again, equal⟩ := two name still
  exact ⟨again, equal.trans same⟩

theorem intern_keeps (interner : Interner) (s : String) : interner.KeptBy (interner.intern s).2 := by
  unfold intern
  split
  next => exact .refl interner
  next fresh =>
    intro name known
    have known : name.index < interner.strings.length := known
    simp only [size, lookup, strings] at known ⊢
    rw [← List.append_assoc]
    refine ⟨?_, by rw [List.getElem?_append_left known]⟩
    rw [List.length_append]
    exact Nat.lt_add_right _ known

theorem tryIntern_keeps (interner : Interner) (s : String) : interner.KeptBy (interner.tryIntern s).2 := by
  unfold tryIntern
  split
  next => exact interner.intern_keeps s
  next => exact .refl interner

end Interner

namespace Environment

theorem pop_defineAll_push (env : Environment) (bindings : List (Name × Value)) :
    (env.push.defineAll bindings).pop = env := by
  suffices inner : ∀ scope : Scope,
      (({ env with locals := scope :: env.locals } : Environment).defineAll bindings).pop = env from inner .empty
  induction bindings with
  | nil => exact fun _ => rfl
  | cons binding bindings defined =>
    intro scope
    obtain ⟨name, value⟩ := binding
    exact defined (scope.set name value)

end Environment

namespace Session

/-- What is the same after an evaluation as before it, and what has only grown. -/
structure Restores (before after : Session) : Prop where
  env : after.env = before.env
  program : after.program = before.program
  mode : after.mode = before.mode
  depth : after.depth = before.depth
  calls : before.calls ≤ after.calls
  interner : before.interner.KeptBy after.interner

theorem Restores.refl (session : Session) : session.Restores session :=
  ⟨rfl, rfl, rfl, rfl, Nat.le_refl _, .refl _⟩

theorem Restores.trans (first second third : Session) (one : first.Restores second) (two : second.Restores third) :
    first.Restores third where
  env := two.env.trans one.env
  program := two.program.trans one.program
  mode := two.mode.trans one.mode
  depth := two.depth.trans one.depth
  calls := Nat.le_trans one.calls two.calls
  interner := .trans _ _ _ one.interner two.interner

theorem charged_restores (session : Session) : session.Restores session.charged := by
  refine ⟨rfl, rfl, rfl, rfl, ?_, .refl _⟩
  change session.calls ≤ session.mode.countCall session.calls
  unfold Mode.countCall
  split <;> omega

theorem leaving_restores (session inner : Session) (closure : Closure Value) (args : List Value)
    (body : (session.entering closure args).Restores inner) : session.Restores (inner.leaving session) where
  env := rfl
  program := rfl
  mode := body.mode
  depth := by
    change inner.depth - 1 = session.depth
    rw [body.depth]
    rfl
  calls := body.calls
  interner := body.interner

theorem withScope_restores (session inner : Session) (bindings : List (Name × Value))
    (body : (session.withScope bindings).Restores inner) :
    session.Restores { inner with env := inner.env.pop } where
  env := by
    change inner.env.pop = session.env
    rw [body.env]
    exact session.env.pop_defineAll_push bindings
  program := body.program
  mode := body.mode
  depth := body.depth
  calls := body.calls
  interner := body.interner

end Session

theorem Session.restores_laws : Effect.Laws fun before _ after => before.Restores after where
  done session := .refl session
  failed session _ _ := .refl session
  intern session s := ⟨rfl, rfl, rfl, rfl, Nat.le_refl _, session.interner.tryIntern_keeps s⟩
  closure _ := ⟨rfl, rfl, rfl, rfl, Nat.le_refl _, .refl _⟩
  refused session _ _ := session.charged_restores
  called session closure args _ inner _ body :=
    session.charged_restores.trans _ _ _ (session.charged.leaving_restores inner closure args body)
  inScope session bindings _ inner body := session.withScope_restores inner bindings body
  located _ _ _ _ restored := restored
  trans first second third _ one two := one.trans first second third two

/-- Whatever an evaluation or a call comes to, it leaves the session restored. -/
theorem Session.eval_call_restores (session : Session) (fuel : Nat) (result : Except EvalError Value)
    (after : Session) :
    (∀ id, session.eval fuel id = .finished result after → session.Restores after) ∧
      ∀ func args, session.call fuel func args = .finished result after → session.Restores after := by
  constructor
  · intro id finished
    exact Session.restores_laws.eval session fuel id result after finished
  · intro func args finished
    exact Session.restores_laws.call session fuel func args result after finished

/-- `(fun a => let b = a in c)(1)` fails at `c`, in a scope inside the called body. -/
theorem Session.eval_call_restores_unbound :
    let program : Program := ⟨0, { Arena.empty with
      exprs := #[⟨.ident ⟨9⟩, ⟨20, 21⟩⟩, ⟨.ident ⟨7⟩, .dummy⟩, ⟨.letIn ⟨8⟩ ⟨1⟩ ⟨0⟩, .dummy⟩,
        ⟨.lambda .empty ⟨0, 1⟩ ⟨2⟩, .dummy⟩, ⟨.int .one, .dummy⟩, ⟨.call ⟨3⟩ ⟨0, 1⟩, ⟨2, 30⟩⟩]
      exprLists := #[⟨4⟩]
      names := #[⟨7⟩] }⟩
    let session := Session.new .new program .new (.constEval 3) 0
    ∃ error after, session.eval 20 ⟨5⟩ = .finished (.error error) after ∧ session.Restores after ∧ after.calls = 1 :=
  ⟨_, _, rfl, (Session.eval_call_restores _ 20 _ _).1 ⟨5⟩ rfl, rfl⟩

end TagLang
