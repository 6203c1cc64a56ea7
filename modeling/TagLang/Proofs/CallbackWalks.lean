import TagLang.Proofs.VariantTags
import TagLang.Proofs.WellFormedValues

/-! Walks with a callback that keeps a state. The callback is called on the items in order, as far as the first outcome
that is no `ok` with one value, and that outcome decides; if there is none, the contents are collected. -/

namespace TagLang

/-- Whether an outcome is an `ok` that carries one value, and which. -/
def HasContent (outcome : Except EvalError Value) (content : Value) : Prop :=
  ∃ answer, outcome = .ok answer ∧ answer.discriminant? = some (.named .okTag) ∧ answer.payload = [content]

/-- What a walk comes to at an outcome that ends it. -/
inductive Ending : Except EvalError Value → Except EvalError Value → Prop
  | failed (error : EvalError) : Ending (.error error) (.error error)
  | error (answer : Value) (tagged : answer.discriminant? = some (.named .errorTag)) : Ending (.ok answer) (.ok answer)
  | miscounted (answer : Value) (tagged : answer.discriminant? = some (.named .okTag))
      (count : answer.payload.length ≠ 1) :
      Ending (.ok answer) (.error (.of (.arityMismatch "ok" 1 answer.payload.length)))
  | other (answer : Value) (notOk : answer.discriminant? ≠ some (.named .okTag))
      (notError : answer.discriminant? ≠ some (.named .errorTag)) :
      Ending (.ok answer) (.error (.of (.typeMismatch "Result" answer.typeName)))

namespace Value

theorem ok_or_tag (answer : Value) (tagged : answer.discriminant? = .some (.named .okTag)) :
    (∃ content, answer = ok content) ∨ ∃ payload, answer = tag (.named .okTag) payload := by
  cases answer with
  | ok content => exact .inl ⟨content, rfl⟩
  | tag discriminant payload =>
    rw [Option.some.inj tagged]
    exact .inr ⟨payload, rfl⟩
  | bool truth => cases truth <;> cases tagged
  | number | text | list | record | some | none | error | function => cases tagged

theorem resultContent_of_content (answer content : Value) (built : Demand.wellFormed.Met answer)
    (tagged : answer.discriminant? = .some (.named .okTag)) (payload : answer.payload = [content]) :
    answer.resultContent = .ok (.some content) := by
  rcases answer.ok_or_tag tagged with ⟨inner, rfl⟩ | ⟨values, rfl⟩
  · rw [List.singleton_inj.mp payload]
    rfl
  · -- A plain tag of this shape is what the ways of building values leave out.
    have single : values.length = 1 := congrArg List.length payload
    exact absurd (.inr ⟨single, by simp⟩) built

theorem resultContent_of_error (answer : Value) (tagged : answer.discriminant? = .some (.named .errorTag)) :
    answer.resultContent = .ok .none := by
  simp [resultContent, tagged]

theorem resultContent_of_miscount (answer : Value) (tagged : answer.discriminant? = .some (.named .okTag))
    (count : answer.payload.length ≠ 1) :
    answer.resultContent = .error (.of (.arityMismatch "ok" 1 answer.payload.length)) := by
  rcases answer.ok_or_tag tagged with ⟨inner, rfl⟩ | ⟨values, rfl⟩
  · exact absurd rfl count
  · rfl

theorem resultContent_of_other (answer : Value) (notOk : answer.discriminant? ≠ .some (.named .okTag))
    (notError : answer.discriminant? ≠ .some (.named .errorTag)) :
    answer.resultContent = .error (.of (.typeMismatch "Result" answer.typeName)) := by
  simp [resultContent, notOk, notError]

end Value

section Walks

variable {σ : Type}

/-- Calls on items one after another, with their outcomes and the state after them. -/
inductive Calls (callback : Value → ExceptT EvalError (StateM σ) Value) :
    σ → List Value → List (Except EvalError Value) → σ → Prop
  | nil (state : σ) : Calls callback state [] [] state
  | cons {state middle final : σ} {item : Value} {items : List Value} {outcome : Except EvalError Value}
      {outcomes : List (Except EvalError Value)} (called : (callback item).run.run state = (outcome, middle))
      (rest : Calls callback middle items outcomes final) :
      Calls callback state (item :: items) (outcome :: outcomes) final

/-- A walk over items: on which of them the callback is called, what the walk comes to, and the state after it. -/
inductive Walk (callback : Value → ExceptT EvalError (StateM σ) Value) (state : σ) :
    List Value → List Value → Except EvalError Value → σ → Prop
  | collected {items contents : List Value} {outcomes : List (Except EvalError Value)} {final : σ}
      (calls : Calls callback state items outcomes final) (each : List.Forall₂ HasContent outcomes contents) :
      Walk callback state items items (.ok (.ok (.list contents))) final
  | ended {before after contents : List Value} {item : Value} {outcomes : List (Except EvalError Value)}
      {last result : Except EvalError Value} {middle final : σ}
      (calls : Calls callback state before outcomes middle) (each : List.Forall₂ HasContent outcomes contents)
      (called : (callback item).run.run middle = (last, final)) (ends : Ending last result) :
      Walk callback state (before ++ item :: after) (before ++ [item]) result final

/-- The callback that also notes the items it is called on. -/
def logged (callback : Value → ExceptT EvalError (StateM σ) Value) (item : Value) :
    ExceptT EvalError (StateM (σ × List Value)) Value :=
  ExceptT.mk fun (state, log) =>
    let (outcome, after) := (callback item).run.run state
    (outcome, after, log ++ [item])

variable {callback : Value → ExceptT EvalError (StateM σ) Value}

theorem logged_run (item : Value) (log : List Value) (state middle : σ) (outcome : Except EvalError Value)
    (called : (callback item).run.run state = (outcome, middle)) :
    (logged callback item).run.run (state, log) = (outcome, middle, log ++ [item]) := by
  change ((callback item).run.run state |>.1, (callback item).run.run state |>.2, log ++ [item]) = _
  rw [called]

theorem Calls.logged {state final : σ} {items : List Value} {outcomes : List (Except EvalError Value)}
    (calls : Calls callback state items outcomes final) (log : List Value) :
    Calls (logged callback) (state, log) items outcomes (final, log ++ items) := by
  induction calls generalizing log with
  | nil state =>
    rw [List.append_nil]
    exact .nil _
  | @cons state middle final item items outcome outcomes called rest later =>
    have noted := later (log ++ [item])
    rw [List.append_assoc] at noted
    exact .cons (logged_run item log state middle outcome called) noted

theorem Walk.logged {state final : σ} {items visited : List Value} {result : Except EvalError Value}
    (walk : Walk callback state items visited result final) (log : List Value) :
    Walk (logged callback) (state, log) items visited result (final, log ++ visited) := by
  cases walk with
  | collected calls each => exact .collected (calls.logged log) each
  | @ended before _ _ item _ last _ middle _ calls each called ends =>
    have noted := logged_run item (log ++ before) middle final last called
    rw [List.append_assoc] at noted
    exact .ended (calls.logged log) each noted ends

theorem content_or_ending (outcome : Except EvalError Value) :
    (∃ content, HasContent outcome content) ∨ ∃ result, Ending outcome result := by
  cases outcome with
  | error error => exact .inr ⟨_, .failed error⟩
  | ok answer =>
    by_cases tagged : answer.discriminant? = some (.named .okTag)
    · by_cases single : answer.payload.length = 1
      · obtain ⟨content, payload⟩ := List.length_eq_one_iff.mp single
        exact .inl ⟨content, answer, rfl, tagged, payload⟩
      · exact .inr ⟨_, .miscounted answer tagged single⟩
    · by_cases failed : answer.discriminant? = some (.named .errorTag)
      · exact .inr ⟨_, .error answer failed⟩
      · exact .inr ⟨_, .other answer tagged failed⟩

theorem walk_exists (callback : Value → ExceptT EvalError (StateM σ) Value) (items : List Value) (state : σ) :
    ∃ visited result final, Walk callback state items visited result final := by
  induction items generalizing state with
  | nil => exact ⟨_, _, _, .collected (.nil state) .nil⟩
  | cons item items later =>
    rcases called : (callback item).run.run state with ⟨outcome, middle⟩
    rcases content_or_ending outcome with ⟨content, has⟩ | ⟨result, ends⟩
    · obtain ⟨visited, result, final, walk⟩ := later middle
      cases walk with
      | collected calls each => exact ⟨_, _, _, .collected (.cons called calls) (.cons has each)⟩
      | ended calls each last ends => exact ⟨_, _, _, .ended (.cons called calls) (.cons has each) last ends⟩
    · have walk : Walk callback state ([] ++ item :: items) ([] ++ [item]) result middle :=
        .ended (.nil state) .nil called ends
      exact ⟨_, _, _, walk⟩

theorem run_bind {α β : Type} (first : ExceptT EvalError (StateM σ) α) (next : α → ExceptT EvalError (StateM σ) β)
    (state : σ) :
    (first >>= next).run.run state =
      match first.run.run state with
      | (.ok value, middle) => (next value).run.run middle
      | (.error error, middle) => (.error error, middle) := by
  rw [ExceptT.run_bind, StateT.run_bind]
  rcases first.run.run state with ⟨error | value, middle⟩ <;> rfl

theorem go_cons (collected items : List Value) (item : Value) (state : σ) :
    (mapWithResult.go callback collected (item :: items)).run.run state =
      match (callback item).run.run state with
      | (.error error, middle) => (.error error, middle)
      | (.ok answer, middle) =>
        match answer.resultContent with
        | .error error => (.error error, middle)
        | .ok none => (.ok answer, middle)
        | .ok (some content) => (mapWithResult.go callback (content :: collected) items).run.run middle := by
  rw [mapWithResult.go, run_bind]
  rcases (callback item).run.run state with ⟨error | answer, middle⟩
  · rfl
  · dsimp only
    rw [run_bind]
    rcases answer.resultContent with error | none | content <;> rfl

section Answers

variable (built : ∀ item state answer after, (callback item).run.run state = (.ok answer, after) →
  Demand.wellFormed.Met answer)
include built

theorem go_content (collected items : List Value) (item content : Value) (state middle : σ)
    (outcome : Except EvalError Value) (called : (callback item).run.run state = (outcome, middle))
    (has : HasContent outcome content) :
    (mapWithResult.go callback collected (item :: items)).run.run state =
      (mapWithResult.go callback (content :: collected) items).run.run middle := by
  obtain ⟨answer, rfl, tagged, payload⟩ := has
  rw [go_cons, called]
  dsimp only
  rw [answer.resultContent_of_content content (built item state answer middle called) tagged payload]

theorem go_calls (collected items rest contents : List Value) (state middle : σ)
    (outcomes : List (Except EvalError Value)) (calls : Calls callback state items outcomes middle)
    (each : List.Forall₂ HasContent outcomes contents) :
    (mapWithResult.go callback collected (items ++ rest)).run.run state =
      (mapWithResult.go callback (contents.reverse ++ collected) rest).run.run middle := by
  induction calls generalizing collected contents with
  | nil =>
    cases each
    rfl
  | cons called calls later =>
    cases each with
    | cons has each =>
      rw [List.cons_append, go_content built _ _ _ _ _ _ _ called has, later _ _ each]
      simp

omit built in
theorem go_ends (collected items : List Value) (item : Value) (state final : σ)
    (outcome result : Except EvalError Value) (called : (callback item).run.run state = (outcome, final))
    (ends : Ending outcome result) :
    (mapWithResult.go callback collected (item :: items)).run.run state = (result, final) := by
  rw [go_cons, called]
  cases ends with
  | failed error => rfl
  | error answer tagged =>
    dsimp only
    rw [answer.resultContent_of_error tagged]
  | miscounted answer tagged count =>
    dsimp only
    rw [answer.resultContent_of_miscount tagged count]
  | other answer notOk notError =>
    dsimp only
    rw [answer.resultContent_of_other notOk notError]

theorem Walk.run {state final : σ} {items visited : List Value} {result : Except EvalError Value}
    (walk : Walk callback state items visited result final) :
    (mapWithResult callback items).run.run state = (result, final) := by
  cases walk with
  | @collected _ contents _ _ calls each =>
    have went := go_calls built [] items [] contents state final _ calls each
    rw [List.append_nil, List.append_nil] at went
    refine went.trans ?_
    rw [mapWithResult.go, List.reverse_reverse]
    rfl
  | ended calls each called ends =>
    refine (go_calls built [] _ _ _ state _ _ calls each).trans ?_
    exact go_ends _ _ _ _ _ _ _ called ends

theorem built_logged : ∀ item (state : σ × List Value) answer after,
    (logged callback item).run.run state = (.ok answer, after) → Demand.wellFormed.Met answer := by
  rintro item ⟨state, log⟩ answer after called
  rcases same : (callback item).run.run state with ⟨outcome, middle⟩
  rw [logged_run item log state middle outcome same] at called
  obtain ⟨rfl, _⟩ := Prod.mk.inj called
  exact built item state answer middle same

end Answers

/-- A walk calls its callback on the items in order, as far as the first outcome that is no `ok` with one value. If
there is none, it gives the contents. Otherwise the last outcome decides: an error and an `error` tag are the result,
an `ok` with another number of values is miscounted, and all else, variants of declared enums included, is no result. -/
theorem mapWithResult_short_circuits (callback : Value → ExceptT EvalError (StateM σ) Value)
    (built : ∀ item state answer after, (callback item).run.run state = (.ok answer, after) →
      Demand.wellFormed.Met answer) (items : List Value) (state : σ) :
    (∀ result final, (mapWithResult callback items).run.run state = (result, final) ↔
      ∃ visited, Walk callback state items visited result final) ∧
    (∀ visited result final, (mapWithResult (logged callback) items).run.run (state, []) = (result, final, visited) ↔
      Walk callback state items visited result final) ∧
    ∀ interner layout enumId variant payload answer,
      Value.ofVariant interner layout enumId variant payload = .ok answer →
      Ending (.ok answer) (.error (.of (.typeMismatch "Result" "Tag"))) := by
  -- One walk exists and fixes both runs, so every other walk is that one.
  obtain ⟨reached, outcome, last, taken⟩ := walk_exists callback items state
  refine ⟨fun result final => ⟨fun same => ?_, ?_⟩, fun visited result final => ⟨fun same => ?_, fun walk => ?_⟩, ?_⟩
  · rw [taken.run built] at same
    obtain ⟨rfl, rfl⟩ := Prod.mk.inj same
    exact ⟨reached, taken⟩
  · rintro ⟨visited, walk⟩
    exact walk.run built
  · rw [(taken.logged []).run (built_logged built), Prod.mk.injEq, Prod.mk.injEq] at same
    obtain ⟨rfl, rfl, rfl⟩ := same
    exact taken
  · exact (walk.logged []).run (built_logged built)
  · intro interner layout enumId variant payload answer made
    obtain ⟨code, _, rfl⟩ := Value.ofVariant_ok interner layout enumId variant payload answer made
    exact .other (.tag (.dense enumId code) payload) nofun nofun

end Walks

/-- A callback that counts its calls and answers the second with an `error` tag of two values: the third item is not
visited. -/
theorem mapWithResult_short_circuits_second :
    let callback : Value → ExceptT EvalError (StateM Nat) Value := fun item => ExceptT.mk fun count =>
      (.ok (if count = 0 then .ok item else .ofTag .errorTag [item, .none]), count + 1)
    let items : List Value := [.bool true, .bool false, .none]
    let stop : Value := .tag (.named .errorTag) [.bool false, .none]
    (∀ item state answer after, (callback item).run.run state = (.ok answer, after) →
      Demand.wellFormed.Met answer) ∧
    Walk callback 0 items [.bool true, .bool false] (.ok stop) 2 ∧
    (mapWithResult (logged callback) items).run.run (0, []) = (.ok stop, 2, [.bool true, .bool false]) := by
  intro callback items stop
  have built : ∀ item state answer after, (callback item).run.run state = (.ok answer, after) →
      Demand.wellFormed.Met answer := by
    intro item count answer after called
    obtain ⟨answered, _⟩ := Prod.mk.inj called
    rw [← Except.ok.inj answered]
    split
    next => trivial
    next => simp [Value.ofTag, Demand.Met, Demand.wellFormed, Name.Canonical]
  have visited := (mapWithResult_short_circuits callback built items 0).2.1 [.bool true, .bool false] (.ok stop) 2
  exact ⟨built, visited.mp rfl, rfl⟩

end TagLang
