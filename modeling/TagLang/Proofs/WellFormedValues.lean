import TagLang.Proofs.HereditaryValues

/-! Well-formed values: records name each field once, and tags of a canonical shape are first-class. Evaluation and
library calls keep to such values, and a run of one program makes enum variants as that program declares them. -/

namespace TagLang

section Yields

variable {m : Type → Type} [Monad m] {α β : Type}

/-- Whether a computation, whatever else it does, returns only what meets a condition. -/
def Yields (condition : α → Prop) (computation : ExceptT EvalError m α) : Prop :=
  ∃ checked : ExceptT EvalError m { value // condition value }, Subtype.val <$> checked = computation

variable [LawfulMonad m] {condition : α → Prop} {others : β → Prop}

theorem yields_pure (value : α) (meets : condition value) : Yields condition (pure value : ExceptT EvalError m α) :=
  ⟨pure ⟨value, meets⟩, map_pure _ _⟩

theorem yields_settled (outcome : Except EvalError α) (meets : ∀ value, outcome = .ok value → condition value) :
    Yields condition (ExceptT.mk (pure outcome) : ExceptT EvalError m α) := by
  cases outcome with
  | ok value => exact yields_pure value (meets value rfl)
  | error error =>
    refine ⟨throw error, ?_⟩
    apply ExceptT.ext
    simp

theorem yields_throw (error : EvalError) : Yields condition (throw error : ExceptT EvalError m α) :=
  yields_settled (.error error) nofun

theorem yields_bind (first : ExceptT EvalError m α) (next : α → ExceptT EvalError m β) (yields : Yields condition first)
    (rest : ∀ value, condition value → Yields others (next value)) : Yields others (first >>= next) := by
  obtain ⟨checked, rfl⟩ := yields
  choose following same using fun value : { value // condition value } => rest value.1 value.2
  refine ⟨checked >>= following, ?_⟩
  rw [map_bind, bind_map_left]
  exact congrArg (checked >>= ·) (funext same)

theorem yields_any (computation : ExceptT EvalError m α) : Yields (fun _ => True) computation := by
  refine ⟨(⟨·, trivial⟩) <$> computation, ?_⟩
  rw [← comp_map]
  exact id_map computation

/-- Whether a caller that is given what meets a demand returns only what meets it. -/
def Host.Keeps (host : Host m) (demand : Demand) : Prop :=
  ∀ func args, demand.Holds func → (∀ arg ∈ args, demand.Holds arg) → Yields demand.Holds (host.call func args)

end Yields

namespace Demand

variable {demand : Demand}

theorem holds_list (items : List Value) (all : ∀ item ∈ items, demand.Holds item) : demand.Holds (.list items) :=
  .intro _ trivial all

theorem holds_ofOption (found : Option Value) (all : ∀ value ∈ found, demand.Holds value) :
    demand.Holds (.ofOption found) := by
  cases found with
  | none => exact holds_plain _ trivial rfl
  | some value => exact holds_single _ value trivial rfl (all value rfl)

theorem holds_orOverflow (operation : String) (result : Option Number) (value : Value)
    (settled : orOverflow operation result = .ok value) : demand.Holds value := by
  cases result with
  | none => cases settled
  | some number =>
    cases settled
    exact holds_plain _ trivial rfl

theorem holds_onNumbers (op : BinaryOp) (a b : Number) (value : Value) (settled : op.onNumbers a b = .ok value) :
    demand.Holds value := by
  cases op with
  | add | sub | mul => exact holds_orOverflow _ _ value settled
  | div | mod | pow =>
    simp only [BinaryOp.onNumbers] at settled
    split at settled
    · cases settled
    · exact holds_orOverflow _ _ value settled
  | eq | notEq | lt | ltEq | gt | gtEq =>
    cases settled
    exact holds_plain _ trivial rfl
  | concat | and | or => cases settled

theorem ok_of_bind {α β : Type} {first : Except EvalError α} {next : α → Except EvalError β} {value : β}
    (settled : first >>= next = .ok value) : ∃ content, first = .ok content ∧ next content = .ok value := by
  cases first with
  | error error => cases settled
  | ok content => exact ⟨content, rfl, settled⟩

theorem holds_onNumber (name : String) (a : Number) (args : List Value) (value : Value)
    (settled : Method.onNumber name a args = .ok value) : demand.Holds value := by
  unfold Method.onNumber at settled
  split at settled
  next op _ =>
    obtain ⟨b, _, operated⟩ := ok_of_bind settled
    exact holds_onNumbers op a b value operated
  next => cases settled

theorem holds_onText (name : String) (text : Text) (args : List Value) (value : Value)
    (settled : Method.onText name text args = .ok value) : demand.Holds value := by
  unfold Method.onText at settled
  split at settled
  next => exact holds_orOverflow _ _ value settled
  next =>
    obtain ⟨position, _, ⟨⟩⟩ := ok_of_bind settled
    refine holds_ofOption _ fun content found => ?_
    obtain ⟨point, _, rfl⟩ := Option.map_eq_some_iff.mp found
    exact holds_plain _ trivial rfl
  next =>
    obtain ⟨other, _, ⟨⟩⟩ := ok_of_bind settled
    exact holds_plain _ trivial rfl
  next => cases settled

theorem holds_resultContent (result content : Value) (holds : demand.Holds result)
    (found : result.resultContent = .ok (some content)) : demand.Holds content := by
  unfold Value.resultContent at found
  split at found
  · cases found
  · split at found
    · split at found
      · cases found
        exact holds.inside content List.mem_cons_self
      · cases found
    · cases found

namespace Laws

variable {gaps : Prop} {m : Type → Type} [Monad m] [LawfulMonad m]

theorem mapWithResult_go (apply : Value → ExceptT EvalError m Value)
    (applied : ∀ item, demand.Holds item → Yields demand.Holds (apply item)) (collected items : List Value)
    (sofar : ∀ value ∈ collected, demand.Holds value) (all : ∀ item ∈ items, demand.Holds item) :
    Yields demand.Holds (mapWithResult.go apply collected items) := by
  induction items generalizing collected with
  | nil =>
    have list := holds_list collected.reverse fun value member => sofar value (List.mem_reverse.mp member)
    exact yields_pure _ (holds_single _ _ trivial rfl list)
  | cons item items walked =>
    obtain ⟨first, rest⟩ := List.forall_mem_cons.mp all
    refine yields_bind _ _ (applied item first) fun result holds => ?_
    have contents : ∀ found, result.resultContent = .ok found → ∀ content ∈ found, demand.Holds content := by
      rintro found settled content ⟨⟩
      exact holds_resultContent result content holds settled
    refine yields_bind _ _ (yields_settled result.resultContent contents) fun found held => ?_
    cases found with
    | none => exact yields_pure result holds
    | some content => exact walked _ (List.forall_mem_cons.mpr ⟨held content rfl, sofar⟩) rest

section Methods

variable (laws : demand.Laws gaps) (host : Host m) (calls : host.Keeps demand) (name : String) (args : List Value)
  (all : ∀ arg ∈ args, demand.Holds arg)

include calls all in
theorem onSequence (items : List Value) (holds : demand.Holds (.list items)) :
    Yields demand.Holds (Method.onSequence host name items args) := by
  unfold Method.onSequence
  split
  next =>
    refine yields_settled _ fun value settled => ?_
    obtain ⟨position, _, ⟨⟩⟩ := ok_of_bind settled
    refine holds_ofOption _ fun element found => ?_
    unfold Method.elementAt? at found
    split at found
    · cases found
    · exact holds.inside element (List.mem_of_getElem? found)
  next => exact yields_pure _ (holds_list _ (List.forall_mem_append.mpr ⟨holds.inside, all⟩))
  next => exact yields_settled _ (holds_orOverflow _ _)
  next =>
    split
    next func rest =>
      refine mapWithResult_go _ ?_ [] items nofun holds.inside
      intro item held
      exact calls func [item] (all func List.mem_cons_self) (List.forall_mem_singleton.mpr held)
    next => exact yields_throw _
  next => exact yields_throw _

include laws all in
theorem onRecord (record : Record Value) (holds : demand.Holds (.record record)) :
    Yields demand.Holds (Method.onRecord host name record args) := by
  have updated (updates : List (Name × Value)) (meet : ∀ update ∈ updates, demand.Holds update.2) :
      demand.Holds (.record (record.withFields updates)) :=
    holds_record _ (laws.withFields record.fields updates holds.here) (holds.fields.setAll updates meet)
  unfold Method.onRecord
  split
  next =>
    split
    next field value =>
      unfold Method.setByText
      split
      next s _ =>
        refine yields_bind _ _ (yields_any _) fun outcome _ => ?_
        split
        next name =>
          exact yields_pure _ (updated [(name, value)] (List.forall_mem_singleton.mpr (all value (by simp))))
        next => exact yields_throw _
      next => exact yields_throw _
    next updates =>
      have given : demand.Holds (.record updates) := all _ List.mem_cons_self
      exact yields_pure _ (updated updates.fields.entries given.fields)
    next => exact yields_throw _
  next => exact yields_throw _

include laws calls all in
theorem dispatch (receiver : Value) (holds : demand.Holds receiver) :
    Yields demand.Holds (Method.dispatch host receiver name args) := by
  unfold Method.dispatch
  split
  next => exact yields_pure _ holds
  next =>
    refine yields_settled _ fun value settled => ?_
    obtain ⟨other, _, ⟨⟩⟩ := ok_of_bind settled
    exact holds_plain _ trivial rfl
  next =>
    refine yields_settled _ fun value settled => ?_
    obtain ⟨other, _, ⟨⟩⟩ := ok_of_bind settled
    exact holds_plain _ trivial rfl
  next =>
    split
    next a => exact yields_settled _ (holds_onNumber name a args)
    next text => exact yields_settled _ (holds_onText name text args)
    next items => exact onSequence host calls name args all items holds
    next record => exact onRecord laws host name args all record holds
    next => exact yields_throw _

end Methods

theorem callMethod (laws : demand.Laws gaps) (host : Host m)
    (calls : host.Keeps demand)
    (receiver : Value) (name : String) (args : List Value) (holds : demand.Holds receiver)
    (all : ∀ arg ∈ args, demand.Holds arg) : Yields demand.Holds (receiver.callMethod host name args) := by
  refine yields_bind _ _ (yields_any _) fun _ _ => ?_
  exact laws.dispatch host calls name args all receiver holds

end Laws

def wellFormed : Demand where
  record := List.Nodup
  tag
    | .named name, count => ¬ name.Canonical count
    | .dense _ _, _ => True

theorem wellFormed_laws : wellFormed.Laws True where
  ofFields fields := Bindings.nodup_setAll .empty fields List.nodup_nil
  withFields fields updates distinct := Bindings.nodup_setAll fields updates distinct
  named _ _ open_ := open_
  variant _ _ _ _ _ _ _ _ := trivial
  present _ _ _ _ := .inl trivial
  readable _ _ _ _ _ := .inl trivial
  children _ _ _ _ _ _ _ := trivial

/-- Functions of the programs of one arena, and enum variants as the arena declares them: registered, with a code of
the layout, and with as many values as declared. -/
def declaredIn (arena : Arena) : Demand where
  tag
    | .named _, _ => True
    | .dense enumId code, count => ∃ layout variant, arena.enums.get? enumId = some layout ∧
        layout.variant? code = some variant ∧ variant.arity = count
  program program := program.arena = arena

theorem declaredIn_laws (arena : Arena) : (declaredIn arena).Laws True where
  ofFields _ := trivial
  withFields _ _ _ := trivial
  named _ _ _ := trivial
  variant := by
    rintro program enumId layout code variant rfl registered coded
    exact ⟨layout, variant, registered, coded, rfl⟩
  present _ _ _ _ := .inl trivial
  readable _ _ _ _ _ := .inl trivial
  children _ _ _ _ _ _ _ := trivial

end Demand

/-- Evaluation gives well-formed values from well-formed ones, library calls do so if their caller does, and a run
whose functions are all of one arena gives enum variants as that arena declares them. -/
theorem Session.values_wellFormed :
    (∀ (session : Session) fuel id value after, session.env.All Demand.wellFormed.Holds →
      session.eval fuel id = .finished (.ok value) after → Demand.wellFormed.Holds value) ∧
    (∀ (m : Type → Type) [Monad m] [LawfulMonad m] (host : Host m) receiver name args,
      host.Keeps Demand.wellFormed → Demand.wellFormed.Holds receiver → (∀ arg ∈ args, Demand.wellFormed.Holds arg) →
      Yields Demand.wellFormed.Holds (receiver.callMethod host name args)) ∧
    ∀ (session : Session) fuel id value after, session.env.All (Demand.declaredIn session.program.arena).Holds →
      session.eval fuel id = .finished (.ok value) after → (Demand.declaredIn session.program.arena).Holds value := by
  refine ⟨?_, ?_, ?_⟩
  · intro session fuel id value after env finished
    exact (Demand.wellFormed_laws.eval session trivial env id trivial fuel).2 value after finished
  · intro m _ _ host receiver name args calls holds all
    exact Demand.wellFormed_laws.callMethod host calls receiver name args holds all
  · intro session fuel id value after env finished
    have laws := Demand.declaredIn_laws session.program.arena
    exact (laws.eval session rfl env id trivial fuel).2 value after finished

/-- `[some(1), Shape.side(1), point]` for a record `point`, and a walk over it by a caller that gives `ok(true)`. -/
theorem Session.values_wellFormed_mixed :
    let program : Program := ⟨0, { Arena.empty with
      exprs := #[⟨.int .one, .dummy⟩, ⟨.tag .someTag ⟨0, 1⟩, .dummy⟩, ⟨.variant ⟨0⟩ ⟨8⟩ ⟨0, 1⟩, .dummy⟩,
        ⟨.ident ⟨9⟩, .dummy⟩, ⟨.list ⟨1, 3⟩, .dummy⟩]
      exprLists := #[⟨0⟩, ⟨1⟩, ⟨2⟩, ⟨3⟩]
      enums := ⟨#[⟨⟨7⟩, [⟨⟨8⟩, 1⟩]⟩]⟩ }⟩
    let point : Value := .record (.ofFields none [(⟨7⟩, .number .one), (⟨8⟩, .number .one)])
    let session := Session.new .new program (Environment.new.define ⟨9⟩ point) .interpret 0
    let callback : Value := .function ⟨.empty, [⟨7⟩], ⟨0⟩, .empty, program, 0⟩
    let host : Host Id := ⟨fun _ => .ok .empty, fun _ _ => pure (.ok (.bool true))⟩
    ∃ value after, session.eval 30 ⟨4⟩ = .finished (.ok value) after ∧ Demand.wellFormed.Holds value ∧
      (Demand.declaredIn program.arena).Holds value ∧
      Yields Demand.wellFormed.Holds (value.callMethod host "mapWithResult" [callback]) ∧
      (value.callMethod host "mapWithResult" [callback]).run =
        .ok (.ok (.list [.bool true, .bool true, .bool true])) := by
  intro program point session callback host
  have number (demand : Demand) : demand.Holds (.number .one) := Demand.holds_plain _ trivial rfl
  have fields (demand : Demand) : Bindings.All demand.Holds (.ofList [(⟨7⟩, .number .one), (⟨8⟩, .number .one)]) :=
    (Bindings.all_empty _).setAll _ (by simp [number])
  have distinct : Demand.wellFormed.Holds point := Demand.holds_record _ (Demand.wellFormed_laws.ofFields _) (fields _)
  have declared : (Demand.declaredIn program.arena).Holds point := Demand.holds_record _ trivial (fields _)
  have truth : Demand.wellFormed.Holds (.bool true) := Demand.holds_plain _ trivial rfl
  have called : Demand.wellFormed.Holds callback := Demand.holds_function _ trivial trivial (Bindings.all_empty _)
  obtain ⟨evaluated, dispatched, registered⟩ := Session.values_wellFormed
  have wellFormed := evaluated session 30 ⟨4⟩ _ _ ((Environment.all_new _).define ⟨9⟩ _ distinct) rfl
  refine ⟨_, _, rfl, wellFormed, ?_, ?_, rfl⟩
  · exact registered session 30 ⟨4⟩ _ _ ((Environment.all_new _).define ⟨9⟩ _ declared) rfl
  · refine dispatched Id host _ _ _ ?_ wellFormed (List.forall_mem_singleton.mpr called)
    exact fun _ _ _ _ => yields_pure _ (Demand.holds_single _ _ trivial rfl truth)

end TagLang
