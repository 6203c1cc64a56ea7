import TagLang.Proofs.MatchedOutcomes
import TagLang.Session.Evaluate

/-! Evaluations that proceed alike on the two sides of a correspondence. They are made of few actions, and the
evaluation of every kind of expression and every library call is made of these. What holds of the actions and
passes through their sequence therefore holds of the whole language. -/

namespace TagLang

namespace ExprKind

/-- The expressions whose values the evaluation of an expression may ask for. -/
def parts (arena : Arena) : ExprKind → List ExprId
  | int _ | text _ | ident _ | lambda _ _ _ => []
  | tag _ payload => (arena.exprList? payload).getD []
  | variant _ _ payload => (arena.exprList? payload).getD []
  | binary _ left right => [left, right]
  | unary _ operand => [operand]
  | ifThen cond thenBranch elseBranch => cond :: thenBranch :: elseBranch.toList
  | when scrutinee arms => scrutinee :: ((arena.arms? arms).getD []).map Arm.body
  | list items => (arena.exprList? items).getD []
  | record _ fields => ((arena.fields? fields).getD []).map FieldInit.value
  | update base fields => base :: ((arena.fields? fields).getD []).map FieldInit.value
  | field receiver _ => [receiver]
  | method receiver _ args => receiver :: (arena.exprList? args).getD []
  | call func args => func :: (arena.exprList? args).getD []
  | letIn _ init body => [init, body]

/-- The body of the function that an expression makes. -/
def body? : ExprKind → Option ExprId
  | lambda _ _ body => some body
  | _ => none

end ExprKind

namespace Evaluation

def intern (s : String) : Evaluation (Except InternError Name) := ExceptT.lift (host.intern s)

/-- A call that has been found to have the right number of arguments. -/
def invoke (closure : Closure Value) (args : List Value) : Evaluation Value := do
  chargeCall
  enter closure args

/-- Evaluations that proceed alike, with results that belong together. They ask for parts among `asks` only. -/
inductive Matched (c : Correspondence) (asks : ExprId → Prop) :
    {α β : Type} → (α → β → Prop) → Evaluation α → Evaluation β → Prop
  | returns {α β : Type} {results : α → β → Prop} {left : α} {right : β} (related : results left right) :
      Matched c asks results (pure left) (pure right)
  | fails {α β : Type} {results : α → β → Prop} (error : EvalError) (ordinary : error.Ordinary) :
      Matched c asks results (throw error) (throw error)
  | outOfRange {α β : Type} {results : α → β → Prop} (gaps : c.gaps) :
      Matched c asks results outOfRange outOfRange
  | reading {α β : Type} {results : α → β → Prop} {left : Session → Evaluation α} {right : Session → Evaluation β}
      (rest : ∀ session other, c.sessions session other → Matched c asks results (left session) (right other)) :
      Matched c asks results (get >>= left) (get >>= right)
  | part (id : ExprId) (allowed : asks id) : Matched c asks c.values (part id) (part id)
  | intern (s : String) : Matched c asks Eq (intern s) (intern s)
  | closure (name : Name) (params : List Name) (body : ExprId) (allowed : c.bodies body) :
      Matched c asks c.values (closure name params body) (closure name params body)
  | invoke {left right : Closure Value} {args others : List Value} (closures : c.closures left right)
      (arity : left.arity = args.length) (values : List.Forall₂ c.values args others) :
      Matched c asks c.values (invoke left args) (invoke right others)
  | inScope {α β : Type} {results : α → β → Prop} {left : Evaluation α} {right : Evaluation β}
      {bindings others : List (Name × Value)} (bound : List.Forall₂ (FieldMatch c.values) bindings others)
      (body : Matched c asks results left right) : Matched c asks results (inScope bindings left) (inScope others right)
  | locate {α β : Type} {results : α → β → Prop} {left : Evaluation α} {right : Evaluation β} {span other : Span}
      (places : c.spans span other) (inner : Matched c asks results left right) :
      Matched c asks results (locate span left) (locate other right)
  | bind {α β γ δ : Type} {results : α → β → Prop} {finals : γ → δ → Prop} {left : Evaluation α}
      {right : Evaluation β} {next : α → Evaluation γ} {after : β → Evaluation δ}
      (first : Matched c asks results left right)
      (rest : ∀ value other, results value other → Matched c asks finals (next value) (after other)) :
      Matched c asks finals (left >>= next) (right >>= after)

end Evaluation

namespace Evaluation.Matched

variable {c : Correspondence} {asks : ExprId → Prop}

theorem settled {α β : Type} {results : α → β → Prop} {left : Except EvalError α} {right : Except EvalError β}
    (outcomes : OutcomeMatch results left right) :
    Matched c asks results (Evaluation.settled left) (Evaluation.settled right) := by
  cases outcomes with
  | ok related => exact .returns related
  | error error ordinary => exact .fails error ordinary

theorem entry {α β : Type} {results : α → β → Prop} {left : Option α} {right : Option β}
    (related : Option.Rel results left right) (readable : c.gaps ∨ left.isSome) :
    Matched c asks results (Evaluation.entry left) (Evaluation.entry right) := by
  cases related with
  | some related => exact .returns related
  | none => exact .outOfRange (readable.resolve_right (by simp))

theorem parts_go (values others : List Value) (ids : List ExprId) (allowed : ∀ id ∈ ids, asks id)
    (related : List.Forall₂ c.values values others) :
    Matched c asks (List.Forall₂ c.values) (Evaluation.parts.go values ids) (Evaluation.parts.go others ids) := by
  induction ids generalizing values others with
  | nil => exact .returns (List.rel_reverse related)
  | cons id ids evaluated =>
    refine .bind (.part id (allowed id List.mem_cons_self)) ?_
    intro value other same
    exact evaluated _ _ (fun id later => allowed id (List.mem_cons_of_mem _ later)) (.cons same related)

theorem parts (ids : List ExprId) (allowed : ∀ id ∈ ids, asks id) :
    Matched c asks (List.Forall₂ c.values) (Evaluation.parts ids) (Evaluation.parts ids) :=
  parts_go [] [] ids allowed .nil

theorem fieldParts (fields : List FieldInit) (allowed : ∀ field ∈ fields, asks field.value) :
    Matched c asks (List.Forall₂ (FieldMatch c.values)) (Evaluation.fieldParts fields)
      (Evaluation.fieldParts fields) := by
  refine .bind (parts (fields.map FieldInit.value) (by simpa using allowed)) ?_
  intro values others related
  exact .returns (zip_fieldMatch c.values _ values others related)

theorem boolPart (laws : c.Laws) (id : ExprId) (allowed : asks id) :
    Matched c asks Eq (Evaluation.boolPart id) (Evaluation.boolPart id) := by
  refine .bind (.part id allowed) ?_
  intro value other same
  cases laws.alike value other same with
  | bool value => exact .returns rfl
  | _ => exact .fails _ (.plain _ rfl)

theorem call (laws : c.Laws) (func other : Value) (args others : List Value) (same : c.values func other)
    (values : List.Forall₂ c.values args others) :
    Matched c asks c.values (Evaluation.call func args) (Evaluation.call other others) := by
  cases laws.alike func other same with
  | @function left right closures =>
    obtain ⟨name, arity⟩ := laws.closure left right closures
    refine .reading fun session another together => ?_
    rw [name, arity, values.length_eq, laws.interner session another together]
    split
    next fits => exact .invoke closures (by rw [arity, values.length_eq, fits]) values
    next => exact .fails _ (.plain _ rfl)
  | _ => exact .fails _ (.plain _ rfl)

theorem mapWithResult_go (laws : c.Laws) (left right : Value → Evaluation Value)
    (applied : ∀ item other, c.values item other → Matched c asks c.values (left item) (right other))
    (collected gathered : List Value) (sofar : List.Forall₂ c.values collected gathered) (items others : List Value)
    (related : List.Forall₂ c.values items others) :
    Matched c asks c.values (TagLang.mapWithResult.go left collected items)
      (TagLang.mapWithResult.go right gathered others) := by
  induction related generalizing collected gathered with
  | nil => exact .returns (laws.ok _ _ (laws.list _ _ (List.rel_reverse sofar)))
  | @cons item other items others same _ walked =>
    refine .bind (applied item other same) ?_
    intro result another results
    refine .bind (settled (resultContent_matched c laws result another results)) ?_
    intro content remaining contents
    cases contents with
    | some content => exact walked _ _ (.cons content sofar)
    | none => exact .returns results

section Library

variable (laws : c.Laws) (name : String) (args others : List Value) (related : List.Forall₂ c.values args others)
include laws related

theorem onSequence (items elements : List Value) (same : List.Forall₂ c.values items elements) :
    Matched c asks c.values (Method.onSequence host name items args) (Method.onSequence host name elements others) := by
  unfold Method.onSequence
  split
  next =>
    refine settled ((numberArgument_matched args others related laws 0).bind ?_)
    rintro position _ rfl
    refine .ok (ofOption_related c laws ?_)
    unfold Method.elementAt?
    split
    next => exact .none
    next => exact getElem?_related c.values same _
  next => exact .returns (laws.list _ _ (List.rel_append same related))
  next =>
    rw [same.length_eq]
    exact settled (OutcomeMatch.orOverflow laws _ _)
  next =>
    cases related with
    | nil => exact .fails _ (.plain _ rfl)
    | @cons func other _ _ functions _ =>
      refine mapWithResult_go laws _ _ ?_ [] [] .nil _ _ same
      exact fun item another together => call laws func other [item] [another] functions (.cons together .nil)
  next => exact .fails _ (.plain _ rfl)

omit related in
theorem setByText (left right : Record Value) (same : c.values (.record left) (.record right)) (field : Text)
    (value other : Value) (values : c.values value other) :
    Matched c asks c.values (Method.setByText host left field value) (Method.setByText host right field other) := by
  unfold Method.setByText
  cases field.toString? with
  | none => exact .fails _ (.plain (.custom _) rfl)
  | some s =>
    refine .bind (.intern s) ?_
    rintro outcome _ rfl
    cases outcome with
    | ok name => exact .returns (laws.withFields _ _ _ _ same (.cons ⟨rfl, values⟩ .nil))
    | error error => exact .fails _ (.plain (.custom _) rfl)

theorem onRecord (left right : Record Value) (same : c.values (.record left) (.record right)) :
    Matched c asks c.values (Method.onRecord host name left args) (Method.onRecord host name right others) := by
  have refused : Matched c asks c.values (throw (.of (.undefinedMethod name "Record")) : Evaluation Value)
      (throw (.of (.undefinedMethod name "Record")) : Evaluation Value) := .fails _ (.plain _ rfl)
  unfold Method.onRecord
  split
  next =>
    cases related with
    | nil => exact refused
    | @cons arg other _ _ first rest =>
      cases laws.alike arg other first with
      | text field =>
        cases rest with
        | nil => exact refused
        | cons value rest =>
          cases rest with
          | nil => exact setByText laws left right same field _ _ value
          | cons _ _ => exact refused
      | record _ updates =>
        cases rest with
        | nil => exact .returns (laws.withFields _ _ _ _ same updates)
        | cons _ _ => exact refused
      | _ => exact refused
  next => exact refused

/-- Methods go by name, and what they fetch belongs together. -/
theorem dispatch (left right : Value) (receivers : c.values left right) :
    Matched c asks c.values (Method.dispatch host left name args) (Method.dispatch host right name others) := by
  have compared : OutcomeMatch c.values (Value.argument args 0) (Value.argument others 0) :=
    argument_matched args others related 0
  unfold Method.dispatch
  split
  next => exact .returns receivers
  next =>
    refine settled (compared.bind ?_)
    intro arg other same
    rw [laws.equals left right arg other receivers same]
    exact .ok (laws.bool _)
  next =>
    refine settled (compared.bind ?_)
    intro arg other same
    rw [laws.equals left right arg other receivers same]
    exact .ok (laws.bool _)
  next =>
    cases laws.alike left right receivers with
    | number a => exact settled (onNumber_matched args others related laws name a)
    | text text => exact settled (onText_matched args others related laws name text)
    | list items => exact onSequence laws name args others related _ _ items
    | record named fields => exact onRecord laws name args others related _ _ receivers
    | _ => exact .fails _ (.plain _ rfl)

end Library

theorem callMethod (laws : c.Laws) (name : String) (left right : Value) (receivers : c.values left right)
    (args others : List Value) (related : List.Forall₂ c.values args others) :
    Matched c asks c.values (left.callMethod host name args) (right.callMethod host name others) := by
  refine .bind (settled (Method.resolve_matched laws name left right receivers args others related)) ?_
  intro _ _ _
  exact dispatch laws name args others related left right receivers

theorem read {α : Type} (found : Option α) (readable : c.gaps ∨ found.isSome) :
    Matched c asks (fun left right => left = right ∧ found = some left) (Evaluation.entry found)
      (Evaluation.entry found) := by
  cases found with
  | none => exact .outOfRange (readable.resolve_right (by simp))
  | some entry => exact .returns ⟨rfl, rfl⟩

theorem exprList (arena : Arena) (range : TableRange) (readable : c.gaps ∨ (arena.exprList? range).isSome)
    (allowed : ∀ id ∈ (arena.exprList? range).getD [], asks id) {finals : Value → Value → Prop}
    {next after : List Value → Evaluation Value}
    (rest : ∀ values others, List.Forall₂ c.values values others → Matched c asks finals (next values) (after others)) :
    Matched c asks finals (do next (← Evaluation.parts (← Evaluation.entry (arena.exprList? range))))
      (do after (← Evaluation.parts (← Evaluation.entry (arena.exprList? range)))) := by
  refine .bind (.read _ readable) ?_
  rintro ids _ ⟨rfl, read⟩
  rw [read] at allowed
  exact .bind (.parts ids allowed) rest

theorem fieldList (arena : Arena) (range : TableRange) (readable : c.gaps ∨ (arena.fields? range).isSome)
    (allowed : ∀ id ∈ ((arena.fields? range).getD []).map FieldInit.value, asks id) {finals : Value → Value → Prop}
    {next after : List (Name × Value) → Evaluation Value}
    (rest : ∀ fields others, List.Forall₂ (FieldMatch c.values) fields others →
      Matched c asks finals (next fields) (after others)) :
    Matched c asks finals (do next (← Evaluation.fieldParts (← Evaluation.entry (arena.fields? range))))
      (do after (← Evaluation.fieldParts (← Evaluation.entry (arena.fields? range)))) := by
  refine .bind (.read _ readable) ?_
  rintro fields _ ⟨rfl, read⟩
  simp only [read, Option.getD_some, List.forall_mem_map] at allowed
  exact .bind (.fieldParts fields allowed) rest

theorem evalIf (laws : c.Laws) (cond thenBranch : ExprId) (elseBranch : Option ExprId)
    (allowed : ∀ id ∈ cond :: thenBranch :: elseBranch.toList, asks id) :
    Matched c asks c.values (TagLang.evalIf Evaluation.part cond thenBranch elseBranch)
      (TagLang.evalIf Evaluation.part cond thenBranch elseBranch) := by
  simp only [List.forall_mem_cons] at allowed
  obtain ⟨condAllowed, thenAllowed, elseAllowed⟩ := allowed
  refine .bind (.part cond condAllowed) ?_
  intro verdict other same
  cases laws.alike verdict other same with
  | bool taken =>
    cases taken with
    | true =>
      cases elseBranch with
      | none =>
        refine .bind (.part thenBranch thenAllowed) ?_
        exact fun value other same => .returns (laws.some value other same)
      | some _ => exact .part thenBranch thenAllowed
    | false =>
      cases elseBranch with
      | none => exact .returns laws.none
      | some elseBranch => exact .part elseBranch (elseAllowed elseBranch (by simp))
  | _ =>
    cases elseBranch with
    | none => exact .fails _ (.plain _ rfl)
    | some _ => exact .fails _ (.plain _ rfl)

theorem fieldAccess (laws : c.Laws) (receiver : ExprId) (name : Name) (allowed : asks receiver) (arena : Arena)
    (exprs : Array Expr) :
    Matched c asks c.values ((ExprKind.field receiver name).evaluate arena)
      ((ExprKind.field receiver name).evaluate { arena with exprs }) := by
  refine .bind (.part receiver allowed) ?_
  intro value other same
  cases laws.alike value other same with
  | @record found another _ fields =>
    have looked : Option.Rel c.values (found.get? name) (another.get? name) := lookup_related c.values fields name
    dsimp only
    generalize found.get? name = first at looked
    generalize another.get? name = second at looked
    cases looked with
    | some content => exact .returns content
    | none =>
      refine .reading fun session other together => ?_
      rw [laws.interner session other together]
      exact .fails _ (.plain _ rfl)
  | _ => exact .fails _ (.plain _ rfl)

theorem whenArms (laws : c.Laws) (arena : Arena) (exprs : Array Expr) (scrutinee : ExprId) (range : TableRange)
    (readable : c.gaps ∨ (arena.nodeArms? range).isSome)
    (allowed : ∀ id ∈ scrutinee :: ((arena.arms? range).getD []).map Arm.body, asks id) :
    Matched c asks c.values ((ExprKind.when scrutinee range).evaluate arena)
      ((ExprKind.when scrutinee range).evaluate { arena with exprs }) := by
  simp only [List.forall_mem_cons, List.forall_mem_map] at allowed
  refine .bind (.part scrutinee allowed.1) ?_
  intro value other same
  refine .bind (.read _ (readable.imp_right fun read => (arms_readable arena range read).1)) ?_
  rintro arms _ ⟨rfl, read⟩
  rw [read] at allowed
  refine .reading fun session another together => ?_
  have selected := selectArm_matched c laws asks session.interner arena exprs arms allowed.2 value other same
  rw [← laws.interner session another together]
  refine .bind (.entry selected (readable.imp_right fun whole => ?_)) ?_
  · exact selectArm_isSome session.interner arena arms value ((arms_readable arena range whole).2 arms read)
  intro outcome _ outcomes
  refine .bind (.settled outcomes) ?_
  rintro arm ⟨_, bindings⟩ ⟨rfl, body, bound⟩
  exact .inScope bound (.part arm.body body)

theorem evaluate (laws : c.Laws) (arena : Arena) (exprs : Array Expr) (keeps : c.KeepsVariants arena)
    (kind : ExprKind) (readable : c.gaps ∨ (arena.nodeOf? kind).isSome)
    (allowed : ∀ id ∈ kind.parts arena, asks id) (closes : ∀ body ∈ kind.body?, c.bodies body) :
    Matched c asks c.values (kind.evaluate arena) (kind.evaluate { arena with exprs }) := by
  cases kind with
  | int value => exact .returns (laws.number value)
  | text content =>
    refine .reading fun session other together => ?_
    rw [laws.interner session other together]
    exact .returns (laws.text _)
  | ident name =>
    refine .reading fun session other together => ?_
    have looked := laws.lookup session other together name
    rw [laws.interner session other together]
    generalize session.env.lookup? name = first at looked
    generalize other.env.lookup? name = second at looked
    cases looked with
    | some value => exact .returns value
    | none => exact .fails _ (.plain _ rfl)
  | tag name payload =>
    refine exprList arena payload (readable.imp_right Option.isSome_of_isSome_bind) allowed ?_
    exact fun values others related => .returns (laws.ofTag name values others related)
  | variant enumId chosen payload =>
    refine exprList arena payload (readable.imp_right Option.isSome_of_isSome_bind) allowed ?_
    intro values others related
    dsimp only
    cases found : arena.enums.get? enumId with
    | none => exact .fails _ (.plain _ rfl)
    | some layout =>
      refine .reading fun session other together => ?_
      rw [laws.interner session other together]
      exact .settled (ofVariant_matched c arena keeps _ enumId layout found chosen values others related)
  | binary op left right =>
    simp only [ExprKind.parts, List.forall_mem_cons] at allowed
    obtain ⟨leftAllowed, rightAllowed, _⟩ := allowed
    -- The logical operators ask for their right operand only if the left one leaves the result open.
    have decided : Matched c asks c.values
        (do return .bool (← Evaluation.boolPart right)) (do return .bool (← Evaluation.boolPart right)) := by
      refine .bind (boolPart laws right rightAllowed) ?_
      rintro value _ rfl
      exact .returns (laws.bool value)
    cases op with
    | and | or =>
      refine .bind (boolPart laws left leftAllowed) ?_
      rintro value _ rfl
      cases value <;> first | exact .returns (laws.bool _) | exact decided
    | _ =>
      refine .bind (.part left leftAllowed) ?_
      intro first another same
      refine .bind (.part right rightAllowed) ?_
      exact fun second other beside => .settled (OutcomeMatch.binary laws _ first another second other same beside)
  | unary op operand =>
    refine .bind (.part operand (allowed operand (by simp [ExprKind.parts]))) ?_
    exact fun value other same => .settled (OutcomeMatch.unary laws op value other same)
  | ifThen cond thenBranch elseBranch => exact evalIf laws cond thenBranch elseBranch allowed
  | when scrutinee arms =>
    exact whenArms laws arena exprs scrutinee arms (readable.imp_right Option.isSome_of_isSome_bind) allowed
  | list items =>
    refine exprList arena items (readable.imp_right Option.isSome_of_isSome_bind) allowed ?_
    exact fun values others related => .returns (laws.list values others related)
  | record typeName fields =>
    refine fieldList arena fields (readable.imp_right Option.isSome_of_isSome_bind) allowed ?_
    exact fun values others related => .returns (laws.ofFields typeName values others related)
  | update base fields =>
    simp only [ExprKind.parts, List.forall_mem_cons] at allowed
    refine .bind (.part base allowed.1) ?_
    intro value other same
    refine fieldList arena fields (readable.imp_right Option.isSome_of_isSome_bind) allowed.2 ?_
    intro updates others related
    exact callMethod laws "set" value other same _ _ (.cons (laws.ofFields none updates others related) .nil)
  | field receiver name =>
    exact fieldAccess laws receiver name (allowed receiver (by simp [ExprKind.parts])) arena exprs
  | method receiver name args =>
    simp only [ExprKind.parts, List.forall_mem_cons] at allowed
    refine .bind (.part receiver allowed.1) ?_
    intro value other same
    refine exprList arena args (readable.imp_right Option.isSome_of_isSome_bind) allowed.2 ?_
    intro values others related
    refine .reading fun session another together => ?_
    rw [laws.interner session another together]
    exact callMethod laws _ value other same values others related
  | call func args =>
    simp only [ExprKind.parts, List.forall_mem_cons] at allowed
    refine .bind (.part func allowed.1) ?_
    intro value other same
    refine exprList arena args (readable.imp_right Option.isSome_of_isSome_bind) allowed.2 ?_
    exact fun values others related => call laws value other values others same related
  | lambda name params body =>
    refine .bind (.read _ (readable.imp_right Option.isSome_of_isSome_bind)) ?_
    rintro names _ ⟨rfl, _⟩
    exact .closure name names body (closes body rfl)
  | letIn name init body =>
    simp only [ExprKind.parts, List.forall_mem_cons] at allowed
    refine .bind (.part init allowed.1) ?_
    exact fun value other same => .inScope (.cons ⟨rfl, same⟩ .nil) (.part body allowed.2.1)

end Evaluation.Matched

structure Session.ReadsAs (left right : Session) : Prop where
  interner : left.interner = right.interner
  program : left.program = right.program
  env : left.env = right.env

namespace Correspondence

def identity : Correspondence where
  values := Eq
  closures := Eq
  sessions := Session.ReadsAs
  spans := Eq
  bodies _ := True
  gaps := True

theorem eq_of_forall₂ (left right : List Value) (related : List.Forall₂ Eq left right) : left = right := by
  rwa [List.forall₂_eq_eq_eq] at related

theorem eq_of_forall₂_fieldMatch (left right : List (Name × Value))
    (related : List.Forall₂ (FieldMatch Eq) left right) : left = right := by
  induction related with
  | nil => rfl
  | cons same _ rest => rw [Prod.ext same.1 same.2, rest]

theorem identity_laws : identity.Laws where
  alike := by
    rintro value _ rfl
    cases value with
    | number value => exact .number value
    | bool value => exact .bool value
    | text value => exact .text value
    | list items => exact .list (List.forall₂_same.mpr fun _ _ => rfl)
    | record value => exact .record rfl (List.forall₂_same.mpr fun _ _ => ⟨rfl, rfl⟩)
    | tag discriminant payload => exact .tag discriminant (List.forall₂_same.mpr fun _ _ => rfl)
    | some content => exact .some rfl
    | none => exact .none
    | ok content => exact .ok rfl
    | error content => exact .error rfl
    | function closure => exact .function rfl
  number _ := rfl
  bool _ := rfl
  text _ := rfl
  none := rfl
  some := by rintro value _ rfl; rfl
  ok := by rintro value _ rfl; rfl
  list left right related := congrArg Value.list (eq_of_forall₂ left right related)
  ofTag name left right related := congrArg (Value.ofTag name) (eq_of_forall₂ left right related)
  ofFields typeName left right related :=
    congrArg (fun fields => Value.record (.ofFields typeName fields)) (eq_of_forall₂_fieldMatch left right related)
  withFields left right updates others records related := by
    rw [Value.record.inj records, eq_of_forall₂_fieldMatch updates others related]
    rfl
  equals := by rintro left _ other _ rfl rfl; rfl
  closure := by rintro closure _ rfl; exact ⟨rfl, rfl⟩
  interner _ _ together := together.interner
  lookup left right together name := by
    rw [together.env]
    cases right.env.lookup? name with
    | none => exact .none
    | some value => exact .some rfl

theorem identity_keepsVariants (arena : Arena) : identity.KeepsVariants arena := by
  intro enumId layout code variant left right _ _ _ related
  exact congrArg (Value.tag (.dense enumId code)) (eq_of_forall₂ left right related)

end Correspondence

theorem Request.evaluate_matched (request : Request) :
    Evaluation.Matched .identity (fun _ => True) Eq request.evaluate request.evaluate := by
  refine .reading fun session other together => ?_
  rw [together.program]
  refine .bind (.read _ (.inl trivial)) ?_
  rintro expr _ ⟨rfl, _⟩
  exact .locate rfl (.evaluate Correspondence.identity_laws other.program.arena _
    (Correspondence.identity_keepsVariants _) expr.kind (.inl trivial) (fun _ _ => trivial) fun _ _ => trivial)

theorem Evaluation.call_matched (func : Value) (args : List Value) :
    Matched .identity (fun _ => True) Eq (call func args) (call func args) :=
  .call Correspondence.identity_laws func func args args rfl (List.forall₂_same.mpr fun _ _ => rfl)

end TagLang
