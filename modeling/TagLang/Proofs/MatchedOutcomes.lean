import TagLang.Branching
import TagLang.Node
import TagLang.Proofs.Correspondence

/-! What operators, arms and library methods make of values that belong together: results that belong together
again, or one error on both sides. -/

namespace TagLang

namespace ErrorCause

def isLimit : ErrorCause → Bool
  | recursionLimit _ | budgetExceeded _ => true
  | _ => false

end ErrorCause

/-- Notes that name an argument of a library method by its position. -/
def ErrorNote.AboutArgument (note : ErrorNote) : Prop :=
  ∃ (position : Nat) (receiver : Value) (method : Method), position < method.arity ∧
    note = ⟨"argument " ++ toString position ++ " of " ++ receiver.typeName ++ ":" ++ method.name, none⟩

/-- Errors as expressions and library calls raise them: not for a limit, without a place, and without a note
unless they are about an argument. -/
inductive EvalError.Ordinary : EvalError → Prop
  | plain (cause : ErrorCause) (free : cause.isLimit = false) : Ordinary (.of cause)
  | argument (expected got : String) (note : ErrorNote) (about : note.AboutArgument) :
      Ordinary ((EvalError.of (.typeMismatch expected got)).withNote note)

theorem EvalError.Ordinary.free {error : EvalError} (ordinary : error.Ordinary) : error.cause.isLimit = false := by
  cases ordinary with
  | plain cause free => exact free
  | argument expected got note about => rfl

/-- Outcomes with results that belong together, or with one error. -/
inductive OutcomeMatch {α β : Type} (results : α → β → Prop) : Except EvalError α → Except EvalError β → Prop
  | ok {left : α} {right : β} (related : results left right) : OutcomeMatch results (.ok left) (.ok right)
  | error (error : EvalError) (ordinary : error.Ordinary) : OutcomeMatch results (.error error) (.error error)

theorem zip_fieldMatch (values : Value → Value → Prop) (names : List Name) (left right : List Value)
    (related : List.Forall₂ values left right) :
    List.Forall₂ (FieldMatch values) (names.zip left) (names.zip right) := by
  induction related generalizing names with
  | nil => simp
  | cons same _ zipped =>
    cases names with
    | nil => exact .nil
    | cons name names => exact .cons ⟨rfl, same⟩ (zipped names)

theorem ofOption_related (c : Correspondence) (laws : c.Laws) {left right : Option Value}
    (related : Option.Rel c.values left right) : c.values (.ofOption left) (.ofOption right) := by
  cases related with
  | some content => exact laws.some _ _ content
  | none => exact laws.none

theorem lookup_related (values : Value → Value → Prop) {left right : List (Name × Value)}
    (related : List.Forall₂ (FieldMatch values) left right) (name : Name) :
    Option.Rel values (left.lookup name) (right.lookup name) := by
  induction related with
  | nil => exact .none
  | @cons first second _ _ same _ later =>
    obtain ⟨key, value⟩ := first
    obtain ⟨_, other⟩ := second
    obtain ⟨rfl, content⟩ := same
    simp only [List.lookup_cons]
    split
    next => exact .some content
    next => exact later

theorem getElem?_related (values : Value → Value → Prop) {left right : List Value}
    (related : List.Forall₂ values left right) (position : Nat) :
    Option.Rel values left[position]? right[position]? := by
  induction related generalizing position with
  | nil => simp
  | cons same _ later =>
    cases position with
    | zero => exact .some same
    | succ position => exact later position

namespace OutcomeMatch

variable {c : Correspondence}

theorem bind {α β γ δ : Type} {results : α → β → Prop} {finals : γ → δ → Prop} {left : Except EvalError α}
    {right : Except EvalError β} {next : α → Except EvalError γ} {after : β → Except EvalError δ}
    (first : OutcomeMatch results left right)
    (rest : ∀ value other, results value other → OutcomeMatch finals (next value) (after other)) :
    OutcomeMatch finals (left >>= next) (right >>= after) := by
  cases first with
  | ok related => exact rest _ _ related
  | error error ordinary => exact .error error ordinary

theorem orOverflow (laws : c.Laws) (operation : String) (result : Option Number) :
    OutcomeMatch c.values (TagLang.orOverflow operation result) (TagLang.orOverflow operation result) := by
  cases result with
  | none => exact .error _ (.plain _ rfl)
  | some number => exact .ok (laws.number number)

theorem onNumbers (laws : c.Laws) (op : BinaryOp) (a b : Number) :
    OutcomeMatch c.values (op.onNumbers a b) (op.onNumbers a b) := by
  cases op with
  | add | sub | mul => exact orOverflow laws _ _
  | div | mod | pow =>
    simp only [BinaryOp.onNumbers]
    split
    next => exact .error _ (.plain _ rfl)
    next => exact orOverflow laws _ _
  | eq | notEq | lt | ltEq | gt | gtEq => exact .ok (laws.bool _)
  | concat | and | or => exact .error _ (.plain _ rfl)

theorem onBools (laws : c.Laws) (op : BinaryOp) (a b : Bool) :
    OutcomeMatch c.values (op.onBools a b) (op.onBools a b) := by
  cases op with
  | and | or | eq | notEq => exact .ok (laws.bool _)
  | _ => exact .error _ (.plain _ rfl)

theorem onTexts (laws : c.Laws) (op : BinaryOp) (a b : Text) :
    OutcomeMatch c.values (op.onTexts a b) (op.onTexts a b) := by
  cases op with
  | concat => exact .ok (laws.text _)
  | eq | notEq => exact .ok (laws.bool _)
  | _ => exact .error _ (.plain _ rfl)

theorem onFamily (laws : c.Laws) (op : BinaryOp) (left right other another : Value)
    (first : c.values left right) (second : c.values other another) :
    OutcomeMatch c.values (op.onFamily left other) (op.onFamily right another) := by
  have equal := laws.equals left right other another first second
  have named := (laws.alike left right first).typeName
  cases op with
  | eq | notEq =>
    simp only [BinaryOp.onFamily, equal]
    exact .ok (laws.bool _)
  | _ =>
    simp only [BinaryOp.onFamily, named]
    exact .error _ (.plain _ rfl)

theorem binary (laws : c.Laws) (op : BinaryOp) (left right other another : Value)
    (first : c.values left right) (second : c.values other another) :
    OutcomeMatch c.values (op.apply left other) (op.apply right another) := by
  have alike := laws.alike left right first
  have beside := laws.alike other another second
  -- Whatever is not two numbers, two booleans or two texts is compared by family.
  have byFamily : OutcomeMatch c.values
      (if left.family?.isSome && left.family? == other.family? then op.onFamily left other
        else .error (.of (.binaryTypeMismatch left.typeName other.typeName)))
      (if right.family?.isSome && right.family? == another.family? then op.onFamily right another
        else .error (.of (.binaryTypeMismatch right.typeName another.typeName))) := by
    rw [alike.family?, alike.typeName, beside.family?, beside.typeName]
    split
    next => exact onFamily laws op left right other another first second
    next => exact .error _ (.plain _ rfl)
  cases alike with
  | number a =>
    cases beside with
    | number b => exact onNumbers laws op a b
    | _ => exact byFamily
  | bool a =>
    cases beside with
    | bool b => exact onBools laws op a b
    | _ => exact byFamily
  | text a =>
    cases beside with
    | text b => exact onTexts laws op a b
    | _ => exact byFamily
  | _ => exact byFamily

theorem unary (laws : c.Laws) (op : UnaryOp) (left right : Value) (related : c.values left right) :
    OutcomeMatch c.values (op.apply left) (op.apply right) := by
  cases op with
  | neg =>
    cases laws.alike left right related with
    | number a => exact orOverflow laws _ _
    | _ => exact .error _ (.plain _ rfl)
  | not =>
    cases laws.alike left right related with
    | bool b => exact .ok (laws.bool _)
    | _ => exact .error _ (.plain _ rfl)

end OutcomeMatch

/-- Arms with one body, which may be asked for, and bindings that belong together. -/
def ArmMatch (values : Value → Value → Prop) (asks : ExprId → Prop) (left right : SelectedArm) : Prop :=
  left.body = right.body ∧ asks left.body ∧ List.Forall₂ (FieldMatch values) left.bindings right.bindings

theorem selectArm_matched (c : Correspondence) (laws : c.Laws) (asks : ExprId → Prop) (interner : Interner)
    (arena : Arena) (exprs : Array Expr) (arms : List Arm) (allowed : ∀ arm ∈ arms, asks arm.body)
    (left right : Value) (related : c.values left right) :
    Option.Rel (OutcomeMatch (ArmMatch c.values asks)) (selectArm interner arena arms left)
      (selectArm interner { arena with exprs } arms right) := by
  have alike := laws.alike left right related
  have payload := alike.payload
  simp only [selectArm, ← alike.discriminant?, ← alike.typeName, ← payload.length_eq]
  cases left.discriminant? with
  | none => exact .some (.error _ (.plain _ rfl))
  | some discriminant =>
    dsimp only
    cases chosen : arms.find? (·.isFor arena.enums discriminant) with
    | none => exact .some (.error _ (.plain _ rfl))
    | some arm =>
      have body : asks arm.body := allowed arm (List.mem_of_find?_eq_some chosen)
      obtain ⟨pattern, target⟩ := arm
      cases pattern with
      | default => exact .some (.ok ⟨rfl, body, .nil⟩)
      | tag name range =>
        change Option.Rel _ ((arena.names? range).bind _) ((arena.names? range).bind _)
        cases arena.names? range with
        | none => exact .none
        | some names =>
          simp only [Option.bind_some]
          split
          next => exact .some (.ok ⟨rfl, body, zip_fieldMatch c.values names _ _ payload⟩)
          next => exact .some (.error _ (.plain _ rfl))

theorem selectArm_isSome (interner : Interner) (arena : Arena) (arms : List Arm) (value : Value)
    (readable : ∀ arm ∈ arms, (arena.nodeArm? arm).isSome) : (selectArm interner arena arms value).isSome := by
  unfold selectArm
  split
  next => rfl
  next discriminant _ =>
    split
    next => rfl
    next => rfl
    next name range body chosen =>
      have named := readable _ (List.mem_of_find?_eq_some chosen)
      simp only [Arena.nodeArm?, Option.isSome_map] at named
      obtain ⟨names, read⟩ := Option.isSome_iff_exists.mp named
      simp only [read, bind, Option.bind_some]
      split <;> rfl

namespace Method

variable {c : Correspondence}

theorem accepts_alike (laws : c.Laws) (param : ParamSpec) (left right arg other : Value)
    (receivers : c.values left right) (args : c.values arg other) :
    param.accepts left arg = param.accepts right other := by
  have receiver := laws.alike left right receivers
  have alike := laws.alike arg other args
  cases param with
  | receiverFamily => simp only [ParamSpec.accepts, receiver.family?, alike.family?]
  | any => rfl
  | number | text | record | function => cases alike <;> rfl

theorem firstRejected?_alike (laws : c.Laws) (method : Method) (left right : Value) (receivers : c.values left right)
    (args others : List Value) (related : List.Forall₂ c.values args others) :
    Option.Rel (fun x y => x.1.1 = y.1.1 ∧ x.2 = y.2 ∧ c.values x.1.2 y.1.2)
      (method.firstRejected? left args) (method.firstRejected? right others) := by
  unfold firstRejected?
  generalize method.params = params
  generalize 0 = start
  induction related generalizing params start with
  | nil => simp
  | @cons arg other args others same _ rejected =>
    cases params with
    | nil => exact .none
    | cons param params =>
      simp only [List.zip_cons_cons, List.zipIdx_cons, List.find?_cons,
        accepts_alike laws param left right arg other receivers same]
      cases param.accepts right other with
      | true => exact rejected params (start + 1)
      | false => exact .some ⟨rfl, rfl, same⟩

theorem firstRejected?_position (method : Method) (receiver : Value) (args : List Value) (param : ParamSpec)
    (arg : Value) (position : Nat) (found : method.firstRejected? receiver args = some ((param, arg), position)) :
    position < method.arity := by
  have bound := List.snd_lt_of_mem_zipIdx (List.mem_of_find?_eq_some found)
  rw [List.length_zip] at bound
  unfold arity
  omega

theorem checkArgs_matched (laws : c.Laws) (method : Method) (left right : Value) (receivers : c.values left right)
    (args others : List Value) (related : List.Forall₂ c.values args others) :
    OutcomeMatch Eq (method.checkArgs left args) (method.checkArgs right others) := by
  have rejected := firstRejected?_alike laws method left right receivers args others related
  have named := (laws.alike left right receivers).typeName
  unfold checkArgs
  cases found : method.firstRejected? left args with
  | none =>
    rw [found] at rejected
    cases same : method.firstRejected? right others with
    | none => exact .ok rfl
    | some _ => simp [same] at rejected
  | some first =>
    rw [found] at rejected
    cases same : method.firstRejected? right others with
    | none => simp [same] at rejected
    | some second =>
      rw [same, Option.rel_some_some] at rejected
      obtain ⟨⟨param, arg⟩, position⟩ := first
      have bound := method.firstRejected?_position left args param arg position found
      obtain ⟨⟨param', other⟩, position'⟩ := second
      obtain ⟨rfl, rfl, value⟩ := rejected
      have expected : param.expected left = param.expected right := by cases param <;> simp [ParamSpec.expected, named]
      simp only [named, expected, (laws.alike arg other value).typeName]
      exact .error _ (.argument _ _ _ ⟨position, right, method, bound, rfl⟩)

theorem resolve_matched (laws : c.Laws) (name : String) (left right : Value) (receivers : c.values left right)
    (args others : List Value) (related : List.Forall₂ c.values args others) :
    OutcomeMatch Eq (resolve left name args) (resolve right name others) := by
  have alike := laws.alike left right receivers
  simp only [resolve, alike.family?, alike.typeName, related.length_eq]
  cases right.family? with
  | none => exact .error _ (.plain _ rfl)
  | some family =>
    dsimp only
    cases overload? family name others.length with
    | none =>
      dsimp only
      cases find? family name with
      | none => exact .error _ (.plain _ rfl)
      | some method => exact .error _ (.plain _ rfl)
    | some method =>
      dsimp only
      have checked := checkArgs_matched laws method left right receivers args others related
      generalize method.checkArgs left args = first at checked ⊢
      generalize method.checkArgs right others = second at checked ⊢
      cases checked with
      | ok => exact .ok rfl
      | error error ordinary => exact .error error ordinary

end Method

section Arguments

variable {c : Correspondence} (args others : List Value) (related : List.Forall₂ c.values args others)
include related

theorem argument_matched (position : Nat) :
    OutcomeMatch c.values (Value.argument args position) (Value.argument others position) := by
  have found := getElem?_related c.values related position
  unfold Value.argument
  generalize args[position]? = arg, others[position]? = other at found ⊢
  cases found with
  | some same => exact .ok same
  | none => exact .error _ (.plain (.custom _) rfl)

theorem typedArgument_matched (laws : c.Laws) {α : Type} (expected : String) (read : Value → Option α)
    (agrees : ∀ left right, c.values left right → read left = read right) (position : Nat) :
    OutcomeMatch Eq (Value.typedArgument expected read args position)
      (Value.typedArgument expected read others position) := by
  refine (argument_matched args others related position).bind ?_
  intro arg other same
  rw [agrees arg other same, (laws.alike arg other same).typeName]
  cases read other with
  | some content => exact .ok rfl
  | none => exact .error _ (.plain _ rfl)

theorem numberArgument_matched (laws : c.Laws) (position : Nat) :
    OutcomeMatch Eq (Value.numberArgument args position) (Value.numberArgument others position) := by
  refine typedArgument_matched args others related laws "Number" Value.number? ?_ position
  intro left right same
  cases laws.alike left right same <;> rfl

theorem textArgument_matched (laws : c.Laws) (position : Nat) :
    OutcomeMatch Eq (Value.textArgument args position) (Value.textArgument others position) := by
  refine typedArgument_matched args others related laws "Text" Value.text? ?_ position
  intro left right same
  cases laws.alike left right same <;> rfl

theorem onNumber_matched (laws : c.Laws) (name : String) (a : Number) :
    OutcomeMatch c.values (Method.onNumber name a args) (Method.onNumber name a others) := by
  unfold Method.onNumber
  cases BinaryOp.ofMethod? name with
  | none => exact .error _ (.plain _ rfl)
  | some op =>
    refine (numberArgument_matched args others related laws 0).bind ?_
    rintro b _ rfl
    exact .onNumbers laws op a b

theorem onText_matched (laws : c.Laws) (name : String) (text : Text) :
    OutcomeMatch c.values (Method.onText name text args) (Method.onText name text others) := by
  unfold Method.onText
  split
  next => exact .orOverflow laws _ _
  next =>
    refine (numberArgument_matched args others related laws 0).bind ?_
    rintro position _ rfl
    refine .ok (ofOption_related c laws ?_)
    cases text.codePointAt? position.val with
    | none => exact .none
    | some point => exact .some (laws.number _)
  next =>
    refine (textArgument_matched args others related laws 0).bind ?_
    rintro other _ rfl
    exact .ok (laws.text _)
  next => exact .error _ (.plain _ rfl)

end Arguments

theorem resultContent_matched (c : Correspondence) (laws : c.Laws) (left right : Value)
    (related : c.values left right) :
    OutcomeMatch (Option.Rel c.values) left.resultContent right.resultContent := by
  have alike := laws.alike left right related
  have payload := alike.payload
  simp only [Value.resultContent, alike.discriminant?, alike.typeName]
  split
  next => exact .ok .none
  next =>
    split
    next =>
      have counted := payload.length_eq
      cases alike with
      | ok content => exact .ok (.some content)
      | tag discriminant items =>
        dsimp only
        rw [counted]
        exact .error _ (.plain _ rfl)
      | _ => exact .error _ (.plain _ rfl)
    next => exact .error _ (.plain _ rfl)

/-- Whether the enum variants that an arena declares are kept together. -/
def Correspondence.KeepsVariants (c : Correspondence) (arena : Arena) : Prop :=
  ∀ enumId layout code variant left right, arena.enums.get? enumId = some layout →
    layout.variant? code = some variant → variant.arity = left.length → List.Forall₂ c.values left right →
      c.values (.tag (.dense enumId code) left) (.tag (.dense enumId code) right)

theorem ofVariant_matched (c : Correspondence) (arena : Arena) (keeps : c.KeepsVariants arena) (interner : Interner)
    (enumId : EnumId) (layout : EnumLayout) (found : arena.enums.get? enumId = some layout) (chosen : Name)
    (left right : List Value) (related : List.Forall₂ c.values left right) :
    OutcomeMatch c.values (Value.ofVariant interner layout enumId chosen left)
      (Value.ofVariant interner layout enumId chosen right) := by
  unfold Value.ofVariant
  cases coded : layout.codeOf? chosen with
  | none => exact .error _ (.plain _ rfl)
  | some code =>
    dsimp only
    have inside : code < layout.variants.length := (List.findIdx?_eq_some_iff_getElem.mp coded).1
    rw [show layout.variant? code = some layout.variants[code] from List.getElem?_eq_getElem inside,
      ← related.length_eq]
    dsimp only
    split
    next fits => exact .ok (keeps enumId layout code _ left right found (List.getElem?_eq_getElem inside) fits related)
    next => exact .error _ (.plain _ rfl)

theorem mapM_isSome {α β : Type} (f : α → Option β) (items : List α) (mapped : (items.mapM f).isSome) :
    ∀ item ∈ items, (f item).isSome := by
  induction items with
  | nil => simp
  | cons item items later =>
    rw [List.mapM_cons] at mapped
    cases first : f item with
    | none => simp [first] at mapped
    | some _ =>
      simp only [first] at mapped
      simpa [first] using later (Option.isSome_of_isSome_bind mapped)

theorem arms_readable (arena : Arena) (range : TableRange) (readable : (arena.nodeArms? range).isSome) :
    (arena.arms? range).isSome ∧
      ∀ arms, arena.arms? range = some arms → ∀ arm ∈ arms, (arena.nodeArm? arm).isSome := by
  refine ⟨Option.isSome_of_isSome_bind readable, ?_⟩
  intro arms read
  apply mapM_isSome arena.nodeArm? arms
  simpa [Arena.nodeArms?, read] using readable

end TagLang
