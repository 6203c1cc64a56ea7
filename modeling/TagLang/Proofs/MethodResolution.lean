import Mathlib.Data.List.Forall2
import Mathlib.Data.List.Nodup
import Mathlib.Tactic.Choose
import TagLang.Method.Dispatch

/-! Which library calls are refused. The table alone decides: a call that no row answers, that has another number of
arguments, or with an argument that its parameter does not accept ends there. Every other call is one that the methods
of its family know by name, and they find all arguments that they fetch. -/

namespace TagLang

section Concludes

variable {m : Type → Type} [Monad m] {α β : Type}

/-- Whether a computation, whatever else it does, comes to no outcome but those that meet a condition. -/
def Concludes (condition : Except EvalError α → Prop) (computation : ExceptT EvalError m α) : Prop :=
  ∃ checked : m { outcome // condition outcome }, Subtype.val <$> checked = computation.run

/-- Whether a computation fails only with errors that meet a condition. -/
def RaisesOnly (condition : EvalError → Prop) (computation : ExceptT EvalError m α) : Prop :=
  Concludes (fun outcome => ∀ error, outcome = .error error → condition error) computation

variable [LawfulMonad m] {condition wider : Except EvalError α → Prop}

theorem concludes_settled (outcome : Except EvalError α) (meets : condition outcome) :
    Concludes condition (ExceptT.mk (pure outcome) : ExceptT EvalError m α) :=
  ⟨pure ⟨outcome, meets⟩, map_pure _ _⟩

theorem concludes_lift_bind (first : m β) (next : β → ExceptT EvalError m α)
    (rest : ∀ value, Concludes condition (next value)) :
    Concludes condition ((liftM first : ExceptT EvalError m β) >>= next) := by
  choose following same using rest
  refine ⟨first >>= following, ?_⟩
  have lifted : (liftM first : ExceptT EvalError m β) = ExceptT.lift first := rfl
  rw [map_bind, lifted]
  simp [same]

theorem Concludes.imp {computation : ExceptT EvalError m α} (concludes : Concludes condition computation)
    (widen : ∀ outcome, condition outcome → wider outcome) : Concludes wider computation := by
  obtain ⟨checked, same⟩ := concludes
  refine ⟨(fun outcome => ⟨outcome.1, widen outcome.1 outcome.2⟩) <$> checked, ?_⟩
  rw [← comp_map]
  exact same

end Concludes

namespace ParamSpec

/-- The arguments that a parameter is meant for. -/
def Fits (receiver arg : Value) : ParamSpec → Prop
  | receiverFamily => arg.family? = receiver.family?
  | number => ∃ content, arg = .number content
  | text => ∃ content, arg = .text content
  | record => ∃ content, arg = .record content
  | function => ∃ closure, arg = .function closure
  | any => True

theorem accepts_iff (receiver arg : Value) (param : ParamSpec) :
    param.accepts receiver arg = true ↔ param.Fits receiver arg := by
  cases param with
  | receiverFamily => exact beq_iff_eq
  | any => simp [accepts, Fits]
  | number | text | record | function => cases arg <;> simp [accepts, Fits]

end ParamSpec

namespace Method

/-- The rows of the table for a receiver's family and a method's name. -/
def IsFor (row : Method) (receiver : Value) (name : String) : Prop :=
  row ∈ table ∧ receiver.family? = some row.receiver ∧ row.name = name

/-- Whether the argument at a position does not fit a row's parameter there. -/
def Rejects (row : Method) (receiver : Value) (args : List Value) (position : Nat) (param : ParamSpec)
    (arg : Value) : Prop :=
  row.params[position]? = some param ∧ args[position]? = some arg ∧ ¬ param.Fits receiver arg

/-- Whether the argument at a position is the first that a row rejects. -/
def RejectsFirst (row : Method) (receiver : Value) (args : List Value) (position : Nat) (param : ParamSpec)
    (arg : Value) : Prop :=
  row.Rejects receiver args position param arg ∧
    ∀ earlier < position, ∀ param arg, ¬ row.Rejects receiver args earlier param arg

/-- The table has one row at most for a family, a name and a number of parameters. -/
theorem table_distinct : (table.map fun row => (row.receiver, row.name, row.arity)).Nodup := by decide

theorem IsFor.unique {row other : Method} {receiver : Value} {name : String} (isFor : row.IsFor receiver name)
    (also : other.IsFor receiver name) (arity : row.arity = other.arity) : row = other := by
  obtain ⟨listed, family, named⟩ := isFor
  obtain ⟨listedToo, familyToo, namedToo⟩ := also
  have families : row.receiver = other.receiver := Option.some.inj (family.symm.trans familyToo)
  exact List.inj_on_of_nodup_map table_distinct listed listedToo (by simp [families, named, namedToo, arity])

theorem RejectsFirst.unique {row : Method} {receiver : Value} {args : List Value} {position place : Nat}
    {param spec : ParamSpec} {arg value : Value} (first : row.RejectsFirst receiver args position param arg)
    (also : row.RejectsFirst receiver args place spec value) : position = place ∧ param = spec ∧ arg = value := by
  obtain ⟨⟨atParam, atArg, unfit⟩, noneBefore⟩ := first
  obtain ⟨⟨atSpec, atValue, unfitToo⟩, noneBeforeToo⟩ := also
  have same : position = place := by
    rcases Nat.lt_trichotomy position place with before | same | after
    · exact absurd ⟨atParam, atArg, unfit⟩ (noneBeforeToo position before param arg)
    · exact same
    · exact absurd ⟨atSpec, atValue, unfitToo⟩ (noneBefore place after spec value)
  subst same
  exact ⟨rfl, Option.some.inj (atParam.symm.trans atSpec), Option.some.inj (atArg.symm.trans atValue)⟩

theorem mem_zip_zipIdx (row : Method) (args : List Value) (param : ParamSpec) (arg : Value) (position : Nat) :
    ((param, arg), position) ∈ (row.params.zip args).zipIdx ↔
      row.params[position]? = some param ∧ args[position]? = some arg := by
  rw [List.mem_zipIdx_iff_getElem?, List.getElem?_zip_eq_some]

theorem accepts_of_firstRejected? (row : Method) (receiver : Value) (args : List Value)
    (found : row.firstRejected? receiver args = none) (position : Nat) (param : ParamSpec) (arg : Value) :
    ¬ row.Rejects receiver args position param arg := by
  rintro ⟨atParam, atArg, unfit⟩
  have listed := (row.mem_zip_zipIdx args param arg position).mpr ⟨atParam, atArg⟩
  have accepted := List.find?_eq_none.mp found _ listed
  simp [mt (param.accepts_iff receiver arg).mp unfit] at accepted

theorem rejects_of_firstRejected? (row : Method) (receiver : Value) (args : List Value) (param : ParamSpec)
    (arg : Value) (position : Nat) (found : row.firstRejected? receiver args = some ((param, arg), position)) :
    row.RejectsFirst receiver args position param arg := by
  have listed := (row.mem_zip_zipIdx args param arg position).mp (List.mem_of_find?_eq_some found)
  obtain ⟨rejected, index, bound, entry, before⟩ := List.find?_eq_some_iff_getElem.mp found
  have placed : index = position := by simpa using congrArg Prod.snd entry
  have unfit : ¬ param.Fits receiver arg := by simpa [← ParamSpec.accepts_iff] using rejected
  refine ⟨⟨listed.1, listed.2, unfit⟩, ?_⟩
  rintro earlier smaller other value ⟨atParam, atArg, unfit⟩
  have zipped : (row.params.zip args)[earlier]? = some (other, value) :=
    List.getElem?_zip_eq_some.mpr ⟨atParam, atArg⟩
  obtain ⟨within, same⟩ := List.getElem?_eq_some_iff.mp zipped
  have accepted := before earlier (placed ▸ smaller)
  rw [List.getElem_zipIdx, same] at accepted
  simp [mt (other.accepts_iff receiver value).mp unfit] at accepted

/-- The error about an argument that a parameter does not accept, with a note of its position. -/
def rejection (receiver : Value) (name : String) (position : Nat) (param : ParamSpec) (arg : Value) : EvalError where
  cause := .typeMismatch (param.expected receiver) arg.typeName
  message := "type mismatch: expected " ++ param.expected receiver ++ ", got " ++ arg.typeName
  span := none
  notes := [⟨"argument " ++ toString position ++ " of " ++ receiver.typeName ++ ":" ++ name, none⟩]

/-- What the table makes of a call. -/
inductive Resolution (receiver : Value) (name : String) (args : List Value) : Except EvalError Method → Prop
  | undefined (unanswered : ∀ row : Method, ¬ row.IsFor receiver name) :
      Resolution receiver name args (.error (.of (.undefinedMethod name receiver.typeName)))
  | arity (row : Method) (isFor : row.IsFor receiver name)
      (counts : ∀ row : Method, row.IsFor receiver name → row.arity ≠ args.length) :
      Resolution receiver name args (.error (.of (.arityMismatch name row.arity args.length)))
  | rejected (row : Method) (isFor : row.IsFor receiver name) (count : row.arity = args.length) (position : Nat)
      (param : ParamSpec) (arg : Value) (first : row.RejectsFirst receiver args position param arg) :
      Resolution receiver name args (.error (rejection receiver name position param arg))
  | accepted (row : Method) (isFor : row.IsFor receiver name) (count : row.arity = args.length)
      (accepts : ∀ position param arg, ¬ row.Rejects receiver args position param arg) :
      Resolution receiver name args (.ok row)

theorem resolve_resolution (receiver : Value) (name : String) (args : List Value) :
    Resolution receiver name args (resolve receiver name args) := by
  unfold resolve
  split
  next unknown =>
    refine .undefined ?_
    rintro row ⟨_, known, _⟩
    simp [unknown] at known
  next family known =>
    split
    next row overloaded =>
      obtain ⟨⟨received, named⟩, count⟩ : (row.receiver = family ∧ row.name = name) ∧ row.arity = args.length := by
        simpa using List.find?_some overloaded
      have isFor : row.IsFor receiver name := ⟨List.mem_of_find?_eq_some overloaded, received ▸ known, named⟩
      unfold checkArgs
      split
      next accepted => exact .accepted row isFor count (row.accepts_of_firstRejected? receiver args accepted)
      next param arg position found =>
        have first := row.rejects_of_firstRejected? receiver args param arg position found
        rw [named]
        exact .rejected row isFor count position param arg first
    next unmatched =>
      have counts : ∀ row : Method, row.IsFor receiver name → row.arity ≠ args.length := by
        rintro row ⟨listed, received, named⟩ count
        have same : row.receiver = family := Option.some.inj (received.symm.trans known)
        have different := List.find?_eq_none.mp unmatched row listed
        simp [same, named, count] at different
      split
      next row found =>
        obtain ⟨received, named⟩ : row.receiver = family ∧ row.name = name := by simpa using List.find?_some found
        exact .arity row ⟨List.mem_of_find?_eq_some found, received ▸ known, named⟩ counts
      next absent =>
        refine .undefined ?_
        rintro row ⟨listed, received, named⟩
        have same : row.receiver = family := Option.some.inj (received.symm.trans known)
        have different := List.find?_eq_none.mp absent row listed
        simp [same, named] at different

/-- Arguments fit the parameters one by one if they are as many and none is rejected. -/
theorem fits_iff_forall₂ (row : Method) (receiver : Value) (args : List Value) :
    (row.arity = args.length ∧ ∀ position param arg, ¬ row.Rejects receiver args position param arg) ↔
      List.Forall₂ (fun param arg => param.Fits receiver arg) row.params args := by
  rw [List.forall₂_iff_get]
  refine and_congr Iff.rfl ⟨?_, ?_⟩
  · intro accepts position within beside
    by_contra unfit
    exact accepts position _ _ ⟨List.getElem?_eq_getElem within, List.getElem?_eq_getElem beside, unfit⟩
  · rintro fits position param arg ⟨atParam, atArg, unfit⟩
    obtain ⟨within, rfl⟩ := List.getElem?_eq_some_iff.mp atParam
    obtain ⟨beside, rfl⟩ := List.getElem?_eq_some_iff.mp atArg
    exact unfit (fits position within beside)

section Resolved

variable {receiver : Value} {name : String} {args : List Value}

theorem resolve_undefined (unanswered : ∀ row : Method, ¬ row.IsFor receiver name) :
    resolve receiver name args = .error (.of (.undefinedMethod name receiver.typeName)) := by
  have resolution := resolve_resolution receiver name args
  generalize resolve receiver name args = result at resolution ⊢
  cases resolution with
  | undefined => rfl
  | arity row isFor => exact absurd isFor (unanswered row)
  | rejected row isFor => exact absurd isFor (unanswered row)
  | accepted row isFor => exact absurd isFor (unanswered row)

theorem resolve_arity {row : Method} (isFor : row.IsFor receiver name)
    (counts : ∀ row : Method, row.IsFor receiver name → row.arity ≠ args.length) :
    ∃ first : Method, first.IsFor receiver name ∧
      resolve receiver name args = .error (.of (.arityMismatch name first.arity args.length)) := by
  have resolution := resolve_resolution receiver name args
  generalize resolve receiver name args = result at resolution ⊢
  cases resolution with
  | undefined unanswered => exact absurd isFor (unanswered row)
  | arity first firstFor => exact ⟨first, firstFor, rfl⟩
  | rejected other otherFor count => exact absurd count (counts other otherFor)
  | accepted other otherFor count => exact absurd count (counts other otherFor)

variable {row : Method} (isFor : row.IsFor receiver name) (count : row.arity = args.length)
include isFor count

theorem resolve_rejected {position : Nat} {param : ParamSpec} {arg : Value}
    (first : row.RejectsFirst receiver args position param arg) :
    resolve receiver name args = .error (rejection receiver name position param arg) := by
  have resolution := resolve_resolution receiver name args
  generalize resolve receiver name args = result at resolution ⊢
  cases resolution with
  | undefined unanswered => exact absurd isFor (unanswered row)
  | arity _ _ counts => exact absurd count (counts row isFor)
  | rejected other otherFor otherCount place spec value also =>
    obtain rfl := isFor.unique otherFor (count.trans otherCount.symm)
    obtain ⟨rfl, rfl, rfl⟩ := first.unique also
    rfl
  | accepted other otherFor otherCount accepts =>
    obtain rfl := isFor.unique otherFor (count.trans otherCount.symm)
    exact absurd first.1 (accepts position param arg)

theorem resolve_accepted (accepts : ∀ position param arg, ¬ row.Rejects receiver args position param arg) :
    resolve receiver name args = .ok row := by
  have resolution := resolve_resolution receiver name args
  generalize resolve receiver name args = result at resolution ⊢
  cases resolution with
  | undefined unanswered => exact absurd isFor (unanswered row)
  | arity _ _ counts => exact absurd count (counts row isFor)
  | rejected other otherFor otherCount place spec value also =>
    obtain rfl := isFor.unique otherFor (count.trans otherCount.symm)
    exact absurd also.1 (accepts place spec value)
  | accepted other otherFor otherCount =>
    obtain rfl := isFor.unique otherFor (count.trans otherCount.symm)
    rfl

end Resolved

end Method

/-- The values of a family are all of one shape, those of the tags apart. -/
theorem Value.of_family? (value : Value) (family : Family) (belongs : value.family? = .some family) :
    match family with
    | .number => ∃ content, value = .number content
    | .text => ∃ content, value = .text content
    | .sequence => ∃ items, value = .list items
    | .record => ∃ content, value = .record content
    | .tag => True := by
  cases value with
  | function => cases belongs
  | number | text | list | record =>
    cases belongs
    exact ⟨_, rfl⟩
  | _ =>
    cases belongs
    trivial

namespace BinaryOp

/-- The operators that stand for methods of numbers only. -/
def ofNumbers : List BinaryOp := [add, sub, mul, div, mod, pow, lt, ltEq, gt, gtEq]

/-- The operators whose result on numbers is a number. -/
def isArithmetic : BinaryOp → Bool
  | add | sub | mul | div | mod | pow => true
  | _ => false

end BinaryOp

namespace Method

/-- The rows of methods that one family has for itself and that are no operators. -/
def particular : List Method :=
  [⟨.text, "size", [], .number⟩, ⟨.text, "getCharCode", [.number], .optionCodePoint⟩,
   ⟨.text, "concat", [.receiverFamily], .receiverFamily⟩, ⟨.sequence, "get", [.number], .optionElement⟩,
   ⟨.sequence, "append", [.any], .receiverFamily⟩, ⟨.sequence, "size", [], .number⟩,
   ⟨.sequence, "mapWithResult", [.function], .resultSequence⟩, ⟨.record, "set", [.text, .any], .receiverFamily⟩,
   ⟨.record, "set", [.record], .receiverFamily⟩]

theorem table_rows : ∀ row ∈ table,
    row = copying row.receiver ∨ row ∈ comparing row.receiver ∨
    (∃ op ∈ BinaryOp.ofNumbers, op.method? = some row.name ∧
      row = if op.isArithmetic then arithmetic row.name else ordering row.name) ∨
    row ∈ particular := by decide

/-- The calls that the methods are made for, each with what it gives. -/
inductive Accepted : Value → String → List Value → ReturnSpec → Prop
  | copy (receiver : Value) : Accepted receiver "clone" [] .receiverFamily
  | equals (receiver other : Value) : Accepted receiver "equals" [other] .bool
  | notEquals (receiver other : Value) : Accepted receiver "notEquals" [other] .bool
  | operate (op : BinaryOp) (numeric : op ∈ BinaryOp.ofNumbers) (name : String) (stands : op.method? = some name)
      (a b : Number) :
      Accepted (.number a) name [.number b] (if op.isArithmetic then .receiverFamily else .bool)
  | textSize (text : Text) : Accepted (.text text) "size" [] .number
  | codePointAt (text : Text) (position : Number) :
      Accepted (.text text) "getCharCode" [.number position] .optionCodePoint
  | append (a b : Text) : Accepted (.text a) "concat" [.text b] .receiverFamily
  | elementAt (items : List Value) (position : Number) :
      Accepted (.list items) "get" [.number position] .optionElement
  | appendElement (items : List Value) (item : Value) : Accepted (.list items) "append" [item] .receiverFamily
  | sequenceSize (items : List Value) : Accepted (.list items) "size" [] .number
  | mapWithResult (items : List Value) (func : Closure Value) :
      Accepted (.list items) "mapWithResult" [.function func] .resultSequence
  | setField (record : Record Value) (field : Text) (value : Value) :
      Accepted (.record record) "set" [.text field, value] .receiverFamily
  | setFields (record updates : Record Value) :
      Accepted (.record record) "set" [.record updates] .receiverFamily

theorem Accepted.of_walk {receiver : Value} {name : String} {args : List Value} {returns : ReturnSpec}
    (accepted : Accepted receiver name args returns) (walk : name = "mapWithResult") :
    ∃ items func, receiver = .list items ∧ args = [.function func] := by
  have named : ∀ op ∈ BinaryOp.ofNumbers, op.method? ≠ some "mapWithResult" := by decide
  cases accepted with
  | mapWithResult items func => exact ⟨items, func, rfl, rfl⟩
  | operate op numeric name stands a b => exact absurd (walk ▸ stands) (named op numeric)
  | _ => exact absurd walk (by decide)

/-- A call whose arguments fit its row is one that the methods are made for. -/
theorem accepted_of_fits (row : Method) (receiver : Value) (args : List Value) (listed : row ∈ table)
    (family : receiver.family? = some row.receiver)
    (fits : List.Forall₂ (fun param arg => param.Fits receiver arg) row.params args) :
    Accepted receiver row.name args row.returns := by
  have none (same : row.params = []) : args = [] := by
    rw [same] at fits
    cases fits
    rfl
  have single (param : ParamSpec) (same : row.params = [param]) : ∃ arg, args = [arg] ∧ param.Fits receiver arg := by
    rw [same] at fits
    cases fits with
    | cons fit rest =>
      cases rest
      exact ⟨_, rfl, fit⟩
  rcases table_rows row listed with copies | compares | ⟨op, numeric, stands, operates⟩ | own
  · rw [copies] at none ⊢
    rw [none rfl]
    exact .copy receiver
  · simp only [comparing, List.mem_cons, List.not_mem_nil, or_false] at compares
    rcases compares with same | same
    all_goals
      rw [same] at single ⊢
      obtain ⟨other, rfl, _⟩ := single _ rfl
    · exact .equals receiver other
    · exact .notEquals receiver other
  · have received : row.receiver = .number := by
      rw [operates]
      split <;> rfl
    have params : row.params = [.receiverFamily] := by
      rw [operates]
      split <;> rfl
    have returns : row.returns = if op.isArithmetic then .receiverFamily else .bool := by
      rw [operates]
      split <;> rfl
    rw [received] at family
    obtain ⟨a, rfl⟩ := receiver.of_family? .number family
    obtain ⟨other, rfl, fit⟩ := single _ params
    obtain ⟨b, rfl⟩ := other.of_family? .number fit
    rw [returns]
    exact .operate op numeric row.name stands a b
  · simp only [particular, List.mem_cons, List.not_mem_nil, or_false] at own
    rcases own with rfl | rfl | rfl | rfl | rfl | rfl | rfl | rfl | rfl
    · obtain ⟨text, rfl⟩ := receiver.of_family? .text family
      rw [none rfl]
      exact .textSize text
    · obtain ⟨text, rfl⟩ := receiver.of_family? .text family
      obtain ⟨_, rfl, position, rfl⟩ := single _ rfl
      exact .codePointAt text position
    · obtain ⟨a, rfl⟩ := receiver.of_family? .text family
      obtain ⟨other, rfl, fit⟩ := single _ rfl
      obtain ⟨b, rfl⟩ := other.of_family? .text fit
      exact .append a b
    · obtain ⟨items, rfl⟩ := receiver.of_family? .sequence family
      obtain ⟨_, rfl, position, rfl⟩ := single _ rfl
      exact .elementAt items position
    · obtain ⟨items, rfl⟩ := receiver.of_family? .sequence family
      obtain ⟨item, rfl, _⟩ := single _ rfl
      exact .appendElement items item
    · obtain ⟨items, rfl⟩ := receiver.of_family? .sequence family
      rw [none rfl]
      exact .sequenceSize items
    · obtain ⟨items, rfl⟩ := receiver.of_family? .sequence family
      obtain ⟨_, rfl, func, rfl⟩ := single _ rfl
      exact .mapWithResult items func
    · obtain ⟨record, rfl⟩ := receiver.of_family? .record family
      cases fits with
      | cons fit rest =>
        obtain ⟨field, rfl⟩ := fit
        cases rest with
        | cons _ rest =>
          cases rest
          exact .setField record field _
    · obtain ⟨record, rfl⟩ := receiver.of_family? .record family
      obtain ⟨_, rfl, updates, rfl⟩ := single _ rfl
      exact .setFields record updates

end Method

/-- Errors that methods raise in their own work: arithmetic without a result, and a field name that is no string or one
that cannot be named. -/
inductive EvalError.Intrinsic : EvalError → Prop
  | domain (error : EvalError) (domain : error.cause.isDomain = true) : Intrinsic error
  | unpaired : Intrinsic (.new "field name contains an unpaired surrogate")
  | unnamed (refusal : InternError) : Intrinsic (.new refusal.message)

theorem orOverflow_domain (operation : String) (result : Option Number) (error : EvalError)
    (failed : orOverflow operation result = .error error) : error.cause.isDomain = true := by
  cases result with
  | none =>
    cases failed
    rfl
  | some number => cases failed

theorem BinaryOp.onNumbers_domain (op : BinaryOp) (numeric : op ∈ ofNumbers) (a b : Number) (error : EvalError)
    (failed : op.onNumbers a b = .error error) : error.cause.isDomain = true := by
  cases op with
  | add | sub | mul => exact orOverflow_domain _ _ error failed
  | div | mod | pow =>
    simp only [onNumbers] at failed
    split at failed
    next =>
      cases failed
      rfl
    next => exact orOverflow_domain _ _ error failed
  | eq | notEq | lt | ltEq | gt | gtEq => cases failed
  | concat | and | or => exact absurd numeric (by decide)

/-- Errors that refuse a call: there is no such method, or not with such arguments, or one of them is missing. -/
inductive ErrorCause.Refusal : ErrorCause → Prop
  | undefinedMethod (method typeName : String) : Refusal (.undefinedMethod method typeName)
  | arityMismatch (name : String) (expected got : Nat) : Refusal (.arityMismatch name expected got)
  | typeMismatch (expected got : String) : Refusal (.typeMismatch expected got)
  | missingArgument (position : Nat) : Refusal (.custom ("missing argument " ++ toString position))

theorem ErrorCause.Refusal.not_domain {cause : ErrorCause} (refusal : cause.Refusal) : cause.isDomain = false := by
  cases refusal <;> rfl

theorem EvalError.Intrinsic.not_refusal {error : EvalError} (intrinsic : error.Intrinsic) : ¬ error.cause.Refusal := by
  -- The two messages do not start as the one about a missing argument does.
  have other (message : String) (start : message.toList.head? ≠ some 'm') :
      ¬ (EvalError.new message).cause.Refusal := by
    intro refusal
    generalize cause : (EvalError.new message).cause = found at refusal
    cases refusal with
    | missingArgument position =>
      apply start
      rw [ErrorCause.custom.inj cause, String.toList_append]
      rfl
    | _ => cases cause
  intro refusal
  cases intrinsic with
  | domain error domain => simp [refusal.not_domain] at domain
  | unpaired => exact other "field name contains an unpaired surrogate" (by decide) refusal
  | unnamed refused =>
    obtain ⟨count⟩ := refused
    have written : (InternError.overflow count).message =
        "interner exceeded capacity: " ++ (toString count ++ " strings, max is 4294967295") := String.append_assoc
    have start : (InternError.overflow count).message.toList.head? ≠ some 'm' := by
      rw [written, String.toList_append]
      simp
    exact other _ start refusal

section Calls

variable {m : Type → Type} [Monad m] [LawfulMonad m] (host : Host m) (receiver : Value) (name : String)
  (args : List Value)

theorem Value.callMethod_of_error (error : EvalError) (refused : Method.resolve receiver name args = .error error) :
    receiver.callMethod host name args = throw error := by
  unfold Value.callMethod
  rw [refused]
  exact pure_bind (Except.error error) (ExceptT.bindCont _)

theorem Value.callMethod_of_ok (row : Method) (resolved : Method.resolve receiver name args = .ok row) :
    receiver.callMethod host name args = Method.dispatch host receiver name args := by
  unfold Value.callMethod
  rw [resolved]
  exact pure_bind (Except.ok row) (ExceptT.bindCont _)

omit [LawfulMonad m] in
/-- A number finds an operator by the method that it stands for. -/
theorem Method.dispatch_operate (op : BinaryOp) (numeric : op ∈ BinaryOp.ofNumbers) (stands : op.method? = some name)
    (a b : Number) :
    dispatch host (.number a) name [.number b] = ExceptT.mk (pure (op.onNumbers a b)) := by
  cases op with
  | eq | notEq | concat | and | or => exact absurd numeric (by decide)
  | _ =>
    obtain rfl := Option.some.inj stands
    rfl

omit [LawfulMonad m] in
theorem Method.dispatch_textSize (text : Text) :
    dispatch host (.text text) "size" [] = ExceptT.mk (pure (sizeValue text.size)) := by
  have found : onText "size" text [] = sizeValue text.size := by
    generalize named : "size" = name
    unfold onText
    split
    next => rfl
    next => exact absurd named (by decide)
    next => exact absurd named (by decide)
    next other _ _ => exact absurd named.symm other
  rw [← found]
  rfl

omit [LawfulMonad m] in
theorem Method.dispatch_sequenceSize (items : List Value) :
    dispatch host (.list items) "size" [] = ExceptT.mk (pure (sizeValue items.length)) := rfl

/-- A call that the methods are made for fails by their own work only, walks over callbacks apart. -/
theorem Method.dispatch_raisesOnly (returns : ReturnSpec) (accepted : Accepted receiver name args returns)
    (direct : name ≠ "mapWithResult") : RaisesOnly EvalError.Intrinsic (dispatch host receiver name args) := by
  have given (value : Value) : RaisesOnly EvalError.Intrinsic (pure value : ExceptT EvalError m Value) := by
    refine concludes_settled (.ok value) ?_
    intro error failed
    cases failed
  have fails (error : EvalError) (intrinsic : error.Intrinsic) :
      RaisesOnly EvalError.Intrinsic (throw error : ExceptT EvalError m Value) := by
    refine concludes_settled (.error error) ?_
    rintro _ ⟨⟩
    exact intrinsic
  cases accepted with
  | copy | equals | notEquals | codePointAt | append | elementAt | appendElement | setFields => exact given _
  | operate op numeric name stands a b =>
    rw [dispatch_operate host name op numeric stands]
    exact concludes_settled _ fun error failed => .domain error (op.onNumbers_domain numeric a b error failed)
  | textSize text =>
    rw [dispatch_textSize]
    exact concludes_settled _ fun error failed => .domain error (orOverflow_domain _ _ error failed)
  | sequenceSize items =>
    rw [dispatch_sequenceSize]
    exact concludes_settled _ fun error failed => .domain error (orOverflow_domain _ _ error failed)
  | mapWithResult => exact absurd rfl direct
  | setField record field value =>
    change RaisesOnly _ (setByText host record field value)
    unfold setByText
    split
    next s _ =>
      refine concludes_lift_bind _ _ fun outcome => ?_
      cases outcome with
      | ok name => exact given _
      | error refusal => exact fails _ (.unnamed refusal)
    next => exact fails _ .unpaired

/-- The table alone decides which calls are refused, and a refused call does nothing: no row of the receiver's family
has the name, or none of those has the number of arguments, or its row rejects an argument, the first of which is named
in a note. Any other call does its method's work: a walk for `mapWithResult`, and for the rest no refusal. -/
theorem Value.callMethod_refusals :
    ((∃ closure, receiver = .function closure) ∨ (∀ row : Method, ¬ row.IsFor receiver name) →
      receiver.callMethod host name args = throw (.of (.undefinedMethod name receiver.typeName))) ∧
    ((∃ row : Method, row.IsFor receiver name) →
      (∀ row : Method, row.IsFor receiver name → row.arity ≠ args.length) →
      ∃ row : Method, row.IsFor receiver name ∧
        receiver.callMethod host name args = throw (.of (.arityMismatch name row.arity args.length))) ∧
    ∀ row : Method, row.IsFor receiver name → row.arity = args.length →
      (∀ position param arg, row.RejectsFirst receiver args position param arg →
        receiver.callMethod host name args = throw (Method.rejection receiver name position param arg)) ∧
      ((∀ position param arg, ¬ row.Rejects receiver args position param arg) →
        (name ≠ "mapWithResult" →
          RaisesOnly (fun error => ¬ error.cause.Refusal) (receiver.callMethod host name args)) ∧
        (name = "mapWithResult" → ∃ items func, receiver = .list items ∧ args = [func] ∧
          receiver.callMethod host name args = mapWithResult (fun item => host.call func [item]) items)) := by
  refine ⟨?_, ?_, fun row isFor count => ⟨?_, ?_⟩⟩
  · intro unanswered
    apply callMethod_of_error
    apply Method.resolve_undefined
    rcases unanswered with ⟨closure, rfl⟩ | unanswered
    · rintro row ⟨_, family, _⟩
      cases family
    · exact unanswered
  · rintro ⟨row, isFor⟩ counts
    obtain ⟨first, firstFor, resolved⟩ := Method.resolve_arity isFor counts
    exact ⟨first, firstFor, callMethod_of_error host receiver name args _ resolved⟩
  · intro position param arg first
    exact callMethod_of_error host receiver name args _ (Method.resolve_rejected isFor count first)
  · intro accepts
    rw [callMethod_of_ok host receiver name args row (Method.resolve_accepted isFor count accepts)]
    obtain ⟨listed, family, named⟩ := isFor
    have fits := (row.fits_iff_forall₂ receiver args).mp ⟨count, accepts⟩
    have accepted := row.accepted_of_fits receiver args listed family fits
    rw [named] at accepted
    constructor
    · intro different
      refine (Method.dispatch_raisesOnly host receiver name args row.returns accepted different).imp ?_
      intro outcome intrinsic error failed
      exact (intrinsic error failed).not_refusal
    · intro same
      obtain ⟨items, func, rfl, rfl⟩ := accepted.of_walk same
      subst same
      exact ⟨items, .function func, rfl, rfl, rfl⟩

end Calls

/-- `1:size()`, `[]:get([])`, a record's `set` without arguments and with a name that is an unpaired surrogate, and a
walk over no items. -/
theorem Value.callMethod_refusals_each :
    let host : Host (StateM Interner) := .interning fun _ _ => pure .none
    let empty : Value := .record ⟨.none, .empty⟩
    let lone : Value := .text ⟨[0xd800]⟩
    let func : Value := .function ⟨.empty, [], ⟨0⟩, .empty, ⟨0, .empty⟩, 0⟩
    (Value.number .one).callMethod host "size" [] = throw (.of (.undefinedMethod "size" "Number")) ∧
      (∃ row : Method, row.IsFor empty "set" ∧
        empty.callMethod host "set" [] = throw (.of (.arityMismatch "set" row.arity 0))) ∧
      (Value.list []).callMethod host "get" [.list []] =
        throw ⟨.typeMismatch "Number" "Sequence", "type mismatch: expected Number, got Sequence", .none,
          [⟨"argument 0 of Sequence:get", .none⟩]⟩ ∧
      RaisesOnly (fun error => ¬ error.cause.Refusal) (empty.callMethod host "set" [lone, .none]) ∧
      (empty.callMethod host "set" [lone, .none]).run.run .new =
        (.error (.new "field name contains an unpaired surrogate"), .new) ∧
      ∃ items func', Value.list [] = .list items ∧ [func] = [func'] ∧
        (Value.list []).callMethod host "mapWithResult" [func] =
          mapWithResult (fun item => host.call func' [item]) items := by
  intro host empty lone func
  have sizeless : ∀ row ∈ Method.table, row.receiver = .number → row.name ≠ "size" := by decide
  have counted : ∀ row ∈ Method.table, row.receiver = .record → row.name = "set" → row.arity ≠ 0 := by decide
  have byName : Method.IsFor ⟨.record, "set", [.text, .any], .receiverFamily⟩ empty "set" :=
    ⟨by decide, rfl, rfl⟩
  have byNumber : Method.IsFor ⟨.sequence, "get", [.number], .optionElement⟩ (.list []) "get" :=
    ⟨by decide, rfl, rfl⟩
  have walk : Method.IsFor ⟨.sequence, "mapWithResult", [.function], .resultSequence⟩ (.list [])
      "mapWithResult" := ⟨by decide, rfl, rfl⟩
  refine ⟨?_, ?_, ?_, ?_, rfl, ?_⟩
  · refine (callMethod_refusals host (.number .one) "size" []).1 (.inr ?_)
    rintro row ⟨listed, family, named⟩
    exact sizeless row listed (Option.some.inj family).symm named
  · refine (callMethod_refusals host empty "set" []).2.1 ⟨_, byName⟩ ?_
    rintro row ⟨listed, family, named⟩
    exact counted row listed (Option.some.inj family).symm named
  · refine ((callMethod_refusals host (.list []) "get" [.list []]).2.2 _ byNumber rfl).1 0 .number (.list []) ⟨?_, ?_⟩
    · exact ⟨rfl, rfl, by simp [ParamSpec.Fits]⟩
    · intro earlier before
      omega
  · refine (((callMethod_refusals host empty "set" [lone, .none]).2.2 _ byName rfl).2 ?_).1 (by decide)
    exact ((Method.fits_iff_forall₂ _ empty [lone, .none]).mpr (by simp [ParamSpec.Fits, lone])).2
  · refine (((callMethod_refusals host (.list []) "mapWithResult" [func]).2.2 _ walk rfl).2 ?_).2 rfl
    exact ((Method.fits_iff_forall₂ _ (.list []) [func]).mpr (by simp [ParamSpec.Fits, func])).2

end TagLang
