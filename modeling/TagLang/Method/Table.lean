import TagLang.Family

/-! The table of library methods: which family answers to which method, with which arguments, and what
the method gives. A name may have several rows that differ in the number of arguments. -/

namespace TagLang

inductive ParamSpec where
  /-- A value of the receiver's family. -/
  | receiverFamily
  | number
  | text
  | record
  | function
  | any
deriving DecidableEq, Repr

inductive ReturnSpec where
  /-- A value of the receiver's family. -/
  | receiverFamily
  | number
  | bool
  | optionCodePoint
  | optionElement
  | resultSequence
deriving DecidableEq, Repr

structure Method where
  receiver : Family
  name : String
  params : List ParamSpec
  returns : ReturnSpec
deriving DecidableEq, Repr

namespace Method

def arity (method : Method) : Nat := method.params.length

/-- Every family can be copied and compared. -/
def copying (family : Family) : Method := ⟨family, "clone", [], .receiverFamily⟩

def comparing (family : Family) : List Method :=
  [⟨family, "equals", [.receiverFamily], .bool⟩,
   ⟨family, "notEquals", [.receiverFamily], .bool⟩]

def arithmetic (name : String) : Method := ⟨.number, name, [.receiverFamily], .receiverFamily⟩

def ordering (name : String) : Method := ⟨.number, name, [.receiverFamily], .bool⟩

def table : List Method :=
  [copying .number,
   arithmetic "add",
   arithmetic "subtract",
   arithmetic "multiply",
   arithmetic "divide",
   arithmetic "modulo",
   arithmetic "power"] ++
  comparing .number ++
  [ordering "lessThan",
   ordering "lessThanOrEquals",
   ordering "greaterThan",
   ordering "greaterThanOrEquals",
   copying .text,
   ⟨.text, "size", [], .number⟩,
   ⟨.text, "getCharCode", [.number], .optionCodePoint⟩,
   ⟨.text, "concat", [.receiverFamily], .receiverFamily⟩] ++
  comparing .text ++
  [copying .sequence] ++
  comparing .sequence ++
  [⟨.sequence, "get", [.number], .optionElement⟩,
   ⟨.sequence, "append", [.any], .receiverFamily⟩,
   ⟨.sequence, "size", [], .number⟩,
   ⟨.sequence, "mapWithResult", [.function], .resultSequence⟩,
   copying .record,
   ⟨.record, "set", [.text, .any], .receiverFamily⟩,
   ⟨.record, "set", [.record], .receiverFamily⟩] ++
  comparing .record ++
  [copying .tag] ++
  comparing .tag

def ofFamily (family : Family) : List Method := table.filter fun method => method.receiver == family

def find? (family : Family) (name : String) : Option Method :=
  table.find? fun method => method.receiver == family && method.name == name

def overload? (family : Family) (name : String) (arity : Nat) : Option Method :=
  table.find? fun method => method.receiver == family && method.name == name && method.arity == arity

end Method

end TagLang
