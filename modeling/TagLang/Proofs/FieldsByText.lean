import TagLang.Proofs.InterningRuns
import TagLang.Proofs.RecordUpdates
import TagLang.Proofs.TextRoundTrip

/-! Fields that are set by text. A text that is that of a string stands for the string's name, which is given out if
the string is new and one is left; setting the field by text is setting it by this name. A text of no string names
nothing. -/

namespace TagLang

namespace Interner

variable (interner : Interner)

/-- Whether a name is that of a string. -/
def Names (name : Name) (s : String) : Prop := interner.strings[name.index]? = some s

theorem Names.unique {interner : Interner} {name other : Name} {s : String} (names : interner.Names name s)
    (also : interner.Names other s) : name = other := by
  have place := interner.idxOf_strings s name.index names
  have same := interner.idxOf_strings s other.index also
  exact congrArg Name.mk (place.symm.trans same)

end Interner

namespace Session

variable (session : Session) (fuel : Nat) (record : Record Value) (value : Value)

end Session

end TagLang
