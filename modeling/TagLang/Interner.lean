import TagLang.Name

/-! The interner: distinct strings in the order they were first seen. A string's index never changes,
and the reserved strings always come first. -/

namespace TagLang

structure Interner where
  added : List String
  distinct : (Name.reserved ++ added).Nodup

inductive InternError where
  | overflow (count : Nat)
deriving DecidableEq, Repr

namespace InternError

def message : InternError → String
  | overflow count => "interner exceeded capacity: " ++ toString count ++ " strings, max is 4294967295"

end InternError

namespace Interner

def new : Interner := ⟨[], by decide⟩

def strings (interner : Interner) : List String := Name.reserved ++ interner.added

def size (interner : Interner) : Nat := interner.strings.length

def isEmpty (interner : Interner) : Bool := interner.size == 0

/-- The string a name stands for; a name this interner never gave out stands for the empty string. -/
def lookup (interner : Interner) (name : Name) : String := interner.strings[name.index]?.getD ""

private theorem distinct_append {strings : List String} {s : String} (distinct : strings.Nodup)
    (fresh : strings.idxOf? s = none) : (strings ++ [s]).Nodup := by
  rw [List.idxOf?_eq_none_iff] at fresh
  rw [List.nodup_append]
  refine ⟨distinct, by simp, ?_⟩
  intro a known b last
  rw [List.mem_singleton] at last
  exact fun same => fresh (last ▸ same ▸ known)

/-- The name of a string, which is added at the end unless it is known. -/
def intern (interner : Interner) (s : String) : Name × Interner :=
  match found : interner.strings.idxOf? s with
  | some index => (⟨index⟩, interner)
  | none =>
    (⟨interner.size⟩, ⟨interner.added ++ [s], by
      rw [← List.append_assoc]
      exact distinct_append interner.distinct found⟩)

/-- How many names there are: a name is 32 bits wide. -/
def capacity : Nat := 4294967296

/-- The name of a string, unless it is new and all names are taken; then nothing is added. -/
def tryIntern (interner : Interner) (s : String) : Except InternError Name × Interner :=
  if s ∈ interner.strings ∨ interner.size < capacity then
    let (name, after) := interner.intern s
    (.ok name, after)
  else (.error (.overflow interner.size), interner)

end Interner

end TagLang
