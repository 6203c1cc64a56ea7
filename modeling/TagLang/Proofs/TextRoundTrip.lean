import TagLang.Proofs.InterningRuns
import TagLang.Proofs.MethodResolution
import TagLang.Proofs.TextPositions

/-! Strings as text and back. The text of a string is read as the characters of the string, and a text is that of a
string if none of its surrogates is unpaired; its display is this string then, and in any case has one character for
each code point. Such texts, and no others, can name a field, unless the string is new and no name is left for it. -/

namespace TagLang

namespace CodePoint

end CodePoint

namespace Text

/-- A surrogate that stands among units without its other half: a high one without a low one right after it, or a low
one without a high one right before it. -/
def LoneSurrogate (units : List UInt16) : Prop :=
  ∃ before unit after, units = before ++ unit :: after ∧
    (HighSurrogate unit ∧ (∀ low ∈ after.head?, ¬ LowSurrogate low) ∨
      LowSurrogate unit ∧ ∀ high ∈ before.getLast?, ¬ HighSurrogate high)

/-- Units before a lone surrogate leave it alone unless they end in a half of its own. -/
theorem LoneSurrogate.after (earlier units : List UInt16)
    (seam : ∀ high ∈ earlier.getLast?, ∀ low ∈ units.head?, ¬ (HighSurrogate high ∧ LowSurrogate low))
    (lone : LoneSurrogate units) : LoneSurrogate (earlier ++ units) := by
  obtain ⟨before, unit, after, rfl, alone⟩ := lone
  refine ⟨earlier ++ before, unit, after, by simp, alone.imp_right ?_⟩
  rintro ⟨trails, apart⟩
  refine ⟨trails, fun high last leads => ?_⟩
  cases before with
  | nil =>
    rw [List.append_nil] at last
    exact seam high last unit rfl ⟨leads, trails⟩
  | cons first rest =>
    rw [List.getLast?_append_cons] at last
    exact apart high last leads

end Text

section SetByText

variable {m : Type → Type} [Monad m] (record : Record Value) (field : Text) (value : Value)

variable {τ : Type} (host : Host (StateT τ m)) (state : τ)

end SetByText

namespace Text

section FieldNames

variable {σ : Type} (call : Value → List Value → ExceptT EvalError (StateT Interner (StateM σ)) Value)
  (record : Record Value) (units : List UInt16) (value : Value) (interner : Interner) (state : σ)

end FieldNames

/-- A pair is one character of the display and comes back. Of a low surrogate before a high one each becomes a
replacement character, and neither comes back. -/
example : (ofString (Text.mk [0xd83d, 0xde00]).display).units = [0xd83d, 0xde00] ∧
    (ofString (Text.mk [0xde00, 0xd83d]).display).units = [0xfffd, 0xfffd] := by
  decide

end Text

end TagLang
