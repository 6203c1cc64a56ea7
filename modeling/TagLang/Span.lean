/-! Ranges of source text. -/

namespace TagLang

structure Span where
  start : Nat
  stop : Nat
deriving DecidableEq, Repr

namespace Span

/-- The span of an expression that no source text stands behind. -/
def dummy : Span := ⟨0, 0⟩

def isDummy (span : Span) : Bool := span == dummy

def merge (a b : Span) : Span := ⟨min a.start b.start, max a.stop b.stop⟩

def text (span : Span) : String := toString span.start ++ ".." ++ toString span.stop

end Span

end TagLang
