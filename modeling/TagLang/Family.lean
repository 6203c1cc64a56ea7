/-! Families of values: each answers to its own library methods. -/

namespace TagLang

/-- Booleans, options and results belong to the tags. -/
inductive Family where
  | number
  | text
  | sequence
  | record
  | tag
deriving DecidableEq, Repr

namespace Family

def title : Family → String
  | number => "Number"
  | text => "Text"
  | sequence => "Sequence"
  | record => "Record"
  | tag => "Tag"

end Family

end TagLang
