/-! Text: a sequence of UTF-16 units that may hold unpaired surrogates. A high surrogate with the low one
after it is one code point, and any other unit is one by itself. Code points are counted by decoding all
units, and found by steps from unit to unit. -/

namespace TagLang

/-- A Unicode code point; the surrogates are among them. -/
structure CodePoint where
  val : Nat
  bound : val < 0x110000
deriving DecidableEq

namespace CodePoint

def ofUnit (unit : UInt16) : CodePoint :=
  ⟨unit.toNat, by have small := unit.toNat_lt; omega⟩

/-- The supplementary code point of a surrogate pair, ten bits from each. -/
def ofPair (high low : UInt16) : CodePoint :=
  ⟨0x10000 + high.toNat % 0x400 * 0x400 + low.toNat % 0x400, by omega⟩

/-- The character of a code point that is not a surrogate. -/
def char? (point : CodePoint) : Option Char :=
  if valid : point.val.isValidChar then some (Char.ofNatAux point.val valid) else none

end CodePoint

structure Text where
  units : List UInt16
deriving DecidableEq

namespace Text

def isHigh (unit : UInt16) : Bool := 0xd800 ≤ unit && unit ≤ 0xdbff

def isLow (unit : UInt16) : Bool := 0xdc00 ≤ unit && unit ≤ 0xdfff

def encodeChar (c : Char) : List UInt16 :=
  if c.toNat < 0x10000 then [c.toNat.toUInt16]
  else
    let offset := c.toNat - 0x10000
    [(0xd800 + offset / 0x400).toUInt16, (0xdc00 + offset % 0x400).toUInt16]

def ofString (s : String) : Text := ⟨s.toList.flatMap encodeChar⟩

/-- The code points of units read from left to right. -/
def decode : List UInt16 → List CodePoint
  | [] => []
  | [unit] => [.ofUnit unit]
  | high :: low :: rest =>
    if isHigh high && isLow low then .ofPair high low :: decode rest
    else .ofUnit high :: decode (low :: rest)

def codePoints (text : Text) : List CodePoint := decode text.units

def isEmpty (text : Text) : Bool := text.units.isEmpty

def size (text : Text) : Nat := text.codePoints.length

def isHighAt (text : Text) (index : Nat) : Bool := text.units[index]?.any isHigh

def isLowAt (text : Text) (index : Nat) : Bool := text.units[index]?.any isLow

/-- Where the code point after the one at an index starts. -/
def nextStart? (text : Text) (index : Nat) : Option Nat := do
  let unit ← text.units[index]?
  return if isHigh unit && text.isLowAt (index + 1) then index + 2 else index + 1

/-- Where the code point that ends just before an index starts. -/
def prevStart? (text : Text) : Nat → Option Nat
  | 0 => none
  | 1 => (text.units[0]?).map fun _ => 0
  | index + 2 => do
    let unit ← text.units[index + 1]?
    return if isLow unit && text.isHighAt index then index else index + 1

/-- The code point of the unit at an index and, if the two are a pair, the unit after it. -/
def pointAt? (text : Text) (index : Nat) : Option CodePoint := do
  let unit ← text.units[index]?
  match text.units[index + 1]? with
  | some low => return if isHigh unit && isLow low then .ofPair unit low else .ofUnit unit
  | none => return .ofUnit unit

/-- Takes a number of steps from an index, if there are so many. -/
def steps? (step : Nat → Option Nat) : Nat → Nat → Option Nat
  | 0, index => some index
  | count + 1, index => (step index).bind (steps? step count)

/-- The code point at a position, counted from the start if it is not negative, and back from the end,
where -1 is the last, if it is. -/
def codePointAt? (text : Text) (position : Int) : Option CodePoint :=
  let start? :=
    if 0 ≤ position then steps? text.nextStart? position.natAbs 0
    else steps? text.prevStart? position.natAbs text.units.length
  start?.bind text.pointAt?

def append (a b : Text) : Text := ⟨a.units ++ b.units⟩

/-- The string of a text in which every surrogate is paired. -/
def toString? (text : Text) : Option String := (text.codePoints.mapM CodePoint.char?).map String.ofList

/-- The text as a string, with a replacement character for each unpaired surrogate. -/
def display (text : Text) : String :=
  String.ofList (text.codePoints.map fun point => point.char?.getD '\ufffd')

end Text

end TagLang
