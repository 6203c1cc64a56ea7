import TagLang.Text.GraphemeExtend
import TagLang.Text.Unprintable

/-! Quoted text: a string between double quotes, with the characters escaped that a reader could not
see or would misread. -/

namespace TagLang.Text

/-- The escape `\u` with the code point in hexadecimal between braces. -/
def escapeCode (c : Char) : List Char := ['\\', 'u', '\x7b'] ++ Nat.toDigits 16 c.toNat ++ ['\x7d']

/-- Single quotes stay as they are; a character that extends a grapheme would change the mark before it
and is escaped like an unprintable one. -/
def escapeChar (c : Char) : List Char :=
  match c with
  | '\x00' => ['\\', '0']
  | '\t' => ['\\', 't']
  | '\r' => ['\\', 'r']
  | '\n' => ['\\', 'n']
  | '\\' => ['\\', '\\']
  | '"' => ['\\', '"']
  | c => if isGraphemeExtend c || isUnprintable c then escapeCode c else [c]

def quote (s : String) : String := String.ofList ('"' :: s.toList.flatMap escapeChar ++ ['"'])

end TagLang.Text
