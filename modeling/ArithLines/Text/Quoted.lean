import ArithLines.Text.Blank
import ArithLines.Text.Category
import ArithLines.Text.GraphemeExtend
import ArithLines.Text.Ignorable

/-! Text in double quotes, as log records show it: quotes, backslashes and characters that cannot be
printed are escaped. -/

namespace ArithLines.Text

/-- Whether `c` is shown as itself. Beyond ASCII this holds of no space, of no character that is
invisible or has no agreed meaning, and of none that would join the character before it. -/
def isPrintable (c : Char) : Bool :=
  if c.toNat < 0x7f then 0x20 ≤ c.toNat
  else !(isControl c || isBlank c || isFormat c || isPrivate c || isUnassigned c ||
    isExtendingMark c || isIgnorable c)

/-- The code point in lower-case hexadecimal, between braces. -/
def hexEscape (c : Char) : List Char :=
  '\\' :: 'u' :: '\x7b' :: Nat.toDigits 16 c.toNat ++ ['\x7d']

def escape (c : Char) : List Char :=
  match c with
  | '"' => ['\\', '"']
  | '\\' => ['\\', '\\']
  | '\t' => ['\\', 't']
  | '\n' => ['\\', 'n']
  | '\r' => ['\\', 'r']
  | '\x00' => ['\\', '0']
  | _ => if isPrintable c then [c] else hexEscape c

def quote (text : List Char) : String :=
  String.ofList ('"' :: text.flatMap escape ++ ['"'])

end ArithLines.Text
