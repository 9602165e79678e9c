import Prototypes.Text.Printable
import Prototypes.Text.Combining

/-!
# Quoted text

Text inside quotation marks, in which every character that could not be told
apart on a screen is replaced by an escape: the quotation mark and the
backslash, the usual control characters, and by its code point whatever has no
printed form or attaches to the character before it.
-/

namespace Prototypes.Text

/-- A code point in hexadecimal, in braces. -/
def codePoint (c : Char) : String :=
  "\\u\x7b" ++ String.ofList (Nat.toDigits 16 c.toNat) ++ "\x7d"

/-- How a character stands between quotation marks. -/
def escape (c : Char) : String :=
  match c with
  | '\x00' => "\\0"
  | '\t' => "\\t"
  | '\n' => "\\n"
  | '\r' => "\\r"
  | '"' => "\\\""
  | '\\' => "\\\\"
  | c => if isPrintable c && !isExtending c then c.toString else codePoint c

/-- Text in quotation marks. -/
def quoted (text : String) : String :=
  "\"" ++ text.foldl (fun done c => done ++ escape c) "" ++ "\""

end Prototypes.Text
