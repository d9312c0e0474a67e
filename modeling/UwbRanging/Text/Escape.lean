import UwbRanging.Text.Unprintable
import UwbRanging.RangingError

/-!
Quoted text. A quotation is one line of printable characters whatever the text: what would break the line or
not show is written as an escape. Messages leave an apostrophe as it is, saved files escape it too.
-/

namespace UwbRanging.Text

/-- The code point in braces. -/
def codePointEscape (c : Char) : String :=
  "\\u\x7b" ++ hexDigits c.toNat ++ "\x7d"

/-- The written form of one character between double quotes. -/
def escapeChar (escapeApostrophe : Bool) (c : Char) : String :=
  match c with
  | '\x00' => "\\0"
  | '\t' => "\\t"
  | '\r' => "\\r"
  | '\n' => "\\n"
  | '"' => "\\\""
  | '\\' => "\\\\"
  | '\x27' => if escapeApostrophe then "\\\x27" else "\x27"
  | c => if isPrintable c then String.singleton c else codePointEscape c

def quoteWith (escapeApostrophe : Bool) (s : List Char) : String :=
  "\"" ++ String.join (s.map (escapeChar escapeApostrophe)) ++ "\""

/-- A quotation in a message. -/
def quote (s : String) : String :=
  quoteWith false s.toList

end UwbRanging.Text
