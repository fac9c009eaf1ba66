import Arbor.Text.GraphemeExtend
import Arbor.Text.Unprintable

/-!
# Quoted text

A string is displayed between double quotes.  NUL, tab, line feed, carriage
return, the double quote and the backslash have an escape of two characters;
any other character that extends a grapheme or has no printed form is written
by its code point, in lower-case hexadecimal without padding, as in `\u{ad}`;
everything else stands for itself.
-/

namespace Arbor.Text

/-- The escape by code point. -/
def codePointEscape (c : Char) : String :=
  "\\u\x7b" ++ String.ofList (Nat.toDigits 16 c.toNat) ++ "\x7d"

/-- What is written between the quotes for one character. -/
def quotedChar (c : Char) : String :=
  match c with
  | '\x00' => "\\0"
  | '\t' => "\\t"
  | '\n' => "\\n"
  | '\r' => "\\r"
  | '"' => "\\\""
  | '\\' => "\\\\"
  | _ =>
    if ' ' ≤ c && c ≤ '~' then c.toString
    else if isGraphemeExtend c || isUnprintable c then codePointEscape c
    else c.toString

/-- The string between double quotes. -/
def quoted (s : String) : String :=
  s.foldl (fun written c => written ++ quotedChar c) "\"" ++ "\""

end Arbor.Text
