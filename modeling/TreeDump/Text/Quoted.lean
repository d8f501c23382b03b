import TreeDump.Text.Printable

/-!
Quoted text for messages.

A text is quoted between double quotes. A double quote and a backslash are
written after a backslash; a tab, a line feed, a carriage return and the null
character as `\t`, `\n`, `\r` and `\0`; a character that extends a grapheme or
is not printable (`Text.Printable`) by its code point as `\u` and lowercase hex
digits in braces, so that no mark attaches to the character before it and no
invisible character hides. Everything else stands for itself.
-/

namespace TreeDump.Text

/-- The lowercase hex digits of a number, without leading zeros. -/
def hexDigits (n : Nat) : String :=
  String.ofList (Nat.toDigits 16 n)

/-- The quoted form of one character. -/
def quoteChar (c : Char) : String :=
  match c with
  | '"' => "\\\""
  | '\\' => "\\\\"
  | '\t' => "\\t"
  | '\n' => "\\n"
  | '\r' => "\\r"
  | _ =>
    if c.toNat = 0 then "\\0"
    else if extendsGrapheme c || !isPrintable c then
      "\\u" ++ String.ofList ['\x7b'] ++ hexDigits c.toNat ++ String.ofList ['\x7d']
    else c.toString

/-- A text between double quotes, with its special characters escaped. -/
def quoted (text : String) : String :=
  "\"" ++ String.join (text.toList.map quoteChar) ++ "\""

end TreeDump.Text
