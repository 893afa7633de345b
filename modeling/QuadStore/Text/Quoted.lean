import QuadStore.Text.EscapeTable
import QuadStore.Text.Decimal

namespace QuadStore.Text

/-- A character inside a quoted text. Quotes, backslashes and the common controls have short
forms, and what cannot be seen is written by its code point. -/
def quotedChar (c : Char) : List Char :=
  match c with
  | '"' => ['\\', '"']
  | '\\' => ['\\', '\\']
  | '\n' => ['\\', 'n']
  | '\r' => ['\\', 'r']
  | '\t' => ['\\', 't']
  | '\x00' => ['\\', '0']
  | c =>
      if inRanges escapedRanges c then
        ['\\', 'u', '\x7b'] ++ hexDigits c.toNat ++ ['\x7d']
      else [c]

/-- A text between double quotes, with what would be misread written by an escape. -/
def quoted (s : String) : String :=
  String.ofList ('"' :: s.toList.flatMap quotedChar ++ ['"'])

example : quoted "weird" = "\"weird\"" := by decide +kernel

example : quoted "a\"b\n\u200b" = "\"a\\\"b\\n\\u\x7b200b\x7d\"" := by decide +kernel

end QuadStore.Text
