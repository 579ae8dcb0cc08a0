import TextAdventure.Text.Hex
import TextAdventure.Text.Hidden

/-!
# Quoted text in messages

A text that is shown inside a message stands in double quotes. Quotes and backslashes are escaped,
the usual controls have their short escapes, and every other hidden character is written by its code
point, as in `\u{200b}`.
-/

namespace TextAdventure.Text

/-- A character as it stands inside the quotes. -/
def quoteChar (c : Char) : List Char :=
  match c with
  | '\x00' => ['\\', '0']
  | '\t' => ['\\', 't']
  | '\r' => ['\\', 'r']
  | '\n' => ['\\', 'n']
  | '"' => ['\\', '"']
  | '\\' => ['\\', '\\']
  | c => if isHidden c then ['\\', 'u', '\x7b'] ++ Hex.digits c.toNat ++ ['\x7d'] else [c]

/-- A text in double quotes. -/
def quote (text : String) : String :=
  String.ofList ('"' :: text.toList.flatMap quoteChar ++ ['"'])

end TextAdventure.Text
