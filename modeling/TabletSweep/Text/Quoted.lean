import TabletSweep.Text.Printable

/-!
# Quoted texts

Messages show a text between double quotes so that its ends and its invisible characters can be
seen. `quoted` escapes the quote and the backslash, writes tabulator, newline, return and the null
character by their letters, and names every other character that cannot be shown by its code point
in lower-case hexadecimal. Single quotes stand as they are.
-/

namespace TabletSweep.Text

/-- One character of a quoted text. -/
def quotedChar (c : Char) : List Char :=
  match c with
  | '"' => ['\\', '"']
  | '\\' => ['\\', '\\']
  | '\t' => ['\\', 't']
  | '\n' => ['\\', 'n']
  | '\r' => ['\\', 'r']
  | '\x00' => ['\\', '0']
  | c => if isShown c then [c] else ['\\', 'u', '\x7b'] ++ Nat.toDigits 16 c.toNat ++ ['\x7d']

/-- A text between double quotes, with every character that would not be seen escaped. -/
def quoted (s : String) : String :=
  String.ofList (['"'] ++ s.toList.flatMap quotedChar ++ ['"'])

end TabletSweep.Text
