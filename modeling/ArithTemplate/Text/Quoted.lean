import ArithTemplate.Text.Combining
import ArithTemplate.Text.Unprintable

set_option autoImplicit false

/-!
Quoted texts: double quotes around the characters, with a backslash form for the quote, the
backslash, and every character that would not show as one mark of its own.
-/

namespace ArithTemplate.Text

def codePointEscape (c : Char) : Text :=
  ['\\', 'u', '{'] ++ Nat.toDigits 16 c.toNat ++ ['}']

def escape (c : Char) : Text :=
  match c with
  | '\x00' => ['\\', '0']
  | '\t' => ['\\', 't']
  | '\n' => ['\\', 'n']
  | '\r' => ['\\', 'r']
  | '"' => ['\\', '"']
  | '\\' => ['\\', '\\']
  | _ => if isCombining c || isUnprintable c then codePointEscape c else [c]

def quoted (s : Text) : Text := '"' :: s.flatMap escape ++ ['"']

end ArithTemplate.Text
