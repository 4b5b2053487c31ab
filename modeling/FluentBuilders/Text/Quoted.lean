import FluentBuilders.Text.Combining
import FluentBuilders.Text.Unprintable

/-! # Quoted texts in messages

A message that quotes a text which may hold anything writes it between double
quotes, with the characters that would be invisible or misleading written by an
escape.  A message that quotes a text then stays on its line.
-/
namespace FluentBuilders
namespace Text

/-- The lower-case hexadecimal digits of a number. -/
def hexDigits (n : Nat) : List Char :=
  Nat.toDigits 16 n

/-- One character of a quoted text.  Quotes, backslashes and the usual controls
have escapes of their own; any other character that is not seen by itself is
written by its number. -/
def quotedChar (c : Char) : List Char :=
  if c = '\"' then ['\\', '\"']
  else if c = '\\' then ['\\', '\\']
  else if c = '\n' then ['\\', 'n']
  else if c = '\r' then ['\\', 'r']
  else if c = '\t' then ['\\', 't']
  else if c = '\x00' then ['\\', '0']
  else if isCombining c || isUnprintable c then
    ['\\', 'u', '\x7b'] ++ hexDigits c.toNat ++ ['\x7d']
  else [c]

/-- A text between double quotes. -/
def quoted (s : List Char) : List Char :=
  '\"' :: (s.flatMap quotedChar ++ ['\"'])

end Text
end FluentBuilders
