import TokenGrammar.Text.Range

/-!
This module contains the quoted form of a text, as it stands in messages and in the written form of
a value: between single quotes where possible, with an escape for everything that would not show.
-/

namespace TokenGrammar
namespace Text

/--
Characters that have no visible form of their own: controls, format marks, private characters and
every space or separator but the space of ASCII.
-/
def invisibleRanges : Ranges := [
  (0x0, 0x1F), (0x7F, 0xA0), (0xAD, 0xAD), (0x600, 0x605), (0x61C, 0x61C), (0x6DD, 0x6DD),
  (0x70F, 0x70F), (0x890, 0x891), (0x8E2, 0x8E2), (0x1680, 0x1680), (0x180E, 0x180E),
  (0x2000, 0x200F), (0x2028, 0x202F), (0x205F, 0x2064), (0x2066, 0x206F), (0x3000, 0x3000),
  (0xD800, 0xF8FF), (0xFEFF, 0xFEFF), (0xFFF9, 0xFFFB), (0x110BD, 0x110BD), (0x110CD, 0x110CD),
  (0x13430, 0x13438), (0x1BCA0, 0x1BCA3), (0x1D173, 0x1D17A), (0xE0001, 0xE0001),
  (0xE0020, 0xE007F), (0xF0000, 0xFFFFD), (0x100000, 0x10FFFD)]

/--
Whether a character shows as itself in a quoted text.
-/
def isVisible (c : Char) : Bool :=
  !invisibleRanges.contains c.toNat

/--
The last `width` hexadecimal digits of a number, in lower case.
-/
def hexDigits : (width : Nat) → Nat → List Char
  | 0, _ => []
  | width + 1, n => hexDigits width (n / 16) ++ [Nat.digitChar (n % 16)]

/--
The form of one character inside a text quoted by `quote`.
-/
def quoteChar (quote c : Char) : List Char :=
  if c == quote || c == '\\' then ['\\', c]
  else if c == '\n' then ['\\', 'n']
  else if c == '\r' then ['\\', 'r']
  else if c == '\t' then ['\\', 't']
  else if isVisible c then [c]
  else if c.toNat < 0x100 then '\\' :: 'x' :: hexDigits 2 c.toNat
  else if c.toNat < 0x10000 then '\\' :: 'u' :: hexDigits 4 c.toNat
  else '\\' :: 'U' :: hexDigits 8 c.toNat

/--
The mark that quotes a text: the single quote, unless the text holds one and no double quote.
-/
def quoteMark (cs : List Char) : Char :=
  if cs.contains '\x27' && !cs.contains '\x22' then '\x22' else '\x27'

/--
The quoted form of a text.
-/
def quoted (text : String) : String :=
  let cs := text.toList
  let quote := quoteMark cs
  String.ofList (quote :: cs.flatMap (quoteChar quote) ++ [quote])

end Text
end TokenGrammar
