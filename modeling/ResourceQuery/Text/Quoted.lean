import ResourceQuery.Text.Printable

/-!
# Quoted text

How a text or a byte string is shown inside a message.

* `quoteFor`: single quotes, unless the text holds a single quote and no double quote;
* `quoted`: the text between its quotes, with the quote, the backslash, line ends and tabs
  escaped and every other character that is not printable written by its number;
* `quotedBytes`: the same for bytes, where everything outside printable ASCII is numbered.
-/

namespace ResourceQuery.Text

/-- A number in lower-case hexadecimal, with at least `width` digits. -/
def hex (width n : Nat) : List Char :=
  let digits := Nat.toDigits 16 n
  List.replicate (width - digits.length) '0' ++ digits

/-- The quote put around a text. -/
def quoteFor (chars : List Char) : Char :=
  if chars.contains '\'' && !chars.contains '"' then '"' else '\''

/-- A character by its number, as short as its size allows. -/
def numbered (code : Nat) : List Char :=
  if code < 0x100 then '\\' :: 'x' :: hex 2 code
  else if code < 0x10000 then '\\' :: 'u' :: hex 4 code
  else '\\' :: 'U' :: hex 8 code

/-- A character that has an escape of its own, or the class that decides about the others. -/
def escaped (quote : Char) (plain : Char → Bool) (c : Char) : List Char :=
  if c = quote ∨ c = '\\' then ['\\', c]
  else if c = '\n' then ['\\', 'n']
  else if c = '\r' then ['\\', 'r']
  else if c = '\t' then ['\\', 't']
  else if plain c then [c]
  else numbered c.toNat

/-- A text between quotes. -/
def quoted (text : String) : String :=
  let chars := text.toList
  let quote := quoteFor chars
  String.ofList (quote :: chars.flatMap (escaped quote isPrintable) ++ [quote])

/-- A byte string between quotes, marked with a `b`. -/
def quotedBytes (bytes : List UInt8) : String :=
  let chars := bytes.map fun b => Char.ofNat b.toNat
  let quote := quoteFor chars
  let plain := fun c : Char => decide (0x20 ≤ c.toNat ∧ c.toNat < 0x7F)
  String.ofList ('b' :: quote :: chars.flatMap (escaped quote plain) ++ [quote])

end ResourceQuery.Text
