import TabletopDice.Text.Printable

/-!
Text in quotes, as error messages show it. A text stands in single quotes unless
it holds a single quote and no double quote. Inside, the quote in use and the
backslash are escaped, and so is every character that is not printable.
-/

namespace TabletopDice.Text

/-- The number in lower-case hexadecimal, padded with zeros to at least `width` digits. -/
def hexadecimal (width number : Nat) : Text :=
  let digits := Nat.toDigits 16 number
  List.replicate (width - digits.length) '0' ++ digits

def quoteMark (text : Text) : Char :=
  if text.contains '\'' && !text.contains '"' then '"' else '\''

def quoteChar (mark char : Char) : Text :=
  if char = mark ∨ char = '\\' then ['\\', char]
  else if char = '\n' then ['\\', 'n']
  else if char = '\r' then ['\\', 'r']
  else if char = '\t' then ['\\', 't']
  else if isPrintable char then [char]
  else if char.toNat < 0x100 then '\\' :: 'x' :: hexadecimal 2 char.toNat
  else if char.toNat < 0x10000 then '\\' :: 'u' :: hexadecimal 4 char.toNat
  else '\\' :: 'U' :: hexadecimal 8 char.toNat

def quote (text : Text) : Text :=
  let mark := quoteMark text
  mark :: text.flatMap (quoteChar mark) ++ [mark]

def quoted (text : Text) : String := String.ofList (quote text)

example : quoted "it's".toList = "\"it's\"" := by decide

end TabletopDice.Text
