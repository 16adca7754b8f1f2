import TwoPass.Text.Printable
import TwoPass.Numeral

/-!
# Quoted text

Texts inside descriptions and system messages are quoted. The quote is a single one, unless the text
has single quotes and no double ones. Inside, the backslash and the quote in use are escaped by a
backslash, tabulator, line feed and carriage return have letters of their own, and any other
character that is not printable is given by its code point.
-/

namespace TwoPass

namespace Text

/-- The single quote. -/
def singleQuote : Char := '\x27'

/-- The double quote. -/
def doubleQuote : Char := '\x22'

/-- A character by its code point: two, four or eight hexadecimal digits, whichever suffice. -/
def codeEscape (c : Char) : Text :=
  let n := c.toNat
  if n < 0x100 then ['\\', 'x'] ++ Numeral.hex 2 n
  else if n < 0x10000 then ['\\', 'u'] ++ Numeral.hex 4 n
  else ['\\', 'U'] ++ Numeral.hex 8 n

/-- How one character stands between the given quotes. -/
def escape (quote c : Char) : Text :=
  if c = '\\' ∨ c = quote then ['\\', c]
  else if c = '\t' then ['\\', 't']
  else if c = '\n' then ['\\', 'n']
  else if c = '\r' then ['\\', 'r']
  else if isPrintable c then [c]
  else codeEscape c

/-- The quote that a text is put in. -/
def quoteFor (t : Text) : Char :=
  if t.contains singleQuote && !t.contains doubleQuote then doubleQuote else singleQuote

/-- The text in quotes. -/
def quoted (t : Text) : Text :=
  let quote := quoteFor t
  quote :: t.flatMap (escape quote) ++ [quote]

example : quoted "a\tb".toList = "'a\\tb'".toList := by decide

example : quoted "it's".toList = "\"it's\"".toList := by decide

end Text

end TwoPass
