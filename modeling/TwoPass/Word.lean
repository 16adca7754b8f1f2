import TwoPass.Numeral

/-!
# Emitted words

Every word the second pass emits goes to the listing, with its source, and to the load file,
without it. Addresses and words are written in octal.
-/

namespace TwoPass

/-- A word at an address, with the source it comes from. -/
structure Word where
  /-- the location counter when the word was emitted -/
  address : Int
  /-- the encoded instruction or the data value -/
  value : Int
  /-- the trimmed source line -/
  source : Text
  /-- the number of the source line -/
  line : Int
  deriving DecidableEq

namespace Word

/-- Address and word in octal: a line of the load file. -/
def loadText (w : Word) : Text := Numeral.octal w.address ++ ' ' :: Numeral.octal w.value

/-- Address, word and source: a line of the listing. -/
def listingText (w : Word) : Text := w.loadText ++ ' ' :: w.source

end Word

/-- The lines one after the other, each ended by a line feed. -/
def endLines (lines : List Text) : Text := lines.flatMap (· ++ ['\n'])

end TwoPass
