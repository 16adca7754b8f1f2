import TwoPass.Machine.Instruction

/-!
# Keywords

The tokens that may head a statement: the instructions and three directives. The origin directive
moves the location counter, the data directive emits one word with a given value, and the end
marker, whose name has a colon, emits a zero word without moving the counter. All match in any
letter case.
-/

namespace TwoPass

/-- What a known head token stands for. -/
inductive Keyword where
  /-- set the location counter -/
  | origin
  /-- emit one word with a given value -/
  | data
  /-- the end marker -/
  | finish
  /-- an instruction -/
  | instruction (m : Mnemonic)
  deriving DecidableEq

namespace Keyword

/-- Every keyword. -/
def all : List Keyword := [origin, data, finish] ++ Mnemonic.all.map instruction

/-- The name of a keyword, in upper case. -/
def name : Keyword → Text
  | origin => "LOC".toList
  | data => "DATA".toList
  | finish => "END:".toList
  | instruction m => m.name

/-- The keyword of exactly this name. -/
def ofName? (name : Text) : Option Keyword := all.find? fun k => k.name == name

/-- The keyword named by a token in any letter case. -/
def ofToken? (token : Text) : Option Keyword := ofName? (token.map Char.toUpper)

/-- Does the keyword name an instruction? -/
def isInstruction : Keyword → Bool
  | instruction _ => true
  | _ => false

/-- Does a statement of this keyword take up one word? The end marker emits a word but takes up no
room. -/
def allocates : Keyword → Bool
  | data | instruction _ => true
  | origin | finish => false

@[simp] theorem ofName?_name (k : Keyword) : ofName? k.name = some k := by
  cases k with
  | instruction m => cases m <;> decide
  | _ => decide

end Keyword

end TwoPass
