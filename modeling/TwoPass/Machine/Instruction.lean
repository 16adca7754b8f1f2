import TwoPass.Numeral

/-!
# The instruction set

Five instructions. Each has a `Format`: the fixed bits of its word, its operand fields in source
order with the place each is shifted to, and, for one of them, the bit that an extra field sets.
Fields may overlap each other and the fixed bits; the word is their bitwise union.
-/

namespace TwoPass

/-- The instructions of the machine. -/
inductive Mnemonic where
  /-- load an index register -/
  | ldx
  /-- load a register from memory -/
  | ldr
  /-- load a register with an address -/
  | lda
  /-- jump if zero -/
  | jz
  /-- halt -/
  | hlt
  deriving DecidableEq

/-- An operand field of an instruction. -/
structure Field where
  /-- its name, for descriptions -/
  name : Text
  /-- how far to the left its value is placed -/
  shift : Nat
  deriving DecidableEq

/-- How an instruction becomes a word. -/
structure Format where
  /-- the fixed bits -/
  base : Nat
  /-- the operand fields in source order -/
  fields : List Field
  /-- the bit set by a field beyond those, if the instruction has such a bit -/
  indirect : Option Nat
  deriving DecidableEq

namespace Mnemonic

/-- Every instruction, in the order of the opcode table. -/
def all : List Mnemonic := [ldx, ldr, lda, jz, hlt]

/-- The name of an instruction, in upper case. -/
def name : Mnemonic → Text
  | ldx => "LDX".toList
  | ldr => "LDR".toList
  | lda => "LDA".toList
  | jz => "JZ".toList
  | hlt => "HLT".toList

/-- The encoding of an instruction. -/
def format : Mnemonic → Format
  | ldx => ⟨0x102000, [⟨"x".toList, 9⟩, ⟨"address".toList, 0⟩], none⟩
  | ldr => ⟨0x000000, [⟨"r".toList, 13⟩, ⟨"x".toList, 9⟩, ⟨"address".toList, 0⟩], some 0x000400⟩
  | lda => ⟨0x006000, [⟨"r".toList, 13⟩, ⟨"x".toList, 9⟩, ⟨"address".toList, 0⟩], none⟩
  | jz => ⟨0x020000, [⟨"r".toList, 9⟩, ⟨"x".toList, 5⟩, ⟨"address".toList, 0⟩], none⟩
  | hlt => ⟨0x000000, [], none⟩

/-- The instruction of exactly this name. -/
def ofName? (name : Text) : Option Mnemonic := all.find? fun m => m.name == name

/-- The instruction named by a token in any letter case. Only ASCII letters have a case here, since
no other character has one of the names' letters as its upper case. -/
def ofToken? (token : Text) : Option Mnemonic := ofName? (token.map Char.toUpper)

@[simp] theorem ofName?_name (m : Mnemonic) : ofName? m.name = some m := by cases m <;> decide

end Mnemonic

/-- A one-line description of a format: fixed bits in six hexadecimal digits and the field names. -/
def Format.describe (f : Format) : Text :=
  let names := if f.fields.isEmpty then ['-'] else Text.join [','] (f.fields.map Field.name)
  "InstructionInfo(base=0x".toList ++ (Numeral.hex 6 f.base).map Char.toUpper ++
    ", operands=".toList ++ names ++ [')']

end TwoPass
