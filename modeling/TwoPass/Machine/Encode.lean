import TwoPass.Machine.Bits
import TwoPass.Machine.Keyword
import TwoPass.Source.Operand

/-!
# Encoding

The word of an instruction is the union of its fixed bits and its operand values, each moved to its
place. An absent field counts as zero, so it adds no bits; a field that is present must be a decimal
operand, and the first one that is not decides the refusal. Fields beyond those of the format are
never read; their presence alone sets the indirect bit where the format has one.
-/

namespace TwoPass

namespace Format

/-- The union of the given fields at their places. -/
def placeFields : List Field → List Text → Except Operand.Fault Int
  | [], _ => .ok 0
  | _, [] => .ok 0
  | place :: places, field :: fields => do
    let value ← Operand.parse field
    let others ← placeFields places fields
    return Bits.union (Bits.shift value place.shift) others

/-- The bit set by the presence of an extra field. -/
def indirectBit (f : Format) (count : Nat) : Nat :=
  if f.fields.length < count then f.indirect.getD 0 else 0

/-- The word with the given operand fields. -/
def encodeFields (f : Format) (fields : List Text) : Except Operand.Fault Int := do
  let placed ← placeFields f.fields fields
  return Bits.union f.base (Bits.union placed (f.indirectBit fields.length))

end Format

namespace Mnemonic

/-- The word of an instruction with the given operand text. -/
def encode (m : Mnemonic) (operands : Text) : Except Operand.Fault Int :=
  m.format.encodeFields (Operand.fields operands)

/-- The word of the instruction a token names; a token that names none gives zero. -/
def encodeToken (token operands : Text) : Except Operand.Fault Int :=
  match ofToken? token with
  | none => .ok 0
  | some m => m.encode operands

end Mnemonic

end TwoPass
