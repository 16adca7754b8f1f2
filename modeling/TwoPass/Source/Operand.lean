import TwoPass.Source.Line
import TwoPass.Text.Quoted

/-!
# Operands

Operand text is freed of its comment and split at commas into fields. A field that is used is read
as a signed decimal number of the 32-bit range; `Fault` says why a reading is refused, and its
`message`, `operand` and `hint` are the words in which that is reported.

Fields that are exactly empty at the end of the list do not count. A field of blanks at the end does
count: fields are trimmed after the empty ones have been dropped.
-/

namespace TwoPass

namespace Operand

/-! ## Why an operand is refused -/

/-- The least value of an operand. -/
def least : Int := -2147483648

/-- The greatest value of an operand. -/
def greatest : Int := 2147483647

/-- The ways in which an operand can be refused. -/
inductive Fault where
  /-- there is no operand text -/
  | missing
  /-- an origin directive stands alone -/
  | missingAddress
  /-- the text is not a sign and digits -/
  | malformed (text : Text)
  /-- the number does not fit a signed 32-bit word -/
  | outOfRange (text : Text)
  deriving DecidableEq

namespace Fault

/-- The refused text. -/
def operand : Fault → Text
  | missing | missingAddress => []
  | malformed text | outOfRange text => text

/-- A long numeral is cut to its first characters. -/
def shortened (text : Text) : Text :=
  if text.length ≤ 20 then text else text.take 17 ++ "...".toList

/-- The report of the refusal. -/
def message : Fault → Text
  | missing | missingAddress => "missing operand".toList
  | malformed text => "invalid numeric operand '".toList ++ text ++ "'".toList
  | outOfRange text => "numeric operand out of range '".toList ++ shortened text ++ "'".toList

/-- Advice that goes with the report. -/
def hint : Fault → Option Text
  | missing | malformed _ => none
  | missingAddress => some "LOC takes a decimal address".toList
  | outOfRange _ =>
    some ("values must lie between ".toList ++ Numeral.decimal least ++ " and ".toList ++
      Numeral.decimal greatest)

end Fault

/-! ## Decimal operands -/

/-- The number that a text of ASCII digits denotes. -/
def magnitude? (digits : Text) : Option Nat :=
  if digits.isEmpty || !digits.all Char.isDigit then none
  else some (digits.foldl (fun n c => 10 * n + (c.toNat - '0'.toNat)) 0)

/-- The number that a text of an optional sign and ASCII digits denotes. -/
def literal? : Text → Option Int
  | '-' :: digits => (magnitude? digits).map fun n => -(n : Int)
  | '+' :: digits => (magnitude? digits).map Int.ofNat
  | digits => (magnitude? digits).map Int.ofNat

/-- Read an operand. -/
def parse (t : Text) : Except Fault Int :=
  if t.isEmpty then .error .missing
  else
    match literal? t with
    | none => .error (.malformed t)
    | some n => if least ≤ n ∧ n ≤ greatest then .ok n else .error (.outOfRange t)

/-! ## Operand fields -/

/-- The list without the exactly empty texts at its end. -/
def dropEmptyEnd (pieces : List Text) : List Text :=
  (pieces.reverse.dropWhile List.isEmpty).reverse

/-- The operand fields of an operand text. -/
def fields (t : Text) : List Text :=
  let cleaned := Line.stripComment t
  if cleaned.isEmpty then []
  else (dropEmptyEnd (Text.splitOn ',' cleaned)).map Text.trim

/-- Why a field cannot be given. -/
inductive FieldFault where
  /-- the field is there and is refused -/
  | refused (fault : Fault)
  /-- a count from the end goes beyond the first field -/
  | noSuchField
  /-- a count from the end is beyond every index -/
  | beyondIndex
  deriving DecidableEq

/-- The least index. -/
def leastIndex : Int := -9223372036854775808

/-- The report of a number that is no index. -/
def beyondIndexMessage : Text := "cannot fit 'int' into an index-sized integer".toList

/-- The report of a field that cannot be given. -/
def FieldFault.message : FieldFault → Text
  | refused fault => fault.message
  | noSuchField => "list index out of range".toList
  | beyondIndex => beyondIndexMessage

/-- Is there a field of this index? A count from the end is not looked at. -/
def hasField (fields : List Text) (index : Int) : Bool := index < fields.length

/-- The value of a field, or the default beyond the last one. A negative index counts from the
end. -/
def fieldOr (fields : List Text) (index default : Int) : Except FieldFault Int :=
  if (fields.length : Int) ≤ index then .ok default
  else if index < leastIndex then .error .beyondIndex
  else
    let place := if index < 0 then index + fields.length else index
    if place < 0 then .error .noSuchField
    else
      match fields[place.toNat]? with
      | none => .error .noSuchField
      | some field => (parse field).mapError .refused

/-- A description of the fields: a list of quoted texts. -/
def describeFields (fields : List Text) : Text :=
  "OperandFields([".toList ++ Text.join ", ".toList (fields.map Text.quoted) ++ "])".toList

end Operand

end TwoPass
