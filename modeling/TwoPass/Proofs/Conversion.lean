import TwoPass.Diagnostic
import TwoPass.Machine.Encode

/-!
# Reading operands step by step

An operand is read in steps: a check of its form, a count of its significant digits, the conversion of
these digits, and a check of the range. An instruction is encoded by going through the places of its
format with an index into the operand fields. Two of these steps rely on what was checked before them.
The conversion takes digits only, and an index must be one of the list.

Here the steps are written out as functions that crash where such a step is not prepared for its input
(`Checked.convert`, `Checked.element`). They never do: reading an operand step by step comes to
`Operand.parse` (`Checked.parse_eq`), and encoding place by place comes to `Mnemonic.encode`
(`Checked.encode_eq`). What is raised is a refusal of an operand and nothing else.
-/

namespace TwoPass

/-! ## What can be raised -/

/-- Something is used that is not there. It is not the fault of a source line. -/
inductive Crash where
  /-- the parts of a statement are used where there is none -/
  | noStatement
  /-- a label is used where there is none -/
  | noLabel
  /-- a list is used beyond its ends -/
  | noSuchIndex (index : Int)
  /-- a text is converted that is no numeral, or one of too many digits -/
  | notNumeral (text : Text)
  /-- the address of a name is used that is not bound -/
  | unbound (name : Text)
  /-- a diagnostic is made whose text cannot be formed -/
  | unmarked (fault : Diagnostic.CaretFault)
  deriving DecidableEq

/-- What a step can raise. -/
inductive Raised where
  /-- an operand is refused -/
  | refused (fault : Operand.Fault)
  /-- a source line is at fault -/
  | diagnosed (diagnostic : Diagnostic)
  /-- a crash -/
  | crashed (crash : Crash)
  deriving DecidableEq

/-! ## Uniting bits -/

namespace Bits

@[simp] theorem union_zero (n : Int) : union n 0 = n := by
  cases n with
  | ofNat m => exact congrArg Int.ofNat (Nat.or_zero m)
  | negSucc m =>
    refine congrArg Int.negSucc ?_
    rw [Nat.and_zero, Nat.xor_zero]

theorem union_assoc (l m n : Int) : union (union l m) n = union l (union m n) := by
  cases l <;> cases m <;> cases n <;> rename_i a b c <;> simp only [union] <;>
    refine congrArg _ (Nat.eq_of_testBit_eq fun i => ?_) <;>
    simp only [Nat.testBit_or, Nat.testBit_and, Nat.testBit_xor] <;>
    cases a.testBit i <;> cases b.testBit i <;> cases c.testBit i <;> rfl

end Bits

namespace Checked

/-! ## Decimal operands -/

/-- How many digits the conversion takes. -/
def digitLimit : Nat := 4300

/-- Convert digits to the number they denote. -/
def convert (digits : Text) : Except Raised Nat :=
  match Operand.magnitude? digits with
  | none => .error (.crashed (.notNumeral digits))
  | some n => if digits.length ≤ digitLimit then .ok n else .error (.crashed (.notNumeral digits))

/-- The text without one sign in front. -/
def unsigned : Text → Text
  | '-' :: digits => digits
  | '+' :: digits => digits
  | digits => digits

/-- Is the text an optional sign and at least one ASCII digit? -/
def isDecimal (t : Text) : Bool := !(unsigned t).isEmpty && (unsigned t).all Char.isDigit

/-- Is the character a sign? -/
def isSign (c : Char) : Bool := c == '+' || c == '-'

/-- The text without the signs in front, and then without the zeros in front. -/
def significant (t : Text) : Text := (t.dropWhile isSign).dropWhile (· == '0')

/-- The number of the given size, negative if a minus stands in front of the text. -/
def signed (t : Text) (n : Nat) : Int := if t.head? = some '-' then -n else n

/-- How many digits the greatest operand has. -/
def mostDigits : Nat := 10

/-- Read an operand in steps. -/
def parse (t : Text) : Except Raised Int :=
  if t.isEmpty then .error (.refused .missing)
  else if !isDecimal t then .error (.refused (.malformed t))
  else if mostDigits < (significant t).length then .error (.refused (.outOfRange t))
  else do
    let magnitude ← convert (if (significant t).isEmpty then ['0'] else significant t)
    let value := signed t magnitude
    if Operand.least ≤ value ∧ value ≤ Operand.greatest then .ok value
    else .error (.refused (.outOfRange t))

/-! ### The number that digits denote -/

/-- The number that digits denote behind those of a number. -/
def numeric (n : Nat) (digits : Text) : Nat :=
  digits.foldl (fun n c => 10 * n + (c.toNat - '0'.toNat)) n

theorem magnitude?_of_all {digits : Text} (hne : digits ≠ []) (hall : digits.all Char.isDigit = true) :
    Operand.magnitude? digits = some (numeric 0 digits) := by
  have hempty : digits.isEmpty = false := by simpa using hne
  rw [Operand.magnitude?, hempty, hall]
  rfl

/-- Zeros in front do not count. -/
theorem numeric_dropWhile_zero (digits : Text) :
    numeric 0 (digits.dropWhile (· == '0')) = numeric 0 digits := by
  induction digits with
  | nil => rfl
  | cons c digits ih =>
    by_cases hc : c = '0'
    · subst hc
      exact ih
    · rw [List.dropWhile_cons_of_neg (by simpa using hc)]

/-- Each digit multiplies what stands before it by ten. -/
theorem mul_pow_le_numeric (n : Nat) (digits : Text) :
    n * Nat.pow 10 digits.length ≤ numeric n digits := by
  induction digits generalizing n with
  | nil => exact Nat.le_of_eq (Nat.mul_one n)
  | cons c digits ih =>
    have hstep := ih (10 * n + (c.toNat - '0'.toNat))
    have hpow : Nat.pow 10 (c :: digits).length = Nat.pow 10 digits.length * 10 := rfl
    calc n * Nat.pow 10 (c :: digits).length = 10 * n * Nat.pow 10 digits.length := by
          rw [hpow, Nat.mul_comm 10 n, Nat.mul_assoc, Nat.mul_comm 10]
      _ ≤ (10 * n + (c.toNat - '0'.toNat)) * Nat.pow 10 digits.length :=
          Nat.mul_le_mul_right _ (Nat.le_add_right _ _)
      _ ≤ numeric n (c :: digits) := hstep

/-- A digit other than zero counts. -/
theorem one_le_of_isDigit {c : Char} (hdigit : c.isDigit = true) (hc : c ≠ '0') :
    1 ≤ c.toNat - '0'.toNat := by
  have hlow : 48 ≤ c.toNat := by
    simp only [Char.isDigit, Bool.and_eq_true, decide_eq_true_eq] at hdigit
    exact UInt32.le_iff_toNat_le.mp hdigit.1
  have hne : c.toNat ≠ '0'.toNat := fun h => hc (Char.toNat_inj.mp h)
  simp only [Char.reduceToNat] at hne ⊢
  omega

/-- **Too many digits are out of range**: digits of which the first is not zero, more than the greatest
operand has, denote a greater number. -/
theorem ten_pow_le_numeric {digits : Text} (hall : digits.all Char.isDigit = true)
    (hfirst : digits.head? ≠ some '0') (hlength : mostDigits < digits.length) :
    10000000000 ≤ numeric 0 digits := by
  cases digits with
  | nil => cases hlength
  | cons c digits =>
    simp only [List.all_cons, Bool.and_eq_true] at hall
    have hone : 1 ≤ c.toNat - '0'.toNat :=
      one_le_of_isDigit hall.1 fun h => hfirst (congrArg some h)
    have hpow : Nat.pow 10 mostDigits ≤ Nat.pow 10 digits.length :=
      Nat.pow_le_pow_right (by decide) (Nat.lt_succ_iff.mp hlength)
    calc 10000000000 = 1 * Nat.pow 10 mostDigits := by decide
      _ ≤ (c.toNat - '0'.toNat) * Nat.pow 10 digits.length := Nat.mul_le_mul hone hpow
      _ ≤ numeric (10 * 0 + (c.toNat - '0'.toNat)) digits := by
        rw [Nat.mul_zero, Nat.zero_add]
        exact mul_pow_le_numeric _ _

/-! ### Reading in steps -/

/-- A text denotes the number of its digits with its sign. -/
theorem literal?_eq (t : Text) :
    Operand.literal? t = (Operand.magnitude? (unsigned t)).map (signed t) := by
  have hsigned {c : Char} (h : c ≠ '-') (digits : Text) : signed (c :: digits) = Int.ofNat := by
    funext n
    exact if_neg fun hhead => h (Option.some.inj hhead)
  cases t with
  | nil => rfl
  | cons c digits =>
    by_cases hminus : c = '-'
    · subst hminus
      have hnegative : signed ('-' :: digits) = fun n : Nat => -(n : Int) := by
        funext n
        exact if_pos rfl
      rw [hnegative, Operand.literal?, unsigned]
      cases Operand.magnitude? digits <;> rfl
    rw [hsigned hminus]
    by_cases hplus : c = '+'
    · subst hplus
      rfl
    · simp [Operand.literal?, unsigned, hminus, hplus]

theorem isSign_of_isDigit {c : Char} (h : c.isDigit = true) : isSign c = false := by
  cases hsign : isSign c with
  | false => rfl
  | true =>
    simp only [isSign, Bool.or_eq_true, beq_iff_eq] at hsign
    rcases hsign with rfl | rfl <;> cases h

/-- A decimal text has at most one sign in front. -/
theorem dropWhile_isSign {t : Text} (h : isDecimal t = true) : t.dropWhile isSign = unsigned t := by
  obtain ⟨hne, hall⟩ : unsigned t ≠ [] ∧ (unsigned t).all Char.isDigit = true := by
    simpa [isDecimal] using h
  have hdigits : (unsigned t).dropWhile isSign = unsigned t := by
    cases hdigits : unsigned t with
    | nil => rfl
    | cons c digits =>
      rw [hdigits, List.all_cons, Bool.and_eq_true] at hall
      exact List.dropWhile_cons_of_neg (by simp [isSign_of_isDigit hall.1])
  cases t with
  | nil => rfl
  | cons c digits =>
    by_cases hminus : c = '-'
    · subst hminus
      exact hdigits
    by_cases hplus : c = '+'
    · subst hplus
      exact hdigits
    · have hunsigned : unsigned (c :: digits) = c :: digits := by
        simp [unsigned, hminus, hplus]
      rw [hunsigned] at hdigits ⊢
      exact hdigits

/-- The significant digits of a decimal text denote the same number, and do not start with a zero. -/
theorem significant_of_isDecimal {t : Text} (h : isDecimal t = true) :
    (significant t).all Char.isDigit = true ∧ (significant t).head? ≠ some '0' ∧
      Operand.magnitude? (unsigned t) = some (numeric 0 (significant t)) := by
  obtain ⟨hne, hall⟩ : unsigned t ≠ [] ∧ (unsigned t).all Char.isDigit = true := by
    simpa [isDecimal] using h
  rw [significant, dropWhile_isSign h, numeric_dropWhile_zero]
  refine ⟨?_, ?_, magnitude?_of_all hne hall⟩
  · rw [List.all_eq_true] at hall ⊢
    intro c hc
    exact hall c ((List.dropWhile_suffix _).subset hc)
  · intro hzero
    have hhead := List.head?_dropWhile_not (fun c => c == '0') (unsigned t)
    rw [hzero] at hhead
    cases hhead

/-- At most ten digits are converted, or a zero in their place. -/
theorem convert_eq {digits : Text} (hall : digits.all Char.isDigit = true)
    (hlength : digits.length ≤ mostDigits) :
    convert (if digits.isEmpty then ['0'] else digits) = .ok (numeric 0 digits) := by
  cases digits with
  | nil => rfl
  | cons c digits =>
    have hlimit : (c :: digits).length ≤ digitLimit := Nat.le_trans hlength (by decide)
    simp only [List.isEmpty_cons, Bool.false_eq_true, if_false, convert,
      magnitude?_of_all (List.cons_ne_nil c digits) hall, if_pos hlimit]

/-- A text that was not checked can make the conversion crash. -/
example : convert "+1".toList = .error (.crashed (.notNumeral "+1".toList)) := rfl

/-- **Reading in steps comes to reading**, and no step crashes. -/
theorem parse_eq (t : Text) : parse t = (Operand.parse t).mapError .refused := by
  rw [parse, Operand.parse, literal?_eq]
  by_cases hempty : t.isEmpty = true
  · rw [if_pos hempty, if_pos hempty]
    rfl
  rw [if_neg hempty, if_neg hempty]
  cases hdecimal : isDecimal t with
  | false =>
    have hmagnitude : Operand.magnitude? (unsigned t) = none := by
      rw [Operand.magnitude?, if_pos]
      simpa [isDecimal, Decidable.or_iff_not_imp_left] using hdecimal
    rw [hmagnitude, Bool.not_false, if_pos rfl]
    rfl
  | true =>
    obtain ⟨hall, hfirst, hmagnitude⟩ := significant_of_isDecimal hdecimal
    rw [hmagnitude, Bool.not_true, if_neg Bool.false_ne_true]
    simp only [Option.map_some]
    by_cases hlength : mostDigits < (significant t).length
    · -- the number is beyond the range on either side
      have hgreat := ten_pow_le_numeric hall hfirst hlength
      have hrange : ¬ (Operand.least ≤ signed t (numeric 0 (significant t)) ∧
          signed t (numeric 0 (significant t)) ≤ Operand.greatest) := by
        rw [signed, Operand.least, Operand.greatest]
        split <;> omega
      rw [if_pos hlength, if_neg hrange]
      rfl
    · rw [if_neg hlength, convert_eq hall (Nat.le_of_not_lt hlength)]
      simp only [bind, Except.bind]
      split <;> rfl

/-! ## Fields by their index -/

/-- The element of a list at an index; a negative index counts from the end. -/
def element (list : List Text) (index : Int) : Except Raised Text :=
  let place := if index < 0 then index + list.length else index
  match if place < 0 then none else list[place.toNat]? with
  | none => .error (.crashed (.noSuchIndex index))
  | some text => .ok text

/-- The value of a field, or the default beyond the last one. -/
def fieldOr (fields : List Text) (index default : Int) : Except Raised Int :=
  if (fields.length : Int) ≤ index then .ok default
  else do
    let field ← element fields index
    parse field

/-- A place of a format takes up the field of the same index. -/
def placeField (fields : List Text) (word : Int) (place : Field × Nat) : Except Raised Int := do
  let value ← fieldOr fields place.2 0
  return Bits.union word (Bits.shift value place.1.shift)

/-- The word with the indirect bit, if the format has one and there is an extra field. -/
def setIndirect (f : Format) (count : Nat) (word : Int) : Int :=
  match f.indirect with
  | none => word
  | some flag => if f.fields.length < count then Bits.union word flag else word

/-- The word of an instruction, place by place. -/
def encode (m : Mnemonic) (operands : Text) : Except Raised Int := do
  let fields := Operand.fields operands
  let word ← m.format.fields.zipIdx.foldlM (placeField fields) (m.format.base : Int)
  return setIndirect m.format fields.length word

/-- The default is taken exactly beyond the last field, so an index from the start is one of the list. -/
theorem fieldOr_eq (fields : List Text) (index : Nat) (default : Int) :
    fieldOr fields index default =
      match fields[index]? with
      | none => .ok default
      | some field => parse field := by
  rw [fieldOr]
  by_cases hlast : (fields.length : Int) ≤ index
  · rw [if_pos hlast, List.getElem?_eq_none (Int.ofNat_le.mp hlast)]
  · have hnot : ¬ (index : Int) < 0 := Int.not_lt.mpr (Int.natCast_nonneg index)
    have hlt : index < fields.length := by omega
    rw [if_neg hlast, List.getElem?_eq_getElem hlt, element, if_neg hnot, if_neg hnot, Int.toNat_natCast,
      List.getElem?_eq_getElem hlt]
    rfl

/-- Without fields nothing is placed. -/
theorem placeFields_nil (places : List Field) : Format.placeFields places [] = .ok 0 := by
  cases places with
  | nil => rfl
  | cons place places => rfl

/-- **Placing by index is placing in order**: from an index on, the places take up the fields that are
left there. -/
theorem foldlM_placeField (fields : List Text) (places : List Field) (index : Nat) (word : Int) :
    (places.zipIdx index).foldlM (placeField fields) word =
      ((Format.placeFields places (fields.drop index)).mapError .refused).map (Bits.union word) := by
  induction places generalizing index word with
  | nil =>
    rw [List.zipIdx_nil, List.foldlM_nil, Format.placeFields]
    exact congrArg Except.ok (Bits.union_zero word).symm
  | cons place places ih =>
    rw [List.zipIdx_cons, List.foldlM_cons, placeField, fieldOr_eq]
    by_cases hlast : fields.length ≤ index
    · -- beyond the last field a zero is placed, which adds no bits
      rw [List.getElem?_eq_none hlast, List.drop_eq_nil_of_le hlast, placeFields_nil]
      simp only [bind, Except.bind, pure, Except.pure, Bits.zero_shift, Bits.union_zero]
      rw [ih, List.drop_eq_nil_of_le (Nat.le_succ_of_le hlast), placeFields_nil]
    · have hlt : index < fields.length := Nat.lt_of_not_le hlast
      rw [List.getElem?_eq_getElem hlt, List.drop_eq_getElem_cons hlt, Format.placeFields]
      simp only [parse_eq]
      cases Operand.parse fields[index] with
      | error fault => rfl
      | ok value =>
        change (places.zipIdx (index + 1)).foldlM (placeField fields)
          (Bits.union word (Bits.shift value place.shift)) = _
        rw [ih]
        cases Format.placeFields places (fields.drop (index + 1)) with
        | error fault => rfl
        | ok others => exact congrArg Except.ok (Bits.union_assoc ..)

theorem setIndirect_eq (f : Format) (count : Nat) (word : Int) :
    setIndirect f count word = Bits.union word (f.indirectBit count) := by
  rw [setIndirect, Format.indirectBit]
  cases f.indirect with
  | none => simp
  | some flag => by_cases hextra : f.fields.length < count <;> simp [hextra]

/-- **Encoding place by place comes to encoding**, and no index is beyond the fields. -/
theorem encode_eq (m : Mnemonic) (operands : Text) :
    encode m operands = (m.encode operands).mapError .refused := by
  rw [encode, Mnemonic.encode, Format.encodeFields, foldlM_placeField, List.drop_zero]
  cases Format.placeFields m.format.fields (Operand.fields operands) with
  | error fault => rfl
  | ok placed =>
    refine congrArg Except.ok ?_
    rw [setIndirect_eq, Bits.union_assoc]

end Checked

end TwoPass
