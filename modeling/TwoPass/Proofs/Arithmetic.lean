import TwoPass.Proofs.Resolution

/-!
# Arithmetics

What an assembler does with numbers is little: it keeps the value of an operand, steps to the next
address, moves bits to the left, joins bits, and writes a number down. An `Arithmetic` is a choice of
numbers with these five operations.

* `Arithmetic.unbounded` is the one the program uses: integers of any size, taken modulo `2 ^ 32` only
  when they are written.
* `Arithmetic.wrapping` has machine words of 32 bits in two's complement. Every operation drops what
  does not fit, and a word is written as the unsigned number it is.

An arithmetic is `Faithful` if keeping an integer in it commutes with all operations, so that it makes
no difference when bits are dropped. The words are faithful because reduction modulo `2 ^ 32` respects
addition, shifts and unions; for unions this is a matter of single bits (`getLsbD_ofInt`). Encoding an
instruction in a faithful arithmetic gives the word that encoding it in integers gives
(`Arithmetic.encode_eq`).
-/

namespace TwoPass

/-- The numbers of an assembler and what it does with them. -/
structure Arithmetic (W : Type) where
  /-- the number that stands for an integer, such as the value of an operand -/
  ofInt : Int → W
  /-- the address behind a word -/
  next : W → W
  /-- all bits moved to the left by a number of places -/
  shift : W → Nat → W
  /-- the bits that are set on either side -/
  union : W → W → W
  /-- the number in octal -/
  octal : W → Text

namespace Arithmetic

/-- Integers of any size. -/
def unbounded : Arithmetic Int where
  ofInt := id
  next n := n + 1
  shift := Bits.shift
  union := Bits.union
  octal := Numeral.octal

/-- Machine words of 32 bits in two's complement. They are written as unsigned numbers, with at least
six digits. -/
def wrapping : Arithmetic (BitVec 32) where
  ofInt := BitVec.ofInt 32
  next w := w + 1
  shift w places := w <<< places
  union v w := v ||| w
  octal w := Numeral.padLeft 6 '0' (Nat.toDigits 8 w.toNat)

/-- Keeping an integer commutes with all that is done to it. -/
structure Faithful {W : Type} (A : Arithmetic W) : Prop where
  /-- stepping to the next address -/
  next_ofInt : ∀ n, A.next (A.ofInt n) = A.ofInt (n + 1)
  /-- moving bits -/
  shift_ofInt : ∀ n places, A.shift (A.ofInt n) places = A.ofInt (Bits.shift n places)
  /-- joining bits -/
  union_ofInt : ∀ m n, A.union (A.ofInt m) (A.ofInt n) = A.ofInt (Bits.union m n)
  /-- writing -/
  octal_ofInt : ∀ n, A.octal (A.ofInt n) = Numeral.octal n

theorem faithful_unbounded : unbounded.Faithful where
  next_ofInt _ := rfl
  shift_ofInt _ _ := rfl
  union_ofInt _ _ := rfl
  octal_ofInt _ := rfl

/-! ## Words of 32 bits -/

theorem ofInt_pow_two (places : Nat) :
    BitVec.ofInt 32 (Int.pow 2 places) = BitVec.twoPow 32 places := by
  have hcast : Int.pow 2 places = ((Nat.pow 2 places : Nat) : Int) := (Int.natCast_pow 2 places).symm
  refine BitVec.eq_of_toNat_eq ?_
  rw [hcast, BitVec.ofInt_natCast, BitVec.toNat_twoPow, BitVec.toNat_ofNat]
  rfl

/-- A word has the low bits of the integer it stands for. -/
theorem getLsbD_ofInt (n : Int) {i : Nat} (hi : i < 32) :
    (BitVec.ofInt 32 n).getLsbD i = Bits.bit n i := by
  cases n with
  | ofNat m =>
    rw [Int.ofNat_eq_natCast, BitVec.ofInt_natCast, BitVec.getLsbD_ofNat]
    simp [hi, Bits.bit]
  | negSucc m =>
    -- on both sides a negative number is the complement of a natural one
    rw [BitVec.ofInt_negSucc_eq_not_ofNat, BitVec.getLsbD_not, BitVec.getLsbD_ofNat]
    simp [hi, Bits.bit]

theorem ofInt_shift (n : Int) (places : Nat) :
    BitVec.ofInt 32 (Bits.shift n places) = BitVec.ofInt 32 n <<< places := by
  rw [Bits.shift, BitVec.ofInt_mul, ofInt_pow_two, BitVec.mul_twoPow_eq_shiftLeft]

theorem ofInt_union (m n : Int) :
    BitVec.ofInt 32 (Bits.union m n) = BitVec.ofInt 32 m ||| BitVec.ofInt 32 n := by
  refine BitVec.eq_of_getLsbD_eq ?_
  intro i hi
  rw [BitVec.getLsbD_or, getLsbD_ofInt _ hi, getLsbD_ofInt _ hi, getLsbD_ofInt _ hi,
    Bits.bit_union]

/-- **Wrapping is faithful**: bits beyond the word never reach the bits in it. -/
theorem faithful_wrapping : wrapping.Faithful where
  next_ofInt n := (BitVec.ofInt_add n 1).symm
  shift_ofInt n places := (ofInt_shift n places).symm
  union_ofInt m n := (ofInt_union m n).symm
  octal_ofInt n := by
    have hvalue : (BitVec.ofInt 32 n).toNat = (n % Numeral.wordRange).toNat := BitVec.toNat_ofInt n
    change Numeral.padLeft 6 '0' (Nat.toDigits 8 (BitVec.ofInt 32 n).toNat) = Numeral.octal n
    rw [hvalue, Numeral.octal]

/-- An accepted operand fits a word. -/
theorem toInt_ofInt_of_parse {t : Text} {value : Int} (h : Operand.parse t = .ok value) :
    (wrapping.ofInt value).toInt = value := by
  obtain ⟨-, hleast, hgreatest⟩ := Operand.parse_eq_ok_iff.mp h
  unfold Operand.least at hleast
  unfold Operand.greatest at hgreatest
  exact BitVec.toInt_ofInt_eq_self (by decide) hleast (Int.lt_of_le_of_lt hgreatest (by decide))

/-! ## Encoding -/

section Encode

variable {W : Type} (A : Arithmetic W)

/-- The union of the given fields at their places. -/
def placeFields : List Field → List Text → Except Operand.Fault W
  | [], _ => .ok (A.ofInt 0)
  | _, [] => .ok (A.ofInt 0)
  | place :: places, field :: fields => do
    let value ← Operand.parse field
    let others ← placeFields places fields
    return A.union (A.shift (A.ofInt value) place.shift) others

/-- The word of an instruction with the given operand text. -/
def encode (m : Mnemonic) (operands : Text) : Except Operand.Fault W := do
  let fields := Operand.fields operands
  let placed ← A.placeFields m.format.fields fields
  let indirect := A.ofInt (m.format.indirectBit fields.length)
  return A.union (A.ofInt m.format.base) (A.union placed indirect)

variable {A} (hA : A.Faithful)

include hA

theorem placeFields_eq (places : List Field) (fields : List Text) :
    A.placeFields places fields = (Format.placeFields places fields).map A.ofInt := by
  induction places generalizing fields with
  | nil => rfl
  | cons place places ih =>
    cases fields with
    | nil => rfl
    | cons field fields =>
      rw [placeFields, Format.placeFields, ih]
      -- the first field that is refused decides on both sides
      rcases Operand.parse field with fault | value
      · rfl
      · rcases Format.placeFields places fields with fault | others
        · rfl
        · change Except.ok (A.union (A.shift (A.ofInt value) place.shift) (A.ofInt others)) = _
          rw [hA.shift_ofInt, hA.union_ofInt]
          rfl

/-- **Encoding is the same in every faithful arithmetic**. -/
theorem encode_eq (m : Mnemonic) (operands : Text) :
    A.encode m operands = (m.encode operands).map A.ofInt := by
  rw [encode, Mnemonic.encode, Format.encodeFields, placeFields_eq hA]
  rcases Format.placeFields m.format.fields (Operand.fields operands) with fault | placed
  · rfl
  · change Except.ok (A.union (A.ofInt m.format.base) (A.union (A.ofInt placed) (A.ofInt _))) = _
    rw [hA.union_ofInt, hA.union_ofInt]
    rfl

end Encode

end Arithmetic

end TwoPass
