import Mathlib.Data.Int.Bitwise
import TwoPass.Proofs.Conversion
import TwoPass.Proofs.Fields

/-!
# The formulas of the words

Each instruction has a formula for its word (`Mnemonic.formula`), in terms of the values of its operand
fields and the number of fields that are given. Encoding does not follow formulas: it goes through a table
of places, stops at the first field that it cannot read, and reads no field for which there is no place.

* If all fields that are used are accepted, an absent one counting as zero, the table gives the union of
  the values at their places (`Format.placeFields_of_accepted`), and this is the formula
  (`Mnemonic.union_placed`).
* Otherwise the first of them that is refused decides (`Format.placeFields_of_refused`).
* Zeros in place of absent fields add no bits (`Format.placeFields_append_zeros`).
-/

namespace TwoPass

/-! ## Bits -/

namespace Bits

/-- The union of bits is the bitwise "or" of integers. -/
theorem union_eq_lor (m n : Int) : union m n = Int.lor m n := by
  have hldiff (m n : Nat) : m ^^^ (m &&& n) = Nat.ldiff m n := by
    refine Nat.eq_of_testBit_eq fun i => ?_
    rw [Nat.testBit_xor, Nat.testBit_and, Nat.testBit_ldiff]
    cases m.testBit i <;> cases n.testBit i <;> rfl
  cases m with
  | ofNat m =>
    cases n with
    | ofNat n => rfl
    | negSucc n => exact congrArg Int.negSucc (hldiff n m)
  | negSucc m =>
    cases n with
    | ofNat n => exact congrArg Int.negSucc (hldiff m n)
    | negSucc n => rfl

theorem shift_zero (n : Int) : shift n 0 = n := Int.mul_one n

theorem shift_eq_shiftLeft (n : Int) (places : Nat) : shift n places = n <<< places :=
  (Int.shiftLeft_eq n places).symm

end Bits

/-! ## Reading the fields that are used -/

namespace Operand

/-- The field at a place is absent or accepted. -/
def Accepted (fields : List Text) (i : Nat) : Prop :=
  ∀ field, fields[i]? = some field → ∃ value, parse field = .ok value

/-- The value of the field at a place; an absent field counts as zero. -/
def valueAt (fields : List Text) (i : Nat) : Int :=
  (fields[i]?.bind fun field => (parse field).toOption).getD 0

theorem valueAt_nil : valueAt [] = fun _ => 0 := rfl

theorem valueAt_cons_succ (field : Text) (fields : List Text) :
    (fun i => valueAt (field :: fields) (i + 1)) = valueAt fields := rfl

theorem valueAt_cons_zero {field : Text} {value : Int} (h : parse field = .ok value)
    (fields : List Text) : valueAt (field :: fields) 0 = value := by
  simp [valueAt, h, Except.toOption]

theorem accepted_iff {fields : List Text} {i : Nat} :
    Accepted fields i ↔ fields[i]?.all (fun field => (parse field).isOk) = true := by
  rw [Accepted]
  cases fields[i]? with
  | none => simp
  | some field => cases hparse : parse field <;> simp [hparse, Except.isOk, Except.toBool]

instance (fields : List Text) (i : Nat) : Decidable (Accepted fields i) :=
  decidable_of_iff _ accepted_iff.symm

theorem Accepted.tail {field : Text} {fields : List Text} {i : Nat}
    (h : Accepted (field :: fields) (i + 1)) : Accepted fields i := h

theorem accepted_or_refused_at (fields : List Text) (i : Nat) :
    Accepted fields i ∨ ∃ field fault, fields[i]? = some field ∧ parse field = .error fault := by
  rw [accepted_iff]
  cases fields[i]? with
  | none => exact .inl rfl
  | some field =>
    cases hparse : parse field with
    | ok value => exact .inl (by simp [hparse, Except.isOk, Except.toBool])
    | error fault => exact .inr ⟨field, fault, rfl, hparse⟩

/-- Up to any place, the fields are all accepted or there is a first one that is refused. -/
theorem accepted_or_refused (fields : List Text) (count : Nat) :
    (∀ i, i < count → Accepted fields i) ∨
      ∃ i field fault, i < count ∧ (∀ j, j < i → Accepted fields j) ∧
        fields[i]? = some field ∧ parse field = .error fault := by
  induction count with
  | zero => exact .inl fun i hi => absurd hi (Nat.not_lt_zero i)
  | succ count ih =>
    obtain hbefore | ⟨i, field, fault, hi, hfirst⟩ := ih
    · obtain haccepted | ⟨field, fault, hrefused⟩ := accepted_or_refused_at fields count
      · refine .inl fun i hi => ?_
        rcases Nat.lt_succ_iff_lt_or_eq.mp hi with hi | rfl
        · exact hbefore i hi
        · exact haccepted
      · exact .inr ⟨count, field, fault, Nat.lt_succ_self count, hbefore, hrefused⟩
    · exact .inr ⟨i, field, fault, Nat.lt_succ_of_lt hi, hfirst⟩

end Operand

namespace Format

open Operand (Accepted valueAt)

/-- The union of the given values at their places. -/
def placed : List Field → (Nat → Int) → Int
  | [], _ => 0
  | place :: places, value =>
    Bits.union (Bits.shift (value 0) place.shift) (placed places fun i => value (i + 1))

theorem placed_zero (places : List Field) : placed places (fun _ => 0) = 0 := by
  induction places with
  | nil => rfl
  | cons place places ih => rw [placed, ih, Bits.zero_shift, Bits.zero_union]

/-- **Accepted fields are placed**: nothing is looked at beyond the places. -/
theorem placeFields_of_accepted {places : List Field} {fields : List Text}
    (h : ∀ i, i < places.length → Accepted fields i) :
    placeFields places fields = .ok (placed places (valueAt fields)) := by
  induction places generalizing fields with
  | nil => rfl
  | cons place places ih =>
    cases fields with
    | nil => rw [Checked.placeFields_nil, Operand.valueAt_nil, placed_zero]
    | cons field fields =>
      obtain ⟨value, hvalue⟩ := h 0 (Nat.zero_lt_succ _) field rfl
      have hrest : placeFields places fields = .ok (placed places (valueAt fields)) :=
        ih fun i hi => (h (i + 1) (Nat.succ_lt_succ hi)).tail
      rw [placeFields, hvalue, hrest, placed, Operand.valueAt_cons_zero hvalue,
        Operand.valueAt_cons_succ]
      rfl

/-- **The first refused field decides**. -/
theorem placeFields_of_refused {places : List Field} {fields : List Text} {i : Nat} {field : Text}
    {fault : Operand.Fault} (hi : i < places.length) (hbefore : ∀ j, j < i → Accepted fields j)
    (hfield : fields[i]? = some field) (hfault : Operand.parse field = .error fault) :
    placeFields places fields = .error fault := by
  induction places generalizing fields i with
  | nil => cases hi
  | cons place places ih =>
    cases fields with
    | nil => cases hfield
    | cons first fields =>
      rw [placeFields]
      cases i with
      | zero =>
        obtain rfl := Option.some.inj hfield
        rw [hfault]
        rfl
      | succ i =>
        obtain ⟨value, hvalue⟩ := hbefore 0 (Nat.zero_lt_succ i) first rfl
        have hrest : placeFields places fields = .error fault :=
          ih (Nat.lt_of_succ_lt_succ hi)
            (fun j hj => (hbefore (j + 1) (Nat.succ_lt_succ hj)).tail) hfield
        rw [hvalue, hrest]
        rfl

theorem indirectBit_of_none {f : Format} (h : f.indirect = none) (count : Nat) :
    f.indirectBit count = 0 := by
  simp [indirectBit, h]

/-- **Zeros may stand for absent fields**: they are accepted and add no bits. -/
theorem placeFields_append_zeros (places : List Field) (fields : List Text) (n : Nat) :
    placeFields places (fields ++ List.replicate n ['0']) = placeFields places fields := by
  induction places generalizing fields n with
  | nil => rfl
  | cons place places ih =>
    cases fields with
    | cons field fields => rw [List.cons_append, placeFields, placeFields, ih]
    | nil =>
      cases n with
      | zero => rfl
      | succ n =>
        have hzero : Operand.parse ['0'] = .ok 0 := rfl
        have hrest := ih [] n
        rw [List.nil_append, Checked.placeFields_nil] at hrest
        rw [Checked.placeFields_nil, List.nil_append, List.replicate_succ, placeFields, hzero, hrest]
        change Except.ok (Bits.union (Bits.shift 0 place.shift) 0) = _
        rw [Bits.zero_shift, Bits.zero_union]

end Format

/-! ## Formulas -/

namespace Mnemonic

/-- The number of operand fields that an instruction uses. -/
def arity : Mnemonic → Nat
  | ldx => 2
  | ldr | lda | jz => 3
  | hlt => 0

/-- The word of an instruction: the values of its operand fields shifted to their places and joined by a
bitwise "or", where `count` is the number of fields that are given. -/
def formula (m : Mnemonic) (value : Nat → Int) (count : Nat) : Int :=
  match m with
  | ldx => Int.lor (Int.lor 0x102000 (value 0 <<< (9 : Nat))) (value 1)
  | ldr =>
    let word := Int.lor (Int.lor (value 0 <<< (13 : Nat)) (value 1 <<< (9 : Nat))) (value 2)
    if 3 < count then Int.lor word 0x400 else word
  | lda =>
    Int.lor (Int.lor (Int.lor 0x6000 (value 0 <<< (13 : Nat))) (value 1 <<< (9 : Nat))) (value 2)
  | jz =>
    Int.lor (Int.lor (Int.lor 0x20000 (value 0 <<< (9 : Nat))) (value 1 <<< (5 : Nat))) (value 2)
  | hlt => 0

theorem length_fields_format (m : Mnemonic) : m.format.fields.length = m.arity := by
  cases m <;> rfl

/-- **The table gives the formulas**. -/
theorem union_placed (m : Mnemonic) (value : Nat → Int) (count : Nat) :
    Bits.union m.format.base
        (Bits.union (Format.placed m.format.fields value) (m.format.indirectBit count)) =
      m.formula value count := by
  cases m with
  | ldx | lda | jz | hlt =>
    rw [Format.indirectBit_of_none rfl]
    simp [format, Format.placed, formula, ← Bits.union_eq_lor, ← Bits.shift_eq_shiftLeft,
      Bits.shift_zero, Bits.union_assoc]
  | ldr =>
    by_cases hextra : 3 < count <;>
      simp [format, Format.placed, Format.indirectBit, formula, ← Bits.union_eq_lor,
        ← Bits.shift_eq_shiftLeft, Bits.shift_zero, Bits.union_assoc, hextra]

theorem encodeToken_of_map_toUpper {token : Text} {m : Mnemonic}
    (h : token.map Char.toUpper = m.name) : encodeToken token = m.encode := by
  funext operands
  rw [encodeToken, ofToken?, h, ofName?_name]

variable {m : Mnemonic} {operands : Text}

/-- If all fields that are used are accepted, the word is that of the formula. -/
theorem encode_of_accepted (h : ∀ i, i < m.arity → Operand.Accepted (Operand.fields operands) i) :
    m.encode operands =
      .ok (m.formula (Operand.valueAt (Operand.fields operands)) (Operand.fields operands).length) := by
  rw [← length_fields_format] at h
  rw [encode, Format.encodeFields, Format.placeFields_of_accepted h, ← union_placed]
  rfl

/-- The first field that is used and refused decides the refusal. -/
theorem encode_of_refused {i : Nat} {field : Text} {fault : Operand.Fault} (hi : i < m.arity)
    (hbefore : ∀ j, j < i → Operand.Accepted (Operand.fields operands) j)
    (hfield : (Operand.fields operands)[i]? = some field)
    (hfault : Operand.parse field = .error fault) : m.encode operands = .error fault := by
  rw [← length_fields_format] at hi
  rw [encode, Format.encodeFields, Format.placeFields_of_refused hi hbefore hfield hfault]
  rfl

/-- Zeros for absent fields change nothing as long as there is a place for them. -/
theorem encode_of_fields_append_zeros {padded : Text} {n : Nat}
    (hfields : Operand.fields padded = Operand.fields operands ++ List.replicate n ['0'])
    (hplaces : (Operand.fields operands).length + n ≤ m.arity) :
    m.encode padded = m.encode operands := by
  have hindirect (count : Nat) (hcount : count ≤ m.arity) : m.format.indirectBit count = 0 := by
    rw [Format.indirectBit, length_fields_format, if_neg (Nat.not_lt.mpr hcount)]
  rw [encode, encode, hfields, Format.encodeFields, Format.encodeFields,
    Format.placeFields_append_zeros, List.length_append, List.length_replicate, hindirect _ hplaces,
    hindirect _ (Nat.le_of_add_right_le hplaces)]

/-- **Encoding exactly**. A token that names an instruction, in any letter case, is encoded with an operand
text as follows. If each of the fields that the instruction uses is absent or accepted, the result is the
word of the formula, with absent fields as zero; fields beyond these are not read. Otherwise the result is
the fault of the first of these fields that is refused. So if there are fewer fields than the instruction
uses, zeros may be written for the others: the text with the zeros has these fields, and any text with
these fields has the same word or the same fault. -/
theorem encode_exact {token : Text} {m : Mnemonic} (hname : token.map Char.toUpper = m.name)
    (operands : Text) :
    let fields := Operand.fields operands
    ((∀ i, i < m.arity → Operand.Accepted fields i) →
      encodeToken token operands = .ok (m.formula (Operand.valueAt fields) fields.length)) ∧
    ((¬ ∀ i, i < m.arity → Operand.Accepted fields i) →
      ∃ i field fault, i < m.arity ∧ (∀ j, j < i → Operand.Accepted fields j) ∧
        fields[i]? = some field ∧ Operand.parse field = .error fault ∧
        encodeToken token operands = .error fault) ∧
    (fields.length < m.arity →
      let zeros := List.replicate (m.arity - fields.length) ['0']
      Operand.fields (Text.join [','] (fields ++ zeros)) = fields ++ zeros ∧
      ∀ padded, Operand.fields padded = fields ++ zeros →
        encodeToken token padded = encodeToken token operands) := by
  intro fields
  rw [encodeToken_of_map_toUpper hname]
  refine ⟨encode_of_accepted, ?_, ?_⟩
  · intro hrefused
    obtain haccepted | ⟨i, field, fault, hi, hbefore, hfield, hfault⟩ :=
      Operand.accepted_or_refused fields m.arity
    · exact absurd haccepted hrefused
    · exact ⟨i, field, fault, hi, hbefore, hfield, hfault, encode_of_refused hi hbefore hfield hfault⟩
  · intro hfew zeros
    refine ⟨?_, ?_⟩
    · refine Operand.fields_join ?_ ?_ (List.cons_ne_nil '0' [])
      · intro field hfield
        rcases List.mem_append.mp hfield with hfield | hfield
        · exact Operand.isField_of_mem_fields hfield
        · obtain rfl := List.eq_of_mem_replicate hfield
          exact ⟨by decide, by decide, by decide⟩
      · rw [List.getLast?_append, List.getLast?_replicate, if_neg (by omega)]
        rfl
    · intro padded hpadded
      refine encode_of_fields_append_zeros hpadded ?_
      change fields.length + (m.arity - fields.length) ≤ m.arity
      omega

/-- An extra field that is no numeral sets the indirect bit; a field in its place is refused, and the one
behind it is not looked at. -/
theorem encode_exact_extra_field :
    let operands := "1,1, 5 ,x ; note".toList
    let refused := "1,x,y".toList
    ("Ldr".toList.map Char.toUpper = ldr.name ∧
      ∀ i, i < ldr.arity → Operand.Accepted (Operand.fields operands) i) ∧
    encodeToken "Ldr".toList operands =
      .ok (ldr.formula (Operand.valueAt (Operand.fields operands)) 4) ∧
    ldr.formula (Operand.valueAt (Operand.fields operands)) 4 = 9733 ∧
    ∃ i field fault, i < ldr.arity ∧ (∀ j, j < i → Operand.Accepted (Operand.fields refused) j) ∧
      (Operand.fields refused)[i]? = some field ∧ Operand.parse field = .error fault ∧
      encodeToken "Ldr".toList refused = .error fault := by
  intro operands refused
  have hname : "Ldr".toList.map Char.toUpper = ldr.name := by decide
  have haccepted : ∀ i, i < ldr.arity → Operand.Accepted (Operand.fields operands) i := by decide
  have hrefused : ¬ ∀ i, i < ldr.arity → Operand.Accepted (Operand.fields refused) i := by decide
  exact ⟨⟨hname, haccepted⟩, (encode_exact hname operands).1 haccepted, by decide,
    (encode_exact hname refused).2.1 hrefused⟩

end Mnemonic

end TwoPass
