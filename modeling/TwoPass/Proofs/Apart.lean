import TwoPass.Proofs.Formula
import TwoPass.Proofs.Grammar

/-!
# Fields that lie apart

The fields of a word are joined by a bitwise "or". As long as no field has a bit where another one or the
operation code has one, this is a sum: a multiple of a power of two has zeros below, so that a smaller
number can be put there (`Bits.lor_eq_add`). This is also true if the multiple is negative, with
infinitely many ones to the left.

`Mnemonic.Apart` says for which operand values this is so. They can be recovered from the word by division
(`Mnemonic.recover_sum`), so different values have different words. The values can be written as an operand
text (`Operand.reads_write`), and any text that reads as these values has the same word.
-/

namespace TwoPass

/-! ## Disjoint bits -/

namespace Bits

/-- Integers with the same bits are equal. -/
theorem eq_of_bit_eq {m n : Int} (h : ∀ i, bit m i = bit n i) : m = n := by
  -- far to the left, a non-negative integer has zeros and a negative one has ones
  have hfar (a b : Nat) : bit (.ofNat a) (a + b) ≠ bit (.negSucc b) (a + b) := by
    have ha : a.testBit (a + b) = false :=
      Nat.testBit_eq_false_of_lt (Nat.lt_of_le_of_lt (Nat.le_add_right a b) Nat.lt_two_pow_self)
    have hb : b.testBit (a + b) = false :=
      Nat.testBit_eq_false_of_lt (Nat.lt_of_le_of_lt (Nat.le_add_left b a) Nat.lt_two_pow_self)
    simp [bit, ha, hb]
  cases m with
  | ofNat a =>
    cases n with
    | ofNat b => exact congrArg Int.ofNat (Nat.eq_of_testBit_eq h)
    | negSucc b => exact absurd (h (a + b)) (hfar a b)
  | negSucc a =>
    cases n with
    | ofNat b => exact absurd (h (b + a)).symm (hfar b a)
    | negSucc b => exact congrArg Int.negSucc (Nat.eq_of_testBit_eq fun i => Bool.not_inj (h i))

theorem union_comm (m n : Int) : union m n = union n m := by
  refine eq_of_bit_eq fun i => ?_
  rw [bit_union, bit_union, Bool.or_comm]

/-- The bits of a multiple of a power of two with a smaller number below. -/
theorem bit_mul_two_pow_add (n : Int) {m k : Nat} (hm : m < 2 ^ k) (i : Nat) :
    bit (n * 2 ^ k + m) i = if i < k then m.testBit i else bit n (i - k) := by
  cases n with
  | ofNat a =>
    have hsum : (Int.ofNat a * 2 ^ k + m : Int) = Int.ofNat (2 ^ k * a + m) := by
      simp [Int.mul_comm]
    rw [hsum, bit, Nat.testBit_two_pow_mul_add a hm]
    rfl
  | negSucc a =>
    -- the complement is a multiple as well, and has the complement of the number below
    have hsum : (Int.negSucc a * 2 ^ k + m : Int) = Int.negSucc (2 ^ k * a + (2 ^ k - (m + 1))) := by
      have hcast : ((2 ^ k - (m + 1) : Nat) : Int) = 2 ^ k - (m + 1) := by
        rw [Int.natCast_sub hm]
        push_cast
        rfl
      rw [Int.negSucc_eq, Int.negSucc_eq]
      push_cast
      rw [hcast]
      ring
    have hbelow : 2 ^ k - (m + 1) < 2 ^ k := by omega
    rw [hsum, bit, Nat.testBit_two_pow_mul_add a hbelow]
    split
    · next hi => rw [Nat.testBit_two_pow_sub_succ hm]; simp [hi]
    · rfl

/-- **Joining disjoint bits is adding**: one side is a multiple of a power of two, possibly negative, and
the other is smaller than that power. -/
theorem lor_eq_add {m n : Int} (k : Nat) (hm : 2 ^ k ∣ m) (hn : 0 ≤ n) (hlt : n < 2 ^ k) :
    Int.lor m n = m + n := by
  obtain ⟨a, rfl⟩ := hm
  obtain ⟨b, rfl⟩ := Int.eq_ofNat_of_zero_le hn
  have hb : b < 2 ^ k := by exact_mod_cast hlt
  rw [← union_eq_lor, Int.mul_comm]
  refine eq_of_bit_eq fun i => ?_
  have hshift := bit_mul_two_pow_add a (Nat.two_pow_pos k) i
  rw [Int.natCast_zero, Int.add_zero, Nat.zero_testBit] at hshift
  rw [bit_union, bit_mul_two_pow_add a hb, hshift]
  split
  · rfl
  · next hi =>
    have hzero : b.testBit i = false :=
      Nat.testBit_eq_false_of_lt (Nat.lt_of_lt_of_le hb (Nat.pow_le_pow_right (by decide) (by omega)))
    simp [bit, hzero]

/-- Two fields below a multiple: one of the given width, and one to the right of its place. -/
theorem lor_fields_eq_add {m x address : Int} {place width : Nat} (hm : 2 ^ (place + width) ∣ m)
    (hx : 0 ≤ x ∧ x < 2 ^ width) (haddress : 0 ≤ address ∧ address < 2 ^ place) :
    Int.lor (Int.lor m (x <<< place)) address = m + x * 2 ^ place + address := by
  have hplace : (0 : Int) < 2 ^ place := Int.pow_pos (by decide)
  have hfield : Int.lor m (x <<< place) = m + x * 2 ^ place := by
    rw [Int.shiftLeft_eq]
    refine lor_eq_add (place + width) hm (Int.mul_nonneg hx.1 (Int.le_of_lt hplace)) ?_
    rw [Int.pow_add, Int.mul_comm (2 ^ place)]
    exact Int.mul_lt_mul_of_pos_right hx.2 hplace
  rw [hfield]
  refine lor_eq_add place ?_ haddress.1 haddress.2
  rw [Int.pow_add] at hm
  exact Int.dvd_add (Int.dvd_trans (Int.dvd_mul_right _ _) hm) (Int.dvd_mul_left _ _)

theorem lor_comm (m n : Int) : Int.lor m n = Int.lor n m := by
  rw [← union_eq_lor, ← union_eq_lor, union_comm]

end Bits

/-! ## Operand values -/

namespace Operand

/-- The operand text has as many fields as there are values, and each field is read as its value. -/
def Reads (operands : Text) (values : List Int) : Prop :=
  (fields operands).map parse = values.map .ok

instance (operands : Text) (values : List Int) : Decidable (Reads operands values) :=
  inferInstanceAs (Decidable ((fields operands).map parse = values.map .ok))

/-- The operand text with the given values, in decimal and with commas between them. -/
def write (values : List Int) : Text := Text.join [','] (values.map Numeral.decimal)

/-- A numeral is made of digits and signs. -/
theorem Denotes.isDigit_or_sign {t : Text} {value : Int} (h : Denotes t value) {c : Char} (hc : c ∈ t) :
    c.isDigit = true ∨ c = '+' ∨ c = '-' := by
  cases h with
  | unsigned hdigits => exact .inl (hdigits.isDigit c hc)
  | plus hdigits =>
    rcases List.mem_cons.mp hc with rfl | hc
    · exact .inr (.inl rfl)
    · exact .inl (hdigits.isDigit c hc)
  | minus hdigits =>
    rcases List.mem_cons.mp hc with rfl | hc
    · exact .inr (.inr rfl)
    · exact .inl (hdigits.isDigit c hc)

/-- A digit is no blank. -/
theorem isBlank_of_isDigit {c : Char} (h : c.isDigit = true) : Text.isBlank c = false := by
  have hrange : 48 ≤ c.toNat ∧ c.toNat ≤ 57 := by
    simpa [Char.isDigit, UInt32.le_iff_toNat_le] using h
  simp only [Text.isBlank, Text.inRanges, Text.blankRanges, List.any_cons, List.any_nil,
    Bool.or_eq_false_iff, Bool.and_eq_false_iff, decide_eq_false_iff_not, and_true]
  omega

/-- A numeral can be a field. -/
theorem Denotes.isField {t : Text} {value : Int} (h : Denotes t value) : IsField t where
  comma hmem := by simpa using h.isDigit_or_sign hmem
  semicolon hmem := by simpa using h.isDigit_or_sign hmem
  trimmed := by
    refine Text.trim_of_not_isBlank fun c hc => ?_
    rcases h.isDigit_or_sign hc with hdigit | rfl | rfl
    · exact isBlank_of_isDigit hdigit
    · decide
    · decide

/-- The fields of values that are written are their numerals. -/
theorem fields_write {values : List Int} (hne : values ≠ []) :
    fields (write values) = values.map Numeral.decimal := by
  refine fields_join ?_ ?_ (denotes_decimal (values.getLast hne)).ne_nil
  · intro t ht
    obtain ⟨value, -, rfl⟩ := List.mem_map.mp ht
    exact (denotes_decimal value).isField
  · rw [List.getLast?_map, List.getLast?_eq_some_getLast hne]
    rfl

/-- **Values that are written are read again**. -/
theorem reads_write {values : List Int} (hne : values ≠ []) (h : ∀ value ∈ values, InRange value) :
    Reads (write values) values := by
  rw [Reads, fields_write hne, List.map_map]
  refine List.map_congr_left fun value hvalue => ?_
  exact parse_eq_ok_iff_denotes.mpr ⟨denotes_decimal value, h value hvalue⟩

/-! ### Fields that are read -/

section Field

variable {fields : List Text} {i : Nat} {value? : Option Int}
  (h : fields[i]?.map parse = value?.map .ok)

include h

theorem accepted_of_map_parse : Accepted fields i := by
  intro field hfield
  rw [hfield, Option.map_some] at h
  obtain ⟨value, -, hvalue⟩ := Option.map_eq_some_iff.mp h.symm
  exact ⟨value, hvalue.symm⟩

theorem valueAt_of_map_parse : valueAt fields i = value?.getD 0 := by
  rw [valueAt]
  cases hfield : fields[i]? with
  | none =>
    rw [hfield, Option.map_none] at h
    rw [Option.map_eq_none_iff.mp h.symm]
    rfl
  | some field =>
    rw [hfield, Option.map_some] at h
    obtain ⟨value, hsome, hparse⟩ := Option.map_eq_some_iff.mp h.symm
    rw [hsome, Option.bind_some, ← hparse]
    rfl

end Field

section Reads

variable {operands : Text} {values : List Int} (h : Reads operands values)

include h

theorem Reads.length_eq : (fields operands).length = values.length := by
  simpa using congrArg List.length h

theorem Reads.getElem? (i : Nat) :
    (fields operands)[i]?.map parse = values[i]?.map .ok := by
  rw [← List.getElem?_map, ← List.getElem?_map, h]

theorem Reads.accepted (i : Nat) : Accepted (fields operands) i :=
  accepted_of_map_parse (h.getElem? i)

theorem Reads.valueAt_eq (i : Nat) : valueAt (fields operands) i = values[i]?.getD 0 :=
  valueAt_of_map_parse (h.getElem? i)

end Reads

end Operand

/-! ## Words as sums -/

namespace Mnemonic

/-- The operand values of an instruction lie apart: none has a bit in the place of another or of the
operation code. Only the leftmost field may be negative, where nothing stands to the left of it. -/
def Apart : Mnemonic → List Int → Prop
  | ldx, [x, address] => (0 ≤ x ∧ x < 2 ^ 4) ∧ 0 ≤ address ∧ address < 2 ^ 9
  | ldr, [r, x, address] =>
    Operand.InRange r ∧ (0 ≤ x ∧ x < 2 ^ 4) ∧ 0 ≤ address ∧ address < 2 ^ 9
  | lda, [r, x, address] =>
    (Operand.InRange r ∧ 4 ∣ r) ∧ (0 ≤ x ∧ x < 2 ^ 4) ∧ 0 ≤ address ∧ address < 2 ^ 9
  | jz, [r, x, address] =>
    (0 ≤ r ∧ r < 2 ^ 8) ∧ (0 ≤ x ∧ x < 2 ^ 4) ∧ 0 ≤ address ∧ address < 2 ^ 5
  | _, _ => False

/-- The word of an instruction as a sum. -/
def sum : Mnemonic → List Int → Int
  | ldx, [x, address] => 0x102000 + x * 2 ^ 9 + address
  | ldr, [r, x, address] => r * 2 ^ 13 + x * 2 ^ 9 + address
  | lda, [r, x, address] => 0x6000 + r * 2 ^ 13 + x * 2 ^ 9 + address
  | jz, [r, x, address] => 0x20000 + r * 2 ^ 9 + x * 2 ^ 5 + address
  | _, _ => 0

/-- The operand values in a word. -/
def recover (m : Mnemonic) (word : Int) : List Int :=
  match m with
  | ldx => [word / 2 ^ 9 % 2 ^ 4, word % 2 ^ 9]
  | ldr => [word / 2 ^ 13, word / 2 ^ 9 % 2 ^ 4, word % 2 ^ 9]
  | lda => [(word - 0x6000) / 2 ^ 13, word / 2 ^ 9 % 2 ^ 4, word % 2 ^ 9]
  | jz => [word / 2 ^ 9 % 2 ^ 8, word / 2 ^ 5 % 2 ^ 4, word % 2 ^ 5]
  | hlt => []

/-- The instructions and values in question. -/
theorem Apart.cases {m : Mnemonic} {values : List Int} (h : m.Apart values) :
    (m = ldx ∧ ∃ x address, values = [x, address]) ∨
      (m = ldr ∨ m = lda ∨ m = jz) ∧ ∃ r x address, values = [r, x, address] := by
  unfold Apart at h
  split at h
  · exact .inl ⟨rfl, _, _, rfl⟩
  · exact .inr ⟨.inl rfl, _, _, _, rfl⟩
  · exact .inr ⟨.inr (.inl rfl), _, _, _, rfl⟩
  · exact .inr ⟨.inr (.inr rfl), _, _, _, rfl⟩
  · exact h.elim

theorem Apart.inRange {m : Mnemonic} {values : List Int} (h : m.Apart values) :
    ∀ value ∈ values, Operand.InRange value := by
  obtain ⟨rfl, x, address, rfl⟩ | ⟨rfl | rfl | rfl, r, x, address, rfl⟩ := h.cases <;>
    simp only [Apart, Operand.InRange, Operand.least, Operand.greatest, List.forall_mem_cons,
      List.not_mem_nil, IsEmpty.forall_iff, implies_true, and_true] at h ⊢ <;> omega

/-- **The formula is a sum**. -/
theorem formula_eq_sum {m : Mnemonic} {values : List Int} (h : m.Apart values) :
    m.formula (fun i => values[i]?.getD 0) values.length = m.sum values := by
  obtain ⟨rfl, x, address, rfl⟩ | ⟨rfl | rfl | rfl, r, x, address, rfl⟩ := h.cases
  · obtain ⟨hx, haddress⟩ := h
    exact Bits.lor_fields_eq_add (by decide) hx haddress
  · obtain ⟨-, hx, haddress⟩ := h
    change Int.lor (Int.lor (r <<< (13 : Nat)) _) _ = _
    rw [Int.shiftLeft_eq]
    exact Bits.lor_fields_eq_add (Int.dvd_mul_left r (2 ^ 13)) hx haddress
  · obtain ⟨⟨-, hr⟩, hx, haddress⟩ := h
    -- the operation code stands in the two lowest bits of the first field, which are free
    have hfirst : Int.lor 0x6000 (r <<< (13 : Nat)) = 0x6000 + r * 2 ^ 13 := by
      rw [Bits.lor_comm, Int.shiftLeft_eq, Int.add_comm]
      exact Bits.lor_eq_add 15 (by omega) (by decide) (by decide)
    change Int.lor (Int.lor (Int.lor 0x6000 (r <<< (13 : Nat))) _) _ = _
    rw [hfirst]
    exact Bits.lor_fields_eq_add (by omega) hx haddress
  · obtain ⟨hr, hx, haddress⟩ := h
    have hfirst : Int.lor 0x20000 (r <<< (9 : Nat)) = 0x20000 + r * 2 ^ 9 := by
      rw [Int.shiftLeft_eq]
      exact Bits.lor_eq_add 17 (by decide) (by omega) (by omega)
    change Int.lor (Int.lor (Int.lor 0x20000 (r <<< (9 : Nat))) _) _ = _
    rw [hfirst]
    exact Bits.lor_fields_eq_add (by omega) hx haddress

/-- **The values can be recovered**. -/
theorem recover_sum {m : Mnemonic} {values : List Int} (h : m.Apart values) :
    m.recover (m.sum values) = values := by
  obtain ⟨rfl, x, address, rfl⟩ | ⟨rfl | rfl | rfl, r, x, address, rfl⟩ := h.cases <;>
    simp only [Apart, recover, sum, List.cons.injEq, and_true] at h ⊢ <;> omega

variable {m : Mnemonic} {values : List Int}

/-- A text that reads as values has the word of the formula. -/
theorem encode_eq_formula {operands : Text} (hreads : Operand.Reads operands values) :
    m.encode operands = .ok (m.formula (fun i => values[i]?.getD 0) values.length) := by
  have hvalues : Operand.valueAt (Operand.fields operands) = fun i => values[i]?.getD 0 :=
    funext hreads.valueAt_eq
  rw [encode_of_accepted fun i _ => hreads.accepted i, hvalues, hreads.length_eq]

/-- A text that reads as values that lie apart has their sum as its word. -/
theorem encode_of_reads {operands : Text} (h : m.Apart values) (hreads : Operand.Reads operands values) :
    m.encode operands = .ok (m.sum values) := by
  rw [encode_eq_formula hreads, formula_eq_sum h]

/-- **Words of disjoint fields**. Let the operand values of an instruction lie apart. Then every operand
text that reads as these values is encoded as the sum of the operation code and the values at their places,
and there is such a text. The values can be recovered from the word, so if operand texts with values that
lie apart have the same word, the values are the same. -/
theorem encode_apart {token : Text} (hname : token.map Char.toUpper = m.name) (h : m.Apart values) :
    (∀ operands, Operand.Reads operands values → encodeToken token operands = .ok (m.sum values)) ∧
    Operand.Reads (Operand.write values) values ∧
    m.recover (m.sum values) = values ∧
    ∀ values', m.Apart values' → ∀ operands operands', Operand.Reads operands values →
      Operand.Reads operands' values' → encodeToken token operands = encodeToken token operands' →
      values = values' := by
  have hne : values ≠ [] := by
    obtain ⟨-, x, address, rfl⟩ | ⟨-, r, x, address, rfl⟩ := h.cases
    · exact List.cons_ne_nil _ _
    · exact List.cons_ne_nil _ _
  rw [encodeToken_of_map_toUpper hname]
  refine ⟨fun operands hreads => encode_of_reads h hreads, Operand.reads_write hne h.inRange,
    recover_sum h, ?_⟩
  intro values' h' operands operands' hreads hreads' hword
  rw [encode_of_reads h hreads, encode_of_reads h' hreads'] at hword
  rw [← recover_sum h, Except.ok.inj hword, recover_sum h']

/-- A negative register in front, with signs, zeros and blanks around. -/
theorem encode_apart_negative :
    let values := [-2147483648, 15, 511]
    let operands := " -02147483648 , +15,511 ; note".toList
    ("lda".toList.map Char.toUpper = lda.name ∧ lda.Apart values ∧ Operand.Reads operands values) ∧
      encodeToken "lda".toList operands = .ok (0x6000 - 2147483648 * 2 ^ 13 + 15 * 2 ^ 9 + 511) ∧
      encodeToken "lda".toList (Operand.write values) = encodeToken "lda".toList operands := by
  intro values operands
  have hname : "lda".toList.map Char.toUpper = lda.name := by decide
  have hapart : lda.Apart values := by
    simp [values, Apart, Operand.InRange, Operand.least, Operand.greatest]
  have hreads : Operand.Reads operands values := by
    unfold Operand.Reads
    decide
  obtain ⟨hencode, hwrite, -⟩ := encode_apart hname hapart
  refine ⟨⟨hname, hapart, hreads⟩, hencode operands hreads, ?_⟩
  rw [hencode operands hreads, hencode _ hwrite]

end Mnemonic

end TwoPass
