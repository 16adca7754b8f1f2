import TwoPass.Proofs.Apart

/-!
# Fields that collide

Where the places of a word overlap, different operands can have the same word. Two overlaps are settled
here, each as an equivalence.

* The indirect bit of a load from memory lies inside the index field and, for large addresses, inside the
  address. Setting a bit changes nothing exactly if it is set already (`Bits.lor_two_pow_eq_self_iff`), and
  the bits of a union and of a shifted field are known (`Bits.bit_union`, `Bits.bit_shift`). So an extra
  field goes unseen exactly if bit 1 of the index or bit 10 of the address is set
  (`Mnemonic.bit_formula_ldr`).
* The operation code of a load of an address lies in the two lowest bits of the register field, which are
  lost: the field holds the register rounded down to a multiple of four, with these bits set
  (`Bits.lor_code_shiftLeft`). Everything else can be recovered (`Mnemonic.formula_lda_eq_iff`).

Both hold for negative operands as well, which have infinitely many ones to the left.
-/

namespace TwoPass

/-! ## Bits that are set already -/

namespace Bits

/-- Adding bits changes nothing exactly if all of them are set already. -/
theorem union_eq_left_iff {m n : Int} : union m n = m ↔ ∀ i, bit n i = true → bit m i = true := by
  constructor
  · intro h i hi
    rw [← h, bit_union, hi, Bool.or_true]
  · intro h
    refine eq_of_bit_eq fun i => ?_
    rw [bit_union]
    cases hi : bit n i with
    | false => exact Bool.or_false _
    | true =>
      rw [h i hi]
      rfl

/-- Setting one bit changes nothing exactly if it is set already. -/
theorem lor_two_pow_eq_self_iff {n : Int} {k : Nat} :
    Int.lor n (2 ^ k : Nat) = n ↔ bit n k = true := by
  have hbit (i : Nat) : bit (2 ^ k : Nat) i = true ↔ k = i := by
    change (2 ^ k).testBit i = true ↔ k = i
    rw [Nat.testBit_two_pow, decide_eq_true_eq]
  simp only [← union_eq_lor, union_eq_left_iff, hbit, forall_eq']

/-- A field that is moved has zeros to the right of its place. -/
theorem bit_shift (n : Int) (places i : Nat) :
    bit (shift n places) i = if i < places then false else bit n (i - places) := by
  have h := bit_mul_two_pow_add n (Nat.two_pow_pos places) i
  rw [Int.natCast_zero, Int.add_zero, Nat.zero_testBit] at h
  exact h

/-- **The two lowest bits of the register are lost** under the operation code. -/
theorem lor_code_shiftLeft (r : Int) :
    Int.lor 0x6000 (r <<< (13 : Nat)) = (r / 4 * 4 + 3) * 2 ^ 13 := by
  -- the field apart: the bits that stay, and the two under the code
  have hfield : r <<< (13 : Nat) = union (r / 4 * 2 ^ 15) (r % 4 * 2 ^ 13) := by
    rw [union_eq_lor, lor_eq_add 15 (Int.dvd_mul_left _ _) (by omega) (by omega), Int.shiftLeft_eq]
    omega
  have hcovered : union (r % 4 * 2 ^ 13) 0x6000 = 0x6000 := by
    obtain h | h | h | h : r % 4 = 0 ∨ r % 4 = 1 ∨ r % 4 = 2 ∨ r % 4 = 3 := by omega
    all_goals
      rw [h]
      decide
  rw [lor_comm, hfield, ← union_eq_lor, union_assoc, hcovered, union_eq_lor,
    lor_eq_add 15 (Int.dvd_mul_left _ _) (by decide) (by decide)]
  omega

end Bits

/-! ## An extra field -/

namespace Operand

/-- The first fields of the operand text are read as the values, and there is at least one more. -/
structure ReadsMore (operands : Text) (values : List Int) : Prop where
  /-- the first fields have the values -/
  reads : ((fields operands).take values.length).map parse = values.map .ok
  /-- there is an extra field -/
  extra : values.length < (fields operands).length

theorem ReadsMore.getElem? {operands : Text} {values : List Int} (h : ReadsMore operands values) {i : Nat}
    (hi : i < values.length) : (fields operands)[i]?.map parse = values[i]?.map .ok := by
  rw [← List.getElem?_map, ← List.getElem?_map, ← h.reads, List.map_take, List.getElem?_take_of_lt hi]

/-- Fields that come behind those with the values. -/
theorem Reads.readsMore {operands extended : Text} {values : List Int} (h : Reads operands values)
    {extra : List Text} (hfields : fields extended = fields operands ++ extra) (hne : extra ≠ []) :
    ReadsMore extended values where
  reads := by rw [hfields, List.take_left' h.length_eq, h]
  extra := by
    rw [hfields, List.length_append, h.length_eq]
    exact Nat.lt_add_of_pos_right (List.length_pos_of_ne_nil hne)

/-- Any field that is not empty can be written behind the values. -/
theorem readsMore_write {values : List Int} (hne : values ≠ []) (h : ∀ value ∈ values, InRange value)
    {extra : Text} (hextra : IsField extra) (hsome : extra ≠ []) :
    ReadsMore (write values ++ ',' :: extra) values := by
  have hjoin : write values ++ ',' :: extra = Text.join [','] (values.map Numeral.decimal ++ [extra]) := by
    rw [Text.join_append _ (by simpa using hne) (List.cons_ne_nil _ _)]
    rfl
  have hfields : fields (write values ++ ',' :: extra) = fields (write values) ++ [extra] := by
    rw [hjoin, fields_write hne]
    refine fields_join ?_ List.getLast?_concat hsome
    intro t ht
    rcases List.mem_append.mp ht with ht | ht
    · obtain ⟨value, -, rfl⟩ := List.mem_map.mp ht
      exact (denotes_decimal value).isField
    · obtain rfl := List.mem_singleton.mp ht
      exact hextra
  exact (reads_write hne h).readsMore hfields (List.cons_ne_nil _ _)

end Operand

namespace Mnemonic

/-- A formula looks only at the fields that the instruction uses. -/
theorem formula_congr {m : Mnemonic} {value value' : Nat → Int} (h : ∀ i, i < m.arity → value i = value' i)
    (count : Nat) : m.formula value count = m.formula value' count := by
  cases m with
  | hlt => rfl
  | ldx => rw [formula, formula, h 0 (by decide), h 1 (by decide)]
  | ldr | lda | jz => rw [formula, formula, h 0 (by decide), h 1 (by decide), h 2 (by decide)]

/-- A text that has an extra field behind all those that are used has the word of the formula for that
many fields. -/
theorem encode_of_readsMore {m : Mnemonic} {operands : Text} {values : List Int}
    (hlength : values.length = m.arity) (h : Operand.ReadsMore operands values) :
    m.encode operands =
      .ok (m.formula (fun i => values[i]?.getD 0) (Operand.fields operands).length) := by
  have hread (i : Nat) (hi : i < m.arity) := h.getElem? (hlength.symm ▸ hi)
  rw [encode_of_accepted fun i hi => Operand.accepted_of_map_parse (hread i hi)]
  exact congrArg Except.ok (formula_congr (fun i hi => Operand.valueAt_of_map_parse (hread i hi)) _)

/-! ## Words that coincide -/

/-- An extra field sets one bit of the word of a load from memory. -/
theorem encode_ldr_of_readsMore {operands : Text} {values : List Int} (hlength : values.length = 3)
    (h : Operand.ReadsMore operands values) :
    ldr.encode operands = .ok (Int.lor (ldr.formula (fun i => values[i]?.getD 0) 3) 0x400) := by
  have hextra : 3 < (Operand.fields operands).length := hlength ▸ h.extra
  rw [encode_of_readsMore hlength h, formula, formula, if_pos hextra, if_neg (Nat.lt_irrefl 3)]

/-- **Where the indirect bit falls**: bit 10 of the word is bit 1 of the index and bit 10 of the
address. -/
theorem bit_formula_ldr (value : Nat → Int) :
    Bits.bit (ldr.formula value 3) 10 = true ↔
      Bits.bit (value 1) 1 = true ∨ Bits.bit (value 2) 10 = true := by
  rw [formula, if_neg (Nat.lt_irrefl 3), ← Bits.union_eq_lor, ← Bits.union_eq_lor,
    ← Bits.shift_eq_shiftLeft, ← Bits.shift_eq_shiftLeft, Bits.bit_union, Bits.bit_union,
    Bits.bit_shift, Bits.bit_shift]
  simp

/-- The word of a load of an address, where the last two fields stay in their places. -/
theorem formula_lda {value : Nat → Int} (hx : 0 ≤ value 1 ∧ value 1 < 2 ^ 4)
    (haddress : 0 ≤ value 2 ∧ value 2 < 2 ^ 9) (count : Nat) :
    lda.formula value count = (value 0 / 4 * 4 + 3) * 2 ^ 13 + value 1 * 2 ^ 9 + value 2 := by
  rw [formula, Bits.lor_code_shiftLeft]
  exact Bits.lor_fields_eq_add (Int.dvd_mul_left _ _) hx haddress

/-- **What is lost of a load of an address**: words are equal exactly if the registers are, up to their
two lowest bits, and the other fields are. -/
theorem formula_lda_eq_iff {value value' : Nat → Int} (hx : 0 ≤ value 1 ∧ value 1 < 2 ^ 4)
    (haddress : 0 ≤ value 2 ∧ value 2 < 2 ^ 9) (hx' : 0 ≤ value' 1 ∧ value' 1 < 2 ^ 4)
    (haddress' : 0 ≤ value' 2 ∧ value' 2 < 2 ^ 9) (count count' : Nat) :
    lda.formula value count = lda.formula value' count' ↔
      Int.fdiv (value 0) 4 = Int.fdiv (value' 0) 4 ∧ value 1 = value' 1 ∧ value 2 = value' 2 := by
  rw [formula_lda hx haddress, formula_lda hx' haddress', Int.fdiv_eq_ediv_of_nonneg _ (by decide),
    Int.fdiv_eq_ediv_of_nonneg _ (by decide)]
  omega

open Operand (InRange IsField Reads ReadsMore write)

/-- **Exact collisions**. Let all operands be numbers of the 32-bit range.

* A load from memory with an extra field has the word of the one without it and the indirect bit. Both are
  the same word exactly if bit 1 of the index or bit 10 of the address is set.
* Loads of addresses whose last two fields stay in their places have the same word exactly if these fields
  are the same and the registers are, when divided by four and rounded down.

This is so for all operand texts that read as these values, and there are such texts. -/
theorem encode_collisions (token : Text) :
    (token.map Char.toUpper = ldr.name → ∀ r x address, InRange r → InRange x → InRange address →
      Reads (write [r, x, address]) [r, x, address] ∧
      (∀ extra, IsField extra → extra ≠ [] →
        ReadsMore (write [r, x, address] ++ ',' :: extra) [r, x, address]) ∧
      ∀ direct indirect, Reads direct [r, x, address] → ReadsMore indirect [r, x, address] →
        ∃ word, encodeToken token direct = .ok word ∧
          encodeToken token indirect = .ok (Int.lor word 0x400) ∧
          (Int.lor word 0x400 = word ↔ Bits.bit x 1 = true ∨ Bits.bit address 10 = true)) ∧
    (token.map Char.toUpper = lda.name → ∀ r x address, InRange r →
      (0 ≤ x ∧ x < 2 ^ 4) → (0 ≤ address ∧ address < 2 ^ 9) →
      Reads (write [r, x, address]) [r, x, address] ∧
      ∀ r' x' address', InRange r' → (0 ≤ x' ∧ x' < 2 ^ 4) → (0 ≤ address' ∧ address' < 2 ^ 9) →
        ∀ operands operands', Reads operands [r, x, address] → Reads operands' [r', x', address'] →
          ∃ word word', encodeToken token operands = .ok word ∧
            encodeToken token operands' = .ok word' ∧
            (word = word' ↔ Int.fdiv r 4 = Int.fdiv r' 4 ∧ x = x' ∧ address = address')) := by
  refine ⟨?_, ?_⟩
  · intro hname r x address hr hx haddress
    have hrange : ∀ value ∈ [r, x, address], InRange value := by simp [hr, hx, haddress]
    have hne : [r, x, address] ≠ [] := List.cons_ne_nil _ _
    rw [encodeToken_of_map_toUpper hname]
    refine ⟨Operand.reads_write hne hrange, fun extra => Operand.readsMore_write hne hrange, ?_⟩
    intro direct indirect hdirect hindirect
    exact ⟨_, encode_eq_formula hdirect, encode_ldr_of_readsMore rfl hindirect,
      Bits.lor_two_pow_eq_self_iff.trans (bit_formula_ldr _)⟩
  · intro hname r x address hr hx haddress
    rw [encodeToken_of_map_toUpper hname]
    have hrange : ∀ value ∈ [r, x, address], InRange value :=
      Apart.inRange (m := ldr) ⟨hr, hx, haddress⟩
    refine ⟨Operand.reads_write (List.cons_ne_nil _ _) hrange, ?_⟩
    intro r' x' address' hr' hx' haddress' operands operands' hreads hreads'
    exact ⟨_, _, encode_eq_formula hreads, encode_eq_formula hreads',
      formula_lda_eq_iff hx haddress hx' haddress' 3 3⟩

/-- A negative register with an index that hides the indirect bit, an index that does not, and two negative
registers that differ in their lowest bits. -/
theorem encode_collisions_hidden :
    ("Ldr".toList.map Char.toUpper = ldr.name ∧ "lda".toList.map Char.toUpper = lda.name) ∧
    (Reads "-1,2,5".toList [-1, 2, 5] ∧ ReadsMore "-1,2,5, ?".toList [-1, 2, 5] ∧
      encodeToken "Ldr".toList "-1,2,5, ?".toList = encodeToken "Ldr".toList "-1,2,5".toList) ∧
    (Reads "-1,1,5".toList [-1, 1, 5] ∧ ReadsMore "-1,1,5, ?".toList [-1, 1, 5] ∧
      encodeToken "Ldr".toList "-1,1,5, ?".toList ≠ encodeToken "Ldr".toList "-1,1,5".toList) ∧
    (Reads "-1,15,511".toList [-1, 15, 511] ∧ Reads "-4,15,511".toList [-4, 15, 511] ∧
      encodeToken "lda".toList "-1,15,511".toList = encodeToken "lda".toList "-4,15,511".toList) := by
  have hldr : "Ldr".toList.map Char.toUpper = ldr.name := by decide
  have hlda : "lda".toList.map Char.toUpper = lda.name := by decide
  have hrange (value : Int) (h : -100 ≤ value ∧ value ≤ 100) : InRange value := by
    rw [InRange, Operand.least, Operand.greatest]
    omega
  have hhidden : Reads "-1,2,5".toList [-1, 2, 5] := by decide
  have hhidden' : ReadsMore "-1,2,5, ?".toList [-1, 2, 5] := ⟨by decide, by decide⟩
  have hseen : Reads "-1,1,5".toList [-1, 1, 5] := by decide
  have hseen' : ReadsMore "-1,1,5, ?".toList [-1, 1, 5] := ⟨by decide, by decide⟩
  have hlow : Reads "-1,15,511".toList [-1, 15, 511] := by decide
  have hlow' : Reads "-4,15,511".toList [-4, 15, 511] := by decide
  have hload := fun x h => (encode_collisions "Ldr".toList).1 hldr (-1) x 5 (hrange _ (by decide)) h
    (hrange _ (by decide))
  refine ⟨⟨hldr, hlda⟩, ⟨hhidden, hhidden', ?_⟩, ⟨hseen, hseen', ?_⟩, ⟨hlow, hlow', ?_⟩⟩
  · obtain ⟨word, hdirect, hindirect, hsame⟩ := (hload 2 (hrange _ (by decide))).2.2 _ _ hhidden hhidden'
    rw [hdirect, hindirect, hsame.mpr (by decide)]
  · obtain ⟨word, hdirect, hindirect, hsame⟩ := (hload 1 (hrange _ (by decide))).2.2 _ _ hseen hseen'
    rw [hdirect, hindirect]
    intro heq
    exact absurd (hsame.mp (Except.ok.inj heq)) (by decide)
  · obtain ⟨-, hloads⟩ := (encode_collisions "lda".toList).2 hlda (-1) 15 511 (hrange _ (by decide))
      (by decide) (by decide)
    obtain ⟨word, word', hword, hword', hsame⟩ :=
      hloads (-4) 15 511 (hrange _ (by decide)) (by decide) (by decide) _ _ hlow hlow'
    rw [hword, hword', hsame.mpr (by decide)]

end Mnemonic

end TwoPass
