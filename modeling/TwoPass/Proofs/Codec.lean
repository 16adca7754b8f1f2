import Mathlib.Data.List.TakeWhile
import TwoPass.Charset.Basic

/-!
# Reading back what was written

A character set cannot write every text, but it can write every text that it has read, and what it has
written it reads back as it was.

* Decoding yields only characters of the set (`Charset.has_of_decode`), and a text of such characters
  is written without a refusal (`Charset.encodeAll_of_has`).
* Reading undoes writing (`Charset.decode_encodeWrites`), also if the text was written piece by piece
  and if a mark stands at the start of the file.

Most of the second point is UTF-8. A character is written as a lead byte and continuation bytes with six
bits each. Reading them one at a time, each continuation byte lies in the range that is pending and adds
its bits to the value (`Utf8.decodeFrom_more`, `Utf8.decodeFrom_last`), so the value at the last byte is
the character (`Utf8.decodeFrom_encodeChar`).
-/

namespace TwoPass

/-! ## UTF-8 -/

namespace Utf8

theorem toNat_byte {n : Nat} (h : n < 0x100) : (UInt8.ofNat n).toNat = n := UInt8.toNat_ofNat_of_lt h

theorem toNat_continuation (n : Nat) : (continuation n).toNat = 0x80 + n % 0x40 :=
  toNat_byte (by omega)

section Continue

variable {low high n : Nat} (hlow : low ≤ 0x80 + n % 0x40) (hhigh : 0x80 + n % 0x40 ≤ high)
  (position start : Nat) (lead : UInt8) (count value : Nat) (rest : Bytes)

include hlow hhigh

/-- A continuation byte that is not the last one adds its six bits to the pending value. -/
theorem decodeFrom_more (owed : Nat) :
    decodeFrom position (some ⟨start, lead, count, owed + 2, low, high, value⟩)
        (continuation n :: rest) =
      decodeFrom (position + 1)
        (some ⟨start, lead, count + 1, owed + 1, 0x80, 0xBF, value * 0x40 + n % 0x40⟩) rest := by
  rw [decodeFrom, toNat_continuation, if_pos ⟨hlow, hhigh⟩, if_neg (by simp),
    Nat.add_sub_cancel_left]
  rfl

/-- The last continuation byte completes the character. -/
theorem decodeFrom_last :
    decodeFrom position (some ⟨start, lead, count, 1, low, high, value⟩) (continuation n :: rest) =
      (Char.ofNat (value * 0x40 + n % 0x40) :: (decodeFrom (position + 1) none rest).1,
        (decodeFrom (position + 1) none rest).2) := by
  rw [decodeFrom, toNat_continuation, if_pos ⟨hlow, hhigh⟩, if_pos (Nat.le_refl 1),
    Nat.add_sub_cancel_left]

end Continue

/-! ### Lead bytes -/

/-- A lead byte is read like its range asks for. -/
theorem decodeFrom_lead {position : Nat} {b : UInt8} {p : Pending}
    (h : Pending.ofLead? position b = some p) (rest : Bytes) :
    decodeFrom position none (b :: rest) = decodeFrom (position + 1) (some p) rest := by
  have hnot : ¬ b.toNat < 0x80 := by
    intro hlt
    simp only [Pending.ofLead?] at h
    repeat rw [if_neg (by omega)] at h
    cases h
  rw [decodeFrom, if_neg hnot, h]

/-- The lead byte of two. -/
theorem ofLead?_two (position : Nat) {n : Nat} (hlow : 2 ≤ n) (hhigh : n < 0x20) :
    Pending.ofLead? position (UInt8.ofNat (0xC0 + n)) =
      some ⟨position, UInt8.ofNat (0xC0 + n), 1, 1, 0x80, 0xBF, n⟩ := by
  have hbyte : (UInt8.ofNat (0xC0 + n)).toNat = 0xC0 + n := toNat_byte (by omega)
  simp only [Pending.ofLead?, hbyte]
  rw [if_pos (by omega), Nat.add_sub_cancel_left]

/-- The lead byte of three, with the six bits that follow: what follows is in range, since the number
needs three bytes and is no surrogate. -/
theorem ofLead?_three (position : Nat) {n : Nat} (hlow : 0x20 ≤ n) (hhigh : n < 0x400)
    (hsurrogate : n < 0x360 ∨ 0x380 ≤ n) :
    ∃ low high, low ≤ 0x80 + n % 0x40 ∧ 0x80 + n % 0x40 ≤ high ∧
      Pending.ofLead? position (UInt8.ofNat (0xE0 + n / 0x40)) =
        some ⟨position, UInt8.ofNat (0xE0 + n / 0x40), 1, 2, low, high, n / 0x40⟩ := by
  have hbyte : (UInt8.ofNat (0xE0 + n / 0x40)).toNat = 0xE0 + n / 0x40 :=
    toNat_byte (by omega)
  simp only [Pending.ofLead?, hbyte, Nat.add_sub_cancel_left]
  rw [if_neg (by omega)]
  by_cases hzero : n / 0x40 = 0
  · exact ⟨0xA0, 0xBF, by omega, by omega, by rw [if_pos (by omega), hzero]⟩
  · rw [if_neg (by omega)]
    by_cases hd : n / 0x40 = 0xD
    · exact ⟨0x80, 0x9F, by omega, by omega, by rw [if_pos (by omega), hd]⟩
    · exact ⟨0x80, 0xBF, by omega, by omega, by rw [if_neg (by omega), if_pos (by omega)]⟩

/-- The lead byte of four, with the six bits that follow: what follows is in range, since the number
needs four bytes and is one of Unicode. -/
theorem ofLead?_four (position : Nat) {n : Nat} (hlow : 0x10 ≤ n) (hhigh : n < 0x110) :
    ∃ low high, low ≤ 0x80 + n % 0x40 ∧ 0x80 + n % 0x40 ≤ high ∧
      Pending.ofLead? position (UInt8.ofNat (0xF0 + n / 0x40)) =
        some ⟨position, UInt8.ofNat (0xF0 + n / 0x40), 1, 3, low, high, n / 0x40⟩ := by
  have hbyte : (UInt8.ofNat (0xF0 + n / 0x40)).toNat = 0xF0 + n / 0x40 :=
    toNat_byte (by omega)
  simp only [Pending.ofLead?, hbyte, Nat.add_sub_cancel_left]
  rw [if_neg (by omega), if_neg (by omega), if_neg (by omega), if_neg (by omega)]
  by_cases hzero : n / 0x40 = 0
  · exact ⟨0x90, 0xBF, by omega, by omega, by rw [if_pos (by omega), hzero]⟩
  · rw [if_neg (by omega)]
    by_cases hfour : n / 0x40 = 4
    · exact ⟨0x80, 0x8F, by omega, by omega, by rw [if_pos (by omega), hfour]⟩
    · exact ⟨0x80, 0xBF, by omega, by omega, by rw [if_neg (by omega), if_pos (by omega)]⟩

/-! ### Characters and texts -/

/-- **Reading a character undoes writing it**, whatever follows. -/
theorem decodeFrom_encodeChar (c : Char) (position : Nat) (rest : Bytes) :
    ∃ behind, decodeFrom position none (encodeChar c ++ rest) =
      (c :: (decodeFrom behind none rest).1, (decodeFrom behind none rest).2) := by
  have hvalid : c.toNat < 0xD800 ∨ 0xDFFF < c.toNat ∧ c.toNat < 0x110000 := c.valid
  have hself : Char.ofNat c.toNat = c := Char.ofNat_toNat c
  simp only [encodeChar]
  generalize c.toNat = n at hvalid hself
  by_cases hone : n < 0x80
  · have hbyte : (UInt8.ofNat n).toNat = n := toNat_byte (by omega)
    refine ⟨position + 1, ?_⟩
    rw [if_pos hone, List.cons_append, List.nil_append, decodeFrom, hbyte, if_pos hone, hself]
  rw [if_neg hone]
  by_cases htwo : n < 0x800
  · refine ⟨position + 2, ?_⟩
    rw [if_pos htwo, List.cons_append, List.cons_append, List.nil_append,
      decodeFrom_lead (ofLead?_two position (by omega) (by omega)),
      decodeFrom_last (by omega) (by omega), Nat.div_add_mod', hself]
  rw [if_neg htwo]
  by_cases hthree : n < 0x10000
  · obtain ⟨low, high, hlow, hhigh, hlead⟩ :=
      ofLead?_three position (n := n / 0x40) (by omega) (by omega) (by omega)
    refine ⟨position + 3, ?_⟩
    rw [if_pos hthree, ← Nat.div_div_eq_div_mul n 0x40 0x40, List.cons_append, List.cons_append,
      List.cons_append, List.nil_append, decodeFrom_lead hlead,
      decodeFrom_more hlow hhigh, decodeFrom_last (by omega) (by omega), Nat.div_add_mod',
      Nat.div_add_mod', hself]
  · obtain ⟨low, high, hlow, hhigh, hlead⟩ :=
      ofLead?_four position (n := n / 0x1000) (by omega) (by omega)
    refine ⟨position + 4, ?_⟩
    rw [if_neg hthree, ← Nat.div_div_eq_div_mul n 0x1000 0x40, List.cons_append, List.cons_append,
      List.cons_append, List.cons_append, List.nil_append, decodeFrom_lead hlead,
      decodeFrom_more hlow hhigh, decodeFrom_more (by omega) (by omega),
      decodeFrom_last (by omega) (by omega), Nat.div_add_mod',
      ← Nat.div_div_eq_div_mul n 0x40 0x40, Nat.div_add_mod', Nat.div_add_mod', hself]

theorem decodeFrom_encode (t : Text) (position : Nat) :
    decodeFrom position none (encode t) = (t, none) := by
  induction t generalizing position with
  | nil => rfl
  | cons c t ih =>
    obtain ⟨behind, hbehind⟩ := decodeFrom_encodeChar c position (encode t)
    rw [encode, List.flatMap_cons]
    rw [ih behind] at hbehind
    exact hbehind

end Utf8

/-! ## Character sets -/

namespace Charset

/-- Is the character one of the set? -/
def has : Charset → Char → Bool
  | utf8, _ | utf8Marked, _ => true
  | ascii, c => c.toNat < 0x80
  | latin1, c => c.toNat < 0x100

/-- The bytes of a text of characters of the set, without a mark. -/
def bytes : Charset → Text → Bytes
  | utf8, t | utf8Marked, t => Utf8.encode t
  | ascii, t | latin1, t => t.map fun c => UInt8.ofNat c.toNat

/-- Every set has the ASCII characters. -/
theorem has_of_ascii {c : Char} (h : c.toNat < 0x80) (charset : Charset) : charset.has c = true := by
  cases charset with
  | utf8 => rfl
  | utf8Marked => rfl
  | ascii => exact decide_eq_true h
  | latin1 => exact decide_eq_true (Nat.lt_trans h (by decide))

theorem toNat_ofNat_byte (b : UInt8) : (Char.ofNat b.toNat).toNat = b.toNat := by
  have hvalid : b.toNat.isValidChar := .inl (Nat.lt_trans b.toNat_lt (by decide))
  exact congrArg Char.toNat (dif_pos hvalid)

/-! ### What is read belongs to the set -/

theorem toNat_lt_of_mem_decodeAscii {position : Nat} {bytes : Bytes} {c : Char}
    (h : c ∈ (decodeAscii position bytes).1) : c.toNat < 0x80 := by
  fun_induction decodeAscii position bytes with
  | case1 => cases h
  | case2 position b rest hb text fault hrest ih =>
    rcases List.mem_cons.mp h with rfl | h
    · rw [toNat_ofNat_byte]
      exact hb
    · rw [hrest] at ih
      exact ih h
  | case3 position b rest hb => cases h

/-- **What is read belongs to the set**. -/
theorem has_of_decode {charset : Charset} {bytes : Bytes} {c : Char}
    (h : c ∈ (charset.decode bytes).1) : charset.has c = true := by
  cases charset with
  | utf8 => rfl
  | utf8Marked => rfl
  | ascii => exact decide_eq_true (toNat_lt_of_mem_decodeAscii h)
  | latin1 =>
    obtain ⟨b, -, rfl⟩ := List.mem_map.mp h
    refine decide_eq_true ?_
    rw [toNat_ofNat_byte]
    exact b.toNat_lt

/-! ### What belongs to the set is written -/

theorem encodeBytes_of_lt {charset : Text} {size : Nat} {t : Text} (h : ∀ c ∈ t, c.toNat < size) :
    encodeBytes charset size t = .ok (t.map fun c => UInt8.ofNat c.toNat) := by
  have hknown : t.takeWhile (fun c => decide (c.toNat < size)) = t :=
    List.takeWhile_eq_self_iff.mpr fun c hc => decide_eq_true (h c hc)
  simp only [encodeBytes, hknown, List.drop_length]

theorem encode_of_has {charset : Charset} {t : Text} (h : ∀ c ∈ t, charset.has c = true) :
    charset.encode t = .ok (charset.bytes t) := by
  cases charset with
  | utf8 => rfl
  | utf8Marked => rfl
  | ascii => exact encodeBytes_of_lt fun c hc => of_decide_eq_true (h c hc)
  | latin1 => exact encodeBytes_of_lt fun c hc => of_decide_eq_true (h c hc)

theorem bytes_append (charset : Charset) (t s : Text) :
    charset.bytes (t ++ s) = charset.bytes t ++ charset.bytes s := by
  cases charset with
  | utf8 => exact List.flatMap_append
  | utf8Marked => exact List.flatMap_append
  | ascii => exact List.map_append
  | latin1 => exact List.map_append

/-- **What belongs to the set is written**, and it makes no difference in how many pieces. -/
theorem encodeAll_of_has {charset : Charset} {texts : List Text}
    (h : ∀ t ∈ texts, ∀ c ∈ t, charset.has c = true) :
    charset.encodeAll texts = (charset.bytes texts.flatten, none) := by
  induction texts with
  | nil => cases charset <;> rfl
  | cons t texts ih =>
    rw [encodeAll, encode_of_has (h t List.mem_cons_self),
      ih fun s hs => h s (List.mem_cons_of_mem t hs), List.flatten_cons, bytes_append]

/-! ### What is written is read back -/

theorem decodeAscii_map {t : Text} (h : ∀ c ∈ t, c.toNat < 0x80) (position : Nat) :
    decodeAscii position (t.map fun c => UInt8.ofNat c.toNat) = (t, none) := by
  induction t generalizing position with
  | nil => rfl
  | cons c t ih =>
    obtain ⟨hc, ht⟩ := List.forall_mem_cons.mp h
    rw [List.map_cons, decodeAscii, Utf8.toNat_byte (Nat.lt_trans hc (by decide)), if_pos hc, ih ht,
      Char.ofNat_toNat]

theorem decodeLatin1_map {t : Text} (h : ∀ c ∈ t, c.toNat < 0x100) :
    (t.map fun c => UInt8.ofNat c.toNat).map (fun b => Char.ofNat b.toNat) = t := by
  have hself : ∀ c ∈ t, Char.ofNat (UInt8.ofNat c.toNat).toNat = c := by
    intro c hc
    rw [Utf8.toNat_byte (h c hc), Char.ofNat_toNat]
  rw [List.map_map]
  exact (List.map_congr_left hself).trans (List.map_id t)

theorem decodeUtf8_encode (t : Text) : decodeUtf8 (Utf8.encode t) = (t, none) := by
  rw [decodeUtf8, Utf8.decode, Utf8.decodeFrom_encode]
  rfl

theorem unmark_mark (bytes : Bytes) : unmark (mark ++ bytes) = bytes := by
  simp [unmark, mark, List.isPrefixOf]

/-- **What is written is read back**. Texts of characters of the set are written without a refusal, one
after the other, and the file then decodes to them. -/
theorem decode_encodeWrites {charset : Charset} {texts : List Text}
    (h : ∀ t ∈ texts, ∀ c ∈ t, charset.has c = true) :
    ∃ bytes, charset.encodeWrites texts = (bytes, none) ∧
      charset.decode bytes = (texts.flatten, none) := by
  have hall : ∀ c ∈ texts.flatten, charset.has c = true := by
    intro c hc
    obtain ⟨t, ht, hct⟩ := List.mem_flatten.mp hc
    exact h t ht c hct
  rw [encodeWrites, encodeAll_of_has h]
  refine ⟨_, rfl, ?_⟩
  cases charset with
  | utf8 => exact decodeUtf8_encode texts.flatten
  | ascii => exact decodeAscii_map (fun c hc => of_decide_eq_true (hall c hc)) 0
  | latin1 => exact congrArg (·, none) (decodeLatin1_map fun c hc => of_decide_eq_true (hall c hc))
  | utf8Marked =>
    -- the mark is there unless nothing was written, and then there is no text either
    by_cases htexts : texts = []
    · subst htexts
      rfl
    · rw [if_pos ⟨rfl, htexts⟩, decode, unmark_mark]
      exact decodeUtf8_encode texts.flatten

end Charset

end TwoPass
