import Mathlib.Data.Nat.Digits.Defs
import TwoPass.Proofs.Conversion
import TwoPass.Proofs.Resolution

/-!
# The grammar of operands

An operand is an optional sign and one or more ASCII digits. `Operand.Denotes` says so, and which number
such a text denotes: the digits count for powers of ten (`Nat.ofDigits`), and a minus negates. A text
denotes at most one number, and reading finds it (`Operand.literal?_eq_some_iff`).

Reading an operand accepts exactly the texts that denote a number of the 32-bit range. What is refused is
told apart by three messages, one for each reason, and no message stands for two of them
(`Operand.parse_cases`, `Operand.message_of_parse`).

Reading in steps counts the significant digits first and refuses numbers of more than ten without looking
at their value (`Checked.parse`). This shortcut does no harm, since such a number is out of range
(`Operand.length_significant_le`).
-/

namespace TwoPass

namespace Operand

/-! ## Numerals -/

/-- One or more ASCII digits. -/
structure IsDigits (digits : Text) : Prop where
  /-- there is a digit -/
  ne_nil : digits ≠ []
  /-- there is nothing else -/
  isDigit : ∀ c ∈ digits, c.isDigit = true

/-- The number that digits denote, the last one counting for ones. -/
def decimalValue (digits : Text) : Nat :=
  Nat.ofDigits 10 (digits.reverse.map fun c => c.toNat - '0'.toNat)

/-- The text is an optional sign and digits, and denotes the number. -/
inductive Denotes : Text → Int → Prop where
  /-- without a sign -/
  | unsigned {digits : Text} (h : IsDigits digits) : Denotes digits (decimalValue digits)
  /-- behind a plus -/
  | plus {digits : Text} (h : IsDigits digits) : Denotes ('+' :: digits) (decimalValue digits)
  /-- behind a minus -/
  | minus {digits : Text} (h : IsDigits digits) : Denotes ('-' :: digits) (-decimalValue digits)

/-- Does a number fit a signed 32-bit word? -/
def InRange (value : Int) : Prop := least ≤ value ∧ value ≤ greatest

/-! ### Digits -/

/-- Reading digits from the left gives their value. -/
theorem foldl_eq_decimalValue (digits : Text) :
    digits.foldl (fun n c => 10 * n + (c.toNat - '0'.toNat)) 0 = decimalValue digits := by
  rw [decimalValue, Nat.ofDigits_eq_foldr, List.foldr_map, List.foldr_reverse]
  congr 1
  funext n c
  exact Nat.add_comm ..

theorem magnitude?_of_isDigits {digits : Text} (h : IsDigits digits) :
    magnitude? digits = some (decimalValue digits) := by
  rw [Checked.magnitude?_of_all h.ne_nil (List.all_eq_true.mpr h.isDigit), Checked.numeric,
    foldl_eq_decimalValue]

theorem isDigits_of_magnitude? {digits : Text} {n : Nat} (h : magnitude? digits = some n) :
    IsDigits digits ∧ n = decimalValue digits := by
  unfold magnitude? at h
  split at h
  · cases h
  · next hdigits =>
    simp only [Bool.or_eq_true, not_or, List.isEmpty_iff, Bool.not_eq_true', Bool.not_eq_false,
      List.all_eq_true] at hdigits
    rw [foldl_eq_decimalValue] at h
    exact ⟨⟨hdigits.1, hdigits.2⟩, (Option.some.inj h).symm⟩

/-- A text starts with a minus, with a plus, or with neither. -/
theorem sign_cases (t : Text) :
    (∃ digits, t = '-' :: digits) ∨ (∃ digits, t = '+' :: digits) ∨
      Checked.unsigned t = t ∧ Checked.signed t = Int.ofNat := by
  cases t with
  | nil => exact .inr (.inr ⟨rfl, rfl⟩)
  | cons c digits =>
    by_cases hminus : c = '-'
    · exact .inl ⟨digits, by rw [hminus]⟩
    by_cases hplus : c = '+'
    · exact .inr (.inl ⟨digits, by rw [hplus]⟩)
    refine .inr (.inr ⟨by simp [Checked.unsigned, hminus, hplus], ?_⟩)
    funext n
    simp [Checked.signed, hminus]

/-- **Reading accepts the grammar**: a text is read as a number exactly if it denotes that number. -/
theorem literal?_eq_some_iff {t : Text} {value : Int} : literal? t = some value ↔ Denotes t value := by
  rw [Checked.literal?_eq]
  constructor
  · intro h
    obtain ⟨n, hn, rfl⟩ := Option.map_eq_some_iff.mp h
    obtain ⟨hdigits, rfl⟩ := isDigits_of_magnitude? hn
    obtain ⟨digits, rfl⟩ | ⟨digits, rfl⟩ | ⟨hunsigned, hsigned⟩ := sign_cases t
    · exact .minus hdigits
    · exact .plus hdigits
    · rw [hunsigned, hsigned]
      exact .unsigned (hunsigned ▸ hdigits)
  · intro h
    cases h with
    | minus hdigits =>
      rw [Checked.unsigned, magnitude?_of_isDigits hdigits]
      rfl
    | plus hdigits =>
      rw [Checked.unsigned, magnitude?_of_isDigits hdigits]
      rfl
    | unsigned hdigits =>
      obtain ⟨digits, rfl⟩ | ⟨digits, rfl⟩ | ⟨hunsigned, hsigned⟩ := sign_cases t
      · -- a sign is no digit
        cases hdigits.isDigit '-' List.mem_cons_self
      · cases hdigits.isDigit '+' List.mem_cons_self
      · rw [hunsigned, hsigned, magnitude?_of_isDigits hdigits]
        rfl

/-- A text denotes at most one number. -/
theorem Denotes.unique {t : Text} {value value' : Int} (h : Denotes t value) (h' : Denotes t value') :
    value = value' :=
  Option.some.inj ((literal?_eq_some_iff.mpr h).symm.trans (literal?_eq_some_iff.mpr h'))

theorem literal?_eq_none_iff {t : Text} : literal? t = none ↔ ¬ ∃ value, Denotes t value := by
  rw [Option.eq_none_iff_forall_ne_some, not_exists]
  exact forall_congr' fun value => not_congr literal?_eq_some_iff

/-- The written form of a number denotes it. -/
theorem denotes_decimal (value : Int) : Denotes (Numeral.decimal value) value := by
  have hdigits (n : Nat) : IsDigits (Nat.toDigits 10 n) :=
    ⟨Nat.toDigits_ne_nil, fun c hc => Nat.isDigit_of_mem_toDigits (by decide) (by decide) hc⟩
  have hvalue (n : Nat) : decimalValue (Nat.toDigits 10 n) = n := by
    rw [← foldl_eq_decimalValue]
    exact Nat.ofDigitChars_toDigits (by decide) (by decide)
  cases value with
  | ofNat n =>
    have h := Denotes.unsigned (hdigits n)
    rw [hvalue] at h
    exact h
  | negSucc n =>
    have h := Denotes.minus (hdigits (n + 1))
    rw [hvalue] at h
    exact h

/-! ## Reading -/

/-- **What comes of an operand**: there is no text, or it is no numeral, or the number is out of range, or
the number is accepted. -/
theorem parse_cases (t : Text) :
    (t = [] ∧ parse t = .error .missing) ∨
    (t ≠ [] ∧ (¬ ∃ value, Denotes t value) ∧ parse t = .error (.malformed t)) ∨
    (∃ value, Denotes t value ∧ ¬ InRange value ∧ parse t = .error (.outOfRange t)) ∨
    ∃ value, Denotes t value ∧ InRange value ∧ parse t = .ok value := by
  unfold parse
  by_cases hempty : t = []
  · exact .inl ⟨hempty, by rw [hempty]; rfl⟩
  rw [if_neg (by simpa using hempty)]
  cases hliteral : literal? t with
  | none => exact .inr (.inl ⟨hempty, literal?_eq_none_iff.mp hliteral, rfl⟩)
  | some value =>
    have hdenotes := literal?_eq_some_iff.mp hliteral
    by_cases hrange : InRange value
    · exact .inr (.inr (.inr ⟨value, hdenotes, hrange, if_pos hrange⟩))
    · exact .inr (.inr (.inl ⟨value, hdenotes, hrange, if_neg hrange⟩))

theorem parse_eq_ok_iff_denotes {t : Text} {value : Int} :
    parse t = .ok value ↔ Denotes t value ∧ InRange value := by
  rw [parse_eq_ok_iff, literal?_eq_some_iff]
  rfl

/-- The empty text denotes no number. -/
theorem Denotes.ne_nil {t : Text} {value : Int} (h : Denotes t value) : t ≠ [] := by
  rintro rfl
  cases literal?_eq_some_iff.mpr h

/-- The first letter of a message, by which the reasons are told apart. -/
def Fault.initial : Fault → Char
  | missing | missingAddress => 'm'
  | malformed _ => 'i'
  | outOfRange _ => 'n'

theorem Fault.head?_message (fault : Fault) : fault.message.head? = some fault.initial := by
  cases fault <;> rfl

theorem Fault.message_ne {fault fault' : Fault} (h : fault.initial ≠ fault'.initial) :
    fault.message ≠ fault'.message := by
  intro heq
  have hhead := congrArg List.head? heq
  rw [head?_message, head?_message] at hhead
  exact h (Option.some.inj hhead)

/-- **One message for each reason**. -/
theorem message_of_parse {t : Text} {fault : Fault} (h : parse t = .error fault) :
    (fault.message = Fault.missing.message ↔ t = []) ∧
    (fault.message = (Fault.outOfRange t).message ↔ ∃ value, Denotes t value ∧ ¬ InRange value) ∧
    (fault.message = (Fault.malformed t).message ↔ t ≠ [] ∧ ¬ ∃ value, Denotes t value) := by
  obtain ⟨rfl, hparse⟩ | ⟨hne, hnone, hparse⟩ | ⟨value, hdenotes, hrange, hparse⟩ |
    ⟨value, -, -, hparse⟩ := parse_cases t
  · obtain rfl := Except.error.inj (h.symm.trans hparse)
    refine ⟨iff_of_true rfl rfl, iff_of_false (Fault.message_ne (by simp [Fault.initial])) ?_,
      iff_of_false (Fault.message_ne (by simp [Fault.initial])) fun h => h.1 rfl⟩
    rintro ⟨value, hdenotes, -⟩
    exact hdenotes.ne_nil rfl
  · obtain rfl := Except.error.inj (h.symm.trans hparse)
    refine ⟨iff_of_false (Fault.message_ne (by simp [Fault.initial])) hne,
      iff_of_false (Fault.message_ne (by simp [Fault.initial])) ?_, iff_of_true rfl ⟨hne, hnone⟩⟩
    rintro ⟨value, hdenotes, -⟩
    exact hnone ⟨value, hdenotes⟩
  · obtain rfl := Except.error.inj (h.symm.trans hparse)
    exact ⟨iff_of_false (Fault.message_ne (by simp [Fault.initial])) hdenotes.ne_nil,
      iff_of_true rfl ⟨value, hdenotes, hrange⟩,
      iff_of_false (Fault.message_ne (by simp [Fault.initial])) fun h => h.2 ⟨value, hdenotes⟩⟩
  · cases h.symm.trans hparse

/-- **The shortcut does no harm**: a number of the range has at most ten significant digits, whatever
zeros stand in front of them. -/
theorem length_significant_le {t : Text} {value : Int} (hdenotes : Denotes t value)
    (hrange : InRange value) : (Checked.significant t).length ≤ Checked.mostDigits := by
  have hliteral := literal?_eq_some_iff.mpr hdenotes
  rw [Checked.literal?_eq] at hliteral
  obtain ⟨n, hn, rfl⟩ := Option.map_eq_some_iff.mp hliteral
  obtain ⟨hdigits, -⟩ := isDigits_of_magnitude? hn
  have hdecimal : Checked.isDecimal t = true := by
    simp only [Checked.isDecimal, Bool.and_eq_true, Bool.not_eq_true', List.isEmpty_eq_false_iff,
      List.all_eq_true]
    exact ⟨hdigits.ne_nil, hdigits.isDigit⟩
  obtain ⟨hall, hfirst, hmagnitude⟩ := Checked.significant_of_isDecimal hdecimal
  obtain rfl := Option.some.inj (hn.symm.trans hmagnitude)
  by_contra hlong
  -- more digits than ten, and the first of them counts
  have hgreat := Checked.ten_pow_le_numeric hall hfirst (Nat.lt_of_not_le hlong)
  rw [InRange, Checked.signed, least, greatest] at hrange
  split at hrange <;> omega

/-- **Operands exactly**. A text, which may be absent, is read as a number exactly if it is an optional
sign and one or more ASCII digits and the number they denote is one of the 32-bit range. Any other is
refused, with the text as the refused operand: as missing exactly if it is absent or empty, as out of
range exactly if it denotes a number outside the range, and as malformed in all other cases. Reading in
steps comes to the same, and its count of significant digits rejects no number of the range. The written
form of each number of the range is read as that number. -/
theorem parse_exact (text : Option Text) :
    let t := text.getD []
    (∀ value, parse t = .ok value ↔ Denotes t value ∧ InRange value) ∧
    ((¬ ∃ value, Denotes t value ∧ InRange value) →
      ∃ fault, parse t = .error fault ∧ fault.operand = t ∧
        (fault.message = "missing operand".toList ↔ text = none ∨ text = some []) ∧
        (fault.message = (Fault.outOfRange t).message ↔
          ∃ value, Denotes t value ∧ ¬ InRange value) ∧
        (fault.message = (Fault.malformed t).message ↔ t ≠ [] ∧ ¬ ∃ value, Denotes t value)) ∧
    Checked.parse t = (parse t).mapError .refused ∧
    (∀ value, Denotes t value → InRange value →
      (Checked.significant t).length ≤ Checked.mostDigits) ∧
    ∀ value, InRange value → parse (Numeral.decimal value) = .ok value := by
  intro t
  have habsent : t = [] ↔ text = none ∨ text = some [] := by
    cases text with
    | none => simp [t]
    | some t => simp [t]
  refine ⟨fun value => parse_eq_ok_iff_denotes, ?_, Checked.parse_eq t,
    fun value hdenotes hrange => length_significant_le hdenotes hrange, ?_⟩
  · intro hrefused
    cases hparse : parse t with
    | ok value => exact absurd ⟨value, parse_eq_ok_iff_denotes.mp hparse⟩ hrefused
    | error fault =>
      obtain ⟨hmissing, hout, hmalformed⟩ := message_of_parse hparse
      exact ⟨fault, rfl, operand_of_parse hparse, hmissing.trans habsent, hout, hmalformed⟩
  · intro value hrange
    exact parse_eq_ok_iff_denotes.mpr ⟨denotes_decimal value, hrange⟩

/-- The least operand behind many zeros, and the first number beyond the greatest. -/
theorem parse_exact_limits :
    let least := "-00000000000002147483648".toList
    let beyond := "2147483648".toList
    (Denotes least (-2147483648) ∧ InRange (-2147483648) ∧ parse least = .ok (-2147483648)) ∧
      (¬ ∃ value, Denotes beyond value ∧ InRange value) ∧
      ∃ fault, parse beyond = .error fault ∧ fault.operand = beyond ∧
        fault.message = (Fault.outOfRange beyond).message := by
  intro least beyond
  have hleast : Denotes least (-2147483648) := literal?_eq_some_iff.mp (by decide)
  have hrange : InRange (-2147483648) := ⟨by decide, by decide⟩
  have hbeyond : Denotes beyond 2147483648 := literal?_eq_some_iff.mp (by decide)
  have hout : ¬ InRange 2147483648 := fun h => absurd h.2 (by decide)
  have hrefused : ¬ ∃ value, Denotes beyond value ∧ InRange value := by
    rintro ⟨value, hvalue, hin⟩
    exact hout (hbeyond.unique hvalue ▸ hin)
  obtain ⟨haccepted, -⟩ := parse_exact (some least)
  obtain ⟨-, hfault, -⟩ := parse_exact (some beyond)
  obtain ⟨fault, hparse, hoperand, -, hmessage, -⟩ := hfault hrefused
  exact ⟨⟨hleast, hrange, (haccepted _).mpr ⟨hleast, hrange⟩⟩, hrefused, fault, hparse, hoperand,
    hmessage.mpr ⟨_, hbeyond, hout⟩⟩

end Operand

end TwoPass
