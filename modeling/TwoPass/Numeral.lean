import TwoPass.Text.Blank

/-!
# Numerals

How integers are written.

* `decimal`: sign and digits, as in messages.
* `octal`: addresses and words. The value is taken modulo `2 ^ 32`, so a negative number appears as
  its 32-bit two's complement, and at least six digits are written.
* `hex`: lower-case hexadecimal of a given least width, as in escapes.
-/

namespace TwoPass

namespace Numeral

/-- Fill up on the left to the given width; a longer text stays as it is. -/
def padLeft (width : Nat) (fill : Char) (t : Text) : Text :=
  List.replicate (width - t.length) fill ++ t

/-- Sign and decimal digits, no leading zeros. -/
def decimal : Int → Text
  | .ofNat n => Nat.toDigits 10 n
  | .negSucc n => '-' :: Nat.toDigits 10 (n + 1)

/-- The number of values of a printed word, `2 ^ 32`. -/
def wordRange : Nat := 4294967296

/-- The value modulo `wordRange` in octal, at least six digits. -/
def octal (value : Int) : Text :=
  padLeft 6 '0' (Nat.toDigits 8 (value % wordRange).toNat)

/-- Lower-case hexadecimal digits, at least `width` of them. -/
def hex (width : Nat) (n : Nat) : Text := padLeft width '0' (Nat.toDigits 16 n)

theorem length_padLeft (width : Nat) (fill : Char) (t : Text) :
    (padLeft width fill t).length = max width t.length := by
  simp only [padLeft, List.length_append, List.length_replicate]
  omega

/-- Numbers that agree modulo `wordRange` are written alike. -/
theorem octal_congr {m n : Int} (h : m % wordRange = n % wordRange) : octal m = octal n := by
  rw [octal, octal, h]

end Numeral

end TwoPass
