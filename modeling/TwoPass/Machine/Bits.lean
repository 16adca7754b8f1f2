/-!
# Bits of unbounded words

Words are integers of any size in two's complement: a non-negative integer ends in infinitely many
zero bits to the left, a negative one in infinitely many one bits. `bit` reads one bit, `union` is
the bitwise "or", and `bit_union` is its law. `shift` moves all bits to the left.
-/

namespace TwoPass

namespace Bits

/-- The bit of weight `2 ^ i`. -/
def bit (n : Int) (i : Nat) : Bool :=
  match n with
  | .ofNat m => m.testBit i
  | .negSucc m => !m.testBit i

/-- The integer whose bits are set where one of the two has its bit set. The integer `-(m + 1)` has
the bits that `m` has not, hence the four cases. -/
def union : Int → Int → Int
  | .ofNat m, .ofNat n => .ofNat (m ||| n)
  | .ofNat m, .negSucc n => .negSucc (n ^^^ (n &&& m))
  | .negSucc m, .ofNat n => .negSucc (m ^^^ (m &&& n))
  | .negSucc m, .negSucc n => .negSucc (m &&& n)

/-- Move all bits to the left by the given number of places. -/
def shift (n : Int) (places : Nat) : Int := n * Int.pow 2 places

/-- A bit of the union is set exactly if it is set on one side. -/
theorem bit_union (m n : Int) (i : Nat) : bit (union m n) i = (bit m i || bit n i) := by
  cases m <;> cases n <;>
    simp only [union, bit, Nat.testBit_or, Nat.testBit_and, Nat.testBit_xor] <;>
    rename_i a b <;> cases a.testBit i <;> cases b.testBit i <;> rfl

@[simp] theorem zero_union (n : Int) : union 0 n = n := by
  cases n with
  | ofNat m => exact congrArg Int.ofNat (Nat.zero_or m)
  | negSucc m =>
    refine congrArg Int.negSucc ?_
    rw [Nat.and_zero, Nat.xor_zero]

@[simp] theorem zero_shift (places : Nat) : shift 0 places = 0 := Int.zero_mul _

end Bits

end TwoPass
