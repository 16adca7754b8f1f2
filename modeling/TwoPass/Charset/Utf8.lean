import TwoPass.Text.Blank

/-!
# UTF-8

A character is written as one to four bytes. `encodeChar` writes it. `decode` reads bytes one at a
time; between characters it has nothing pending, inside one it knows how many bytes are owed and in
which range the next one must lie. The ranges after the lead bytes `E0`, `ED`, `F0` and `F4` are
narrower than the others, which rules out overlong forms, surrogates and numbers beyond Unicode.

A refusal names the bytes at fault: the byte that cannot start a character, or the start of a
character that is broken off by a byte that cannot continue it, or by the end of the data. Data that
ends after the first two bytes of a surrogate is told apart from the other broken characters: whoever
reads on as more data comes takes these two for the start of a character until the data has ended.
-/

namespace TwoPass

/-- The contents of a file. -/
abbrev Bytes : Type := List UInt8

namespace Utf8

/-! ## Writing -/

/-- A continuation byte with the six low bits of the number. -/
def continuation (n : Nat) : UInt8 := UInt8.ofNat (0x80 + n % 0x40)

/-- The bytes of a character. -/
def encodeChar (c : Char) : Bytes :=
  let n := c.toNat
  if n < 0x80 then [UInt8.ofNat n]
  else if n < 0x800 then [UInt8.ofNat (0xC0 + n / 0x40), continuation n]
  else if n < 0x10000 then
    [UInt8.ofNat (0xE0 + n / 0x1000), continuation (n / 0x40), continuation n]
  else
    [UInt8.ofNat (0xF0 + n / 0x40000), continuation (n / 0x1000), continuation (n / 0x40),
      continuation n]

/-- The bytes of a text. -/
def encode (t : Text) : Bytes := t.flatMap encodeChar

/-! ## Reading -/

/-- Why bytes are not UTF-8. -/
inductive Cause where
  /-- the byte cannot start a character -/
  | invalidStart
  /-- the next byte cannot continue the character -/
  | invalidContinuation
  /-- the data ends inside the character -/
  | unexpectedEnd
  /-- the data ends after the first two bytes of a surrogate -/
  | unfinishedSurrogate
  deriving DecidableEq

/-- Is the fault found only at the end of the data? -/
def Cause.awaitsEnd : Cause → Bool
  | .invalidStart | .invalidContinuation => false
  | .unexpectedEnd | .unfinishedSurrogate => true

/-- Bytes that are not UTF-8. -/
structure Fault where
  /-- why -/
  cause : Cause
  /-- how many bytes stand before the bytes at fault -/
  position : Nat
  /-- how many bytes are at fault -/
  length : Nat
  /-- the first byte at fault -/
  byte : UInt8
  deriving DecidableEq

/-- A character of which some bytes have been read. -/
structure Pending where
  /-- where it starts -/
  position : Nat
  /-- its first byte -/
  lead : UInt8
  /-- how many of its bytes have been read -/
  count : Nat
  /-- how many are still owed -/
  owed : Nat
  /-- the least next byte -/
  low : Nat
  /-- the greatest next byte -/
  high : Nat
  /-- the bits read so far -/
  value : Nat
  deriving DecidableEq

/-- The refusal of a character that is broken off. -/
def Pending.fault (p : Pending) (cause : Cause) : Fault := ⟨cause, p.position, p.count, p.lead⟩

/-- The character that a lead byte of more than one byte starts. -/
def Pending.ofLead? (position : Nat) (lead : UInt8) : Option Pending :=
  let n := lead.toNat
  if 0xC2 ≤ n ∧ n ≤ 0xDF then some ⟨position, lead, 1, 1, 0x80, 0xBF, n - 0xC0⟩
  else if n = 0xE0 then some ⟨position, lead, 1, 2, 0xA0, 0xBF, 0⟩
  else if n = 0xED then some ⟨position, lead, 1, 2, 0x80, 0x9F, 0xD⟩
  else if 0xE1 ≤ n ∧ n ≤ 0xEF then some ⟨position, lead, 1, 2, 0x80, 0xBF, n - 0xE0⟩
  else if n = 0xF0 then some ⟨position, lead, 1, 3, 0x90, 0xBF, 0⟩
  else if n = 0xF4 then some ⟨position, lead, 1, 3, 0x80, 0x8F, 4⟩
  else if 0xF1 ≤ n ∧ n ≤ 0xF3 then some ⟨position, lead, 1, 3, 0x80, 0xBF, n - 0xF0⟩
  else none

/-- Is the byte the second one of a surrogate? -/
def Pending.isSurrogate (p : Pending) (b : UInt8) : Bool :=
  p.lead == 0xED && p.count == 1 && 0xA0 ≤ b.toNat && b.toNat ≤ 0xBF

/-- The characters up to the first fault, and the fault. -/
def decodeFrom : Nat → Option Pending → Bytes → Text × Option Fault
  | _, none, [] => ([], none)
  | _, some p, [] => ([], some (p.fault .unexpectedEnd))
  | position, none, b :: rest =>
    if b.toNat < 0x80 then
      let (text, fault) := decodeFrom (position + 1) none rest
      (Char.ofNat b.toNat :: text, fault)
    else
      match Pending.ofLead? position b with
      | none => ([], some ⟨.invalidStart, position, 1, b⟩)
      | some p => decodeFrom (position + 1) (some p) rest
  | position, some p, b :: rest =>
    if p.low ≤ b.toNat ∧ b.toNat ≤ p.high then
      let value := p.value * 0x40 + (b.toNat - 0x80)
      if p.owed ≤ 1 then
        let (text, fault) := decodeFrom (position + 1) none rest
        (Char.ofNat value :: text, fault)
      else
        decodeFrom (position + 1)
          (some ⟨p.position, p.lead, p.count + 1, p.owed - 1, 0x80, 0xBF, value⟩) rest
    else if rest.isEmpty && p.isSurrogate b then ([], some (p.fault .unfinishedSurrogate))
    else ([], some (p.fault .invalidContinuation))

/-- Read bytes from the start. -/
def decode (bytes : Bytes) : Text × Option Fault := decodeFrom 0 none bytes

end Utf8

end TwoPass
