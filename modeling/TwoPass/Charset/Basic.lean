import TwoPass.Charset.Utf8
import TwoPass.Text.Break
import TwoPass.Text.Quoted

/-!
# Character sets

Files are read and written in one of four character sets: UTF-8, UTF-8 with a mark at the start of
the file, ASCII and Latin-1. A set is asked for by name, of which there are many spellings.

* `decode` reads a whole file. A refusal is a `DecodeFault`.
* `readLines` reads a file line by line and says which lines were delivered before a refusal. The file
  is decoded block by block, and a block in which a byte is wrong delivers nothing, so the lines are
  those that ended in the blocks before it. A character that is not complete waits for the next block;
  if the file ends there, the lines before it have been delivered. So do the first two bytes of a
  surrogate at the end of a block. The position of a refusal is counted from the first byte that was
  still waiting when the block came.
* `encode` writes one text; `encodeWrites` writes several, one after the other, and keeps what was
  written before a refusal.
-/

namespace TwoPass

/-- A character set for files. -/
inductive Charset where
  /-- UTF-8 -/
  | utf8
  /-- UTF-8 with a mark at the start of the file -/
  | utf8Marked
  /-- the first 128 characters -/
  | ascii
  /-- the first 256 characters -/
  | latin1
  deriving DecidableEq

namespace Charset

/-! ## Names -/

/-- A name in lower case with every run of other characters than ASCII letters, digits and points
between them made one underscore. Such runs at the start and at the end are left out. -/
def normalName (name : Text) : Text :=
  let step (state : Text × Bool) (c : Char) : Text × Bool :=
    if c.isAlphanum || c == '.' then
      ((if state.2 && !state.1.isEmpty then state.1 ++ ['_'] else state.1) ++ [c.toLower], false)
    else (state.1, true)
  (name.foldl step ([], false)).1

/-- The name of a character set, in normal form. -/
def name : Charset → String
  | utf8 => "utf_8"
  | utf8Marked => "utf_8_sig"
  | ascii => "ascii"
  | latin1 => "latin_1"

/-- The other names of a character set, in normal form. -/
def aliases : Charset → List String
  | utf8 => ["utf8", "utf", "u8", "utf8_ucs2", "utf8_ucs4", "cp65001"]
  | utf8Marked => []
  | ascii =>
    ["us_ascii", "us", "646", "ansi_x3.4_1968", "ansi_x3_4_1968", "ansi_x3.4_1986", "cp367",
      "csascii", "ibm367", "iso646_us", "iso_646.irv_1991", "iso_ir_6"]
  | latin1 =>
    ["latin1", "latin", "l1", "8859", "cp819", "csisolatin1", "ibm819", "iso8859", "iso8859_1",
      "iso_8859_1", "iso_8859_1_1987", "iso_ir_100"]

/-- Is the text, in normal form, a name of the character set? Only in its other names may a point
stand for an underscore. -/
def isNamed (c : Charset) (normal : Text) : Bool :=
  let pointless := normal.map fun d => if d = '.' then '_' else d
  c.name.toList == normal ||
    c.aliases.any fun known => known.toList == normal || known.toList == pointless

/-- The name that stands for the character set of the system. It has no other spelling. -/
def systemName : Text := "locale".toList

/-- The character set of a name. That of the system is UTF-8. -/
def ofName? (name : Text) : Option Charset :=
  if name = systemName then some utf8
  else [utf8, utf8Marked, ascii, latin1].find? fun c => c.isNamed (normalName name)

example : ofName? "US-ASCII".toList = some ascii := by decide

example : ofName? "iso.8859.1".toList = some latin1 := by decide

example : ofName? "latin.1".toList = none := by decide

/-- The mark at the start of a marked file. -/
def mark : Bytes := [0xEF, 0xBB, 0xBF]

/-! ## Reading -/

/-- Bytes that do not belong to the character set. -/
inductive DecodeFault where
  /-- they are not UTF-8 -/
  | utf8 (fault : Utf8.Fault)
  /-- a byte at this position is beyond ASCII -/
  | notAscii (position : Nat) (byte : UInt8)
  deriving DecidableEq

namespace DecodeFault

/-- How many bytes stand before the bytes at fault. -/
def position : DecodeFault → Nat
  | utf8 f => f.position
  | notAscii position _ => position

/-- Does the fault show only when the data has ended? -/
def awaitsEnd : DecodeFault → Bool
  | utf8 f => f.cause.awaitsEnd
  | notAscii _ _ => false

/-- The fault with its position counted from the given one on. -/
def since (start : Nat) : DecodeFault → DecodeFault
  | utf8 f => utf8 { f with position := f.position - start }
  | notAscii position byte => notAscii (position - start) byte

/-- Bytes by their position: a single one with its value, several as a range. -/
def culprit (position length : Nat) (byte : UInt8) : Text :=
  if length = 1 then
    "byte 0x".toList ++ Numeral.hex 2 byte.toNat ++ " in position ".toList ++
      Numeral.decimal position
  else
    "bytes in position ".toList ++ Numeral.decimal position ++ '-' ::
      Numeral.decimal (position + length - 1 : Nat)

/-- The report of a cause. -/
def reason : Utf8.Cause → Text
  | .invalidStart => "invalid start byte".toList
  | .invalidContinuation | .unfinishedSurrogate => "invalid continuation byte".toList
  | .unexpectedEnd => "unexpected end of data".toList

/-- The report of the refusal. -/
def message : DecodeFault → Text
  | utf8 f =>
    "'utf-8' codec can't decode ".toList ++ culprit f.position f.length f.byte ++ ": ".toList ++
      reason f.cause
  | notAscii position byte =>
    "'ascii' codec can't decode ".toList ++ culprit position 1 byte ++
      ": ordinal not in range(128)".toList

end DecodeFault

/-- Read ASCII, counting bytes from the given position. -/
def decodeAscii (position : Nat) : Bytes → Text × Option DecodeFault
  | [] => ([], none)
  | b :: rest =>
    if b.toNat < 0x80 then
      let (text, fault) := decodeAscii (position + 1) rest
      (Char.ofNat b.toNat :: text, fault)
    else ([], some (.notAscii position b))

/-- Read UTF-8. -/
def decodeUtf8 (bytes : Bytes) : Text × Option DecodeFault :=
  let (text, fault) := Utf8.decode bytes
  (text, fault.map .utf8)

/-- Take the mark off the start of a file. A file that ends inside the mark has no text; positions
are counted from behind the mark. -/
def unmark (bytes : Bytes) : Bytes :=
  if mark.isPrefixOf bytes then bytes.drop mark.length
  else if bytes.isPrefixOf mark then []
  else bytes

/-- The bytes of a file that are text. -/
def body : Charset → Bytes → Bytes
  | utf8Marked, bytes => unmark bytes
  | utf8, bytes | ascii, bytes | latin1, bytes => bytes

/-- The text of a file up to the first fault, and the fault. -/
def decode : Charset → Bytes → Text × Option DecodeFault
  | utf8, bytes => decodeUtf8 bytes
  | utf8Marked, bytes => decodeUtf8 (unmark bytes)
  | ascii, bytes => decodeAscii 0 bytes
  | latin1, bytes => (bytes.map fun b => Char.ofNat b.toNat, none)

/-- What reading a file line by line yields. -/
structure Reading where
  /-- the lines that were delivered -/
  lines : List Text
  /-- why reading stopped early, if it did -/
  fault : Option DecodeFault
  deriving DecidableEq

/-- How many bytes of the body have become text. -/
def settled (c : Charset) (bytes : Bytes) : Nat :=
  match (c.decode bytes).2 with
  | none => (c.body bytes).length
  | some fault => fault.position

/-- What is left of a reading if a fault is found when the given bytes have been read. -/
def stop (c : Charset) (seen : Bytes) (fault : DecodeFault) : Reading :=
  ⟨Text.deliveredLines (c.decode seen).1, some (fault.since (c.settled seen))⟩

/-- Where the blocks of a file end. Without a size of blocks, the file is one block. -/
def blockEnds (block : Nat) (bytes : Bytes) : List Nat :=
  (List.range (bytes.length / block)).map (fun k => (k + 1) * block) ++ [bytes.length]

/-- Read on up to the given ends of blocks, from the end of the block before them. -/
def readOn (c : Charset) (bytes : Bytes) (seen : Nat) : List Nat → Reading
  | [] =>
    match c.decode bytes with
    | (text, none) => ⟨Text.fileLines text, none⟩
    | (_, some fault) => c.stop bytes fault
  | next :: ends =>
    match (c.decode (bytes.take next)).2.filter fun fault => !fault.awaitsEnd with
    | none => c.readOn bytes next ends
    | some fault => c.stop (bytes.take seen) fault

/-- Read a file line by line, with the given number of bytes in a block. -/
def readLines (c : Charset) (block : Nat) (bytes : Bytes) : Reading :=
  c.readOn bytes 0 (blockEnds block bytes)

/-! ## Writing -/

/-- Adjacent characters that the character set has not. -/
structure EncodeFault where
  /-- the name of the character set -/
  charset : Text
  /-- the number of characters it has -/
  size : Nat
  /-- how many characters stand before them -/
  position : Nat
  /-- how many there are -/
  length : Nat
  /-- the first of them -/
  first : Char
  deriving DecidableEq

/-- The report of the refusal. -/
def EncodeFault.message (f : EncodeFault) : Text :=
  let culprit :=
    if f.length = 1 then
      "character '".toList ++ Text.codeEscape f.first ++ "' in position ".toList ++
        Numeral.decimal f.position
    else
      "characters in position ".toList ++ Numeral.decimal f.position ++ '-' ::
        Numeral.decimal (f.position + f.length - 1 : Nat)
  "'".toList ++ f.charset ++ "' codec can't encode ".toList ++ culprit ++
    ": ordinal not in range(".toList ++ Numeral.decimal f.size ++ [')']

/-- Write a text in a character set of single bytes with the given number of characters. -/
def encodeBytes (charset : Text) (size : Nat) (t : Text) : Except EncodeFault Bytes :=
  let known := t.takeWhile fun c => c.toNat < size
  match t.drop known.length with
  | [] => .ok (t.map fun c => UInt8.ofNat c.toNat)
  | c :: rest =>
    let foreign := rest.takeWhile fun d => size ≤ d.toNat
    .error ⟨charset, size, known.length, foreign.length + 1, c⟩

/-- Write one text, without a mark. -/
def encode : Charset → Text → Except EncodeFault Bytes
  | utf8, t | utf8Marked, t => .ok (Utf8.encode t)
  | ascii, t => encodeBytes "ascii".toList 0x80 t
  | latin1, t => encodeBytes "latin-1".toList 0x100 t

/-- Write texts one after the other up to the first refusal. -/
def encodeAll (c : Charset) : List Text → Bytes × Option EncodeFault
  | [] => ([], none)
  | t :: rest =>
    match c.encode t with
    | .error fault => ([], some fault)
    | .ok bytes =>
      let (more, fault) := encodeAll c rest
      (bytes ++ more, fault)

/-- What a file holds after the texts were written to it. A marked file gets its mark with the first
of them, so a file to which nothing was written has none. -/
def encodeWrites (c : Charset) (texts : List Text) : Bytes × Option EncodeFault :=
  let (bytes, fault) := c.encodeAll texts
  (if c = utf8Marked ∧ texts ≠ [] then mark ++ bytes else bytes, fault)

end Charset

end TwoPass
