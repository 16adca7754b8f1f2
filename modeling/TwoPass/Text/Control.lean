import TwoPass.Text.Blank

/-!
# Control sequences

A terminal takes some runs of characters as commands: an escape, an opening bracket, parameters made
of digits, semicolons and question marks, and one letter that ends the run. Text for a reader is shown
without them. A run that no letter ends is no command and stays as it is.

`withoutControls` takes the sequences out from left to right. What stands on both sides of one is not
looked at again, so characters that meet only then do not form another.
-/

namespace TwoPass

namespace Text

/-- The character that starts a control sequence. -/
def controlStart : Char := '\x1b'

/-- Can the character stand between the bracket and the letter? -/
def isParameter (c : Char) : Bool := c.isDigit || c == ';' || c == '?'

/-- How many characters behind an escape belong to its control sequence, if they make one. -/
def sequenceLength? : Text → Option Nat
  | '[' :: rest =>
    let parameters := (rest.takeWhile isParameter).length
    match rest.drop parameters with
    | c :: _ => if c.isAlpha then some (parameters + 2) else none
    | [] => none
  | _ => none

/-- Leave out the given number of characters, and control sequences after them. -/
def skipControls : Nat → Text → Text
  | _, [] => []
  | n + 1, _ :: rest => skipControls n rest
  | 0, c :: rest =>
    match if c = controlStart then sequenceLength? rest else none with
    | some n => skipControls n rest
    | none => c :: skipControls 0 rest

/-- The text without its control sequences. -/
def withoutControls (t : Text) : Text := skipControls 0 t

example : withoutControls "a\x1b[1;31mb".toList = "ab".toList := by decide

example : withoutControls "a\x1b[1;31".toList = "a\x1b[1;31".toList := by decide

end Text

end TwoPass
