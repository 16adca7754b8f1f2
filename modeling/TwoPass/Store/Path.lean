import TwoPass.Text.Blank

/-!
# Paths

A path is a text of parts separated by slashes. Its normal form has no empty part and no part that is
a single point; parts that are two points stay, since what they mean depends on the files. A path
without parts is a single point, or the root if it starts with a slash. Two slashes at the start, and
no more, are kept.
-/

namespace TwoPass

namespace Path

/-- The part that names the directory itself. -/
def here : Text := ['.']

/-- The part that names the directory above. -/
def above : Text := ['.', '.']

/-- What a path starts with before its first part. -/
def root (path : Text) : Text :=
  match path with
  | '/' :: '/' :: '/' :: _ => ['/']
  | '/' :: '/' :: _ => ['/', '/']
  | '/' :: _ => ['/']
  | _ => []

/-- The parts that count. -/
def parts (path : Text) : List Text :=
  (Text.splitOn '/' path).filter fun part => !part.isEmpty && part != here

/-- The normal form. -/
def normalize (path : Text) : Text :=
  match root path ++ Text.join ['/'] (parts path) with
  | [] => here
  | normal => normal

example : normalize "./a//b/".toList = "a/b".toList := by decide

example : normalize [] = here := by decide

end Path

end TwoPass
