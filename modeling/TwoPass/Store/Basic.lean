import TwoPass.Charset.Utf8
import TwoPass.Store.Path
import TwoPass.Text.Order
import TwoPass.Text.Quoted

/-!
# The file store

Directories and regular files, each known by the list of names that leads to it from the root. One
directory is the current one; a path that does not start with a slash is followed from there. A file may
be protected from being read or written, and a directory from being entered or from having files made in
it.

* `locate` follows a path. Every part but the last must name a directory. Neither a part nor the whole
  path may be too long, which is measured in bytes.
* `read` gives the contents of a file, and `openForReading` those of a file that may be read.
* `openForWriting` makes sure that a file is there and empties it; a path that ends in a slash can
  only name a directory and is refused.
* `overwrite` puts bytes over the start of a file and leaves what is behind them.
* `makeDirectories` makes what is missing on a path, and `place` puts a file where a path leads, with the
  directories on the way.
-/

namespace TwoPass

/-! ## Refusals -/

/-- What the system can refuse. -/
inductive SystemFault where
  /-- nothing of this name -/
  | notFound
  /-- not permitted -/
  | notPermitted
  /-- something of this name is there already -/
  | alreadyThere
  /-- a part of the path is not a directory -/
  | notDirectory
  /-- a directory where a file is wanted -/
  | isDirectory
  /-- a path or a part of it has too many bytes -/
  | nameTooLong
  deriving DecidableEq

namespace SystemFault

/-- The number of the refusal. -/
def number : SystemFault → Nat
  | notFound => 2
  | notPermitted => 13
  | alreadyThere => 17
  | notDirectory => 20
  | isDirectory => 21
  | nameTooLong => 36

/-- The usual words for the refusal. -/
def phrase : SystemFault → Text
  | notFound => "No such file or directory".toList
  | notPermitted => "Permission denied".toList
  | alreadyThere => "File exists".toList
  | notDirectory => "Not a directory".toList
  | isDirectory => "Is a directory".toList
  | nameTooLong => "File name too long".toList

/-- Number, words and path. -/
def report (f : SystemFault) (phrase path : Text) : Text :=
  "[Errno ".toList ++ Numeral.decimal f.number ++ "] ".toList ++ phrase ++ ": ".toList ++
    Text.quoted path

end SystemFault

/-- Why a file cannot be opened. -/
inductive OpenFault where
  /-- the path has a character that no path can have -/
  | nullInPath
  /-- the system refuses -/
  | system (fault : SystemFault)
  deriving DecidableEq

/-! ## The store -/

/-- What may not be permitted. -/
inductive Access where
  /-- to read what is there -/
  | read
  /-- to write a file, or to make one in a directory -/
  | write
  /-- to follow a path through a directory -/
  | enter
  deriving DecidableEq

/-- Directories and files. -/
structure Store where
  /-- the directories below the root -/
  directories : List (List Text) := []
  /-- the files with their contents -/
  files : List (List Text × Bytes) := []
  /-- the current directory -/
  current : List Text := []
  /-- what is not permitted, and where -/
  denied : List (Access × List Text) := []
  /-- how many bytes of a file are handed over at a time -/
  block : Nat := 8192
  deriving DecidableEq

/-- What a path leads to. -/
inductive Place where
  /-- a directory -/
  | directory (names : List Text)
  /-- a file -/
  | file (names : List Text)
  /-- nothing, in a directory that is there -/
  | vacant (names : List Text)
  deriving DecidableEq

namespace Store

/-- Is there a directory? The root always is one. -/
def isDirectory (s : Store) (names : List Text) : Bool :=
  names.isEmpty || s.directories.contains names

/-- The contents of a file. -/
def file? (s : Store) (names : List Text) : Option Bytes :=
  (s.files.find? fun entry => entry.1 == names).map Prod.snd

/-- How many bytes a name can have. -/
def nameLimit : Nat := 255

/-- How many bytes a path can have. -/
def pathLimit : Nat := 4095

/-- Does the text have more bytes than the limit? -/
def exceeds (limit : Nat) (t : Text) : Bool := limit < (Utf8.encode t).length

/-- Is something not permitted? -/
def denies (s : Store) (access : Access) (names : List Text) : Bool :=
  s.denied.contains (access, names)

/-- Why a directory does not let a path go on with the given part. -/
def lookupFault? (s : Store) (names : List Text) (part : Text) : Option SystemFault :=
  if part.isEmpty then none
  else if s.denies .enter names then some .notPermitted
  else if exceeds nameLimit part then some .nameTooLong
  else none

/-- Follow the parts of a path from a directory. -/
def follow (s : Store) (names : List Text) : List Text → Except SystemFault Place
  | [] => .ok (.directory names)
  | part :: rest =>
    match s.lookupFault? names part with
    | some fault => .error fault
    | none =>
      if part.isEmpty || part == Path.here then s.follow names rest
      else if part == Path.above then s.follow names.dropLast rest
      else
        let next := names ++ [part]
        if s.isDirectory next then s.follow next rest
        else if (s.file? next).isSome then
          if rest.isEmpty then .ok (.file next) else .error .notDirectory
        else if rest.isEmpty then .ok (.vacant next)
        else .error .notFound

/-- The directory from which a path is followed. -/
def origin (s : Store) (path : Text) : List Text :=
  if path.head? = some '/' then [] else s.current

/-- Follow a path. The empty path leads nowhere. -/
def locate (s : Store) (path : Text) : Except SystemFault Place :=
  if path.isEmpty then .error .notFound
  else if exceeds pathLimit path then .error .nameTooLong
  else s.follow (s.origin path) (Text.splitOn '/' path)

/-- Does the path lead to a directory? -/
def leadsToDirectory (s : Store) (path : Text) : Bool :=
  match s.locate path with
  | .ok (.directory _) => true
  | _ => false

/-- The character that no path can have. -/
def null : Char := '\x00'

/-- The contents of the file a path leads to. -/
def read (s : Store) (path : Text) : Except OpenFault Bytes :=
  if path.contains null then .error .nullInPath
  else
    match s.locate path with
    | .error fault => .error (.system fault)
    | .ok (.directory _) => .error (.system .isDirectory)
    | .ok (.vacant _) => .error (.system .notFound)
    | .ok (.file names) =>
      match s.file? names with
      | none => .error (.system .notFound)
      | some bytes => .ok bytes

/-- Does the path lead to something that may not be read? -/
def isUnreadable (s : Store) (path : Text) : Bool :=
  match s.locate path with
  | .ok (.directory names) | .ok (.file names) => s.denies .read names
  | _ => false

/-- The contents of the file a path leads to, if it may be read. -/
def openForReading (s : Store) (path : Text) : Except OpenFault Bytes :=
  if path.contains null then .error .nullInPath
  else if s.isUnreadable path then .error (.system .notPermitted)
  else s.read path

/-! ## Changing files -/

/-- Replace the contents of a file where it is, and append it where it is not. -/
def put (names : List Text) (bytes : Bytes) : List (List Text × Bytes) → List (List Text × Bytes)
  | [] => [(names, bytes)]
  | entry :: entries =>
    if entry.1 = names then (names, bytes) :: entries else entry :: put names bytes entries

/-- Give a file the contents. -/
def write (s : Store) (names : List Text) (bytes : Bytes) : Store :=
  { s with files := put names bytes s.files }

/-- A file has the contents it was last given. -/
theorem file?_write_self (s : Store) (names : List Text) (bytes : Bytes) :
    (s.write names bytes).file? names = some bytes := by
  obtain ⟨_, files, _, _, _⟩ := s
  simp only [file?, write]
  induction files with
  | nil => simp [put]
  | cons entry entries ih =>
    rw [put]
    split
    · simp
    · next h => simpa [h] using ih

/-- Giving a file contents leaves the others alone. -/
theorem file?_write_of_ne (s : Store) {names other : List Text} (bytes : Bytes)
    (h : other ≠ names) : (s.write names bytes).file? other = s.file? other := by
  obtain ⟨_, files, _, _, _⟩ := s
  simp only [file?, write]
  induction files with
  | nil => simp [put, Ne.symm h]
  | cons entry entries ih =>
    rw [put]
    split
    · next he => simp [he, Ne.symm h]
    · by_cases ho : entry.1 = other
      · simp [ho]
      · simpa [ho] using ih

/-- Put bytes over the start of a file. -/
def overwrite (s : Store) (names : List Text) (bytes : Bytes) : Store :=
  s.write names (bytes ++ ((s.file? names).getD []).drop bytes.length)

/-- The path without the slashes at its end. -/
def withoutEndSlashes (path : Text) : Text := (path.reverse.dropWhile (· == '/')).reverse

/-- Follow the path of an output. If it ends in a slash, its last part must be a directory, whatever is
there, and only the parts before are followed. -/
def locateOutput (s : Store) (path : Text) : Except SystemFault Place :=
  if path.getLast? = some '/' && !exceeds pathLimit path then
    s.follow (s.origin path) ((Text.splitOn '/' (withoutEndSlashes path)).dropLast ++ [Path.here])
  else s.locate path

/-- May the file be written? If it is not there, it has to be made in its directory. -/
def mayWrite (s : Store) (names : List Text) : Bool :=
  !s.denies .write names && ((s.file? names).isSome || !s.denies .write names.dropLast)

/-- Make a file and empty it. The result names it. -/
def openForWriting (s : Store) (path : Text) : Except OpenFault (Store × List Text) :=
  if path.contains null then .error .nullInPath
  else
    match s.locateOutput path with
    | .error fault => .error (.system fault)
    | .ok (.directory _) => .error (.system .isDirectory)
    | .ok (.file names) | .ok (.vacant names) =>
      if s.mayWrite names then .ok (s.write names [], names) else .error (.system .notPermitted)

/-! ## Setting up -/

/-- Make the directories that are missing on the way from a directory. A part that leads back up does
so from the directory before it, which is made too; a file in the way ends it. -/
def makeAlong (s : Store) (names : List Text) : List Text → Store
  | [] => s
  | part :: rest =>
    if part.isEmpty || part == Path.here then s.makeAlong names rest
    else if part == Path.above then s.makeAlong names.dropLast rest
    else
      let next := names ++ [part]
      if s.isDirectory next then s.makeAlong next rest
      else if (s.file? next).isSome then s
      else Store.makeAlong { s with directories := s.directories ++ [next] } next rest

/-- Make the directories that are missing on a path. -/
def makeDirectories (s : Store) (path : Text) : Store :=
  s.makeAlong (s.origin path) (Text.splitOn '/' path)

/-- Give the file that a path leads to the contents. The directories before it are made; a path that
can be no file changes nothing more. -/
def place (s : Store) (path : Text) (bytes : Bytes) : Store :=
  let ready := s.makeAlong (s.origin path) (Text.splitOn '/' path).dropLast
  match ready.openForWriting path with
  | .error _ => ready
  | .ok (opened, names) => opened.write names bytes

/-! ## The view of the current directory -/

/-- The part of a list of names below the given one. -/
def below (top names : List Text) : Option (List Text) :=
  if top.isPrefixOf names then some (names.drop top.length) else none

/-- The files in and below the current directory, by their path from there, sorted. -/
def currentFiles (s : Store) : List (Text × Bytes) :=
  Text.sortBy Prod.fst <| s.files.filterMap fun entry =>
    (below s.current entry.1).map fun names => (Text.join ['/'] names, entry.2)

end Store

end TwoPass
