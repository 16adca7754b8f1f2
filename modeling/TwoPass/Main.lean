import TwoPass.Command.Run

/-!
# The program

The outer layer of the command. It takes a snapshot of the files that the command may touch, lets
`Command.run` decide, and puts the outcome into effect.
-/

namespace TwoPass

namespace Program

/-- The variables that the command looks at. -/
def variableNames : List String :=
  ["C6461_SOURCE", "C6461_LISTING", "C6461_LOAD", "C6461_SYMBOLS", "C6461_ENCODING"]

/-- The path of a list of names from the root. -/
def absolutePath (names : List Text) : String :=
  String.ofList ('/' :: Text.join ['/'] names)

/-- Is there a directory? -/
def probeDirectory (names : List Text) : IO Bool := do
  ((← IO.currentDir) / absolutePath names).isDir

/-- Is there anything? -/
def probePresence (names : List Text) : IO Bool := do
  ((← IO.currentDir) / absolutePath names).pathExists

/-- Can a file that is there be opened in this way? -/
def probeAccess (names : List Text) (mode : IO.FS.Mode) : IO Bool := do
  try
    discard <| IO.FS.Handle.mk (absolutePath names) mode
    return true
  catch _ => return false

/-- Take a file into the snapshot, with what may not be done with it. -/
def probeFile (store : Store) (names : List Text) : IO Store := do
  let readable ← probeAccess names .read
  let writable ← probeAccess names .append
  let bytes ← if readable then IO.FS.readBinFile (absolutePath names) else pure .empty
  let denied := (if readable then [] else [(Access.read, names)]) ++
    if writable then [] else [(Access.write, names)]
  return { store.write names bytes.toList with denied := denied ++ store.denied }

/-- Take what lies on a path into the snapshot. -/
def probe (store : Store) (names : List Text) : List Text → IO Store
  | [] => return store
  | part :: rest => do
    if part.isEmpty || part == Path.here then probe store names rest
    else if part == Path.above then probe store names.dropLast rest
    else
      let next := names ++ [part]
      if ← probeDirectory next then
        probe { store with directories := next :: store.directories } next rest
      else if ← probePresence next then probeFile store next
      else return store

/-- A snapshot of what lies on the given paths. -/
def snapshot (current : List Text) (paths : List Text) : IO Store := do
  let mut store : Store := { current := current }
  store ← probe store [] current
  for path in paths do
    let start := if path.head? = some '/' then [] else current
    store ← probe store start (Text.splitOn '/' path)
  return store

/-- Write the files that differ from the snapshot. -/
def commit (old new : Store) : IO Unit :=
  for (names, bytes) in new.files do
    unless old.file? names == some bytes do
      IO.FS.writeBinFile (absolutePath names) ⟨bytes.toArray⟩

/-- The paths that a command may look at. -/
def touchedPaths (arguments : List Text) (environment : List (Text × Text)) : List Text :=
  match Command.Arguments.parse arguments with
  | .error _ => []
  | .ok a =>
    let s := Command.settings a environment
    (Command.checkedPaths a).map Prod.snd ++ [s.source, s.listing, s.load] ++ s.symbols.toList

/-- The variables of the environment that are set. -/
def readEnvironment : IO (List (Text × Text)) :=
  variableNames.filterMapM fun name => do
    return (← IO.getEnv name).map fun value => (name.toList, value.toList)

end Program

end TwoPass

open TwoPass in
/-- Run the command. -/
def main (args : List String) : IO UInt32 := do
  let arguments := args.map String.toList
  let environment ← Program.readEnvironment
  let current := Path.parts (← IO.currentDir).toString.toList
  let store ← Program.snapshot current (Program.touchedPaths arguments environment)
  match Command.run .usual arguments environment store with
  | .error failure =>
    IO.eprintln (String.ofList failure.message)
    return 1
  | .ok outcome =>
    Program.commit store outcome.store
    IO.print (String.ofList outcome.stdout)
    IO.eprint (String.ofList outcome.stderr)
    if outcome.traced then IO.eprintln "raised by the command"
    return outcome.exit.number.toUInt32
