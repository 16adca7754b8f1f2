import TwoPass.Command.Arguments
import TwoPass.Command.Trouble
import TwoPass.Settings
import TwoPass.Text.Control

/-!
# The command

The command assembles one source to a listing, a load file and, if asked to, a symbol file. Its
arguments go before the variables of the environment, and those before the defaults.

How the arguments are taken apart and how a message is shown is up to a `Console`.

The outcome is a value: the exit code, what appears on the two outputs, and the files afterwards. Help
and version notices are given before anything is checked; then every named path must be neither a
directory nor a file that may not be read, and then there must be no superfluous argument. Only then does
the assembler run. With details wanted, its events appear on the error output. Events are recorded as they
are and are no messages.

A path with a null character cannot even be asked whether it is a directory. Nobody handles that, so
the command has no outcome then, only the failure; it has said and done nothing by that time.
-/

namespace TwoPass

namespace Command

/-- What the command leaves behind. -/
structure Outcome where
  /-- the exit code -/
  exit : ExitCode
  /-- the standard output -/
  stdout : Text
  /-- the error output -/
  stderr : Text
  /-- does a trace of the failure follow on the error output? -/
  traced : Bool
  /-- the files -/
  store : Store

/-- What the command line is read and answered with. -/
structure Console where
  /-- take the arguments apart -/
  parse : List Text → Except Misuse Arguments
  /-- what appears for a message -/
  echo : Text → Text

/-- The usual console. A message appears without control sequences, on a line of its own. -/
def Console.usual : Console where
  parse := Arguments.parse
  echo t := Text.withoutControls t ++ ['\n']

variable (console : Console)

/-! ## Notices -/

/-- The first line of the help text and of a reminder. -/
def usage : Text := "Usage: c6461asm [OPTIONS] [INPUT_FILE]\n".toList

/-- The help text. -/
def helpText : Text :=
  usage ++
  "\n".toList ++
  "  Assemble C6461 source into a listing and a load file.\n".toList ++
  "\n".toList ++
  "  INPUT_FILE is the assembly source (default: source.txt).\n".toList ++
  "\n".toList ++
  "  Examples:\n".toList ++
  "      c6461asm                       # source.txt -> listing.txt, load.txt\n".toList ++
  "      c6461asm prog.asm -o out.txt   # Specify load file\n".toList ++
  "      c6461asm prog.asm -s prog.sym  # Also write the symbol table\n".toList ++
  "\n".toList ++
  "Options:\n".toList ++
  "  -l, --listing FILE  Listing file (default: listing.txt)\n".toList ++
  "  -o, --load FILE     Load file for the simulator (default: load.txt)\n".toList ++
  "  -s, --symbols FILE  Generate symbol file\n".toList ++
  "  -v, --verbose       Verbose output\n".toList ++
  "  --version           Show the version and exit.\n".toList ++
  "  --help              Show this message and exit.\n".toList

/-- The version notice. -/
def versionText : Text := "c6461asm, version 1.0.0\n".toList

/-- What the error output says about wrong arguments. -/
def misuseText (m : Misuse) : Text :=
  (if m.showsUsage then usage ++ "Try 'c6461asm --help' for help.\n\n".toList else []) ++
    console.echo ("Error: ".toList ++ m.message)

/-! ## Checking the arguments -/

/-- How an option is called in a message. -/
def parameterName (file : OutputFile) : Text :=
  "'".toList ++ file.short ++ "' / '".toList ++ file.long ++ "'".toList

/-- How the source is called in a message. -/
def sourceParameter : Text := "'[INPUT_FILE]'".toList

/-- The parameters with their paths, in the order in which they are checked. -/
def checkedPaths (a : Arguments) : List (Text × Text) :=
  (a.outputs.filterMap fun file => (a.path? file).map fun path => (parameterName file, path)) ++
    (a.source?.map fun path => (sourceParameter, path)).toList

/-- Look for a path that is unfit: a directory, or a file that may not be read. -/
def checkPaths (store : Store) : List (Text × Text) → Except Failure (Option Misuse)
  | [] => .ok none
  | (parameter, path) :: rest =>
    if path.contains Store.null then .error .nullInPath
    else if store.leadsToDirectory path then .ok (some (.isDirectory parameter path))
    else if store.isUnreadable path then .ok (some (.isUnreadable parameter path))
    else checkPaths store rest

/-- What is wrong with the number of arguments. -/
def superfluous? (a : Arguments) : Option Misuse :=
  match a.plain with
  | _ :: extra :: more => some (.unexpected (extra :: more))
  | _ => none

/-- The first thing that is wrong with arguments that could be taken apart. -/
def misuse? (a : Arguments) (store : Store) : Except Failure (Option Misuse) :=
  (checkPaths store (checkedPaths a)).map fun found => found.or (superfluous? a)

/-! ## Running the assembler -/

/-- The settings of the environment with those of the arguments over them. -/
def settings (a : Arguments) (environment : List (Text × Text)) : Settings :=
  let base := Settings.ofEnvironment environment
  let named (file : OutputFile) : Option Text := (a.path? file).map Path.normalize
  { base with
    source := (a.source?.map Path.normalize).getD base.source
    listing := (named .listing).getD base.listing
    load := (named .load).getD base.load
    symbols := (named .symbols).or base.symbols }

/-- The messages that appear only if details are wanted. -/
def detail (verbose : Bool) (messages : List Text) : Text :=
  if verbose then messages.flatMap console.echo else []

/-- The events on the error output. -/
def trail (verbose : Bool) (events : List Event) : Text :=
  if verbose then endLines (events.map Event.record) else []

/-- What the assembly and the symbol file came to. -/
structure Production where
  /-- the session afterwards -/
  session : Session
  /-- the standard output so far -/
  stdout : Text
  /-- the error output so far -/
  stderr : Text
  /-- why it stopped early, if it did -/
  failure : Option Failure

/-- Write the symbol file, if one is wanted. -/
def produceSymbols (verbose : Bool) (p : Production) : Option Text → Production
  | none => p
  | some path =>
    let (session, attempt) := p.session.perform (.writeSymbols path)
    let stderr := p.stderr ++ trail verbose attempt.events
    match attempt.outcome with
    | .error failure => ⟨session, p.stdout, stderr, some failure⟩
    | .ok _ =>
      ⟨session, p.stdout ++ detail console verbose ["Wrote symbols to ".toList ++ path], stderr, none⟩

/-- Assemble the source and write the files. -/
def produce (verbose : Bool) (s : Settings) (store : Store) : Production :=
  let (session, attempt) :=
    (Session.fresh s.encoding store).perform
      (.assembleFile s.source (some s.listing) (some s.load))
  let stdout := detail console verbose ["Assembling ".toList ++ s.source ++ "...".toList]
  let stderr := trail verbose attempt.events
  match attempt.outcome with
  | .error failure => ⟨session, stdout, stderr, some failure⟩
  | .ok _ => produceSymbols console verbose ⟨session, stdout, stderr, none⟩ s.symbols

/-- What is counted at the end of a run, if details are wanted. -/
def counts (s : Settings) (run : Run) : List Text :=
  ["Wrote listing to ".toList ++ s.listing,
    "Wrote ".toList ++ Numeral.decimal run.output.words.length ++ " words to ".toList ++ s.load,
    "Defined ".toList ++ Numeral.decimal run.symbols.size ++ " symbols".toList]

/-- The outcome of a run with the given settings. -/
def runWith (verbose : Bool) (s : Settings) (store : Store) : Outcome :=
  let p := produce console verbose s store
  let run := p.session.run
  match p.failure with
  | some failure =>
    let trouble := Trouble.ofFailure failure
    { exit := trouble.exitCode
      stdout := p.stdout
      stderr := p.stderr ++ console.echo (trouble.report "Assembly".toList)
      traced := trouble.isTraced verbose
      store := p.session.store }
  | none =>
    let stderr := p.stderr ++ if run.report.isEmpty then [] else console.echo run.report.text
    if run.report.hasErrors then
      ⟨.buildError, p.stdout, stderr, false, p.session.store⟩
    else
      ⟨.success, p.stdout ++ detail console verbose (counts s run) ++
        console.echo "Assembly completed successfully.".toList, stderr, false, p.session.store⟩

/-- The outcome of wrong arguments. -/
def refuse (m : Misuse) (store : Store) : Outcome :=
  ⟨.invalidArguments, [], misuseText console m, false, store⟩

/-- The outcome of a notice. -/
def notice (text : Text) (store : Store) : Outcome := ⟨.success, text, [], false, store⟩

/-- The outcome of the command, or the failure that leaves it without one. -/
def run (arguments : List Text) (environment : List (Text × Text)) (store : Store) :
    Except Failure Outcome :=
  match console.parse arguments with
  | .error m => .ok (refuse console m store)
  | .ok a =>
    match a.notice? with
    | some .help => .ok (notice helpText store)
    | some _ => .ok (notice versionText store)
    | none =>
      match misuse? a store with
      | .error failure => .error failure
      | .ok (some m) => .ok (refuse console m store)
      | .ok none => .ok (runWith console a.verbose (settings a environment) store)

end Command

end TwoPass
