import TwoPass.Text.Quoted

/-!
# Arguments of the command line

Options may stand anywhere. A long option has its value behind an equals sign or in the next argument;
short options may be grouped behind one dash, and the first of a group that takes a value takes the
rest of the group, or the next argument if nothing is left. Two dashes end the options; a single dash
is a file name.

`parse` gives the options in order of occurrence and the other arguments. What is wrong with an
argument is a `Misuse`, and the first argument that is wrong decides.
-/

namespace TwoPass

namespace Command

/-- The outputs that an option can name. -/
inductive OutputFile where
  /-- the listing -/
  | listing
  /-- the load file -/
  | load
  /-- the symbol file -/
  | symbols
  deriving DecidableEq

/-- The options. -/
inductive Switch where
  /-- name an output -/
  | output (file : OutputFile)
  /-- show details -/
  | verbose
  /-- show the version and exit -/
  | version
  /-- show the help text and exit -/
  | help
  deriving DecidableEq

/-- The long name of the option for an output. -/
def OutputFile.long : OutputFile → Text
  | .listing => "--listing".toList
  | .load => "--load".toList
  | .symbols => "--symbols".toList

/-- The short name of the option for an output. -/
def OutputFile.short : OutputFile → Text
  | .listing => "-l".toList
  | .load => "-o".toList
  | .symbols => "-s".toList

namespace Switch

/-- The option of a long name. -/
def ofLong? (name : Text) : Option Switch :=
  if name = "--listing".toList then some (output .listing)
  else if name = "--load".toList then some (output .load)
  else if name = "--symbols".toList then some (output .symbols)
  else if name = "--verbose".toList then some verbose
  else if name = "--version".toList then some version
  else if name = "--help".toList then some help
  else none

/-- The option of a short name. -/
def ofShort? : Char → Option Switch
  | 'l' => some (output .listing)
  | 'o' => some (output .load)
  | 's' => some (output .symbols)
  | 'v' => some verbose
  | _ => none

end Switch

/-- An option as it occurs. -/
inductive Occurrence where
  /-- an output with its path -/
  | output (file : OutputFile) (path : Text)
  /-- details are wanted -/
  | verbose
  /-- the version is wanted -/
  | version
  /-- help is wanted -/
  | help
  deriving DecidableEq

/-- What is wrong with the arguments. -/
inductive Misuse where
  /-- there is no such option -/
  | noSuchOption (name : Text)
  /-- an option has no value -/
  | needsValue (name : Text)
  /-- an option has a value and takes none -/
  | takesNoValue (name : Text)
  /-- the path of a parameter, given by its description, is a directory -/
  | isDirectory (parameter path : Text)
  /-- the path of a parameter is a file that may not be read -/
  | isUnreadable (parameter path : Text)
  /-- more arguments than there is use for -/
  | unexpected (arguments : List Text)
  deriving DecidableEq

namespace Misuse

/-- The words for a path that is unfit for its parameter. -/
def unfit (parameter path : Text) (reason : String) : Text :=
  "Invalid value for ".toList ++ parameter ++ ": File ".toList ++ Text.quoted path ++
    ' ' :: reason.toList

/-- The words for it. -/
def message : Misuse → Text
  | noSuchOption name => "No such option: ".toList ++ name
  | needsValue name => "Option ".toList ++ Text.quoted name ++ " requires an argument.".toList
  | takesNoValue name => "Option ".toList ++ Text.quoted name ++ " does not take a value.".toList
  | isDirectory parameter path => unfit parameter path "is a directory."
  | isUnreadable parameter path => unfit parameter path "is not readable."
  | unexpected arguments =>
    "Got unexpected extra argument".toList ++ (if arguments.length = 1 then [] else ['s']) ++
      " (".toList ++ Text.join [' '] arguments ++ [')']

/-- Is a reminder of the usage shown with it? -/
def showsUsage : Misuse → Bool
  | needsValue _ | takesNoValue _ => false
  | noSuchOption _ | isDirectory _ _ | isUnreadable _ _ | unexpected _ => true

end Misuse

/-! ## One argument -/

/-- What an argument is. -/
inductive Argument where
  /-- a file name -/
  | plain
  /-- the end of the options -/
  | endOfOptions
  /-- options that are complete -/
  | options (occurrences : List Occurrence)
  /-- options of which the last one, of the given name, takes the next argument as its value -/
  | awaiting (occurrences : List Occurrence) (file : OutputFile) (name : Text)
  deriving DecidableEq

namespace Argument

/-- Put an occurrence in front. -/
def after (occurrence : Occurrence) : Argument → Argument
  | options occurrences => options (occurrence :: occurrences)
  | awaiting occurrences file name => awaiting (occurrence :: occurrences) file name
  | argument => argument

/-- Read a group of short options. -/
def ofGroup : List Char → Except Misuse Argument
  | [] => .ok (options [])
  | c :: rest =>
    match Switch.ofShort? c with
    | none => .error (.noSuchOption ['-', c])
    | some (.output file) =>
      if rest.isEmpty then .ok (awaiting [] file ['-', c])
      else .ok (options [.output file rest])
    | some .verbose => (ofGroup rest).map (after .verbose)
    | some .version => (ofGroup rest).map (after .version)
    | some .help => (ofGroup rest).map (after .help)

/-- Read a long option with the value behind its equals sign, if it has one. -/
def ofLong (name : Text) (value : Option Text) : Except Misuse Argument :=
  let flag (occurrence : Occurrence) : Except Misuse Argument :=
    match value with
    | none => .ok (options [occurrence])
    | some _ => .error (.takesNoValue name)
  match Switch.ofLong? name, value with
  | none, _ => .error (.noSuchOption name)
  | some (.output file), some path => .ok (options [.output file path])
  | some (.output file), none => .ok (awaiting [] file name)
  | some .verbose, _ => flag .verbose
  | some .version, _ => flag .version
  | some .help, _ => flag .help

/-- Read an argument. -/
def ofText : Text → Except Misuse Argument
  | ['-', '-'] => .ok endOfOptions
  | '-' :: '-' :: rest =>
    let name := '-' :: '-' :: rest.takeWhile (· != '=')
    match rest.dropWhile (· != '=') with
    | [] => ofLong name none
    | _ :: value => ofLong name (some value)
  | '-' :: c :: rest => ofGroup (c :: rest)
  | _ => .ok plain

end Argument

/-! ## All arguments -/

/-- The arguments, taken apart. -/
structure Arguments where
  /-- the options in order of occurrence -/
  occurrences : List Occurrence
  /-- the file names -/
  plain : List Text
  deriving DecidableEq

namespace Arguments

/-- Put occurrences in front. -/
def withOccurrences (occurrences : List Occurrence) (a : Arguments) : Arguments :=
  { a with occurrences := occurrences ++ a.occurrences }

/-- Put a file name in front. -/
def withPlain (name : Text) (a : Arguments) : Arguments := { a with plain := name :: a.plain }

/-- Take the arguments apart. -/
def parse : List Text → Except Misuse Arguments
  | [] => .ok ⟨[], []⟩
  | argument :: rest =>
    match Argument.ofText argument with
    | .error misuse => .error misuse
    | .ok .endOfOptions => .ok ⟨[], rest⟩
    | .ok .plain => (parse rest).map (withPlain argument)
    | .ok (.options occurrences) => (parse rest).map (withOccurrences occurrences)
    | .ok (.awaiting occurrences file name) =>
      match rest with
      | [] => .error (.needsValue name)
      | value :: rest => (parse rest).map (withOccurrences (occurrences ++ [.output file value]))

/-- The outputs that are named, each once, in order of first occurrence. -/
def outputs (a : Arguments) : List OutputFile :=
  (a.occurrences.filterMap fun
    | .output file _ => some file
    | _ => none).eraseDups

/-- The path of an output: of several, the last. -/
def path? (a : Arguments) (file : OutputFile) : Option Text :=
  (a.occurrences.filterMap fun
    | .output f path => if f = file then some path else none
    | _ => none).getLast?

/-- Are details wanted? -/
def verbose (a : Arguments) : Bool := a.occurrences.contains .verbose

/-- The first request for help or the version. -/
def notice? (a : Arguments) : Option Occurrence :=
  a.occurrences.find? fun o => o == .help || o == .version

/-- The source file. -/
def source? (a : Arguments) : Option Text := a.plain.head?

end Arguments

end Command

end TwoPass
