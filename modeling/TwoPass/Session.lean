import TwoPass.Charset.Basic
import TwoPass.Pass.Generation
import TwoPass.Pass.Survey
import TwoPass.Store.Basic

/-!
# Assembling texts and files

A `Run` holds what the last assembly produced: symbols, report and output. `assembleText` runs both
passes over a text. `assembleFile` reads its source from the store once for each pass and may write
listing and load file while the second pass runs:

1. the source is opened and read for the first pass;
2. the listing is opened and emptied, then the load file;
3. the source is read again for the second pass. An output that is the source has emptied it by now;
4. the load file gets its lines, then the listing gets its own. If both are one file, the listing lies
   over the start of the load lines.

Whatever fails, the result says what had been done by then: an `Attempt` has the run, the store and
the events beside its outcome. A `Session` performs requests one after the other. Every assembly
starts from an empty run, so it does not depend on the requests before it.
-/

namespace TwoPass

/-! ## Runs -/

/-- What an assembly has produced. -/
structure Run where
  /-- the labels -/
  symbols : SymbolTable
  /-- diagnostics and warnings -/
  report : Report
  /-- words, listing and load lines -/
  output : Output
  deriving DecidableEq

/-- Nothing produced yet. -/
def Run.empty : Run := ⟨.empty, .empty, .empty⟩

instance : Inhabited Run := ⟨Run.empty⟩

/-- A run that has only finished its first pass. -/
def Run.ofSymbols (symbols : SymbolTable) : Run := { Run.empty with symbols := symbols }

/-- Assemble a text under a name. -/
def assembleText (source : Text) (file : SourceName) : Run × List Event :=
  let lines := Text.textLines source
  let survey := Survey.run .empty file lines
  let generation := Generation.run survey.symbols file .empty false false lines
  (⟨survey.symbols, generation.report, generation.output⟩,
    .assemblingText file lines.length :: survey.events ++ generation.events)

/-! ## Failures -/

/-- Why a request fails. -/
inductive Failure where
  /-- the source cannot be opened or read -/
  | unreadableSource (file reason : Text)
  /-- the system refuses to open an output -/
  | system (fault : SystemFault) (path : Text)
  /-- a path has a character that no path can have -/
  | nullInPath
  /-- the name of a character set has a character that no name can have -/
  | nullInEncoding
  /-- there is no character set of this name -/
  | unknownEncoding (name : Text)
  /-- a text has characters that the character set has not -/
  | unencodable (fault : Charset.EncodeFault)
  /-- there is no text to assemble -/
  | noText
  /-- there is no path -/
  | noPath
  deriving DecidableEq

namespace Failure

/-- A result that cannot be written, since its file cannot be opened. -/
def ofOpen (path : Text) : OpenFault → Failure
  | .nullInPath => nullInPath
  | .system fault => system fault path

/-- A file that cannot be opened while a source is assembled. The source and the outputs are told apart
by their paths, so an output that is spelled like the source counts as the source. -/
def ofUnopened (file path : Text) : OpenFault → Failure
  | .nullInPath => nullInPath
  | .system fault => if path = file then unreadableSource file fault.phrase else system fault path

/-- The diagnostic that a failure stands for, if it is one of the assembler's own. -/
def diagnostic? : Failure → Option Diagnostic
  | unreadableSource file reason => some (.unreadableSource file reason)
  | _ => none

/-- The report of a failure. -/
def message : Failure → Text
  | unreadableSource file reason => (Diagnostic.unreadableSource file reason).text
  | system fault path => fault.report fault.phrase path
  | nullInPath => "embedded null byte".toList
  | nullInEncoding => "embedded null character".toList
  | unknownEncoding name => "unknown encoding: ".toList ++ name
  | unencodable fault => fault.message
  | noText => "'NoneType' object has no attribute 'splitlines'".toList
  | noPath => "expected str, bytes or os.PathLike object, not NoneType".toList

end Failure

/-- What came of a request. -/
structure Attempt (α : Type) where
  /-- what has been produced -/
  run : Run
  /-- the files after it -/
  store : Store
  /-- what has happened -/
  events : List Event
  /-- the answer, or why there is none -/
  outcome : Except Failure α

/-! ## Assembling a file -/

/-- The character set and the contents of a source. The file is opened before the character set is
looked up, but after its name has been found free of null characters. -/
def openSource (encoding : Text) (store : Store) (file : Text) :
    Except Failure (Charset × Bytes) :=
  if encoding.contains Store.null then .error .nullInEncoding
  else
    match store.openForReading file with
    | .error fault => .error (.ofUnopened file file fault)
    | .ok bytes =>
      match Charset.ofName? encoding with
      | none => .error (.unknownEncoding encoding)
      | some charset => .ok (charset, bytes)

/-- The files that a second pass writes to. -/
structure Outputs where
  /-- the listing -/
  listing : Option (List Text)
  /-- the load file -/
  load : Option (List Text)
  deriving DecidableEq

/-- Open an output of a source, if one is asked for. -/
def openOutput (file : Text) (store : Store) :
    Option Text → Except Failure (Store × Option (List Text))
  | none => .ok (store, none)
  | some path =>
    match store.openForWriting path with
    | .error fault => .error (.ofUnopened file path fault)
    | .ok (store, names) => .ok (store, some names)

/-- Open the listing, then the load file. -/
def openOutputs (file : Text) (store : Store) (listing load : Option Text) :
    Store × Except Failure Outputs :=
  match openOutput file store listing with
  | .error failure => (store, .error failure)
  | .ok (store, listing) =>
    match openOutput file store load with
    | .error failure => (store, .error failure)
    | .ok (store, load) => (store, .ok ⟨listing, load⟩)

/-- The lines of a source that has been read before. -/
def rereadLines (charset : Charset) (store : Store) (file : Text) : List Text :=
  match store.read file with
  | .error _ => []
  | .ok bytes => (charset.readLines store.block bytes).lines

/-- Put what was written to a stream into its file. -/
def flush (charset : Charset) (store : Store) :
    Option (List Text) → Option (List Text) → Store × Option Charset.EncodeFault
  | some names, some texts =>
    let (bytes, fault) := charset.encodeWrites texts
    (store.overwrite names bytes, fault)
  | _, _ => (store, none)

/-- The second pass over a source, with the outputs open. -/
def generateFile (charset : Charset) (store : Store) (file : Text) (symbols : SymbolTable)
    (outputs : Outputs) : Attempt Text :=
  let lines := rereadLines charset store file
  let generation :=
    Generation.run symbols (.named file) .empty outputs.listing.isSome outputs.load.isSome lines
  let (store, loadFault) := flush charset store outputs.load generation.loadStream
  let (store, listingFault) := flush charset store outputs.listing generation.listingStream
  { run := ⟨symbols, generation.report, generation.output⟩
    store := store
    events := generation.events
    outcome :=
      match loadFault.or listingFault with
      | none => .ok generation.output.loadText
      | some fault => .error (.unencodable fault) }

/-- Both passes over an open source. A source that cannot be read to its end has bound the labels of
the lines it delivered. -/
def assembleOpened (charset : Charset) (bytes : Bytes) (store : Store) (file : Text)
    (listing load : Option Text) : Attempt Text :=
  let reading := charset.readLines store.block bytes
  match reading.fault with
  | some fault =>
    let survey := Survey.walk (.named file) 1 reading.lines (.start .empty)
    ⟨.ofSymbols survey.symbols, store, survey.events,
      .error (.unreadableSource file fault.message)⟩
  | none =>
    let survey := Survey.run .empty (.named file) reading.lines
    match openOutputs file store listing load with
    | (store, .error failure) =>
      ⟨.ofSymbols survey.symbols, store, survey.events, .error failure⟩
    | (store, .ok outputs) =>
      let attempt := generateFile charset store file survey.symbols outputs
      { attempt with events := survey.events ++ attempt.events }

/-- Assemble a file, perhaps to a listing and a load file. The answer is the load text. -/
def assembleFile (encoding : Text) (store : Store) (path : Text) (listing load : Option Text) :
    Attempt Text :=
  let file := Path.normalize path
  let attempt : Attempt Text :=
    match openSource encoding store file with
    | .error failure => ⟨.empty, store, [], .error failure⟩
    | .ok (charset, bytes) => assembleOpened charset bytes store file listing load
  { attempt with events := .assemblingFile file :: attempt.events }

/-! ## Writing results -/

/-- Empty a file and write texts to it, one after the other. -/
def writeTexts (encoding : Text) (store : Store) (path : Text) (texts : List Text) :
    Store × Except Failure Unit :=
  if encoding.contains Store.null then (store, .error .nullInEncoding)
  else
    match store.openForWriting path with
    | .error fault => (store, .error (.ofOpen path fault))
    | .ok (store, names) =>
      match Charset.ofName? encoding with
      | none => (store, .error (.unknownEncoding encoding))
      | some charset =>
        match charset.encodeWrites texts with
        | (bytes, none) => (store.write names bytes, .ok ())
        | (bytes, some fault) => (store.write names bytes, .error (.unencodable fault))

/-- The lines of the symbol file: a heading and the symbols sorted by name. -/
def symbolFile (symbols : SymbolTable) : List Text :=
  let entry (e : Text × Int) : Text := e.1 ++ ' ' :: Numeral.octal e.2 ++ ['\n']
  "# Symbol table\n".toList :: "# Generated by c6461asm\n".toList ::
    (Text.sortBy Prod.fst symbols.entries).map entry

/-! ## Sessions -/

/-- The encoding used unless another one is asked for. -/
def defaultEncoding : Text := "utf-8".toList

/-- An assembler in use. -/
structure Session where
  /-- the name of the character set of all files -/
  encoding : Text
  /-- the files -/
  store : Store
  /-- what the last assembly produced -/
  run : Run

/-- What a session can be asked to do. -/
inductive Request where
  /-- assemble a text under a name -/
  | assembleText (source : Text) (file : SourceName)
  /-- assemble a file, perhaps to a listing and a load file -/
  | assembleFile (path : Text) (listing load : Option Text)
  /-- write the listing of the last run -/
  | writeListing (path : Text)
  /-- write the load file of the last run -/
  | writeLoad (path : Text)
  /-- write the symbol file of the last run -/
  | writeSymbols (path : Text)
  deriving DecidableEq

/-- The kinds of requests. -/
inductive RequestKind where
  /-- assemble a text -/
  | assembleText
  /-- assemble a file -/
  | assembleFile
  /-- write a listing -/
  | writeListing
  /-- write a load file -/
  | writeLoad
  /-- write a symbol file -/
  | writeSymbols
  deriving DecidableEq

/-- How a request fails that comes without its text or path. -/
def RequestKind.lack : RequestKind → Failure
  | assembleText => .noText
  | assembleFile | writeListing | writeLoad | writeSymbols => .noPath

namespace Session

/-- A session that has assembled nothing. -/
def fresh (encoding : Text) (store : Store) : Session := ⟨encoding, store, .empty⟩

/-- Write texts to a file and note it. -/
def write (s : Session) (path : Text) (texts : List Text) (note : Event) :
    Attempt (Option Text) :=
  match writeTexts s.encoding s.store path texts with
  | (store, .ok ()) => ⟨s.run, store, [note], .ok none⟩
  | (store, .error failure) => ⟨s.run, store, [], .error failure⟩

/-- What comes of a request. An assembly answers with the load text. -/
def attempt (s : Session) : Request → Attempt (Option Text)
  | .assembleText source file =>
    let (run, events) := TwoPass.assembleText source file
    ⟨run, s.store, events, .ok (some run.output.loadText)⟩
  | .assembleFile path listing load =>
    let attempt := TwoPass.assembleFile s.encoding s.store path listing load
    ⟨attempt.run, attempt.store, attempt.events, attempt.outcome.map some⟩
  | .writeListing path =>
    s.write (Path.normalize path) [s.run.output.listingText] (.wroteListing path)
  | .writeLoad path => s.write (Path.normalize path) [s.run.output.loadText] (.wroteLoad path)
  | .writeSymbols path => s.write path (symbolFile s.run.symbols) (.wroteSymbols path)

/-- The session after an attempt. -/
def after {α : Type} (s : Session) (attempt : Attempt α) : Session :=
  { s with store := attempt.store, run := attempt.run }

/-- Perform a request. -/
def perform (s : Session) (request : Request) : Session × Attempt (Option Text) :=
  let attempt := s.attempt request
  (s.after attempt, attempt)

/-- Decline a request that comes without its text or path. -/
def decline (s : Session) (kind : RequestKind) : Session × Attempt (Option Text) :=
  (s, ⟨s.run, s.store, [], .error kind.lack⟩)

/-- Perform a request in a session of its own with the default encoding. Only the files are shared. -/
def performApart (s : Session) (request : Request) : Session × Attempt (Option Text) :=
  let attempt := (fresh defaultEncoding s.store).attempt request
  ({ s with store := attempt.store }, attempt)

end Session

end TwoPass
