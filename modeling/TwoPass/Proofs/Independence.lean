import TwoPass.Pass.Bench
import TwoPass.Session

/-!
# Assemblies do not see what came before them

A session performs assemblies and writes results, in any order, and any of these may fail half-way. The
next assembly answers and leaves behind what it would in a session that has done nothing
(`Session.run_independence`).

A `Session` starts every assembly from an empty run, so there is little in it that could leak. The
statement has its weight for an assembler that keeps its tables from one request to the next and
empties them when an assembly starts. That assembler is a `Workshop`: it has one `Bench`, every pass
works on the bench as it finds it, and where an assembly stops the bench is left as it is. The argument
has two parts.

* A reset leaves nothing on the bench (`Bench.reset_eq_fresh`), whatever an earlier request left there.
* A workshop does what a session does, request by request (`Workshop.perform_session`) and so over a
  whole history (`Workshop.performAll_session`).
-/

namespace TwoPass

/-- Is the request an assembly? The others write what the last assembly produced. -/
def Request.isAssembly : Request → Bool
  | assembleText .. | assembleFile .. => true
  | writeListing _ | writeLoad _ | writeSymbols _ => false

namespace Session

/-- The session after a history of requests, failed ones included. -/
def performAll (s : Session) (history : List Request) : Session :=
  history.foldl (fun s request => (s.perform request).1) s

theorem encoding_perform (s : Session) (request : Request) :
    (s.perform request).1.encoding = s.encoding := rfl

theorem encoding_performAll (s : Session) (history : List Request) :
    (s.performAll history).encoding = s.encoding := by
  induction history generalizing s with
  | nil => rfl
  | cons request rest ih =>
    calc ((s.perform request).1.performAll rest).encoding
      _ = (s.perform request).1.encoding := ih _
      _ = s.encoding := encoding_perform s request

/-- An assembly reads the encoding and the files of a session, and nothing else. -/
theorem perform_eq_perform_fresh (s : Session) {request : Request} (h : request.isAssembly = true) :
    s.perform request = (fresh s.encoding s.store).perform request := by
  cases request with
  | assembleText source file => rfl
  | assembleFile path listing load => rfl
  | writeListing path => cases h
  | writeLoad path => cases h
  | writeSymbols path => cases h

/-- Writing a result leaves the run as it is, also where it fails. -/
theorem run_write (s : Session) (path : Text) (texts : List Text) (note : Event) :
    (s.write path texts note).run = s.run := by
  rw [write]
  split
  · rfl
  · rfl

end Session

/-! ## Shared tables -/

namespace Bench

/-- What the bench shows of the last assembly. -/
def run (b : Bench) : Run := ⟨b.symbols, b.report, b.output⟩

/-- Empty the tables in place and take a new source. -/
def reset (b : Bench) (file : SourceName) : Bench :=
  { b.clearReport with file := file, symbols := .empty, output := .empty }

/-- A reset leaves nothing on the bench. -/
theorem reset_eq_fresh (b : Bench) (file : SourceName) : b.reset file = fresh file := rfl

end Bench

/-- An assembler that keeps its tables from one request to the next. -/
structure Workshop where
  /-- the name of the character set of all files -/
  encoding : Text
  /-- the files -/
  store : Store
  /-- the tables -/
  bench : Bench

namespace Workshop

/-- A workshop in which nothing has happened. -/
def fresh (encoding : Text) (store : Store) : Workshop := ⟨encoding, store, .fresh .input⟩

/-- What the workshop shows. -/
def session (w : Workshop) : Session := ⟨w.encoding, w.store, w.bench.run⟩

/-- Stop here: the bench stays as it is. -/
def leave (w : Workshop) (bench : Bench) (store : Store) (events : List Event)
    (outcome : Except Failure (Option Text)) : Workshop × Attempt (Option Text) :=
  (⟨w.encoding, store, bench⟩, ⟨bench.run, store, events, outcome⟩)

/-- Assemble a text on the bench. -/
def assembleText (w : Workshop) (source : Text) (file : SourceName) :
    Workshop × Attempt (Option Text) :=
  let lines := Text.textLines source
  let (bench, survey) := (w.bench.reset file).collect lines
  let (bench, generation) := bench.generate false false lines
  w.leave bench w.store
    (.assemblingText file lines.length :: survey.events ++ generation.events)
    (.ok (some bench.output.loadText))

/-- The second pass on the bench, with the outputs open. -/
def generateFile (w : Workshop) (bench : Bench) (charset : Charset) (store : Store) (file : Text)
    (events : List Event) (outputs : Outputs) : Workshop × Attempt (Option Text) :=
  let lines := rereadLines charset store file
  let (bench, generation) :=
    bench.generate outputs.listing.isSome outputs.load.isSome lines
  let (store, loadFault) := flush charset store outputs.load generation.loadStream
  let (store, listingFault) := flush charset store outputs.listing generation.listingStream
  let outcome : Except Failure Text :=
    match loadFault.or listingFault with
    | none => .ok bench.output.loadText
    | some fault => .error (.unencodable fault)
  w.leave bench store (events ++ generation.events) (outcome.map some)

/-- Assemble a file on the bench. -/
def assembleFile (w : Workshop) (path : Text) (listing load : Option Text) :
    Workshop × Attempt (Option Text) :=
  let file := Path.normalize path
  let bench := w.bench.reset (.named file)
  match openSource w.encoding w.store file with
  | .error failure => w.leave bench w.store [.assemblingFile file] (.error failure)
  | .ok (charset, bytes) =>
    let reading := charset.readLines w.store.block bytes
    match reading.fault with
    | some fault =>
      -- the first pass stops in the middle, with the labels so far on the bench
      let survey := Survey.walk bench.file 1 reading.lines (.start bench.symbols)
      w.leave { bench with symbols := survey.symbols } w.store
        (.assemblingFile file :: survey.events)
        (.error (.unreadableSource file fault.message))
    | none =>
      let (bench, survey) := bench.collect reading.lines
      let events := .assemblingFile file :: survey.events
      match openOutputs file w.store listing load with
      | (store, .error failure) => w.leave bench store events (.error failure)
      | (store, .ok outputs) => w.generateFile bench charset store file events outputs

/-- Perform a request. Writing a result leaves the bench alone. -/
def perform (w : Workshop) : Request → Workshop × Attempt (Option Text)
  | .assembleText source file => w.assembleText source file
  | .assembleFile path listing load => w.assembleFile path listing load
  | request =>
    let attempt := w.session.attempt request
    w.leave w.bench attempt.store attempt.events attempt.outcome

/-- The workshop after a history of requests, failed ones included. -/
def performAll (w : Workshop) (history : List Request) : Workshop :=
  history.foldl (fun w request => (w.perform request).1) w

/-! ### What a workshop shows is a session -/

/-- A request that changes no run leaves the bench alone. -/
theorem leave_session (w : Workshop) {attempt : Attempt (Option Text)}
    (h : attempt.run = w.bench.run) :
    let result := w.leave w.bench attempt.store attempt.events attempt.outcome
    (result.1.session, result.2) = (w.session.after attempt, attempt) := by
  obtain ⟨run, store, events, outcome⟩ := attempt
  cases h
  rfl

/-- The second pass on a bench with a survey on it and no report. -/
theorem generateFile_session (w : Workshop) (symbols : SymbolTable) (output : Output)
    (charset : Charset) (store : Store) (file : Text) (events : List Event) (outputs : Outputs) :
    let bench : Bench := ⟨.named file, symbols, .empty, output⟩
    let result := w.generateFile bench charset store file events outputs
    let attempt := TwoPass.generateFile charset store file symbols outputs
    result.1.session = ⟨w.encoding, attempt.store, attempt.run⟩ ∧
      result.2 = ⟨attempt.run, attempt.store, events ++ attempt.events, attempt.outcome.map some⟩ :=
  ⟨rfl, rfl⟩

theorem assembleFile_session (w : Workshop) (path : Text) (listing load : Option Text) :
    ((w.assembleFile path listing load).1.session, (w.assembleFile path listing load).2) =
      w.session.perform (.assembleFile path listing load) := by
  simp only [assembleFile, session, Session.perform, Session.attempt, TwoPass.assembleFile,
    Bench.reset_eq_fresh]
  -- one case for each place where the assembly can stop
  rcases openSource w.encoding w.store (Path.normalize path) with failure | ⟨charset, bytes⟩
  · rfl
  · simp only [assembleOpened]
    rcases (charset.readLines w.store.block bytes).fault with _ | fault
    · rcases openOutputs (Path.normalize path) w.store listing load with ⟨store, failure | outputs⟩
      · rfl
      · obtain ⟨hsession, hattempt⟩ := generateFile_session w
          (Survey.run .empty (.named (Path.normalize path))
            (charset.readLines w.store.block bytes).lines).symbols
          .empty charset store (Path.normalize path) _ outputs
        exact Prod.ext hsession hattempt
    · rfl

/-- **A workshop does what a session does**: it answers alike, and shows the session afterwards. -/
theorem perform_session (w : Workshop) (request : Request) :
    ((w.perform request).1.session, (w.perform request).2) = w.session.perform request := by
  cases request with
  | assembleText source file => rfl
  | assembleFile path listing load => exact assembleFile_session w path listing load
  | writeListing path => exact leave_session w (Session.run_write ..)
  | writeLoad path => exact leave_session w (Session.run_write ..)
  | writeSymbols path => exact leave_session w (Session.run_write ..)

theorem performAll_session (w : Workshop) (history : List Request) :
    (w.performAll history).session = w.session.performAll history := by
  induction history generalizing w with
  | nil => rfl
  | cons request rest ih =>
    have hstep : (w.perform request).1.session = (w.session.perform request).1 :=
      congrArg Prod.fst (perform_session w request)
    calc ((w.perform request).1.performAll rest).session
      _ = (w.perform request).1.session.performAll rest := ih _
      _ = (w.session.perform request).1.performAll rest := by rw [hstep]

/-- An assembly on a used bench is one on an empty bench. -/
theorem perform_eq_perform_fresh (w : Workshop) {request : Request}
    (h : request.isAssembly = true) :
    w.perform request = (fresh w.encoding w.store).perform request := by
  cases request with
  | assembleText source file =>
    simp only [perform, assembleText, Bench.reset_eq_fresh]
    rfl
  | assembleFile path listing load =>
    simp only [perform, assembleFile, Bench.reset_eq_fresh]
    rfl
  | writeListing path => cases h
  | writeLoad path => cases h
  | writeSymbols path => cases h

end Workshop

/-! ## Histories -/

/-- **An assembly does not depend on the requests before it**. After any history of assemblies and
writes, failed ones included, an assembly gives the answer, the events, the files and the state that it
gives in a fresh session on the same files. So it does for an assembler that keeps its tables: it shows
the same session, and what is left in its tables does not reach the next assembly. -/
theorem Session.run_independence (encoding : Text) (store : Store) (history : List Request)
    (request : Request) (h : request.isAssembly = true) :
    let used := (Session.fresh encoding store).performAll history
    let kept := (Workshop.fresh encoding store).performAll history
    used.perform request = (Session.fresh encoding used.store).perform request ∧
      ((kept.perform request).1.session, (kept.perform request).2) = used.perform request ∧
      kept.perform request = (Workshop.fresh encoding used.store).perform request := by
  intro used kept
  have hencoding : used.encoding = encoding := Session.encoding_performAll _ history
  have hkept : kept.session = used := Workshop.performAll_session _ history
  have hkeptEncoding : kept.encoding = encoding :=
    (congrArg Session.encoding hkept).trans hencoding
  have hkeptStore : kept.store = used.store := congrArg Session.store hkept
  refine ⟨?_, ?_, ?_⟩
  · rw [Session.perform_eq_perform_fresh used h, hencoding]
  · rw [Workshop.perform_session, hkept]
  · rw [Workshop.perform_eq_perform_fresh kept h, hkeptEncoding, hkeptStore]

/-- A file that is not there, a text that leaves a label and a diagnostic, a load file that is written;
then a text that names the label without binding it. -/
theorem Session.run_independence_stale_label :
    let history : List Request :=
      [.assembleFile "missing.asm".toList none none,
        .assembleText "LOC 6\nX:\nFOO 1\n".toList .input,
        .writeLoad "x.load".toList]
    let request : Request := .assembleText "DATA X\n".toList .input
    let used := (Session.fresh defaultEncoding {}).performAll history
    used.run.symbols.resolve? "X".toList = some 6 ∧ used.run.report.errors.length = 1 ∧
      used.perform request = (Session.fresh defaultEncoding used.store).perform request ∧
      (used.perform request).1.run.symbols = .empty ∧
      (used.perform request).1.run.report.errors.length = 1 := by
  intro history request used
  have h := Session.run_independence defaultEncoding {} history request (by decide)
  exact ⟨by decide, by decide, h.1, by decide, by decide⟩

end TwoPass
