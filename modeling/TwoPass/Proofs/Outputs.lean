import TwoPass.Proofs.Files
import TwoPass.Proofs.Provenance

/-!
# Output files hold the results

While the second pass runs it may write its listing and its load lines to files. Three things have to
come together for these files to hold what the run holds.

* What is streamed line by line is the text that is kept (`Generation.Streamed`), and streaming changes
  nothing else of the pass (`Generation.silent_walk`).
* Opening the outputs empties neither the source nor each other: a `FilePlan` has three different files,
  and writing one moves no path to another.
* Every character is one of the character set (`LegibleSource.encodable`), so no text is refused, and
  what is written is read back (`flush_of_has`).

So assembling to files succeeds, leaves the run that assembling without them leaves, and the files read
back as its texts. The results can be written again at any later time (`Session.outputs_faithful`).
-/

namespace TwoPass

/-! ## Streams -/

namespace Generation

/-- The state without its streams. -/
def silent (g : Generation) : Generation := { g with listingStream := none, loadStream := none }

theorem silent_apply (g : Generation) (file : SourceName) (number : Nat) (line : Text) (t : Treatment) :
    (g.apply file number line t).silent = g.silent.apply file number line t := by
  rcases t with (_ | warning) | address | ⟨value, _ | _⟩ | diagnostic <;> rfl

/-- Streaming changes nothing but the streams. -/
theorem silent_walk (symbols : SymbolTable) (file : SourceName) (number : Nat) (lines : List Text)
    (g : Generation) :
    (walk symbols file number lines g).silent = walk symbols file number lines g.silent := by
  induction lines generalizing number g with
  | nil => rfl
  | cons raw rest ih =>
    rw [walk, walk, ih, step, silent_apply]
    rfl

/-- The lines as they are written to a stream. -/
def ended (lines : List Text) : List Text := lines.map (· ++ ['\n'])

/-- The streams that are open hold the lines that are kept. -/
structure Streamed (listing load : Bool) (g : Generation) : Prop where
  /-- the listing -/
  listing : g.listingStream = if listing then some (ended g.output.listing) else none
  /-- the load file -/
  load : g.loadStream = if load then some (ended g.output.load) else none

namespace Streamed

variable {listing load : Bool} {g : Generation}

theorem list (h : Streamed listing load g) (line : Text) : Streamed listing load (g.list line) where
  listing := by
    rw [Generation.list, h.listing]
    cases listing <;> simp [ended]
  load := h.load

theorem loadLine (h : Streamed listing load g) (line : Text) :
    Streamed listing load (g.loadLine line) where
  listing := h.listing
  load := by
    rw [Generation.loadLine, h.load]
    cases load <;> simp [ended]

theorem emit (h : Streamed listing load g) (file : SourceName) (word : Word) :
    Streamed listing load (g.emit file word) := by
  have hwords : Streamed listing load
      { g with output := { g.output with words := g.output.words ++ [word] } } := ⟨h.listing, h.load⟩
  obtain ⟨hlisting, hload⟩ := (hwords.list word.listingText).loadLine word.loadText
  exact ⟨hlisting, hload⟩

/-- Whatever is done with a line, the streams keep up with the output. -/
theorem apply (h : Streamed listing load g) (file : SourceName) (number : Nat) (line : Text)
    (t : Treatment) : Streamed listing load (g.apply file number line t) := by
  rcases t with (_ | warning) | address | ⟨value, _ | _⟩ | diagnostic
  · exact h.list line
  · obtain ⟨hlisting, hload⟩ := h.list line
    exact ⟨hlisting, hload⟩
  · obtain ⟨hlisting, hload⟩ := h.list (' ' :: line)
    exact ⟨hlisting, hload⟩
  · exact h.emit file _
  · obtain ⟨hlisting, hload⟩ := h.emit file ⟨g.counter.value, value, line, number⟩
    exact ⟨hlisting, hload⟩
  · exact ⟨h.listing, h.load⟩

theorem walk (h : Streamed listing load g) (symbols : SymbolTable) (file : SourceName) (number : Nat)
    (lines : List Text) : Streamed listing load (walk symbols file number lines g) := by
  induction lines generalizing number g with
  | nil => exact h
  | cons raw rest ih => exact ih (h.apply file number _ _) _

end Streamed

namespace Task

variable (t : Task)

/-- **The streams hold what is kept**. -/
theorem streamed_result : Streamed t.listing t.load t.result := by
  have hstart : Streamed t.listing t.load (start t.report t.listing t.load) := ⟨rfl, rfl⟩
  obtain ⟨hlisting, hload⟩ := hstart.walk t.symbols t.file 1 t.lines
  exact ⟨hlisting, hload⟩

/-- **Streaming changes no result**. -/
theorem silent_result :
    t.result.silent = run t.symbols t.file t.report false false t.lines := by
  have hwalk := silent_walk t.symbols t.file 1 t.lines (start t.report t.listing t.load)
  exact congrArg close hwalk

end Task

end Generation

/-! ## Writing texts of the character set -/

/-- What is put into an empty file is read back. -/
theorem flush_of_has {charset : Charset} {store : Store} {names : List Text} {texts : List Text}
    (hempty : store.file? names = some []) (h : ∀ t ∈ texts, ∀ c ∈ t, charset.has c = true) :
    ∃ bytes, flush charset store (some names) (some texts) = (store.write names bytes, none) ∧
      charset.decode bytes = (texts.flatten, none) := by
  obtain ⟨bytes, hbytes, hdecode⟩ := Charset.decode_encodeWrites h
  refine ⟨bytes, ?_, hdecode⟩
  simp only [flush, hbytes, Store.overwrite_of_empty hempty]

/-- Texts of the character set are written to any file that can be opened. -/
theorem writeTexts_of_has {encoding : Text} {charset : Charset} {store : Store} {path : Text}
    {names : List Text} {texts : List Text} (hnull : Store.null ∉ encoding)
    (hnamed : Charset.ofName? encoding = some charset)
    (hopens : (store.openForWriting path).map Prod.snd = .ok names)
    (h : ∀ t ∈ texts, ∀ c ∈ t, charset.has c = true) :
    (writeTexts encoding store path texts).2 = .ok () := by
  obtain ⟨bytes, hbytes, -⟩ := Charset.decode_encodeWrites h
  have hopen := (Store.opens_of_openForWriting hopens).open_eq
  simp [writeTexts, hnull, hopen, hnamed, hbytes]

section Ended

variable {charset : Charset} {lines : List Text} (h : ∀ line ∈ lines, ∀ c ∈ line, charset.has c = true)

include h

theorem Charset.has_of_mem_ended :
    ∀ text ∈ Generation.ended lines, ∀ c ∈ text, charset.has c = true := by
  intro text htext c hc
  obtain ⟨line, hline, rfl⟩ := List.mem_map.mp htext
  rcases List.mem_append.mp hc with hc | hc
  · exact h line hline c hc
  · obtain rfl := List.mem_singleton.mp hc
    exact has_of_ascii (by decide) charset

theorem Charset.has_of_mem_endLines : ∀ c ∈ endLines lines, charset.has c = true := by
  intro c hc
  obtain ⟨text, htext, hc⟩ := List.mem_flatten.mp hc
  exact has_of_mem_ended h text htext c hc

end Ended

/-! ## Writing the results of a run -/

/-- The file that a request writes to, if it writes a result. -/
def Request.target? : Request → Option Text
  | assembleText .. | assembleFile .. => none
  | writeListing path | writeLoad path => some (Path.normalize path)
  | writeSymbols path => some path

/-- Beside the names, a symbol file has only ASCII characters. -/
theorem Charset.has_of_mem_symbolFile {charset : Charset} {symbols : SymbolTable}
    (h : ∀ name ∈ symbols.names, ∀ c ∈ name, charset.has c = true) :
    ∀ text ∈ symbolFile symbols, ∀ c ∈ text, charset.has c = true := by
  have hascii : ∀ text : Text, text.all (fun c => c.toNat < 0x80) = true →
      ∀ c ∈ text, charset.has c = true := by
    intro text htext c hc
    exact has_of_ascii (of_decide_eq_true (List.all_eq_true.mp htext c hc)) charset
  refine List.forall_mem_cons.mpr ⟨hascii _ (by decide), ?_⟩
  refine List.forall_mem_cons.mpr ⟨hascii _ (by decide), ?_⟩
  intro text htext
  obtain ⟨entry, hentry, rfl⟩ := List.mem_map.mp htext
  have hname : entry.1 ∈ symbols.names :=
    List.mem_map_of_mem ((Text.sortBy_perm _ _).mem_iff.mp hentry)
  -- the name and a numeral, with a space between and a line feed behind
  have hshown : ∀ c, Line.Shown [entry.1] c → charset.has c = true :=
    fun c hc => hc.has (List.forall_mem_singleton.mpr (h entry.1 hname))
  refine List.forall_mem_append.mpr ⟨List.forall_mem_append.mpr ⟨h entry.1 hname, ?_⟩, ?_⟩
  · exact List.forall_mem_cons.mpr
      ⟨hshown ' ' .space, fun c hc => hshown c (Line.Shown.of_mem_octal c hc)⟩
  · exact List.forall_mem_singleton.mpr (hshown '\n' .feed)

namespace Run.Encodable

variable {charset : Charset} {run : Run} (h : run.Encodable charset)

include h

/-- **The results of a run of characters of the set can be written at any time**, to any file that can
be opened. -/
theorem outcome_write {s : Session} (hrun : s.run = run) (hnull : Store.null ∉ s.encoding)
    (hnamed : Charset.ofName? s.encoding = some charset) {request : Request} {path : Text}
    (htarget : request.target? = some path) {names : List Text}
    (hopens : (s.store.openForWriting path).map Prod.snd = .ok names) :
    (s.attempt request).outcome = .ok none := by
  subst hrun
  have hwrite : ∀ texts note, (∀ t ∈ texts, ∀ c ∈ t, charset.has c = true) →
      (s.write path texts note).outcome = .ok none := by
    intro texts note htexts
    have hdone := writeTexts_of_has hnull hnamed hopens htexts
    rw [Session.write]
    rcases hresult : writeTexts s.encoding s.store path texts with ⟨store, result⟩
    rw [hresult] at hdone
    obtain rfl : result = .ok () := hdone
    rfl
  cases request with
  | assembleText source file => cases htarget
  | assembleFile source listing load => cases htarget
  | writeListing target =>
    obtain rfl := Option.some.inj htarget
    exact hwrite _ _ (List.forall_mem_singleton.mpr (Charset.has_of_mem_endLines h.listing))
  | writeLoad target =>
    obtain rfl := Option.some.inj htarget
    exact hwrite _ _ (List.forall_mem_singleton.mpr (Charset.has_of_mem_endLines h.load))
  | writeSymbols target =>
    obtain rfl := Option.some.inj htarget
    exact hwrite _ _ (Charset.has_of_mem_symbolFile h.names)

end Run.Encodable

/-! ## Assembling to files -/

/-- A source that can be read, a listing and a load file that can be opened: three different files. -/
structure FilePlan (encoding : Text) (store : Store) (path listing load : Text) extends
    LegibleSource encoding store path where
  /-- the source -/
  sourceNames : List Text
  /-- the listing -/
  listingNames : List Text
  /-- the load file -/
  loadNames : List Text
  /-- the path of the source leads to it -/
  located : store.locate (Path.normalize path) = .ok (.file sourceNames)
  /-- the listing can be opened -/
  opens_listing : (store.openForWriting listing).map Prod.snd = .ok listingNames
  /-- the load file can be opened -/
  opens_load : (store.openForWriting load).map Prod.snd = .ok loadNames
  /-- the listing is not the source -/
  source_ne_listing : sourceNames ≠ listingNames
  /-- the load file is not the source -/
  source_ne_load : sourceNames ≠ loadNames
  /-- the listing is not the load file -/
  listing_ne_load : listingNames ≠ loadNames

namespace FilePlan

variable {encoding : Text} {store : Store} {path listing load : Text}
  (plan : FilePlan encoding store path listing load)

/-- The store with both outputs open. -/
def opened : Store := (store.write plan.listingNames []).write plan.loadNames []

theorem openOutputs_eq :
    openOutputs (Path.normalize path) store (some listing) (some load) =
      (plan.opened, .ok ⟨some plan.listingNames, some plan.loadNames⟩) := by
  have hlisting := (Store.opens_of_openForWriting plan.opens_listing).open_eq
  have hload := ((Store.opens_of_openForWriting plan.opens_load).write plan.listingNames []).open_eq
  simp only [openOutputs, openOutput, hlisting, hload]
  rfl

/-- Opening the outputs leaves the source alone. -/
theorem read_opened : plan.opened.read (Path.normalize path) = .ok plan.bytes := by
  have hleads : store.Leads (Path.normalize path) plan.sourceNames :=
    Store.leads_of_locate (Store.null_not_mem_of_openForReading plan.read) plan.located
  refine Store.Leads.read ((hleads.write _ _).write _ _) ?_
  rw [Store.file?_write_of_ne _ _ plan.source_ne_load,
    Store.file?_write_of_ne _ _ plan.source_ne_listing]
  exact Store.file?_of_read (Store.read_of_openForReading plan.read) plan.located

/-- The second pass over the source, with both outputs open. -/
def second : Generation.Task :=
  ⟨plan.run.symbols, .named (Path.normalize path), .empty, true, true, Text.fileLines plan.text⟩

theorem output_second : plan.second.result.output = plan.run.output := by
  have h := congrArg Generation.output plan.second.silent_result
  exact h

theorem report_second : plan.second.result.report = plan.run.report := by
  have h := congrArg Generation.report plan.second.silent_result
  exact h

theorem loadStream_second :
    plan.second.result.loadStream = some (Generation.ended plan.run.output.load) := by
  rw [plan.second.streamed_result.load, output_second]
  rfl

theorem listingStream_second :
    plan.second.result.listingStream = some (Generation.ended plan.run.output.listing) := by
  rw [plan.second.streamed_result.listing, output_second]
  rfl

/-- The whole assembly comes down to the second pass with both outputs open. -/
theorem assembleFile_eq_generateFile :
    let attempt := generateFile plan.charset plan.opened (Path.normalize path) plan.run.symbols
      ⟨some plan.listingNames, some plan.loadNames⟩
    (assembleFile encoding store path (some listing) (some load)).run = attempt.run ∧
      (assembleFile encoding store path (some listing) (some load)).outcome = attempt.outcome ∧
      (assembleFile encoding store path (some listing) (some load)).store = attempt.store := by
  simp only [assembleFile, plan.openSource_eq, assembleOpened, plan.readLines_eq, plan.openOutputs_eq]
  exact ⟨rfl, rfl, rfl⟩

/-- **Assembling to files**: it answers and leaves the run as without files, and the bytes of both files
are those of the texts. -/
theorem assembleFile_outputs :
    ∃ listingBytes loadBytes,
      plan.charset.decode listingBytes = (plan.run.output.listingText, none) ∧
      plan.charset.decode loadBytes = (plan.run.output.loadText, none) ∧
      let attempt := assembleFile encoding store path (some listing) (some load)
      attempt.run = plan.run ∧ attempt.outcome = .ok plan.run.output.loadText ∧
      attempt.store =
        (plan.opened.write plan.loadNames loadBytes).write plan.listingNames listingBytes := by
  have hlisting := Charset.has_of_mem_ended plan.encodable.listing
  have hload := Charset.has_of_mem_ended plan.encodable.load
  have hfresh : plan.opened.file? plan.loadNames = some [] := Store.file?_write_self ..
  obtain ⟨loadBytes, hloadFlush, hloadDecode⟩ := flush_of_has hfresh hload
  have hempty : (plan.opened.write plan.loadNames loadBytes).file? plan.listingNames = some [] := by
    rw [Store.file?_write_of_ne _ _ plan.listing_ne_load, opened,
      Store.file?_write_of_ne _ _ plan.listing_ne_load, Store.file?_write_self]
  obtain ⟨listingBytes, hlistingFlush, hlistingDecode⟩ := flush_of_has hempty hlisting
  refine ⟨listingBytes, loadBytes, hlistingDecode, hloadDecode, ?_⟩
  obtain ⟨hrun, houtcome, hstore⟩ := plan.assembleFile_eq_generateFile
  have hsecond : Generation.run plan.run.symbols (.named (Path.normalize path)) .empty true true
      (rereadLines plan.charset plan.opened (Path.normalize path)) = plan.second.result := by
    rw [plan.rereadLines_eq plan.read_opened]
    rfl
  have hgenerate : generateFile plan.charset plan.opened (Path.normalize path) plan.run.symbols
      ⟨some plan.listingNames, some plan.loadNames⟩ =
        ⟨plan.run, (plan.opened.write plan.loadNames loadBytes).write plan.listingNames listingBytes,
          plan.second.result.events, .ok plan.run.output.loadText⟩ := by
    simp only [generateFile, Option.isSome_some, hsecond, output_second, report_second,
      loadStream_second, listingStream_second, hloadFlush, hlistingFlush, Option.none_or]
  exact ⟨hrun.trans (congrArg Attempt.run hgenerate),
    houtcome.trans (congrArg Attempt.outcome hgenerate),
    hstore.trans (congrArg Attempt.store hgenerate)⟩

end FilePlan

/-- The file that the path leads to holds the text: its bytes decode to it, and reading it line by line
delivers it with the breaks it has. -/
def Store.Holds (s : Store) (charset : Charset) (path text : Text) : Prop :=
  (∃ bytes, s.read path = .ok bytes ∧ charset.decode bytes = (text, none)) ∧
    (Text.terminatedLines text).flatten = text

namespace Session

/-- **Output files hold the results**. If the source can be read and both outputs can be opened, and they
are three different files, then assembling to files succeeds in every character set. It leaves the run
that assembling without outputs leaves, the listing reads back as the text of the listing, and the load
file as the load text. Whatever becomes of the files later, the results can still be written to every
file that can be opened. -/
theorem outputs_faithful (s : Session) {path listing load : Text}
    (plan : FilePlan s.encoding s.store path listing load) :
    let attempt := s.attempt (.assembleFile path (some listing) (some load))
    attempt.outcome = .ok (some attempt.run.output.loadText) ∧
    attempt.run = (s.attempt (.assembleFile path none none)).run ∧
    attempt.store.Holds plan.charset listing attempt.run.output.listingText ∧
    attempt.store.Holds plan.charset load attempt.run.output.loadText ∧
    ∀ (store : Store) (request : Request) (target : Text) (names : List Text),
      request.target? = some target → (store.openForWriting target).map Prod.snd = .ok names →
      ({ s.after attempt with store := store }.attempt request).outcome = .ok none := by
  intro attempt
  obtain ⟨listingBytes, loadBytes, hlisting, hload, hrun, houtcome, hstore⟩ := plan.assembleFile_outputs
  have hattempt : attempt.run = plan.run := hrun
  have hafter : attempt.store =
      (plan.opened.write plan.loadNames loadBytes).write plan.listingNames listingBytes := hstore
  have hleads : ∀ {output names}, s.store.Leads output names → attempt.store.Leads output names := by
    intro output names h
    rw [hafter]
    exact (((h.write _ _).write _ _).write _ _).write _ _
  have hlistingFile : attempt.store.file? plan.listingNames = some listingBytes := by
    rw [hafter, Store.file?_write_self]
  have hloadFile : attempt.store.file? plan.loadNames = some loadBytes := by
    rw [hafter, Store.file?_write_of_ne _ _ plan.listing_ne_load.symm, Store.file?_write_self]
  rw [hattempt]
  refine ⟨?_, ?_, ⟨⟨listingBytes, ?_, hlisting⟩, ?_⟩, ⟨⟨loadBytes, ?_, hload⟩, ?_⟩, ?_⟩
  · exact congrArg (Except.map some) houtcome
  · exact (congrArg Attempt.run plan.assembleFile_eq).symm
  · exact (hleads (Store.opens_of_openForWriting plan.opens_listing).leads).read hlistingFile
  · exact Text.flatten_terminatedLines plan.return_not_mem_listingText
  · exact (hleads (Store.opens_of_openForWriting plan.opens_load).leads).read hloadFile
  · exact Text.flatten_terminatedLines plan.return_not_mem_loadText
  · intro store request target names htarget hopens
    exact plan.encodable.outcome_write (s := { s.after attempt with store := store }) hattempt
      plan.not_null plan.named htarget hopens

/-- A marked source with a name beyond ASCII, a listing that is there already and an empty load file. The
symbols are written over the listing afterwards. -/
theorem outputs_faithful_marked :
    let text := "é:\r\nLOC 7\rFOO".toList
    let bytes := Charset.mark ++ Utf8.encode text
    let store : Store := { files := [(["s".toList], bytes), (["l".toList], [1, 2])] }
    let s : Session := .fresh "utf-8-sig".toList store
    let attempt := s.attempt (.assembleFile "s".toList (some "l".toList) (some "o".toList))
    attempt.outcome = .ok (some []) ∧
      attempt.store.Holds .utf8Marked "l".toList "é:\n LOC 7\n".toList ∧
      attempt.store.Holds .utf8Marked "o".toList [] ∧
      ((s.after attempt).attempt (.writeSymbols "l".toList)).outcome = .ok none := by
  intro text bytes store s attempt
  let plan : FilePlan s.encoding s.store "s".toList "l".toList "o".toList :=
    { charset := .utf8Marked
      bytes := bytes
      text := text
      not_null := by decide
      named := by decide
      read := by decide
      decoded := by decide
      sourceNames := ["s".toList]
      listingNames := ["l".toList]
      loadNames := ["o".toList]
      located := by decide
      opens_listing := by decide
      opens_load := by decide
      source_ne_listing := by decide
      source_ne_load := by decide
      listing_ne_load := by decide }
  obtain ⟨houtcome, -, hlisting, hload, hlater⟩ := outputs_faithful s plan
  have hlistingText : attempt.run.output.listingText = "é:\n LOC 7\n".toList := by decide
  have hloadText : attempt.run.output.loadText = [] := by decide
  rw [← hlistingText, ← hloadText]
  exact ⟨houtcome, hlisting, hload,
    hlater attempt.store (.writeSymbols "l".toList) "l".toList ["l".toList] rfl (by decide)⟩

end Session

end TwoPass
