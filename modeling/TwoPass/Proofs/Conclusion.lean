import TwoPass.Proofs.Agreement
import TwoPass.Proofs.Exits

/-!
# How the command ends

If the four files of a run are different ones, the exit code says what became of the source. It is 0
exactly if all files could be handled and the second pass rejected no line, 1 exactly if all could be
handled and some line was rejected, and at least 2 if some file could not be handled. A rejected line
costs nothing but itself: the files hold the same as after success, that is the results of both passes
over all lines, and the listing shows every line that was accepted.

`Settings.Handled` speaks of the files before anything runs. With the files being different ones it gives
a `FilePlan`, under which listing and load file are written, and the symbol file leaves both alone
(`Command.produce_of_handled`). What remains is the report, which has a diagnostic exactly if a line was
rejected (`Assembly.errors_ne_nil_iff`).

What the two outputs show is `Command.Told`, for every console that is faithful: the line of success exactly
with exit code 0, and the report exactly if all files were handled and there is something in it. If a file
was not handled, either the report is empty or the trouble is the symbol file
(`Command.report_empty_of_not_handled`), and in both cases the message of the trouble is not the report.
-/

namespace TwoPass

/-! ## Rejected lines -/

/-- The second pass rejects a line. -/
def Assembly.Rejects (a : Assembly) : Prop :=
  ∃ i raw, a.lines[i]? = some raw ∧
    Generation.Rejected a.file (i + 1) (Text.trim raw) (a.second.reach i) (a.second.reach (i + 1))

/-- **A diagnostic is a rejected line**, if nothing was reported before. -/
theorem Assembly.errors_ne_nil_iff {a : Assembly} (h : a.report.errors = []) :
    a.second.result.report.errors ≠ [] ↔ a.Rejects := by
  have herrors : a.second.result.report.errors =
      (Line.before a.lines a.lines.length).filterMap fun p => a.second.diagnostic? p.2 p.1 := by
    rw [Generation.Task.report_result, Generation.Task.errors_reach (Nat.le_refl _)]
    exact congrArg (· ++ _) h
  constructor
  · intro hsome
    obtain ⟨d, hd⟩ := List.exists_mem_of_ne_nil _ hsome
    rw [herrors] at hd
    obtain ⟨⟨raw, i⟩, hmem, hd⟩ := List.mem_filterMap.mp hd
    have hraw : a.second.lines[i]? = some raw := (Line.mem_before.mp hmem).2
    refine ⟨i, raw, hraw, ?_⟩
    -- the line is not accepted, since it has added a diagnostic
    rcases Generation.Task.accepted_xor_rejected hraw with ⟨haccepted, -⟩ | ⟨hrejected, -⟩
    · have hgrown := haccepted.2
      rw [Generation.Task.reach_succ _ hraw, Generation.errors_apply] at hgrown
      rw [Generation.Task.diagnostic?] at hd
      simp [hd] at hgrown
    · exact hrejected
  · rintro ⟨i, raw, hraw, ⟨d, -, hgrown⟩, -⟩ hnone
    have hdiagnostic := Generation.Task.diagnostic?_eq_none (t := a.second) hnone hraw
    rw [Generation.Task.reach_succ (t := a.second) hraw, Generation.errors_apply] at hgrown
    rw [Generation.Task.diagnostic?] at hdiagnostic
    simp [hdiagnostic] at hgrown

theorem Report.isEmpty_iff {r : Report} : r.isEmpty = true ↔ r.errors = [] ∧ r.warnings = [] := by
  simp [isEmpty]

theorem Report.not_isEmpty_iff {r : Report} :
    ¬ r.isEmpty = true ↔ r.errors ≠ [] ∨ r.warnings ≠ [] := by
  rw [isEmpty_iff, not_and_or]

/-- The listing has all lines that were accepted, and the load file has the load lines of the listing. -/
structure Run.Complete (run : Run) (lines : List Text) : Prop where
  /-- the listing, line by line -/
  listing : ((Text.fileLines run.output.listingText).map fun line =>
    (Listing.Entry.ofText line).source) = run.report.acceptedLines lines
  /-- the load file, line by line -/
  load : ((Text.fileLines run.output.listingText).filterMap fun line =>
    (Listing.Entry.ofText line).load?) = Text.fileLines run.output.loadText

namespace LegibleSource

variable {encoding : Text} {store : Store} {path : Text} (source : LegibleSource encoding store path)

/-- The assembly of the lines of the source. -/
def program : Assembly := .ofLines (Text.fileLines source.text) (.named (Path.normalize path))

theorem assembled_run : source.run.Assembled :=
  ⟨⟨.named (Path.normalize path), Text.fileLines source.text, rfl⟩, .inr ⟨source.program.second, rfl⟩⟩

theorem fileLines_listingText :
    Text.fileLines source.run.output.listingText = source.program.second.result.output.listing := by
  refine Text.lines_endLines rfl rfl ?_
  intro text htext
  have hlisting := Generation.Task.listing_reach (t := source.program.second) (Nat.le_refl _)
  rw [← Generation.Task.output_result] at hlisting
  have hmem : text ∈ source.program.second.result.output.listing := htext
  rw [hlisting] at hmem
  obtain ⟨⟨raw, i⟩, hbefore, hline⟩ := List.mem_filterMap.mp hmem
  have hraw : raw ∈ Text.fileLines source.text := List.mem_of_getElem? (Line.mem_before.mp hbefore).2
  refine Generation.Task.forall_mem_listingLine? (Text.not_isBreak_of_mem_lines hraw) ?_ rfl hline
  intro value c hc
  exact Bool.eq_false_iff.mpr (mt Text.isLineBreak_of_isFileBreak
    (Bool.eq_false_iff.mp (Numeral.not_isLineBreak_of_mem_octal hc)))

/-- **Nothing that was accepted is lost**. -/
theorem complete_run : source.run.Complete (Text.fileLines source.text) where
  listing := by
    rw [fileLines_listingText]
    exact Generation.Task.map_source_listing (t := source.program.second) rfl
  load := by
    have hload : source.run.output.loadText = LoadFile.text source.run.output.words :=
      congrArg endLines source.assembled_run.load
    have hlines : Text.fileLines source.run.output.loadText = source.run.output.load := by
      rw [hload, Text.fileLines, LoadFile.lines_text rfl rfl (fun _ => Text.isLineBreak_of_isFileBreak)]
      exact source.assembled_run.load.symm
    rw [fileLines_listingText, hlines]
    exact Generation.Task.filterMap_load_listing (t := source.program.second)

end LegibleSource

/-- There is one way to read a source. -/
theorem LegibleSource.unique {encoding : Text} {store : Store} {path : Text}
    (source other : LegibleSource encoding store path) : source = other := by
  obtain ⟨charset, bytes, text, -, hnamed, hread, hdecoded⟩ := source
  obtain ⟨charset', bytes', text', -, hnamed', hread', hdecoded'⟩ := other
  obtain rfl := Option.some.inj (hnamed.symm.trans hnamed')
  obtain rfl := Except.ok.inj (hread.symm.trans hread')
  obtain rfl := congrArg Prod.fst (hdecoded.symm.trans hdecoded')
  rfl

/-! ## Four different files -/

/-- The file that a path names, there or not. -/
def Store.target? (s : Store) (path : Text) : Option (List Text) :=
  if path.contains null then none
  else
    match s.locate path with
    | .ok (.file names) | .ok (.vacant names) => some names
    | _ => none

theorem Store.leads_iff {s : Store} {path : Text} {names : List Text} :
    s.Leads path names ↔ s.target? path = some names := by
  constructor
  · intro h
    have hlocate : s.locate path = .ok (s.placeOf names) := h.2 s.files
    rw [target?, if_neg (by simpa using h.1), hlocate, placeOf]
    cases (s.file? names).isSome with
    | false => rfl
    | true => rfl
  · intro h
    rw [target?] at h
    split at h
    · cases h
    next hnull =>
    have hnull' : null ∉ path := by simpa using hnull
    cases hlocate : s.locate path with
    | error fault =>
      rw [hlocate] at h
      cases h
    | ok place =>
      rw [hlocate] at h
      cases place with
      | directory directory => cases h
      | file file =>
        obtain rfl := Option.some.inj h
        exact leads_of_locate hnull' hlocate
      | vacant file =>
        obtain rfl := Option.some.inj h
        exact leads_of_locate_vacant hnull' hlocate

/-- What a file holds is what its bytes decode to, if no carriage return is in it. -/
theorem Store.Leads.holds {s : Store} {path : Text} {names : List Text} (h : s.Leads path names)
    {charset : Charset} {bytes : Bytes} {text : Text} (hfile : s.file? names = some bytes)
    (hdecode : charset.decode bytes = (text, none)) (hreturn : '\r' ∉ text) :
    s.Holds charset path text :=
  ⟨⟨bytes, h.read hfile, hdecode⟩, Text.flatten_terminatedLines hreturn⟩

namespace Settings

variable {s : Settings} {store : Store}

/-- Source, listing, load file and symbol file are different files, as far as they are files. -/
def Apart (s : Settings) (store : Store) : Prop :=
  (Path.normalize s.source :: s.outputs).Pairwise fun path other =>
    ∀ names, store.Leads path names → ¬ store.Leads other names

instance (s : Settings) (store : Store) : Decidable (s.Apart store) :=
  decidable_of_iff ((Path.normalize s.source :: s.outputs).Pairwise fun path other =>
      store.target? path = none ∨ store.target? path ≠ store.target? other) (by
    refine List.Pairwise.iff ?_
    intro path other
    simp only [Store.leads_iff]
    cases store.target? path with
    | none => simp
    | some names => simp [eq_comm])

/-- A line of the source is rejected. -/
def Rejects (s : Settings) (store : Store) : Prop :=
  ∃ source : LegibleSource s.encoding store s.source, source.program.Rejects

theorem rejects_iff (source : LegibleSource s.encoding store s.source) :
    s.Rejects store ↔ source.run.report.hasErrors = true := by
  have herrors : source.run.report.hasErrors = true ↔ source.program.Rejects := by
    rw [← Assembly.errors_ne_nil_iff rfl, Report.hasErrors, Bool.not_eq_true', List.isEmpty_eq_false_iff]
    exact .rfl
  rw [herrors]
  constructor
  · rintro ⟨other, h⟩
    obtain rfl := source.unique other
    exact h
  · exact fun h => ⟨source, h⟩

/-- The assembly has produced what both passes produce from the lines of the source, and the files hold
it. -/
structure Delivered (s : Settings) {store : Store} (source : LegibleSource s.encoding store s.source)
    (after : Store) : Prop where
  /-- what is produced -/
  run : (s.assemble store).run = source.run
  /-- the listing -/
  listing : after.Holds source.charset s.listing source.run.output.listingText
  /-- the load file -/
  load : after.Holds source.charset s.load source.run.output.loadText
  /-- the symbol file, if one is wanted -/
  symbols : ∀ path ∈ s.symbols, after.Holds source.charset path (symbolFile source.run.symbols).flatten

theorem listing_mem_outputs (s : Settings) : s.listing ∈ s.outputs := List.mem_cons_self

theorem load_mem_outputs (s : Settings) : s.load ∈ s.outputs :=
  List.mem_cons_of_mem s.listing List.mem_cons_self

theorem mem_outputs_of_symbols {path : Text} (h : s.symbols = some path) : path ∈ s.outputs := by
  simp [outputs, h]

theorem Handled.exists_plan (h : s.Handled store) (hapart : s.Apart store)
    (source : LegibleSource s.encoding store s.source) :
    ∃ plan : FilePlan s.encoding store s.source s.listing s.load, plan.toLegibleSource = source ∧
      store.Leads s.listing plan.listingNames ∧ store.Leads s.load plan.loadNames := by
  obtain ⟨hsource, houtputs⟩ := List.pairwise_cons.mp hapart
  obtain ⟨hlisting, -⟩ := List.pairwise_cons.mp houtputs
  have hnull := Store.null_not_mem_of_openForReading source.read
  obtain ⟨sourceNames, hlocate, -⟩ := (Store.openForReading_eq_ok_iff hnull).mp source.read
  obtain ⟨listingNames, hlistingOpens⟩ :=
    Store.canOpen_iff.mp (h.outputs s.listing s.listing_mem_outputs)
  obtain ⟨loadNames, hloadOpens⟩ := Store.canOpen_iff.mp (h.outputs s.load s.load_mem_outputs)
  have hleads := Store.leads_of_locate hnull hlocate
  refine ⟨{ source with
    sourceNames := sourceNames
    listingNames := listingNames
    loadNames := loadNames
    located := hlocate
    opens_listing := by rw [hlistingOpens.open_eq]; rfl
    opens_load := by rw [hloadOpens.open_eq]; rfl
    source_ne_listing := ?_
    source_ne_load := ?_
    listing_ne_load := ?_ }, rfl, hlistingOpens.leads, hloadOpens.leads⟩
  · rintro rfl
    exact hsource s.listing s.listing_mem_outputs sourceNames hleads hlistingOpens.leads
  · rintro rfl
    exact hsource s.load s.load_mem_outputs sourceNames hleads hloadOpens.leads
  · rintro rfl
    exact hlisting s.load List.mem_cons_self listingNames hlistingOpens.leads hloadOpens.leads

end Settings

namespace Command

variable {console : Console} {verbose : Bool} {s : Settings} {store : Store}

/-! ## Production -/

/-- **All files handled**: nothing stops the production, and all files hold their results at the end. -/
theorem produce_of_handled (h : s.Handled store) (hapart : s.Apart store)
    (source : LegibleSource s.encoding store s.source) (console : Console) (verbose : Bool) :
    ∃ after, s.Delivered source after ∧
      produce console verbose s store =
        ⟨⟨s.encoding, after, source.run⟩,
          detail console verbose
            (announcement s :: s.symbols.toList.map ("Wrote symbols to ".toList ++ ·)),
          trail verbose ((s.assemble store).events ++ s.symbols.toList.map .wroteSymbols), none⟩ := by
  obtain ⟨plan, rfl, hlistingLeads, hloadLeads⟩ := h.exists_plan hapart source
  obtain ⟨listingBytes, loadBytes, hlisting, hload, hrun, houtcome, hstore⟩ := plan.assembleFile_outputs
  rw [← Settings.assemble] at hrun houtcome hstore
  have hleads : ∀ {output names}, store.Leads output names →
      (s.assemble store).store.Leads output names := by
    intro output names houtput
    rw [hstore]
    exact (((houtput.write _ _).write _ _).write _ _).write _ _
  have hlistingFile : (s.assemble store).store.file? plan.listingNames = some listingBytes := by
    rw [hstore, Store.file?_write_self]
  have hloadFile : (s.assemble store).store.file? plan.loadNames = some loadBytes := by
    rw [hstore, Store.file?_write_of_ne _ _ plan.listing_ne_load.symm, Store.file?_write_self]
  rw [produce_of_ok houtcome, hrun]
  cases hsymbols : s.symbols with
  | none =>
    refine ⟨(s.assemble store).store, ⟨hrun, ?_, ?_, ?_⟩, ?_⟩
    · exact (hleads hlistingLeads).holds hlistingFile hlisting plan.return_not_mem_listingText
    · exact (hleads hloadLeads).holds hloadFile hload plan.return_not_mem_loadText
    · simp [hsymbols]
    · simp [produceSymbols]
  | some path =>
    obtain ⟨names, hopens⟩ :=
      Store.canOpen_iff.mp (h.outputs path (Settings.mem_outputs_of_symbols hsymbols))
    have hnames := hopens.leads
    have hopens' : (s.assemble store).store.Opens path names := by
      rw [hstore]
      exact (((hopens.write _ _).write _ _).write _ _).write _ _
    obtain ⟨bytes, hdecode, hproduce⟩ := produceSymbols_of_opens
      (p := ⟨⟨s.encoding, (s.assemble store).store, plan.run⟩, _, _, none⟩)
      plan.not_null plan.named hopens' plan.encodable.names console verbose
    -- the symbol file is another file than the listing and the load file
    have hother : plan.listingNames ≠ names ∧ plan.loadNames ≠ names := by
      have houtputs := (List.pairwise_cons.mp hapart).2
      obtain ⟨hlistingApart, hrest⟩ := List.pairwise_cons.mp houtputs
      obtain ⟨hloadApart, -⟩ := List.pairwise_cons.mp hrest
      constructor
      · rintro rfl
        exact hlistingApart path (by simp [hsymbols]) _ hlistingLeads hnames
      · rintro rfl
        exact hloadApart path (by simp [hsymbols]) _ hloadLeads hnames
    refine ⟨((s.assemble store).store.write names []).write names bytes, ⟨hrun, ?_, ?_, ?_⟩, ?_⟩
    · refine (((hleads hlistingLeads).write _ _).write _ _).holds ?_ hlisting
        plan.return_not_mem_listingText
      rw [Store.file?_write_of_ne _ _ hother.1, Store.file?_write_of_ne _ _ hother.1, hlistingFile]
    · refine (((hleads hloadLeads).write _ _).write _ _).holds ?_ hload plan.return_not_mem_loadText
      rw [Store.file?_write_of_ne _ _ hother.2, Store.file?_write_of_ne _ _ hother.2, hloadFile]
    · rintro path' hpath'
      obtain rfl := Option.some.inj (hsymbols.symm.trans hpath')
      have hblank : ∀ name ∈ plan.run.symbols.names, ∀ c ∈ name, Text.isBlank c = false :=
        fun _ => plan.assembled_run.not_isBlank_of_mem_name
      exact (((hleads hnames).write _ _).write _ _).holds (Store.file?_write_self ..) hdecode
        (SymbolFile.return_not_mem_flatten hblank)
    · rw [hproduce, detail_append, trail_append]
      rfl

/-- A symbol file that cannot be written adds nothing to what was said before. -/
theorem produceSymbols_of_failure {p : Production} {symbols : Option Text}
    {failure : Failure} (h : (produceSymbols console verbose p symbols).failure = some failure) :
    (produceSymbols console verbose p symbols).stdout = p.stdout ∧
      (produceSymbols console verbose p symbols).stderr = p.stderr := by
  cases symbols with
  | none => exact ⟨rfl, rfl⟩
  | some path =>
    rcases hwrite : writeTexts p.session.encoding p.session.store path
      (symbolFile p.session.run.symbols) with ⟨after, refusal | ⟨⟩⟩
    · simp [produceSymbols, Session.perform, Session.attempt, Session.write, hwrite, trail_nil]
    · simp [produceSymbols, Session.perform, Session.attempt, Session.write, hwrite] at h

/-- Whatever stops the production, the assembly was announced and its events are told. -/
theorem produce_of_failure {failure : Failure}
    (h : (produce console verbose s store).failure = some failure) :
    (produce console verbose s store).stdout = detail console verbose [announcement s] ∧
      (produce console verbose s store).stderr = trail verbose (s.assemble store).events := by
  cases houtcome : (s.assemble store).outcome with
  | error failure =>
    rw [produce_of_error houtcome]
    exact ⟨rfl, rfl⟩
  | ok answer =>
    rw [produce_of_ok houtcome] at h ⊢
    exact produceSymbols_of_failure h

/-- **If a file was not handled**, something has stopped the production. Either nothing was reported by
then, or it was the symbol file that could not be opened. -/
theorem report_empty_of_not_handled (hsupported : s.Supported) (h : ¬ s.Handled store)
    (console : Console) (verbose : Bool) :
    ∃ failure, (produce console verbose s store).failure = some failure ∧
      ((s.assemble store).run.report = .empty ∨ ∃ path fault, failure = .ofOpen path fault) := by
  by_cases hlegible : s.Legible store
  · obtain ⟨source⟩ := id hlegible
    have hproduce := failure_produce source console verbose
    cases hfirst : store.firstRefused? s.outputs with
    | none => exact absurd ⟨hlegible, Store.firstRefused?_eq_none_iff.mp hfirst⟩ h
    | some refused =>
      rw [hfirst] at hproduce
      obtain ⟨fault, failure, -, hfailure, hkind⟩ := hproduce
      refine ⟨failure, hfailure, hkind.imp And.right ?_⟩
      rintro rfl
      exact ⟨refused.2, fault, rfl⟩
  · obtain ⟨hempty, ⟨-, hfailure⟩ | ⟨-, file, reason, hfailure⟩⟩ :=
      failure_produce_of_not_legible hsupported hlegible console verbose
    · exact ⟨_, hfailure, .inl hempty⟩
    · exact ⟨_, hfailure, .inl hempty⟩

/-! ## Outcomes -/

/-- The exit code if nothing has stopped the production. -/
def exitOf (report : Report) : ExitCode := if report.hasErrors then .buildError else .success

theorem number_exitOf_le (report : Report) : (exitOf report).number ≤ 1 := by
  rw [exitOf]
  split
  · exact Nat.le_refl 1
  · exact Nat.zero_le 1

theorem runWith_of_done {after : Store} {run : Run} {stdout stderr : Text}
    (h : produce console verbose s store = ⟨⟨s.encoding, after, run⟩, stdout, stderr, none⟩) :
    runWith console verbose s store =
      ⟨exitOf run.report,
        stdout ++ (if run.report.hasErrors then []
          else detail console verbose (counts s run) ++ console.echo completed),
        stderr ++ (if run.report.isEmpty then [] else console.echo run.report.text), false, after⟩ := by
  by_cases herrors : run.report.hasErrors = true
  · simp only [runWith, h, exitOf, if_pos herrors, List.append_nil]
  · simp only [runWith, h, exitOf, if_neg herrors, List.append_assoc]
    rfl

/-- The events of a run. -/
def recorded (s : Settings) (store : Store) (exit : ExitCode) : List Event :=
  (s.assemble store).events ++ if exit.number ≤ 1 then s.symbols.toList.map .wroteSymbols else []

/-- **What is told on the two outputs**. On both, what comes before the message in question are details,
which are there only if they are wanted. -/
structure Told (console : Console) (verbose : Bool) (s : Settings) (store : Store)
    (outcome : Outcome) : Prop where
  /-- the standard output ends with the line of success at exit code 0, and only then -/
  stdout : outcome.stdout =
    detail console verbose (progress s (s.assemble store).run outcome.exit) ++
      if outcome.exit.number = 0 then completed ++ ['\n'] else []
  /-- no other line reads like it, if no path that is shown breaks its line -/
  success : (verbose = true → ∀ path ∈ s.source :: s.outputs, path.isPresentable = true) →
    (completed ∈ Text.fileLines outcome.stdout ↔ outcome.exit.number = 0)
  /-- if all files are handled and there is a diagnostic or a warning, the error output ends with the
  report -/
  report : s.Handled store →
    (s.assemble store).run.report.errors ≠ [] ∨ (s.assemble store).run.report.warnings ≠ [] →
    outcome.stderr = trail verbose (recorded s store outcome.exit) ++
      console.echo (s.assemble store).run.report.text
  /-- if there is neither, it has the events only -/
  silent : s.Handled store → (s.assemble store).run.report.errors = [] →
    (s.assemble store).run.report.warnings = [] →
    outcome.stderr = trail verbose (recorded s store outcome.exit)
  /-- if some file cannot be handled, it ends with that trouble -/
  trouble : ¬ s.Handled store → ∃ trouble : Trouble, outcome.exit = trouble.exitCode ∧
    outcome.stderr = trail verbose (recorded s store outcome.exit) ++
      console.echo (trouble.report "Assembly".toList)
  /-- so a report without escapes is on the error output, and ends its line, exactly if all files are
  handled and there is a diagnostic or a warning -/
  reported : Text.controlStart ∉ (s.assemble store).run.report.text →
    (outcome.stderr = trail verbose (recorded s store outcome.exit) ++
        ((s.assemble store).run.report.text ++ ['\n']) ↔
      s.Handled store ∧
        ((s.assemble store).run.report.errors ≠ [] ∨ (s.assemble store).run.report.warnings ≠ []))

/-- The line of success follows from the text of the standard output. -/
theorem success_of_stdout {outcome : Outcome} (hfaithful : console.Faithful)
    (h : outcome.stdout =
      detail console verbose (progress s (s.assemble store).run outcome.exit) ++
        if outcome.exit.number = 0 then completed ++ ['\n'] else [])
    (hpaths : verbose = true → ∀ path ∈ s.source :: s.outputs, path.isPresentable = true) :
    completed ∈ Text.fileLines outcome.stdout ↔ outcome.exit.number = 0 := by
  rw [h]
  exact completed_mem_fileLines_iff hpaths hfaithful _ _

/-- What is said before and after the report is decided makes up the progress. -/
theorem detail_progress (console : Console) (verbose : Bool) (s : Settings) (run : Run) :
    detail console verbose
        (announcement s :: s.symbols.toList.map ("Wrote symbols to ".toList ++ ·)) ++
      (if run.report.hasErrors then []
        else detail console verbose (counts s run) ++ (completed ++ ['\n'])) =
      detail console verbose (progress s run (exitOf run.report)) ++
        if (exitOf run.report).number = 0 then completed ++ ['\n'] else [] := by
  by_cases herrors : run.report.hasErrors = true
  · simp only [exitOf, if_pos herrors, List.append_nil]
    simp [progress, ExitCode.number]
  · simp only [exitOf, if_neg herrors]
    rw [← List.append_assoc, detail_append]
    simp [progress, ExitCode.number]

/-- **All files handled**: the files hold the results, and the report decides between success and a
failed build. -/
theorem runWith_of_handled (hfaithful : console.Faithful) (h : s.Handled store)
    (hapart : s.Apart store) (source : LegibleSource s.encoding store s.source) (verbose : Bool) :
    let outcome := runWith console verbose s store
    s.Delivered source outcome.store ∧ Told console verbose s store outcome ∧
      outcome.exit = exitOf source.run.report := by
  obtain ⟨after, hdelivered, hproduce⟩ := produce_of_handled h hapart source console verbose
  have hcompleted : console.echo completed = completed ++ ['\n'] := hfaithful.plain _ (by decide)
  have hrecorded : recorded s store (exitOf source.run.report) =
      (s.assemble store).events ++ s.symbols.toList.map .wroteSymbols := by
    rw [recorded, if_pos (number_exitOf_le _)]
  have hstdout := detail_progress console verbose s source.run
  rw [runWith_of_done hproduce, hcompleted, ← hrecorded]
  rw [← hdelivered.run] at hstdout ⊢
  refine ⟨hdelivered, ⟨hstdout, success_of_stdout hfaithful hstdout, ?_, ?_,
    fun hnot => absurd h hnot, ?_⟩, rfl⟩
  · intro _ hreport
    simp only [if_neg (Report.not_isEmpty_iff.mpr hreport)]
  · intro _ herrors hwarnings
    simp only [if_pos (Report.isEmpty_iff.mpr ⟨herrors, hwarnings⟩), List.append_nil]
  · intro hplain
    simp only [← Report.not_isEmpty_iff]
    by_cases hempty : (s.assemble store).run.report.isEmpty = true
    · rw [if_pos hempty]
      refine iff_of_false ?_ fun hreported => hreported.2 hempty
      simp
    · rw [if_neg hempty, hfaithful.plain _ hplain]
      exact iff_of_true rfl ⟨h, hempty⟩

/-- **Some file not handled**: the trouble is told, and no report. -/
theorem told_of_not_handled (hfaithful : console.Faithful) (hsupported : s.Supported)
    (h : ¬ s.Handled store) (verbose : Bool) :
    2 ≤ (runWith console verbose s store).exit.number ∧
      Told console verbose s store (runWith console verbose s store) := by
  have hnumber : 2 ≤ (runWith console verbose s store).exit.number := by
    obtain ⟨hhandled, -⟩ | ⟨-, -, hexit⟩ | ⟨-, -, hexit⟩ :=
      exit_runWith_cases hsupported console verbose store
    · exact absurd hhandled h
    · rw [hexit]
      decide
    · rw [hexit]
      decide
  obtain ⟨failure, hfailure, hkind⟩ := report_empty_of_not_handled hsupported h console verbose
  obtain ⟨hstdout, hstderr⟩ := produce_of_failure hfailure
  rw [runWith_of_failure hfailure] at hnumber ⊢
  have hlarge : ¬ (Trouble.ofFailure failure).exitCode.number ≤ 1 := Nat.not_le.mpr hnumber
  have hstdout' : (produce console verbose s store).stdout =
      detail console verbose
        (progress s (s.assemble store).run (Trouble.ofFailure failure).exitCode) ++
        if (Trouble.ofFailure failure).exitCode.number = 0 then completed ++ ['\n'] else [] := by
    have hnonzero : (Trouble.ofFailure failure).exitCode.number ≠ 0 := by omega
    have hfailed : (Trouble.ofFailure failure).exitCode ≠ .success :=
      fun hsuccess => hnonzero (congrArg ExitCode.number hsuccess)
    simp only [progress, if_neg hlarge, if_neg hfailed, if_neg hnonzero, List.append_nil, hstdout]
  have hrecorded : recorded s store (Trouble.ofFailure failure).exitCode =
      (s.assemble store).events := by
    rw [recorded, if_neg hlarge, List.append_nil]
  refine ⟨hnumber, ⟨hstdout', success_of_stdout hfaithful hstdout', fun hhandled => absurd hhandled h,
    fun hhandled => absurd hhandled h, fun _ => ⟨Trouble.ofFailure failure, rfl, ?_⟩, fun _ => ?_⟩⟩
  · simp only [hstderr, hrecorded]
  · refine iff_of_false ?_ fun hreported => h hreported.1
    simp only [hstderr, hrecorded]
    intro heq
    have hsame := List.append_cancel_left heq
    obtain hempty | ⟨path, fault, rfl⟩ := hkind
    · rw [hempty] at hsame
      exact echo_report_ne_empty hfaithful _ hsame
    · exact echo_report_ofOpen_ne hfaithful path fault _ hsame

end Command

end TwoPass
