import TwoPass.Proofs.Display
import TwoPass.Proofs.Refusals
import TwoPass.Proofs.SymbolFile

/-!
# Which file problems are internal errors

The command opens four files: the source, the listing, the load file and the symbol file. A file that
cannot be opened should be a mistake in the arguments, whatever the reason is. For the source that is so,
since every refusal to read it becomes one kind of trouble. A refusal to open an output is passed on, and
then its reason counts: the command knows those for something that is missing or not permitted and for a
directory as mistakes in the arguments, and takes every other one, that is those of blocked paths, for an
internal error (`Command.exitCode_ofOpen`). An output that is spelled like the source is no exception: its
path leads to a file, so it is not blocked (`Command.exitCode_ofUnopened`).

A source that can be read is stopped by the first output that cannot be opened and by nothing else
(`Command.failure_produce`). So the exit code is settled by the files (`Command.exit_runWith_cases`): it
is at most 1 if all can be handled, and otherwise it depends on whether the first that cannot is blocked.
-/

namespace TwoPass

/-! ## What the settings ask for -/

namespace Settings

/-- The encoding is that of a character set. -/
def Supported (s : Settings) : Prop :=
  Store.null ∉ s.encoding ∧ ∃ charset, Charset.ofName? s.encoding = some charset

/-- The outputs, in the order in which they are opened. -/
def outputs (s : Settings) : List Text := s.listing :: s.load :: s.symbols.toList

/-- The source can be read. -/
def Legible (s : Settings) (store : Store) : Prop :=
  Nonempty (LegibleSource s.encoding store s.source)

/-- All files can be handled. -/
structure Handled (s : Settings) (store : Store) : Prop where
  /-- the source can be read -/
  source : s.Legible store
  /-- the outputs can be opened -/
  outputs : ∀ path ∈ s.outputs, store.CanOpen path

/-- The first file that cannot be handled is one whose path is blocked. For the source that is so only if
its path cannot be a path at all. -/
def Blocked (s : Settings) (store : Store) : Prop :=
  Store.null ∈ Path.normalize s.source ∨
    s.Legible store ∧
      ∃ after path, store.firstRefused? s.outputs = some (after, path) ∧ after.Blocked path

/-- The assembly that the command starts. -/
def assemble (s : Settings) (store : Store) : Attempt Text :=
  assembleFile s.encoding store s.source (some s.listing) (some s.load)

end Settings

namespace Command

variable {console : Console} {verbose : Bool} {s : Settings} {store : Store}

/-! ## Production -/

theorem produce_of_error {failure : Failure} (h : (s.assemble store).outcome = .error failure) :
    produce console verbose s store =
      ⟨⟨s.encoding, (s.assemble store).store, (s.assemble store).run⟩,
        detail console verbose [announcement s],
        trail verbose (s.assemble store).events, some failure⟩ := by
  rw [Settings.assemble] at h
  simp only [produce, Session.perform, Session.attempt, Session.fresh, h, Except.map]
  rfl

theorem produce_of_ok {answer : Text} (h : (s.assemble store).outcome = .ok answer) :
    produce console verbose s store =
      produceSymbols console verbose
        ⟨⟨s.encoding, (s.assemble store).store, (s.assemble store).run⟩,
          detail console verbose [announcement s],
          trail verbose (s.assemble store).events, none⟩ s.symbols := by
  rw [Settings.assemble] at h
  simp only [produce, Session.perform, Session.attempt, Session.fresh, h, Except.map]
  rfl

/-- A symbol file that cannot be opened. -/
theorem produceSymbols_of_open_error {p : Production} {path : Text} {fault : OpenFault}
    (hnull : Store.null ∉ p.session.encoding)
    (h : p.session.store.openForWriting path = .error fault) :
    produceSymbols console verbose p (some path) = { p with failure := some (.ofOpen path fault) } := by
  have hwrite : writeTexts p.session.encoding p.session.store path (symbolFile p.session.run.symbols) =
      (p.session.store, .error (.ofOpen path fault)) := by
    simp [writeTexts, hnull, h]
  simp only [produceSymbols, Session.perform, Session.attempt, Session.write, hwrite, trail_nil,
    List.append_nil]
  rfl

/-- A symbol file that can be opened. -/
theorem produceSymbols_of_opens {p : Production} {path : Text} {charset : Charset} {names : List Text}
    (hnull : Store.null ∉ p.session.encoding)
    (hnamed : Charset.ofName? p.session.encoding = some charset)
    (hopens : p.session.store.Opens path names)
    (hhas : ∀ name ∈ p.session.run.symbols.names, ∀ c ∈ name, charset.has c = true)
    (console : Console) (verbose : Bool) :
    ∃ bytes, charset.decode bytes = ((symbolFile p.session.run.symbols).flatten, none) ∧
      produceSymbols console verbose p (some path) =
        ⟨{ p.session with store := (p.session.store.write names []).write names bytes },
          p.stdout ++ detail console verbose ["Wrote symbols to ".toList ++ path],
          p.stderr ++ trail verbose [.wroteSymbols path], none⟩ := by
  obtain ⟨bytes, hwrite, hdecode⟩ :=
    writeTexts_of_canOpen hnull hnamed hopens (Charset.has_of_mem_symbolFile hhas)
  refine ⟨bytes, hdecode, ?_⟩
  simp only [produceSymbols, Session.perform, Session.attempt, Session.write, hwrite]
  rfl

/-- **What stops the production from a source that can be read**: the first output that cannot be opened,
and nothing if there is none. If that is the listing or the load file, nothing is reported by then. -/
theorem failure_produce (source : LegibleSource s.encoding store s.source) (console : Console)
    (verbose : Bool) :
    match store.firstRefused? s.outputs with
    | none => (produce console verbose s store).failure = none
    | some (after, path) => ∃ fault failure, after.openForWriting path = .error fault ∧
        (produce console verbose s store).failure = some failure ∧
        (failure = .ofUnopened (Path.normalize s.source) path fault ∧
          (s.assemble store).run.report = .empty ∨ failure = .ofOpen path fault) := by
  have hattempt := source.assembleFile_of_openOutputs (some s.listing) (some s.load)
  rw [Settings.outputs, Store.firstRefused?]
  cases hlisting : store.openForWriting s.listing with
  | error fault =>
    simp only [openOutputs, openOutput, hlisting] at hattempt
    refine ⟨fault, _, hlisting, ?_, .inl ⟨rfl, hattempt.2.2⟩⟩
    rw [produce_of_error hattempt.1]
  | ok opened =>
    obtain ⟨listingNames, hopens⟩ := Store.canOpen_iff.mp ⟨opened, hlisting⟩
    obtain rfl := Except.ok.inj (hlisting.symm.trans hopens.open_eq)
    simp only [Store.firstRefused?]
    cases hload : (store.write listingNames []).openForWriting s.load with
    | error fault =>
      simp only [openOutputs, openOutput, hlisting, hload] at hattempt
      refine ⟨fault, _, hload, ?_, .inl ⟨rfl, hattempt.2.2⟩⟩
      rw [produce_of_error hattempt.1]
    | ok opened =>
      obtain ⟨loadNames, hopens'⟩ := Store.canOpen_iff.mp ⟨opened, hload⟩
      obtain rfl := Except.ok.inj (hload.symm.trans hopens'.open_eq)
      obtain ⟨hdone, hsymbols, hplaces⟩ := source.assembleFile_of_opens hopens hopens'
      rw [produce_of_ok hdone]
      cases hpath : s.symbols with
      | none => rfl
      | some path =>
        simp only [Option.toList_some, Store.firstRefused?]
        cases hopen : ((store.write listingNames []).write loadNames []).openForWriting path with
        | error fault =>
          refine ⟨fault, _, hopen, ?_, .inr rfl⟩
          rw [produceSymbols_of_open_error source.not_null (hplaces.open_error_iff.mpr hopen)]
        | ok opened =>
          -- the symbol file can be opened in the store that the assembly has left
          have hcan : (s.assemble store).store.CanOpen path := by
            cases hafter : (s.assemble store).store.openForWriting path with
            | ok after => exact ⟨after, hafter⟩
            | error fault => cases hopen.symm.trans (hplaces.open_error_iff.mp hafter)
          obtain ⟨names, hnames⟩ := Store.canOpen_iff.mp hcan
          have hhas : ∀ name ∈ (s.assemble store).run.symbols.names, ∀ c ∈ name,
              source.charset.has c = true := by
            rw [Settings.assemble, hsymbols]
            exact source.encodable.names
          obtain ⟨bytes, -, hproduce⟩ := produceSymbols_of_opens (p := ⟨⟨s.encoding, _, _⟩, _, _, _⟩)
            source.not_null source.named hnames hhas console verbose
          rw [hproduce]

/-- A source that cannot be read stops the production, under its own name if it has a path. Nothing is
reported by then. -/
theorem failure_produce_of_not_legible (hsupported : s.Supported) (h : ¬ s.Legible store)
    (console : Console) (verbose : Bool) :
    (s.assemble store).run.report = .empty ∧
      (Store.null ∈ Path.normalize s.source ∧
          (produce console verbose s store).failure = some .nullInPath ∨
        Store.null ∉ Path.normalize s.source ∧ ∃ file reason,
          (produce console verbose s store).failure = some (.unreadableSource file reason)) := by
  obtain ⟨hnull, charset, hnamed⟩ := hsupported
  by_cases hpath : Store.null ∈ Path.normalize s.source
  · have hread : store.openForReading (Path.normalize s.source) = .error .nullInPath := by
      simp [Store.openForReading, hpath]
    have hopen : openSource s.encoding store (Path.normalize s.source) = .error .nullInPath := by
      simp [openSource, hnull, hread, Failure.ofUnopened]
    have hattempt : s.assemble store =
        ⟨.empty, store, [.assemblingFile (Path.normalize s.source)], .error .nullInPath⟩ := by
      simp only [Settings.assemble, assembleFile, hopen]
    refine ⟨by rw [hattempt]; rfl, .inl ⟨hpath, ?_⟩⟩
    rw [produce_of_error (congrArg Attempt.outcome hattempt)]
  · have hillegible : ¬ store.Legible charset (Path.normalize s.source) := by
      intro hlegible
      obtain ⟨bytes, text, hread, hdecode⟩ := (Store.legible_iff hpath).mp hlegible
      exact h ⟨⟨charset, bytes, text, hnull, hnamed, hread, hdecode⟩⟩
    obtain ⟨reason, lines, houtcome, -, -, hrun⟩ :=
      assembleFile_of_not_legible hnull hnamed hpath hillegible (some s.listing) (some s.load)
    refine ⟨by rw [Settings.assemble, hrun]; rfl, .inr ⟨hpath, Path.normalize s.source, reason, ?_⟩⟩
    rw [produce_of_error houtcome]

/-! ## Exit codes -/

/-- **Which refusals are internal errors**: exactly those of the blocked paths. -/
theorem exitCode_ofOpen {s : Store} {path : Text} {fault : OpenFault}
    (h : s.openForWriting path = .error fault) :
    let exit := (Trouble.ofFailure (.ofOpen path fault)).exitCode
    s.Blocked path ∧ exit = .internalError ∨ ¬ s.Blocked path ∧ exit = .invalidArguments := by
  by_cases hblocked : s.Blocked path
  · obtain ⟨fault', hfault, hreason⟩ := hblocked.open_error
    obtain rfl := Except.error.inj (h.symm.trans hfault)
    refine .inl ⟨hblocked, ?_⟩
    obtain rfl | rfl | rfl := hreason
    · rfl
    · rfl
    · rfl
  · obtain h | rfl | rfl | rfl := Store.blocked_of_open_error h
    · exact absurd h hblocked
    · exact .inr ⟨hblocked, rfl⟩
    · exact .inr ⟨hblocked, rfl⟩
    · exact .inr ⟨hblocked, rfl⟩

/-- It makes no difference to the exit code that an output is blamed on a source, if the path of that
source leads to a file. -/
theorem exitCode_ofUnopened {s : Store} {file path : Text} {names : List Text} {fault : OpenFault}
    (hleads : s.Leads file names) (h : s.openForWriting path = .error fault) :
    (Trouble.ofFailure (.ofUnopened file path fault)).exitCode =
      (Trouble.ofFailure (.ofOpen path fault)).exitCode := by
  by_cases hpath : path = file
  · subst hpath
    obtain rfl := hleads.open_error h
    rw [Failure.ofUnopened, if_pos rfl]
    rfl
  · cases fault with
    | nullInPath => rfl
    | system fault => rw [Failure.ofUnopened, if_neg hpath, Failure.ofOpen]

theorem runWith_of_failure {failure : Failure}
    (h : (produce console verbose s store).failure = some failure) :
    runWith console verbose s store =
      ⟨(Trouble.ofFailure failure).exitCode, (produce console verbose s store).stdout,
        (produce console verbose s store).stderr ++
          console.echo ((Trouble.ofFailure failure).report "Assembly".toList),
        (Trouble.ofFailure failure).isTraced verbose, (produce console verbose s store).session.store⟩ := by
  simp only [runWith, h]

theorem exit_runWith_of_done (h : (produce console verbose s store).failure = none) :
    (runWith console verbose s store).exit.number ≤ 1 := by
  simp only [runWith, h]
  split
  · exact Nat.le_refl 1
  · exact Nat.zero_le 1

/-- **What the files come to**. Either all can be handled, or the first that cannot is blocked, or it
cannot be handled for a reason that counts as a mistake in the arguments. -/
theorem exit_runWith_cases (hsupported : s.Supported) (console : Console) (verbose : Bool)
    (store : Store) :
    let exit := (runWith console verbose s store).exit
    s.Handled store ∧ ¬ s.Blocked store ∧ exit.number ≤ 1 ∨
      ¬ s.Handled store ∧ s.Blocked store ∧ exit = .internalError ∨
      ¬ s.Handled store ∧ ¬ s.Blocked store ∧ exit = .invalidArguments := by
  by_cases hlegible : s.Legible store
  · obtain ⟨source⟩ := id hlegible
    have hnull := Store.null_not_mem_of_openForReading source.read
    have hproduce := failure_produce source console verbose
    cases hfirst : store.firstRefused? s.outputs with
    | none =>
      rw [hfirst] at hproduce
      refine .inl ⟨⟨hlegible, Store.firstRefused?_eq_none_iff.mp hfirst⟩, ?_,
        exit_runWith_of_done hproduce⟩
      rintro (hmem | ⟨-, after, path, hsome, -⟩)
      · exact hnull hmem
      · cases hfirst.symm.trans hsome
    | some refused =>
      obtain ⟨after, path⟩ := refused
      rw [hfirst] at hproduce
      obtain ⟨fault, failure, hopen, hfailure, hkind⟩ := hproduce
      have hunhandled : ¬ s.Handled store := by
        intro h
        cases (Store.firstRefused?_eq_none_iff.mpr h.outputs).symm.trans hfirst
      have hcode : (Trouble.ofFailure failure).exitCode =
          (Trouble.ofFailure (.ofOpen path fault)).exitCode := by
        obtain ⟨rfl, -⟩ | rfl := hkind
        · obtain ⟨names, hleads⟩ := source.leads
          exact exitCode_ofUnopened (hleads.firstRefused? hfirst) hopen
        · rfl
      rw [runWith_of_failure hfailure, hcode]
      refine .inr ((exitCode_ofOpen hopen).imp ?_ ?_)
      · rintro ⟨hblocked, hexit⟩
        exact ⟨hunhandled, .inr ⟨hlegible, after, path, hfirst, hblocked⟩, hexit⟩
      · rintro ⟨hfree, hexit⟩
        refine ⟨hunhandled, ?_, hexit⟩
        rintro (hmem | ⟨-, after', path', hsome, hblocked⟩)
        · exact hnull hmem
        · obtain ⟨rfl, rfl⟩ := Prod.mk.inj (Option.some.inj (hfirst.symm.trans hsome))
          exact hfree hblocked
  · have hunhandled : ¬ s.Handled store := fun h => hlegible h.source
    obtain ⟨-, ⟨hnull, hfailure⟩ | ⟨hnull, file, reason, hfailure⟩⟩ :=
      failure_produce_of_not_legible hsupported hlegible console verbose
    · rw [runWith_of_failure hfailure]
      exact .inr (.inl ⟨hunhandled, .inl hnull, rfl⟩)
    · rw [runWith_of_failure hfailure]
      refine .inr (.inr ⟨hunhandled, ?_, rfl⟩)
      rintro (hmem | ⟨h, -⟩)
      · exact hnull hmem
      · exact hlegible h

/-! ## Arguments -/

/-- The arguments ask for a run of the assembler, with paths that can be paths. -/
structure Accepts (console : Console) (arguments : List Text) (a : Arguments) : Prop where
  /-- they can be taken apart -/
  parsed : console.parse arguments = .ok a
  /-- neither help nor the version is wanted -/
  quiet : a.notice? = none
  /-- there is no argument too many -/
  single : superfluous? a = none
  /-- no path has a null character in it -/
  plain : ∀ named ∈ checkedPaths a, Store.null ∉ named.2

/-- One of the arguments is a directory, or a file that may not be read. -/
def NamesUnfit (a : Arguments) (store : Store) : Prop :=
  ∃ named ∈ checkedPaths a, store.leadsToDirectory named.2 = true ∨ store.isUnreadable named.2 = true

instance (a : Arguments) (store : Store) : Decidable (NamesUnfit a store) :=
  inferInstanceAs (Decidable (∃ named ∈ checkedPaths a,
    store.leadsToDirectory named.2 = true ∨ store.isUnreadable named.2 = true))

theorem checkPaths_cases {paths : List (Text × Text)} (h : ∀ named ∈ paths, Store.null ∉ named.2)
    (store : Store) :
    (∃ named ∈ paths, (store.leadsToDirectory named.2 = true ∨ store.isUnreadable named.2 = true) ∧
      ∃ m, checkPaths store paths = .ok (some m)) ∨
    (∀ named ∈ paths, ¬ (store.leadsToDirectory named.2 = true ∨ store.isUnreadable named.2 = true)) ∧
      checkPaths store paths = .ok none := by
  induction paths with
  | nil => exact .inr ⟨by simp, rfl⟩
  | cons named rest ih =>
    obtain ⟨hnamed, hrest⟩ := List.forall_mem_cons.mp h
    rw [checkPaths, if_neg (by simpa using hnamed)]
    by_cases hdirectory : store.leadsToDirectory named.2 = true
    · rw [if_pos hdirectory]
      exact .inl ⟨named, List.mem_cons_self, .inl hdirectory, _, rfl⟩
    by_cases hunreadable : store.isUnreadable named.2 = true
    · rw [if_neg hdirectory, if_pos hunreadable]
      exact .inl ⟨named, List.mem_cons_self, .inr hunreadable, _, rfl⟩
    · rw [if_neg hdirectory, if_neg hunreadable, List.forall_mem_cons]
      refine (ih hrest).imp ?_ ?_
      · rintro ⟨named', hmem, h⟩
        exact ⟨named', List.mem_cons_of_mem named hmem, h⟩
      · rintro ⟨hnone, hcheck⟩
        exact ⟨⟨not_or.mpr ⟨hdirectory, hunreadable⟩, hnone⟩, hcheck⟩

/-- **Arguments that ask for a run** are refused only for a directory or an unreadable file among
them. -/
theorem run_cases {arguments : List Text} {a : Arguments} (h : Accepts console arguments a)
    (environment : List (Text × Text)) (store : Store) :
    (NamesUnfit a store ∧
      ∃ m, run console arguments environment store = .ok (refuse console m store)) ∨
    ¬ NamesUnfit a store ∧ run console arguments environment store =
      .ok (runWith console a.verbose (settings a environment) store) := by
  obtain ⟨named, hmem, hunfit, m, hcheck⟩ | ⟨hnone, hcheck⟩ := checkPaths_cases h.plain store
  · refine .inl ⟨⟨named, hmem, hunfit⟩, m, ?_⟩
    simp only [run, h.parsed, h.quiet, misuse?, hcheck, Except.map, Option.or]
  · refine .inr ⟨?_, ?_⟩
    · rintro ⟨named, hmem, hunfit⟩
      exact hnone named hmem hunfit
    · simp only [run, h.parsed, h.quiet, misuse?, hcheck, h.single, Except.map, Option.or]

/-- **Which file problems are internal errors**. Whatever the files and the rights to them are and
however the arguments are taken apart, with an encoding that is supported and arguments that ask for a run,
the command has an outcome. A directory or an unreadable file among the arguments is refused as a wrong
argument. Otherwise the exit code is at most 1 exactly if the source can be read and all outputs can be
opened. It is that of wrong arguments if some file cannot be handled, unless the first such file is
blocked: an output whose path leads through a regular file or has a name that is too long is taken for an
internal error, and so is a path with a null character. Nothing else is. -/
theorem file_problems_classified {console : Console} {arguments : List Text} {a : Arguments}
    {environment : List (Text × Text)} (haccepts : Accepts console arguments a)
    (hsupported : (settings a environment).Supported) (store : Store) :
    let s := settings a environment
    ∃ outcome, run console arguments environment store = .ok outcome ∧
      (NamesUnfit a store → outcome.exit = .invalidArguments) ∧
      (¬ NamesUnfit a store →
        (outcome.exit.number ≤ 1 ↔ s.Handled store) ∧
        (outcome.exit = .invalidArguments ↔ ¬ s.Handled store ∧ ¬ s.Blocked store) ∧
        (outcome.exit = .internalError ↔ s.Blocked store)) := by
  intro s
  obtain ⟨hunfit, m, hrun⟩ | ⟨hnone, hrun⟩ := run_cases haccepts environment store
  · exact ⟨_, hrun, fun _ => rfl, fun h => absurd hunfit h⟩
  · refine ⟨_, hrun, fun h => absurd h hnone, fun _ => ?_⟩
    obtain ⟨hhandled, hfree, hexit⟩ | ⟨hunhandled, hblocked, hexit⟩ | ⟨hunhandled, hfree, hexit⟩ :=
      exit_runWith_cases hsupported console a.verbose store
    · refine ⟨iff_of_true hexit hhandled, iff_of_false ?_ (fun h => h.1 hhandled), iff_of_false ?_ hfree⟩
      · intro h
        rw [h] at hexit
        exact absurd hexit (by decide)
      · intro h
        rw [h] at hexit
        exact absurd hexit (by decide)
    · rw [hexit]
      exact ⟨iff_of_false (by decide) hunhandled, iff_of_false (by decide) (fun h => h.2 hblocked),
        iff_of_true rfl hblocked⟩
    · rw [hexit]
      exact ⟨iff_of_false (by decide) hunhandled, iff_of_true rfl ⟨hunhandled, hfree⟩,
        iff_of_false (by decide) hfree⟩

/-- A load file below the listing, which is made just before, and a symbol file in a directory that is
not there. -/
theorem file_problems_classified_new_listing :
    let store : Store := { files := [(["p.asm".toList], Utf8.encode "HLT\n".toList)] }
    let below := ["p.asm".toList, "-l".toList, "out".toList, "-o".toList, "out/load".toList]
    let missing := ["p.asm".toList, "-s".toList, "d/x".toList]
    (∃ outcome, run .usual below [] store = .ok outcome ∧ outcome.exit = .internalError) ∧
      ∃ outcome, run .usual missing [] store = .ok outcome ∧ outcome.exit = .invalidArguments := by
  intro store below missing
  have hsource : Nonempty (LegibleSource defaultEncoding store "p.asm".toList) :=
    ⟨⟨.utf8, Utf8.encode "HLT\n".toList, "HLT\n".toList, by decide, by decide, by decide, by decide⟩⟩
  constructor
  · let a : Arguments :=
      ⟨[.output .listing "out".toList, .output .load "out/load".toList], ["p.asm".toList]⟩
    have haccepts : Accepts .usual below a := ⟨by decide, by decide, by decide, by decide⟩
    have hsupported : (settings a []).Supported := ⟨by decide, .utf8, by decide⟩
    have hnone : ¬ NamesUnfit a store := by decide
    have hblocked : (settings a []).Blocked store := by
      refine .inr ⟨hsource, store.write ["out".toList] [], "out/load".toList, by decide, ?_⟩
      have hparts : Store.outputParts "out/load".toList = ["out".toList] ++ "load".toList :: [] := by
        decide
      have hfront : (store.write ["out".toList] []).follow [] ["out".toList] =
        .ok (.file ["out".toList]) := by decide
      exact .file hparts hfront
    obtain ⟨outcome, hrun, -, hexit⟩ := file_problems_classified haccepts hsupported store
    exact ⟨outcome, hrun, (hexit hnone).2.2.mpr hblocked⟩
  · let a : Arguments := ⟨[.output .symbols "d/x".toList], ["p.asm".toList]⟩
    have haccepts : Accepts .usual missing a := ⟨by decide, by decide, by decide, by decide⟩
    have hsupported : (settings a []).Supported := ⟨by decide, .utf8, by decide⟩
    have hnone : ¬ NamesUnfit a store := by decide
    obtain ⟨outcome, hrun, -, hexit⟩ := file_problems_classified haccepts hsupported store
    let opened : Store := (store.write ["listing.txt".toList] []).write ["load.txt".toList] []
    have hrefused : store.firstRefused? (settings a []).outputs = some (opened, "d/x".toList) := by
      decide
    have hmissing : opened.openForWriting "d/x".toList = .error (.system .notFound) := by decide
    refine ⟨outcome, hrun, (hexit hnone).2.1.mpr ⟨?_, ?_⟩⟩
    · intro h
      cases (Store.firstRefused?_eq_none_iff.mpr h.outputs).symm.trans hrefused
    · rintro (hmem | ⟨-, after, path, hfirst, hblocked⟩)
      · exact absurd hmem (by decide)
      · obtain ⟨rfl, rfl⟩ := Prod.mk.inj (Option.some.inj (hrefused.symm.trans hfirst))
        obtain ⟨fault, hfault, hreason⟩ := hblocked.open_error
        obtain rfl := Except.error.inj (hmissing.symm.trans hfault)
        exact absurd hreason (by decide)

/-- A listing below the source is a file problem, and the command takes it for an internal error. As a
source the same path is a wrong argument. -/
theorem listing_below_source_internal :
    let store : Store := { files := [(["p.asm".toList], Utf8.encode "HLT\n".toList)] }
    let listing := run .usual ["p.asm".toList, "-l".toList, "p.asm/x".toList] [] store
    let source := run .usual ["p.asm/x".toList] [] store
    store.openForWriting "p.asm/x".toList = .error (.system .notDirectory) ∧
      listing.map Outcome.exit = .ok .internalError ∧
      source.map Outcome.exit = .ok .invalidArguments := by
  decide

end Command

end TwoPass
