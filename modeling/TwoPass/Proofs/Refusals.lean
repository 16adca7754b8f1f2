import TwoPass.Proofs.Failures

/-!
# Why an output cannot be opened

What refuses a path is found where it stops (`Store.follow_eq_error_iff`): at a regular file, at a vacant
place, or at a directory that does not let it go on. So an output cannot be opened because something on its
path is missing or not permitted, because it is a directory, or because the path is `Store.Blocked`: it
leads through a regular file, or it or one of its names is too long.

The outputs are opened one after the other, and a later one may be refused because of a file that an
earlier one has made. What is then written into the files that are open moves no path and makes no file
(`Store.SamePlaces`), so a file that is opened only after that meets the same refusal as before.
`Store.firstRefused?` therefore says which of the outputs is refused, and in which store.
-/

namespace TwoPass

/-! ## Where a path stops -/

/-- What refuses to go on from a place with one more part of a path. -/
def Store.refusal? (s : Store) : Place → Text → Option SystemFault
  | .directory names, part => s.lookupFault? names part
  | .file _, _ => some .notDirectory
  | .vacant _, _ => some .notFound

namespace Store

variable {s s' : Store} {path : Text} {names : List Text}

theorem lookupFault?_eq_nameTooLong_iff {part : Text} :
    s.lookupFault? names part = some .nameTooLong ↔
      s.denies .enter names = false ∧ exceeds nameLimit part = true := by
  by_cases hempty : part = []
  · subst hempty
    have hshort : exceeds nameLimit [] = false := by decide
    simp [lookupFault?, hshort]
  · cases hdenied : s.denies .enter names with
    | false => simp [lookupFault?, hempty, hdenied]
    | true => simp [lookupFault?, hempty, hdenied]

/-- A directory gives one of two reasons. -/
theorem lookupFault?_cases {part : Text} {fault : SystemFault}
    (h : s.lookupFault? names part = some fault) : fault = .notPermitted ∨ fault = .nameTooLong := by
  rw [lookupFault?] at h
  split at h
  · cases h
  · split at h
    · exact .inl (Option.some.inj h).symm
    · split at h
      · exact .inr (Option.some.inj h).symm
      · cases h

theorem refusal?_placeOf (s : Store) (file : List Text) (part : Text) :
    s.refusal? (s.placeOf file) part =
      some (if (s.file? file).isSome then .notDirectory else .notFound) := by
  rw [placeOf]
  cases (s.file? file).isSome with
  | false => rfl
  | true => rfl

/-- **Where a path stops**. It is refused exactly if some of its parts lead to a place that refuses the
next one. -/
theorem follow_eq_error_iff {parts : List Text} {fault : SystemFault} :
    s.follow names parts = .error fault ↔
      ∃ front part rest place, parts = front ++ part :: rest ∧ s.follow names front = .ok place ∧
        s.refusal? place part = some fault := by
  constructor
  · intro h
    induction parts generalizing names with
    | nil => cases h
    | cons part rest ih =>
      obtain ⟨next, hnext⟩ | ⟨fault', hlookup, hrefused⟩ | ⟨file, hfile⟩ := s.follow_cons names part
      · rw [← s.withFiles_self, hnext] at h
        obtain ⟨front, part', rest', place, rfl, hfront, hplace⟩ := ih h
        exact ⟨part :: front, part', rest', place, rfl, (hnext front s.files).trans hfront, hplace⟩
      · rw [← s.withFiles_self, hrefused] at h
        refine ⟨[], part, rest, .directory names, rfl, rfl, ?_⟩
        rw [refusal?, hlookup, Except.error.inj h]
      · rw [← s.withFiles_self, hfile] at h
        cases rest with
        | nil => cases h
        | cons part' rest' =>
          refine ⟨[part], part', rest', s.placeOf file, rfl, hfile [] s.files, ?_⟩
          rw [refusal?_placeOf]
          exact congrArg some (Except.error.inj h)
  · rintro ⟨front, part, rest, place, rfl, hfront, hplace⟩
    induction front generalizing names with
    | nil =>
      obtain rfl := Except.ok.inj hfront
      rw [refusal?] at hplace
      rw [List.nil_append, follow, hplace]
    | cons first front ih =>
      rw [List.cons_append]
      obtain ⟨next, hnext⟩ | ⟨fault', -, hrefused⟩ | ⟨file, hfile⟩ := s.follow_cons names first
      · rw [← s.withFiles_self, hnext] at hfront
        exact (hnext _ s.files).trans (ih hfront)
      · rw [← s.withFiles_self, hrefused] at hfront
        cases hfront
      · rw [← s.withFiles_self, hfile] at hfront
        cases front with
        | cons second front => cases hfront
        | nil =>
          obtain rfl := Except.ok.inj hfront
          rw [withFiles_self, refusal?_placeOf] at hplace
          exact (hfile _ s.files).trans (congrArg Except.error (Option.some.inj hplace))

/-- The parts of the path of an output that are followed. -/
def outputParts (path : Text) : List Text :=
  if path.getLast? = some '/' then
    (Text.splitOn '/' (withoutEndSlashes path)).dropLast ++ [Path.here]
  else Text.splitOn '/' path

theorem locateOutput_eq (hempty : path ≠ []) :
    s.locateOutput path =
      if exceeds pathLimit path then .error .nameTooLong
      else s.follow (s.origin path) (outputParts path) := by
  have hfalse : path.isEmpty = false := by simpa using hempty
  rw [locateOutput, locate, hfalse, outputParts]
  by_cases hlong : exceeds pathLimit path = true
  · simp [hlong]
  · by_cases hslash : path.getLast? = some '/'
    · simp [hlong, hslash]
    · simp [hlong, hslash]

/-- The path of an output is refused for another reason than that something is missing or not permitted,
or that it names a directory. -/
inductive Blocked (s : Store) (path : Text) : Prop where
  /-- it has a character that no path can have -/
  | null (h : null ∈ path)
  /-- it is too long -/
  | longPath (h : exceeds pathLimit path = true)
  /-- it reaches a directory that may be entered and goes on with a name that is too long -/
  | longName {front rest : List Text} {part : Text} {directory : List Text}
      (hparts : outputParts path = front ++ part :: rest)
      (hfront : s.follow (s.origin path) front = .ok (.directory directory))
      (hentered : s.denies .enter directory = false) (h : exceeds nameLimit part = true)
  /-- it reaches a regular file and goes on -/
  | file {front rest : List Text} {part : Text} {file : List Text}
      (hparts : outputParts path = front ++ part :: rest)
      (hfront : s.follow (s.origin path) front = .ok (.file file))

theorem not_blocked_nil : ¬ s.Blocked [] := by
  have hparts : ∀ {front rest : List Text} {part : Text},
      outputParts [] = front ++ part :: rest → front = [] ∧ part = [] := by
    intro front rest part h
    cases front with
    | nil => exact ⟨rfl, (List.cons.inj h).1.symm⟩
    | cons first front => simp [outputParts, Text.splitOn] at h
  rintro (hnull | hlong | ⟨hparts', -, -, hlong⟩ | ⟨hparts', hfront⟩)
  · cases hnull
  · exact absurd hlong (by decide)
  · obtain ⟨-, rfl⟩ := hparts hparts'
    exact absurd hlong (by decide)
  · obtain ⟨rfl, -⟩ := hparts hparts'
    cases hfront

/-- A blocked path cannot be opened, and nothing that is missing or not permitted is the reason. -/
theorem Blocked.open_error (h : s.Blocked path) :
    ∃ fault, s.openForWriting path = .error fault ∧
      (fault = .nullInPath ∨ fault = .system .nameTooLong ∨ fault = .system .notDirectory) := by
  by_cases hnull : Store.null ∈ path
  · refine ⟨.nullInPath, ?_, .inl rfl⟩
    rw [openForWriting, if_pos (by simpa using hnull)]
  have hempty : path ≠ [] := by
    rintro rfl
    exact not_blocked_nil h
  have hopen : ∀ {fault}, s.locateOutput path = .error fault →
      s.openForWriting path = .error (.system fault) := by
    intro fault hfault
    rw [openForWriting, if_neg (by simpa using hnull), hfault]
  by_cases hlong : exceeds pathLimit path = true
  · refine ⟨_, hopen ?_, .inr (.inl rfl)⟩
    rw [locateOutput_eq hempty, if_pos hlong]
  have hlocate : s.locateOutput path = s.follow (s.origin path) (outputParts path) := by
    rw [locateOutput_eq hempty, if_neg hlong]
  rcases h with hmem | hexceeds | ⟨hparts, hfront, hentered, hexceeds⟩ | ⟨hparts, hfront⟩
  · exact absurd hmem hnull
  · exact absurd hexceeds hlong
  · refine ⟨_, hopen (hlocate.trans ?_), .inr (.inl rfl)⟩
    exact follow_eq_error_iff.mpr ⟨_, _, _, _, hparts, hfront,
      lookupFault?_eq_nameTooLong_iff.mpr ⟨hentered, hexceeds⟩⟩
  · refine ⟨_, hopen (hlocate.trans ?_), .inr (.inr rfl)⟩
    exact follow_eq_error_iff.mpr ⟨_, _, _, _, hparts, hfront, rfl⟩

/-- **Why an output cannot be opened**: its path is blocked, or something is missing or not permitted, or
it is a directory. -/
theorem blocked_of_open_error {fault : OpenFault} (h : s.openForWriting path = .error fault) :
    s.Blocked path ∨ fault = .system .notFound ∨ fault = .system .isDirectory ∨
      fault = .system .notPermitted := by
  by_cases hnull : Store.null ∈ path
  · exact .inl (.null hnull)
  obtain ⟨refusal, hlocate, hopen⟩ | ⟨directory, -, hopen⟩ | ⟨names, hleads⟩ :=
    s.openForWriting_cases hnull
  · obtain rfl := Except.error.inj (h.symm.trans hopen)
    by_cases hempty : path = []
    · subst hempty
      exact .inr (.inl (congrArg OpenFault.system (Except.error.inj hlocate).symm))
    rw [locateOutput_eq hempty] at hlocate
    split at hlocate
    · next hlong => exact .inl (.longPath hlong)
    obtain ⟨front, part, rest, place, hparts, hfront, hplace⟩ := follow_eq_error_iff.mp hlocate
    cases place with
    | directory directory =>
      obtain rfl | rfl := lookupFault?_cases hplace
      · exact .inr (.inr (.inr rfl))
      · obtain ⟨hentered, hexceeds⟩ := lookupFault?_eq_nameTooLong_iff.mp hplace
        exact .inl (.longName hparts hfront hentered hexceeds)
    | file file => exact .inl (.file hparts hfront)
    | vacant file => exact .inr (.inl (congrArg OpenFault.system (Option.some.inj hplace).symm))
  · exact .inr (.inr (.inl (Except.error.inj (h.symm.trans hopen))))
  · exact .inr (.inr (.inr (hleads.open_error h)))

end Store

/-! ## Stores with the same places -/

namespace Store

variable {s s' s'' : Store} {path : Text} {names : List Text}

/-- The stores have the same directories and files, with the same rights, whatever is in the files. -/
structure SamePlaces (s s' : Store) : Prop where
  /-- the same directories -/
  directories : s'.directories = s.directories
  /-- the same current directory -/
  current : s'.current = s.current
  /-- the same rights -/
  denied : s'.denied = s.denied
  /-- the same files -/
  files : ∀ names, (s'.file? names).isSome = (s.file? names).isSome

namespace SamePlaces

theorem refl (s : Store) : SamePlaces s s := ⟨rfl, rfl, rfl, fun _ => rfl⟩

theorem trans (h : SamePlaces s s') (h' : SamePlaces s' s'') : SamePlaces s s'' where
  directories := h'.directories.trans h.directories
  current := h'.current.trans h.current
  denied := h'.denied.trans h.denied
  files names := (h'.files names).trans (h.files names)

/-- What a file holds does not say which files there are. -/
theorem write (h : (s.file? names).isSome = true) (bytes : Bytes) :
    SamePlaces s (s.write names bytes) where
  directories := rfl
  current := rfl
  denied := rfl
  files other := by
    by_cases hsame : other = names
    · rw [hsame, file?_write_self, h, Option.isSome_some]
    · rw [file?_write_of_ne s bytes hsame]

theorem denies (h : SamePlaces s s') (access : Access) (names : List Text) :
    s'.denies access names = s.denies access names := by
  rw [Store.denies, Store.denies, h.denied]

theorem isDirectory (h : SamePlaces s s') (names : List Text) :
    s'.isDirectory names = s.isDirectory names := by
  rw [Store.isDirectory, Store.isDirectory, h.directories]

/-- A path is followed in the same way. -/
theorem follow (h : SamePlaces s s') (names parts : List Text) :
    s'.follow names parts = s.follow names parts := by
  induction parts generalizing names with
  | nil => rfl
  | cons part rest ih =>
    simp only [Store.follow, lookupFault?, h.denies, h.isDirectory, h.files, ih]

theorem locateOutput (h : SamePlaces s s') (path : Text) :
    s'.locateOutput path = s.locateOutput path := by
  simp only [Store.locateOutput, locate, origin, h.current, h.follow]

theorem mayWrite (h : SamePlaces s s') (names : List Text) : s'.mayWrite names = s.mayWrite names := by
  simp only [Store.mayWrite, h.denies, h.files]

/-- The same paths are refused, for the same reasons. -/
theorem open_error_iff (h : SamePlaces s s') {fault : OpenFault} :
    s'.openForWriting path = .error fault ↔ s.openForWriting path = .error fault := by
  rw [openForWriting, openForWriting, h.locateOutput]
  split
  · exact .rfl
  · rcases s.locateOutput path with refusal | place
    · exact .rfl
    · cases place with
      | directory directory => exact .rfl
      | file file | vacant file =>
        simp only [h.mayWrite]
        split
        · simp
        · exact .rfl

end SamePlaces

/-- The first of the outputs that cannot be opened, with the store in which it cannot: the outputs before
it have been opened. -/
def firstRefused? (s : Store) : List Text → Option (Store × Text)
  | [] => none
  | path :: rest =>
    match s.openForWriting path with
    | .error _ => some (s, path)
    | .ok (opened, _) => opened.firstRefused? rest

/-- Opening an output opens no way for another one and closes none. -/
theorem firstRefused?_eq_none_iff {paths : List Text} :
    s.firstRefused? paths = none ↔ ∀ path ∈ paths, s.CanOpen path := by
  induction paths generalizing s with
  | nil => simp [firstRefused?]
  | cons path rest ih =>
    rw [firstRefused?, List.forall_mem_cons]
    cases hopen : s.openForWriting path with
    | error fault => simp [not_canOpen_of_error hopen]
    | ok opened =>
      have hpath : s.CanOpen path := ⟨opened, hopen⟩
      obtain ⟨names, hopens⟩ := canOpen_iff.mp hpath
      obtain rfl := Except.ok.inj (hopen.symm.trans hopens.open_eq)
      simp only [ih, hpath, hopens.canOpen_write_iff [], true_and]

/-- Opening outputs moves no path. -/
theorem Leads.firstRefused? (h : s.Leads path names) {paths : List Text} {after : Store}
    {refused : Text} (hrefused : s.firstRefused? paths = some (after, refused)) :
    after.Leads path names := by
  induction paths generalizing s with
  | nil => cases hrefused
  | cons first rest ih =>
    rw [Store.firstRefused?] at hrefused
    cases hopen : s.openForWriting first with
    | error fault =>
      rw [hopen] at hrefused
      obtain ⟨rfl, -⟩ := Prod.mk.inj (Option.some.inj hrefused)
      exact h
    | ok opened =>
      rw [hopen] at hrefused
      obtain ⟨target, hopens⟩ := canOpen_iff.mp ⟨opened, hopen⟩
      obtain rfl := Except.ok.inj (hopen.symm.trans hopens.open_eq)
      exact ih (h.write target []) hrefused

end Store

/-- Putting texts into files that are there makes no file. -/
theorem samePlaces_flush (charset : Charset) {store : Store} {names : Option (List Text)}
    (h : ∀ file ∈ names, (store.file? file).isSome = true) (stream : Option (List Text)) :
    store.SamePlaces (flush charset store names stream).1 := by
  rcases names with _ | names
  · exact .refl store
  · rcases stream with _ | texts
    · exact .refl store
    · exact .write (h names rfl) _

/-- **The second pass makes no file**: it fills those that are open. -/
theorem samePlaces_generateFile (charset : Charset) {store : Store} (file : Text)
    (symbols : SymbolTable) {outputs : Outputs}
    (hlisting : ∀ names ∈ outputs.listing, (store.file? names).isSome = true)
    (hload : ∀ names ∈ outputs.load, (store.file? names).isSome = true) :
    store.SamePlaces (generateFile charset store file symbols outputs).store := by
  have hfirst := samePlaces_flush charset hload
    (Generation.run symbols (.named file) .empty outputs.listing.isSome outputs.load.isSome
      (rereadLines charset store file)).loadStream
  refine hfirst.trans (samePlaces_flush charset ?_ _)
  intro names hnames
  rw [hfirst.files, hlisting names hnames]

/-- **With both outputs open**, a source that can be read is assembled. The symbols are its own, and no
more files are made. -/
theorem LegibleSource.assembleFile_of_opens {encoding : Text} {store : Store} {path : Text}
    (source : LegibleSource encoding store path) {listing load : Text}
    {listingNames loadNames : List Text} (hlisting : store.Opens listing listingNames)
    (hload : (store.write listingNames []).Opens load loadNames) :
    let attempt := assembleFile encoding store path (some listing) (some load)
    attempt.outcome = .ok attempt.run.output.loadText ∧ attempt.run.symbols = source.run.symbols ∧
      ((store.write listingNames []).write loadNames []).SamePlaces attempt.store := by
  intro attempt
  have hopen : openOutputs (Path.normalize path) store (some listing) (some load) =
      ((store.write listingNames []).write loadNames [], .ok ⟨some listingNames, some loadNames⟩) := by
    simp only [openOutputs, openOutput, hlisting.open_eq, hload.open_eq]
  have hattempt := source.assembleFile_of_openOutputs (some listing) (some load)
  rw [hopen] at hattempt
  refine ⟨hattempt, ?_, ?_⟩
  · simp only [attempt, assembleFile, source.openSource_eq, assembleOpened, source.readLines_eq, hopen]
    rfl
  · simp only [attempt, assembleFile, source.openSource_eq, assembleOpened, source.readLines_eq, hopen]
    refine samePlaces_generateFile source.charset _ _ ?_ ?_
    · rintro names ⟨⟩
      exact Store.isSome_file?_write _ _ _ (by rw [Store.file?_write_self, Option.isSome_some])
    · rintro names ⟨⟩
      rw [Store.file?_write_self, Option.isSome_some]

end TwoPass
