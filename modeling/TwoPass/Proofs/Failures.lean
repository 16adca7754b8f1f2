import TwoPass.Proofs.Interruption
import TwoPass.Proofs.Outputs

/-!
# Which failures are blamed on the source

Assembling a file can stop in several ways. The source may not open or may not be a text, and then an
output may not open. One rule reports every file that does not open, and it goes by the path alone: if
that is the path of the source, the source is to blame, and otherwise the refusal is passed on
(`Failure.ofUnopened`).

So the source is blamed rightly as long as no output that cannot be opened is spelled like it. A source
that can be read is stopped by the first such output (`FirstRefused`) and by nothing else: opening the
outputs leaves the source as it was or empties it, and the empty file is a text in every character set
(`Store.Legible.write_nil`), so the second reading does not fail; and the rest of the second pass refuses
nothing, since whatever is read can be written (`outcome_generateFile`). All that can come of such a source
is therefore settled by the outputs (`LegibleSource.assembleFile_cases`).

A source that is no text has delivered lines before it failed, at most those which a break had ended by
then (`Charset.Delivers`). Only their labels are bound, and nothing is written
(`assembleFile_of_not_legible`).
-/

namespace TwoPass

/-! ## The second pass refuses nothing -/

theorem has_of_mem_rereadLines {charset : Charset} {store : Store} {file raw : Text}
    (h : raw ∈ rereadLines charset store file) : ∀ c ∈ raw, charset.has c = true := by
  rw [rereadLines] at h
  split at h
  · cases h
  · exact Charset.has_of_mem_readLines h

/-- Texts of the character set are put into a file without a refusal. -/
theorem fault_flush {charset : Charset} {stream : Option (List Text)}
    (h : ∀ texts ∈ stream, ∀ t ∈ texts, ∀ c ∈ t, charset.has c = true) (store : Store)
    (names : Option (List Text)) : (flush charset store names stream).2 = none := by
  rcases names with _ | names
  · rfl
  · rcases stream with _ | texts
    · rfl
    · obtain ⟨bytes, hbytes, -⟩ := Charset.decode_encodeWrites (h texts rfl)
      simp [flush, hbytes]

/-- A stream that holds lines of characters of the set has only such characters. -/
theorem Charset.has_of_mem_stream {charset : Charset} {lines : List Text}
    (h : ∀ line ∈ lines, ∀ c ∈ line, charset.has c = true) (isOpen : Bool) :
    ∀ texts ∈ (if isOpen then some (Generation.ended lines) else none), ∀ t ∈ texts, ∀ c ∈ t,
      charset.has c = true := by
  intro texts htexts
  split at htexts
  · obtain rfl := Option.some.inj htexts
    exact has_of_mem_ended h
  · cases htexts

/-- **The second pass refuses nothing**, whatever the outputs are and whatever is left of the source. -/
theorem outcome_generateFile (charset : Charset) (store : Store) (file : Text) (symbols : SymbolTable)
    (outputs : Outputs) :
    let attempt := generateFile charset store file symbols outputs
    attempt.outcome = .ok attempt.run.output.loadText := by
  let task : Generation.Task := ⟨symbols, .named file, .empty, outputs.listing.isSome,
    outputs.load.isSome, rereadLines charset store file⟩
  have hshown : ∀ {text : Text}, (∀ c ∈ text, Line.Shown task.lines c) →
      ∀ c ∈ text, charset.has c = true :=
    fun h c hc => (h c hc).has fun _ hraw => has_of_mem_rereadLines hraw
  have hload := Charset.has_of_mem_stream
    (fun _ h => hshown (Generation.Task.shown_of_mem_load h)) task.load
  have hlisting := Charset.has_of_mem_stream
    (fun _ h => hshown (Generation.Task.shown_of_mem_listing h)) task.listing
  rw [← task.streamed_result.load] at hload
  rw [← task.streamed_result.listing] at hlisting
  have hloadFault := fault_flush hload store outputs.load
  have hlistingFault := fault_flush hlisting
    (flush charset store outputs.load task.result.loadStream).1 outputs.listing
  simp only [Generation.Task.result, task] at hloadFault hlistingFault
  simp only [generateFile, hloadFault, hlistingFault, Option.none_or]

/-! ## Sources that can be read -/

namespace Store

variable {s : Store} {charset : Charset} {path : Text}

/-- The path leads to a file that may be read, and its bytes are a text in the character set. -/
def Legible (s : Store) (charset : Charset) (path : Text) : Prop :=
  ∃ names bytes text, s.locate path = .ok (.file names) ∧ s.denies .read names = false ∧
    s.file? names = some bytes ∧ charset.decode bytes = (text, none)

theorem legible_iff (hnull : null ∉ path) :
    s.Legible charset path ↔
      ∃ bytes text, s.openForReading path = .ok bytes ∧ charset.decode bytes = (text, none) := by
  simp only [openForReading_eq_ok_iff hnull]
  constructor
  · rintro ⟨names, bytes, text, hlocate, hpermitted, hfile, hdecode⟩
    exact ⟨bytes, text, ⟨names, hlocate, hpermitted, hfile⟩, hdecode⟩
  · rintro ⟨bytes, text, ⟨names, hlocate, hpermitted, hfile⟩, hdecode⟩
    exact ⟨names, bytes, text, hlocate, hpermitted, hfile, hdecode⟩

/-- Emptying a file leaves the source as it is, or as an empty text. -/
theorem Legible.write_nil (hnull : null ∉ path) (h : s.Legible charset path) (target : List Text) :
    (s.write target []).Legible charset path := by
  obtain ⟨names, bytes, text, hlocate, hpermitted, hfile, hdecode⟩ := h
  obtain ⟨bytes', text', hfile', hdecode'⟩ : ∃ bytes text,
      (s.write target []).file? names = some bytes ∧ charset.decode bytes = (text, none) := by
    by_cases hsame : names = target
    · subst hsame
      exact ⟨[], [], file?_write_self .., by cases charset <;> rfl⟩
    · exact ⟨bytes, text, by rw [file?_write_of_ne _ _ hsame, hfile], hdecode⟩
  refine ⟨names, bytes', text', ?_, hpermitted, hfile', hdecode'⟩
  have hplace : (s.write target []).locate path = .ok ((s.write target []).placeOf names) :=
    (leads_of_locate hnull hlocate).2 (s.write target []).files
  rw [hplace, placeOf, if_pos (Option.isSome_iff_exists.mpr ⟨bytes', hfile'⟩)]

end Store

/-! ## Opening the outputs -/

/-- **One output**. It cannot be opened, and the rule reports that; or it is opened, and then the same
paths can be opened as before, and the same sources can be read. -/
theorem openOutput_cases (file : Text) (store : Store) (output : Option Text) :
    (∃ path fault, output = some path ∧ store.openForWriting path = .error fault ∧
      openOutput file store output = .error (.ofUnopened file path fault)) ∨
    ∃ opened target, (∀ path ∈ output, store.CanOpen path) ∧
      openOutput file store output = .ok (opened, target) ∧
      (∀ path, opened.CanOpen path ↔ store.CanOpen path) ∧
      ∀ charset path, Store.null ∉ path → store.Legible charset path → opened.Legible charset path := by
  cases output with
  | none => exact .inr ⟨store, none, by simp, rfl, fun _ => .rfl, fun _ _ _ h => h⟩
  | some path =>
    cases hopen : store.openForWriting path with
    | error fault => exact .inl ⟨path, fault, rfl, hopen, by rw [openOutput, hopen]⟩
    | ok opened =>
      have hcan : store.CanOpen path := ⟨opened, hopen⟩
      obtain ⟨target, htarget⟩ := Store.canOpen_iff.mp hcan
      refine .inr ⟨store.write target [], some target, by simpa using hcan, ?_, ?_, ?_⟩
      · rw [openOutput, htarget.open_eq]
      · exact fun _ => htarget.canOpen_write_iff []
      · exact fun _ _ hnull h => h.write_nil hnull target

/-- The path is that of the first output of a source that cannot be opened. The store is the one in which
it cannot, with the listing opened before if it is the load file. -/
structure FirstRefused (file : Text) (store : Store) (listing load : Option Text) (after : Store)
    (path : Text) (fault : OpenFault) : Prop where
  /-- it cannot be opened then -/
  refused : after.openForWriting path = .error fault
  /-- nor could it before -/
  closed : ¬ store.CanOpen path
  /-- it is the listing, or the load file after the listing was opened -/
  first : listing = some path ∧ after = store ∨
    (∀ output ∈ listing, store.CanOpen output) ∧
      (∃ target, openOutput file store listing = .ok (after, target)) ∧ load = some path

namespace FirstRefused

variable {file : Text} {store after : Store} {listing load : Option Text} {path : Text}
  {fault : OpenFault} (h : FirstRefused file store listing load after path fault)

include h

theorem output : listing = some path ∨ load = some path := h.first.imp (fun h => h.1) fun h => h.2.2

/-- A listing that cannot be opened is the first. -/
theorem eq_listing {output : Text} (houtput : listing = some output) (hclosed : ¬ store.CanOpen output) :
    path = output ∧ after = store := by
  obtain ⟨hlisting, rfl⟩ | ⟨hopens, -⟩ := h.first
  · exact ⟨Option.some.inj (hlisting.symm.trans houtput), rfl⟩
  · exact absurd (hopens output houtput) hclosed

/-- Behind a listing that can be opened, it is the load file. -/
theorem eq_load (hopens : ∀ output ∈ listing, store.CanOpen output) :
    load = some path ∧ ∃ target, openOutput file store listing = .ok (after, target) := by
  obtain ⟨hlisting, -⟩ | ⟨-, hopened, hload⟩ := h.first
  · exact absurd (hopens path hlisting) h.closed
  · exact ⟨hload, hopened⟩

theorem exists_fault (hlisting : ∀ output ∈ listing, Store.null ∉ output)
    (hload : ∀ output ∈ load, Store.null ∉ output) : ∃ refusal, fault = .system refusal := by
  obtain houtput | houtput := h.output
  · exact Store.exists_fault_of_open_error (hlisting path houtput) h.refused
  · exact Store.exists_fault_of_open_error (hload path houtput) h.refused

end FirstRefused

namespace LegibleSource

variable {encoding : Text} {store : Store} {path : Text} (source : LegibleSource encoding store path)

theorem legible : store.Legible source.charset (Path.normalize path) :=
  (Store.legible_iff (Store.null_not_mem_of_openForReading source.read)).mpr
    ⟨source.bytes, source.text, source.read, source.decoded⟩

include source in
/-- The normalized path leads to the file of the source. -/
theorem leads : ∃ names, store.Leads (Path.normalize path) names := by
  obtain ⟨names, -, -, hlocate, -⟩ := source.legible
  exact ⟨names, Store.leads_of_locate (Store.null_not_mem_of_openForReading source.read) hlocate⟩

include source in
/-- How the assembly of a source that can be read ends is settled when the outputs are opened. -/
theorem assembleFile_of_openOutputs (listing load : Option Text) :
    let attempt := assembleFile encoding store path listing load
    match openOutputs (Path.normalize path) store listing load with
    | (after, .error failure) =>
      attempt.outcome = .error failure ∧ attempt.store = after ∧ attempt.run.report = .empty
    | (_, .ok _) => attempt.outcome = .ok attempt.run.output.loadText := by
  simp only [assembleFile, source.openSource_eq, assembleOpened, source.readLines_eq]
  rcases openOutputs (Path.normalize path) store listing load with ⟨after, failure | outputs⟩
  · exact ⟨rfl, rfl, rfl⟩
  · exact outcome_generateFile source.charset after (Path.normalize path) _ outputs

/-- **What can come of a source that can be read**. The first output that cannot be opened stops the
assembly, and the rule reports it. If all can be opened, be they the source or one file, then the source
can be read again, and the assembly succeeds. -/
theorem assembleFile_cases (listing load : Option Text) :
    let file := Path.normalize path
    let attempt := assembleFile encoding store path listing load
    (∃ after output fault, FirstRefused file store listing load after output fault ∧
      attempt.outcome = .error (.ofUnopened file output fault) ∧ attempt.store = after) ∨
    ((∀ output ∈ listing, store.CanOpen output) ∧ (∀ output ∈ load, store.CanOpen output) ∧
      (openOutputs file store listing load).1.Legible source.charset file ∧
      attempt.outcome = .ok attempt.run.output.loadText) := by
  intro file attempt
  have hattempt := source.assembleFile_of_openOutputs listing load
  have hnull : Store.null ∉ file := Store.null_not_mem_of_openForReading source.read
  obtain ⟨output, fault, houtput, hfault, hopen⟩ | ⟨opened, target, hlisting, hopen, hsame, hlegible⟩ :=
    openOutput_cases file store listing
  · -- the listing cannot be opened
    simp only [openOutputs, file, hopen] at hattempt
    exact .inl ⟨store, output, fault,
      ⟨hfault, Store.not_canOpen_of_error hfault, .inl ⟨houtput, rfl⟩⟩, hattempt.1, hattempt.2.1⟩
  obtain ⟨output, fault, houtput, hfault, hopen'⟩ | ⟨opened', target', hload, hopen', -, hlegible'⟩ :=
    openOutput_cases file opened load
  · -- the load file cannot be opened
    simp only [openOutputs, file, hopen, hopen'] at hattempt
    have hclosed : ¬ store.CanOpen output :=
      fun h => Store.not_canOpen_of_error hfault ((hsame output).mpr h)
    exact .inl ⟨opened, output, fault,
      ⟨hfault, hclosed, .inr ⟨hlisting, ⟨target, hopen⟩, houtput⟩⟩, hattempt.1, hattempt.2.1⟩
  · simp only [openOutputs, file, hopen, hopen'] at hattempt ⊢
    refine .inr ⟨hlisting, fun output houtput => (hsame output).mp (hload output houtput), ?_, hattempt⟩
    exact hlegible' _ _ hnull (hlegible _ _ hnull source.legible)

end LegibleSource

/-! ## Sources that cannot be read -/

/-- **A source that cannot be read** stops the assembly before anything is written or emitted. What it
has bound are the labels of lines that it delivered; a file that does not open delivers no more than an
empty one. -/
theorem assembleFile_of_not_legible {encoding : Text} {store : Store} {path : Text} {charset : Charset}
    (hnull : Store.null ∉ encoding) (hnamed : Charset.ofName? encoding = some charset)
    (hpath : Store.null ∉ Path.normalize path)
    (h : ¬ store.Legible charset (Path.normalize path)) (listing load : Option Text) :
    let file := Path.normalize path
    let attempt := assembleFile encoding store path listing load
    ∃ reason lines, attempt.outcome = .error (.unreadableSource file reason) ∧ attempt.store = store ∧
      charset.Delivers ((store.openForReading file).toOption.getD []) lines ∧
      attempt.run = .ofSymbols (Survey.walk (.named file) 1 lines (.start .empty)).symbols := by
  intro file attempt
  have hencoding : ¬ encoding.contains Store.null = true := by simpa using hnull
  cases hread : store.openForReading file with
  | error fault =>
    obtain ⟨fault, rfl⟩ := Store.exists_fault_of_openForReading_error hpath hread
    have hopen : openSource encoding store file = .error (.unreadableSource file fault.phrase) := by
      rw [openSource, if_neg hencoding, hread]
      exact congrArg Except.error (if_pos rfl)
    have hattempt : attempt = ⟨.empty, store, [.assemblingFile file],
        .error (.unreadableSource file fault.phrase)⟩ := by
      simp only [attempt, assembleFile, hopen, file]
    rw [hattempt]
    exact ⟨fault.phrase, [], rfl, rfl,
      ⟨[], [], List.nil_prefix, by cases charset <;> rfl, List.nil_prefix⟩, rfl⟩
  | ok bytes =>
    have hopen : openSource encoding store file = .ok (charset, bytes) := by
      rw [openSource, if_neg hencoding, hread, hnamed]
    obtain ⟨text, hdecode, -⟩ | ⟨fault, -, hfault, hdelivers⟩ :=
      charset.readLines_cases store.block bytes
    · exact absurd ((Store.legible_iff hpath).mpr ⟨bytes, text, hread, hdecode⟩) h
    · let survey :=
        Survey.walk (.named file) 1 (charset.readLines store.block bytes).lines (.start .empty)
      have hattempt : attempt = ⟨.ofSymbols survey.symbols, store,
          .assemblingFile file :: survey.events, .error (.unreadableSource file fault.message)⟩ := by
        simp only [attempt, assembleFile, file, hopen, assembleOpened, hfault, survey]
      rw [hattempt]
      exact ⟨fault.message, _, rfl, rfl, hdelivers, rfl⟩

namespace Session

end Session

end TwoPass
