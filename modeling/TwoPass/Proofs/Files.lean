import Mathlib.Data.List.Basic
import TwoPass.Proofs.Separators
import TwoPass.Store.Basic

/-!
# Writing a file moves no path

Following a path looks at the directories on the way and only at its end at a file. Whatever files there
are, the path takes the same steps (`Store.follow_cons`) and ends at the same place; the files decide
only whether the place is vacant (`Store.follow_files`). A path that `Leads` to a file therefore does so
after any file was written, and what is read through it is what the file was given last.

An output can be opened exactly if its path leads to a file that may be written (`Store.Opens`), and that
does not change when other outputs are opened before it (`Store.mayWrite_write`). A path that leads to a
file that may not be written is refused for that reason (`Store.Leads.open_error`), although the file may
well be read.
-/

namespace TwoPass

namespace Store

/-- The store with other files in the same directories. -/
def withFiles (s : Store) (files : List (List Text × Bytes)) : Store := { s with files := files }

theorem withFiles_self (s : Store) : s.withFiles s.files = s := rfl

/-- The place of a file that is there or can be made. -/
def placeOf (s : Store) (names : List Text) : Place :=
  if (s.file? names).isSome then .file names else .vacant names

theorem eq_of_placeOf_eq_file {s : Store} {names names' : List Text}
    (h : s.placeOf names = .file names') : names = names' := by
  rw [placeOf] at h
  split at h
  · exact Place.file.inj h
  · cases h

theorem eq_of_placeOf_eq_vacant {s : Store} {names names' : List Text}
    (h : s.placeOf names = .vacant names') : names = names' := by
  rw [placeOf] at h
  split at h
  · cases h
  · exact Place.vacant.inj h

/-! ## Following a path -/

theorem lookupFault?_withFiles (s : Store) (files : List (List Text × Bytes)) (names : List Text)
    (part : Text) : (s.withFiles files).lookupFault? names part = s.lookupFault? names part := rfl

/-- **One part of a path**. Whatever files there are and whatever follows, it leads on to a directory, or
the directory refuses it, or it names a file and has to be the last one. -/
theorem follow_cons (s : Store) (names : List Text) (part : Text) :
    (∃ next, ∀ rest files, (s.withFiles files).follow names (part :: rest) =
      (s.withFiles files).follow next rest) ∨
    (∃ fault, s.lookupFault? names part = some fault ∧
      ∀ rest files, (s.withFiles files).follow names (part :: rest) = .error fault) ∨
    ∃ file, ∀ rest files, (s.withFiles files).follow names (part :: rest) =
      if rest.isEmpty then .ok ((s.withFiles files).placeOf file)
      else .error (if ((s.withFiles files).file? file).isSome then .notDirectory else .notFound) := by
  cases hlookup : s.lookupFault? names part with
  | some fault =>
    refine .inr (.inl ⟨fault, rfl, fun rest files => ?_⟩)
    simp only [follow, lookupFault?_withFiles, hlookup]
  | none =>
    have hfollow : ∀ rest files, (s.withFiles files).follow names (part :: rest) =
        if part.isEmpty || part == Path.here then (s.withFiles files).follow names rest
        else if part == Path.above then (s.withFiles files).follow names.dropLast rest
        else if s.isDirectory (names ++ [part]) then (s.withFiles files).follow (names ++ [part]) rest
        else if ((s.withFiles files).file? (names ++ [part])).isSome then
          if rest.isEmpty then .ok (.file (names ++ [part])) else .error .notDirectory
        else if rest.isEmpty then .ok (.vacant (names ++ [part])) else .error .notFound := by
      intro rest files
      rw [follow, lookupFault?_withFiles, hlookup]
      rfl
    simp only [hfollow]
    by_cases hhere : (part.isEmpty || part == Path.here) = true
    · exact .inl ⟨names, fun rest files => if_pos hhere⟩
    by_cases habove : (part == Path.above) = true
    · exact .inl ⟨names.dropLast, fun rest files => by rw [if_neg hhere, if_pos habove]⟩
    by_cases hdirectory : s.isDirectory (names ++ [part]) = true
    · refine .inl ⟨names ++ [part], fun rest files => ?_⟩
      rw [if_neg hhere, if_neg habove, if_pos hdirectory]
    · refine .inr (.inr ⟨names ++ [part], fun rest files => ?_⟩)
      rw [if_neg hhere, if_neg habove, if_neg hdirectory, placeOf]
      cases ((s.withFiles files).file? (names ++ [part])).isSome with
      | false => rfl
      | true => rfl

/-- **Where a path ends is up to the directories**. A path that does not lead to a directory names a
file, and with other files it still does. -/
theorem follow_files {s : Store} {names parts : List Text} {place : Place}
    (h : s.follow names parts = .ok place) :
    (∃ directory, place = .directory directory) ∨
      ∃ file, place = s.placeOf file ∧
        ∀ files, (s.withFiles files).follow names parts = .ok ((s.withFiles files).placeOf file) := by
  induction parts generalizing names with
  | nil => exact .inl ⟨names, (Except.ok.inj h).symm⟩
  | cons part rest ih =>
    obtain ⟨next, hnext⟩ | ⟨fault, -, hfault⟩ | ⟨file, hfile⟩ := s.follow_cons names part
    · rw [← s.withFiles_self, hnext] at h
      refine (ih h).imp_right ?_
      rintro ⟨file, hplace, hfiles⟩
      exact ⟨file, hplace, fun files => (hnext rest files).trans (hfiles files)⟩
    · rw [← s.withFiles_self, hfault] at h
      cases h
    · rw [← s.withFiles_self, hfile] at h
      cases rest with
      | cons part' rest' => cases h
      | nil => exact .inr ⟨file, (Except.ok.inj h).symm, hfile []⟩

/-- With an empty part or the directory itself as its last part, a path leads to a directory or
nowhere. -/
theorem follow_last {s : Store} {names parts : List Text} {last : Text}
    (hlast : (last.isEmpty || last == Path.here) = true) {place : Place}
    (h : s.follow names (parts ++ [last]) = .ok place) :
    ∃ directory, place = .directory directory := by
  induction parts generalizing names with
  | nil =>
    rw [List.nil_append, follow] at h
    cases hlookup : s.lookupFault? names last with
    | some fault =>
      rw [hlookup] at h
      cases h
    | none =>
      simp only [hlookup, hlast, if_true] at h
      exact ⟨names, (Except.ok.inj h).symm⟩
  | cons part rest ih =>
    rw [List.cons_append] at h
    obtain ⟨next, hnext⟩ | ⟨fault, -, hfault⟩ | ⟨file, hfile⟩ := s.follow_cons names part
    · rw [← s.withFiles_self, hnext] at h
      exact ih h
    · rw [← s.withFiles_self, hfault] at h
      cases h
    · rw [← s.withFiles_self, hfile, if_neg (by simp)] at h
      cases h

/-! ## Paths to files -/

/-- The path names a file, whatever files there are. -/
def Leads (s : Store) (path : Text) (names : List Text) : Prop :=
  null ∉ path ∧
    ∀ files, (s.withFiles files).locate path = .ok ((s.withFiles files).placeOf names)

variable {s : Store} {path : Text} {names : List Text}

theorem locate_files {place : Place} (h : s.locate path = .ok place) :
    (∃ directory, place = .directory directory) ∨
      ∃ file, place = s.placeOf file ∧
        ∀ files, (s.withFiles files).locate path = .ok ((s.withFiles files).placeOf file) := by
  simp only [locate] at h ⊢
  split at h
  · cases h
  next hempty =>
  split at h
  · cases h
  next hlong =>
  simp only [if_neg hempty, if_neg hlong]
  exact follow_files h

/-- A path that ends at a file leads to it. -/
theorem leads_of_locate (hnull : null ∉ path) (h : s.locate path = .ok (.file names)) :
    s.Leads path names := by
  obtain ⟨directory, hplace⟩ | ⟨file, hplace, hfiles⟩ := locate_files h
  · cases hplace
  · obtain rfl := eq_of_placeOf_eq_file hplace.symm
    exact ⟨hnull, hfiles⟩

/-- A path that ends where a file can be made leads to it. -/
theorem leads_of_locate_vacant (hnull : null ∉ path) (h : s.locate path = .ok (.vacant names)) :
    s.Leads path names := by
  obtain ⟨directory, hplace⟩ | ⟨file, hplace, hfiles⟩ := locate_files h
  · cases hplace
  · obtain rfl := eq_of_placeOf_eq_vacant hplace.symm
    exact ⟨hnull, hfiles⟩

/-- Writing a file moves no path. -/
theorem Leads.write (h : s.Leads path names) (written : List Text) (bytes : Bytes) :
    (s.write written bytes).Leads path names := h

/-- Through a path one reads what its file holds. -/
theorem Leads.read (h : s.Leads path names) {bytes : Bytes} (hfile : s.file? names = some bytes) :
    s.read path = .ok bytes := by
  have hlocate : s.locate path = .ok (s.placeOf names) := h.2 s.files
  simp [Store.read, h.1, hlocate, placeOf, hfile]

theorem null_not_mem_of_read {bytes : Bytes} (h : s.read path = .ok bytes) : null ∉ path := by
  intro hnull
  simp [read, hnull] at h

theorem file?_of_read {bytes : Bytes} (h : s.read path = .ok bytes)
    (hlocate : s.locate path = .ok (.file names)) : s.file? names = some bytes := by
  have hnull := null_not_mem_of_read h
  simp only [read, List.contains_iff_mem, hnull, if_false, hlocate] at h
  split at h
  · cases h
  · next hfile => rw [hfile, Except.ok.inj h]

/-! ## Outputs -/

/-- No file is lost when one is written. -/
theorem isSome_file?_write (s : Store) (names : List Text) (bytes : Bytes) {other : List Text}
    (h : (s.file? other).isSome = true) : ((s.write names bytes).file? other).isSome = true := by
  by_cases hsame : other = names
  · rw [hsame, file?_write_self, Option.isSome_some]
  · rw [file?_write_of_ne s bytes hsame, h]

/-- An output that is not taken for a directory is located like any file, since its path does not end
in a slash. -/
theorem locateOutput_eq_locate {place : Place} (h : s.locateOutput path = .ok place)
    (hplace : ∀ directory, place ≠ .directory directory) : s.locateOutput path = s.locate path := by
  rw [locateOutput] at h ⊢
  split at h
  · next hslash =>
    obtain ⟨directory, rfl⟩ := follow_last rfl h
    exact absurd rfl (hplace directory)
  · next hslash => rw [if_neg hslash]

theorem placeOf_ne_directory (s : Store) (names directory : List Text) :
    s.placeOf names ≠ .directory directory := by
  rw [placeOf]
  split
  · exact Place.noConfusion
  · exact Place.noConfusion

/-- A path that names a file does not end in a slash, so as the path of an output it is followed in the
same way. -/
theorem Leads.locateOutput (h : s.Leads path names) : s.locateOutput path = .ok (s.placeOf names) := by
  have hlocate : s.locate path = .ok (s.placeOf names) := h.2 s.files
  rw [Store.locateOutput]
  split
  · next hslash =>
    simp only [Bool.and_eq_true, decide_eq_true_eq, Bool.not_eq_true'] at hslash
    obtain ⟨hlast, hshort⟩ := hslash
    have hparts : Text.splitOn '/' path = Text.splitOn '/' path.dropLast ++ [[]] := by
      rw [← Text.splitOn_concat, List.dropLast_append_getLast? _ hlast]
    have hempty : path.isEmpty = false := by
      cases path with
      | nil => cases hlast
      | cons c rest => rfl
    rw [locate, hempty, hshort, hparts] at hlocate
    obtain ⟨directory, hdirectory⟩ := follow_last rfl hlocate
    exact absurd hdirectory (placeOf_ne_directory s names directory)
  · exact hlocate

/-- Where a path names a file, only the rights decide whether it can be opened. -/
theorem Leads.open_eq (h : s.Leads path names) :
    s.openForWriting path =
      if s.mayWrite names then .ok (s.write names [], names) else .error (.system .notPermitted) := by
  rw [openForWriting, if_neg (by simpa using h.1), h.locateOutput, placeOf]
  cases (s.file? names).isSome with
  | false => rfl
  | true => rfl

/-- A file that may not be written is refused for that reason, whether it may be read or not. -/
theorem Leads.open_error (h : s.Leads path names) {fault : OpenFault}
    (hfault : s.openForWriting path = .error fault) : fault = .system .notPermitted := by
  rw [h.open_eq] at hfault
  split at hfault
  · cases hfault
  · exact (Except.error.inj hfault).symm

/-- The path names a file that may be written. -/
structure Opens (s : Store) (path : Text) (names : List Text) : Prop where
  /-- the path names the file -/
  leads : s.Leads path names
  /-- the file may be written -/
  permitted : s.mayWrite names = true

theorem Opens.open_eq (h : s.Opens path names) :
    s.openForWriting path = .ok (s.write names [], names) := by
  rw [h.leads.open_eq, if_pos h.permitted]

/-- **Opening an output**. The system refuses the path, or it is a directory, or it names a file. -/
theorem openForWriting_cases (hnull : null ∉ path) :
    (∃ refusal, s.locateOutput path = .error refusal ∧
      s.openForWriting path = .error (.system refusal)) ∨
    (∃ directory, s.locateOutput path = .ok (.directory directory) ∧
      s.openForWriting path = .error (.system .isDirectory)) ∨
    ∃ names, s.Leads path names := by
  have hopen : ¬ path.contains null = true := by simpa using hnull
  cases hplace : s.locateOutput path with
  | error refusal => exact .inl ⟨refusal, rfl, by rw [openForWriting, if_neg hopen, hplace]⟩
  | ok place =>
    cases place with
    | directory directory =>
      exact .inr (.inl ⟨directory, rfl, by rw [openForWriting, if_neg hopen, hplace]⟩)
    | file names =>
      have hlocate := locateOutput_eq_locate hplace fun _ => Place.noConfusion
      exact .inr (.inr ⟨names, leads_of_locate hnull (hlocate.symm.trans hplace)⟩)
    | vacant names =>
      have hlocate := locateOutput_eq_locate hplace fun _ => Place.noConfusion
      exact .inr (.inr ⟨names, leads_of_locate_vacant hnull (hlocate.symm.trans hplace)⟩)

theorem opens_of_openForWriting (h : (s.openForWriting path).map Prod.snd = .ok names) :
    s.Opens path names := by
  have hnull : null ∉ path := by
    intro hnull
    rw [openForWriting, if_pos (by simpa using hnull)] at h
    cases h
  obtain ⟨refusal, -, hopen⟩ | ⟨directory, -, hopen⟩ | ⟨file, hleads⟩ := s.openForWriting_cases hnull
  · rw [hopen] at h
    cases h
  · rw [hopen] at h
    cases h
  · rw [hleads.open_eq] at h
    split at h
    · next hpermitted =>
      obtain rfl := Except.ok.inj h
      exact ⟨hleads, hpermitted⟩
    · cases h

/-- Writing a file that may be written leaves the rights to write files as they are, also if it was made. -/
theorem mayWrite_write {target : List Text} (h : s.mayWrite target = true) (bytes : Bytes)
    (names : List Text) : (s.write target bytes).mayWrite names = s.mayWrite names := by
  have hdenied : ∀ access names, (s.write target bytes).denies access names = s.denies access names :=
    fun _ _ => rfl
  simp only [mayWrite, hdenied] at h ⊢
  by_cases hsame : names = target
  · subst hsame
    rw [file?_write_self, Option.isSome_some, Bool.true_or, h, Bool.and_true]
    exact (Bool.and_eq_true_iff.mp h).1
  · rw [file?_write_of_ne s bytes hsame]

/-- A file that can be opened can still be opened after any file was written. -/
theorem Opens.write (h : s.Opens path names) (written : List Text) (bytes : Bytes) :
    (s.write written bytes).Opens path names := by
  refine ⟨h.leads.write written bytes, ?_⟩
  obtain ⟨howned, hthere⟩ := Bool.and_eq_true_iff.mp h.permitted
  refine Bool.and_eq_true_iff.mpr ⟨howned, ?_⟩
  rcases Bool.or_eq_true_iff.mp hthere with hthere | hmade
  · exact Bool.or_eq_true_iff.mpr (.inl (isSome_file?_write s written bytes hthere))
  · exact Bool.or_eq_true_iff.mpr (.inr hmade)

/-- Bytes put over an empty file are its contents. -/
theorem overwrite_of_empty (h : s.file? names = some []) (bytes : Bytes) :
    s.overwrite names bytes = s.write names bytes := by
  simp [overwrite, h]

/-! ## Opening -/

/-- The path can be opened for writing. -/
def CanOpen (s : Store) (path : Text) : Prop := ∃ opened, s.openForWriting path = .ok opened

theorem canOpen_iff : s.CanOpen path ↔ ∃ names, s.Opens path names := by
  constructor
  · rintro ⟨⟨opened, names⟩, hopen⟩
    exact ⟨names, opens_of_openForWriting (by rw [hopen]; rfl)⟩
  · rintro ⟨names, hopens⟩
    exact ⟨_, hopens.open_eq⟩

/-- Opening an output opens no way for another one and closes none. -/
theorem Opens.canOpen_write_iff (h : s.Opens path names) (bytes : Bytes) {other : Text} :
    (s.write names bytes).CanOpen other ↔ s.CanOpen other := by
  simp only [canOpen_iff]
  refine exists_congr fun target => ⟨fun hopens => ⟨hopens.leads, ?_⟩, fun hopens => hopens.write _ _⟩
  rw [← mayWrite_write h.permitted bytes]
  exact hopens.permitted

theorem not_canOpen_of_error {fault : OpenFault} (h : s.openForWriting path = .error fault) :
    ¬ s.CanOpen path := by
  rintro ⟨opened, hopen⟩
  cases h.symm.trans hopen

/-- Without a null character in the path, it is the system that refuses to open it. -/
theorem exists_fault_of_open_error (hnull : null ∉ path) {fault : OpenFault}
    (h : s.openForWriting path = .error fault) : ∃ refusal, fault = .system refusal := by
  obtain ⟨refusal, -, hopen⟩ | ⟨directory, -, hopen⟩ | ⟨names, hleads⟩ := s.openForWriting_cases hnull
  · exact ⟨refusal, (Except.error.inj (hopen.symm.trans h)).symm⟩
  · exact ⟨.isDirectory, (Except.error.inj (hopen.symm.trans h)).symm⟩
  · exact ⟨.notPermitted, hleads.open_error h⟩

theorem read_eq_ok_iff (hnull : null ∉ path) {bytes : Bytes} :
    s.read path = .ok bytes ↔
      ∃ names, s.locate path = .ok (.file names) ∧ s.file? names = some bytes := by
  constructor
  · intro h
    rw [read, if_neg (by simpa using hnull)] at h
    cases hlocate : s.locate path with
    | error fault =>
      rw [hlocate] at h
      cases h
    | ok place =>
      rw [hlocate] at h
      cases place with
      | directory directory => cases h
      | vacant file => cases h
      | file file =>
        refine ⟨file, rfl, ?_⟩
        cases hfile : s.file? file with
        | none => simp [hfile] at h
        | some bytes' => simpa [hfile] using h
  · rintro ⟨names, hlocate, hfile⟩
    exact (leads_of_locate hnull hlocate).read hfile

/-! ### With the right to read -/

theorem null_not_mem_of_openForReading {bytes : Bytes} (h : s.openForReading path = .ok bytes) :
    null ∉ path := by
  intro hnull
  simp [openForReading, hnull] at h

theorem read_of_openForReading {bytes : Bytes} (h : s.openForReading path = .ok bytes) :
    s.read path = .ok bytes := by
  rw [openForReading, if_neg (by simpa using null_not_mem_of_openForReading h)] at h
  split at h
  · cases h
  · exact h

/-- **What can be opened to be read**: a file that may be read. -/
theorem openForReading_eq_ok_iff (hnull : null ∉ path) {bytes : Bytes} :
    s.openForReading path = .ok bytes ↔
      ∃ names, s.locate path = .ok (.file names) ∧ s.denies .read names = false ∧
        s.file? names = some bytes := by
  rw [openForReading, if_neg (by simpa using hnull)]
  constructor
  · intro h
    split at h
    · cases h
    next hreadable =>
    obtain ⟨names, hlocate, hfile⟩ := (read_eq_ok_iff hnull).mp h
    refine ⟨names, hlocate, ?_, hfile⟩
    simpa [isUnreadable, hlocate] using hreadable
  · rintro ⟨names, hlocate, hpermitted, hfile⟩
    rw [if_neg (by simpa [isUnreadable, hlocate] using hpermitted)]
    exact (read_eq_ok_iff hnull).mpr ⟨names, hlocate, hfile⟩

theorem exists_fault_of_openForReading_error (hnull : null ∉ path) {fault : OpenFault}
    (h : s.openForReading path = .error fault) : ∃ refusal, fault = .system refusal := by
  cases fault with
  | system refusal => exact ⟨refusal, rfl⟩
  | nullInPath =>
    rw [openForReading, if_neg (by simpa using hnull)] at h
    split at h
    · cases h
    · rw [read, if_neg (by simpa using hnull)] at h
      split at h
      · cases h
      · cases h
      · cases h
      · split at h <;> cases h

end Store

/-! ## Characters of a path -/

/-- Normalizing a path makes up no characters but the point and the slash. -/
theorem Path.mem_of_mem_normalize {path : Text} {c : Char} (h : c ∈ normalize path) :
    c ∈ path ∨ c = '.' ∨ c = '/' := by
  have hroot : c ∈ root path → c = '/' := by
    rw [root.eq_def]
    split <;> simp
  rw [normalize] at h
  split at h
  · exact .inr (.inl (List.mem_singleton.mp h))
  · next hnormal =>
    rcases List.mem_append.mp h with h | h
    · exact .inr (.inr (hroot h))
    · rcases Text.mem_of_mem_join h with h | ⟨part, hpart, hc⟩
      · exact .inr (.inr (List.mem_singleton.mp h))
      · refine .inl ?_
        rw [← Text.join_splitOn '/' path]
        exact Text.mem_join_of_mem (List.mem_filter.mp hpart).1 hc

theorem Path.null_not_mem_normalize {path : Text} (h : Store.null ∉ path) :
    Store.null ∉ normalize path := by
  intro hnull
  rcases mem_of_mem_normalize hnull with hnull | hpoint | hslash
  · exact h hnull
  · exact absurd hpoint (by decide)
  · exact absurd hslash (by decide)

end TwoPass
