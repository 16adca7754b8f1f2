import TwoPass.Command.Run
import TwoPass.Proofs.Listing

/-!
# What the outputs show

A message appears on an output through a console. All that is relied on is that the console is
`Console.Faithful`: a message without an escape appears as it is and ends its line, and of any message what
stands before its first escape appears as it is.

So messages that are fit for one line (`Text.isPresentable`) are the lines of the output. The message of
success is none of those about the progress, which makes its line a sign of success as long as no path
that is shown has line breaks in it (`Command.completed_mem_fileLines_iff`).

On the error output a report has to be told from the message of a trouble. An empty report starts with a
line feed, which no trouble does (`Command.echo_report_ne_empty`). Any report has a line feed in it
(`Report.feed_mem_text`), and a refusal of the system has none, since it shows the path in quotes
(`Text.isPresentable_quoted`, `Command.echo_report_ofOpen_ne`).
-/

namespace TwoPass

/-! ## Texts for one line -/

namespace Text

variable {t : Text}

/-- Is the text fit to be shown on one line as it is? It has neither a line break nor an escape. -/
def isPresentable (t : Text) : Bool := t.all fun c => !isFileBreak c && c != controlStart

theorem isPresentable_iff :
    t.isPresentable = true ↔ ∀ c ∈ t, isFileBreak c = false ∧ c ≠ controlStart := by
  simp [isPresentable]

theorem isPresentable_append {t u : Text} (ht : t.isPresentable = true) (hu : u.isPresentable = true) :
    isPresentable (t ++ u) = true := by
  rw [isPresentable, List.all_append, ← isPresentable, ← isPresentable, ht, hu, Bool.and_self]

theorem control_not_mem_of_isPresentable (h : t.isPresentable = true) : controlStart ∉ t :=
  fun hmem => (isPresentable_iff.mp h _ hmem).2 rfl

theorem feed_not_mem_of_isPresentable (h : t.isPresentable = true) : '\n' ∉ t :=
  fun hmem => absurd (isPresentable_iff.mp h _ hmem).1 (by decide)

end Text

namespace Numeral

theorem isPresentable_toDigits {base : Nat} (hbase : 1 < base) (hbase' : base ≤ 16) (n : Nat) :
    Text.isPresentable (Nat.toDigits base n) = true := by
  have hdigits : ∀ digit, digit < 16 →
      Text.isFileBreak digit.digitChar = false ∧ digit.digitChar ≠ Text.controlStart := by decide
  refine Text.isPresentable_iff.mpr fun c hc => ?_
  obtain ⟨digit, hdigit, rfl⟩ := exists_digitChar_of_mem_toDigits hbase hc
  exact hdigits digit (Nat.lt_of_lt_of_le hdigit hbase')

theorem isPresentable_decimal (n : Int) : Text.isPresentable (decimal n) = true := by
  cases n with
  | ofNat n => exact isPresentable_toDigits (by decide) (by decide) n
  | negSucc n => exact isPresentable_toDigits (by decide) (by decide) (n + 1)

theorem isPresentable_hex (width n : Nat) : Text.isPresentable (hex width n) = true := by
  have hfill : Text.isPresentable (List.replicate (width - (Nat.toDigits 16 n).length) '0') = true := by
    refine Text.isPresentable_iff.mpr fun c hc => ?_
    obtain rfl := List.eq_of_mem_replicate hc
    decide
  exact Text.isPresentable_append hfill (isPresentable_toDigits (by decide) (by decide) n)

end Numeral

namespace Text

theorem isPresentable_codeEscape (c : Char) : isPresentable (codeEscape c) = true := by
  rw [codeEscape]
  split
  · exact isPresentable_append (by decide) (Numeral.isPresentable_hex 2 c.toNat)
  · split
    · exact isPresentable_append (by decide) (Numeral.isPresentable_hex 4 c.toNat)
    · exact isPresentable_append (by decide) (Numeral.isPresentable_hex 8 c.toNat)

theorem isPresentable_escape {quote : Char} (hquote : isPresentable [quote] = true) (c : Char) :
    isPresentable (escape quote c) = true := by
  rw [escape]
  split
  · next h =>
    rcases h with rfl | rfl
    · decide
    · exact isPresentable_append (t := ['\\']) (by decide) hquote
  · split
    · decide
    split
    · decide
    split
    · decide
    split
    · next hfeed hreturn hprintable =>
      -- an escape is not printable, and the breaks have letters
      have hcontrol : c ≠ controlStart := by
        rintro rfl
        exact absurd hprintable (by decide)
      refine isPresentable_iff.mpr fun d hd => ?_
      obtain rfl := List.mem_singleton.mp hd
      exact ⟨by simp [isFileBreak, hfeed, hreturn], hcontrol⟩
    · exact isPresentable_codeEscape c

/-- **A quoted text is fit for one line**, whatever it has in it. -/
theorem isPresentable_quoted (t : Text) : isPresentable (quoted t) = true := by
  have hquote : isPresentable [quoteFor t] = true := by
    rw [quoteFor]
    split
    · decide
    · decide
  have hinside : isPresentable (t.flatMap (escape (quoteFor t))) = true := by
    refine isPresentable_iff.mpr fun d hd => ?_
    obtain ⟨c, -, hd⟩ := List.mem_flatMap.mp hd
    exact isPresentable_iff.mp (isPresentable_escape hquote c) d hd
  exact isPresentable_append (isPresentable_append (t := [quoteFor t]) hquote hinside) hquote

end Text

theorem SystemFault.isPresentable_report (f : SystemFault) (path : Text) :
    Text.isPresentable (f.report f.phrase path) = true := by
  have hphrase : Text.isPresentable f.phrase = true := by
    cases f with
    | notFound | notPermitted | alreadyThere | notDirectory | isDirectory | nameTooLong => decide
  have hnumber : Text.isPresentable ("[Errno ".toList ++ Numeral.decimal f.number) = true :=
    Text.isPresentable_append (by decide) (Numeral.isPresentable_decimal _)
  have hreason : Text.isPresentable
      ("[Errno ".toList ++ Numeral.decimal f.number ++ "] ".toList ++ f.phrase) = true :=
    Text.isPresentable_append (Text.isPresentable_append hnumber (by decide)) hphrase
  exact Text.isPresentable_append (Text.isPresentable_append hreason (by decide))
    (Text.isPresentable_quoted path)

/-! ## Consoles -/

/-- What stands before the first escape is no part of a control sequence. -/
theorem Text.withoutControls_append {before : Text} (h : controlStart ∉ before) (rest : Text) :
    withoutControls (before ++ rest) = before ++ withoutControls rest := by
  induction before with
  | nil => rfl
  | cons c before ih =>
    obtain ⟨hc, hbefore⟩ := not_or.mp (mt List.mem_cons.mpr h)
    have hnext : withoutControls (c :: (before ++ rest)) = c :: withoutControls (before ++ rest) := by
      rw [withoutControls, skipControls, if_neg (Ne.symm hc), withoutControls]
    rw [List.cons_append, hnext, ih hbefore, List.cons_append]

namespace Command

/-- What is relied on of a console. -/
structure Console.Faithful (console : Console) : Prop where
  /-- a message without an escape appears as it is, and ends its line -/
  plain : ∀ message, Text.controlStart ∉ message → console.echo message = message ++ ['\n']
  /-- of any message, what stands before an escape appears as it is -/
  start : ∀ before rest, Text.controlStart ∉ before → before <+: console.echo (before ++ rest)

theorem Console.faithful_usual : Console.usual.Faithful where
  plain message h := by
    have hmessage : Text.withoutControls message = message := by
      simpa [Text.withoutControls, Text.skipControls] using Text.withoutControls_append h []
    exact congrArg (· ++ ['\n']) hmessage
  start before rest h := by
    have hshown : usual.echo (before ++ rest) = before ++ (Text.withoutControls rest ++ ['\n']) := by
      rw [← List.append_assoc, ← Text.withoutControls_append h]
      rfl
    rw [hshown]
    exact List.prefix_append before _

variable {console : Console} {verbose : Bool} {s : Settings}

theorem Console.Faithful.flatMap_echo (h : console.Faithful) {messages : List Text}
    (hmessages : ∀ message ∈ messages, message.isPresentable = true) :
    messages.flatMap console.echo = endLines messages :=
  List.flatMap_congr fun message hmessage =>
    h.plain message (Text.control_not_mem_of_isPresentable (hmessages message hmessage))

theorem detail_append (console : Console) (verbose : Bool) (first second : List Text) :
    detail console verbose first ++ detail console verbose second =
      detail console verbose (first ++ second) := by
  cases verbose with
  | false => rfl
  | true => exact List.flatMap_append.symm

theorem trail_nil (verbose : Bool) : trail verbose [] = [] := by
  cases verbose with
  | false => rfl
  | true => rfl

theorem trail_append (verbose : Bool) (first second : List Event) :
    trail verbose first ++ trail verbose second = trail verbose (first ++ second) := by
  cases verbose with
  | false => rfl
  | true => simp [trail, endLines]

/-! ## Messages -/

/-- The message that the assembly starts. -/
def announcement (s : Settings) : Text := "Assembling ".toList ++ s.source ++ "...".toList

/-- The message of success. -/
def completed : Text := "Assembly completed successfully.".toList

/-- The messages about the progress of a run. -/
def progress (s : Settings) (run : Run) (exit : ExitCode) : List Text :=
  announcement s ::
    ((if exit.number ≤ 1 then s.symbols.toList.map ("Wrote symbols to ".toList ++ ·) else []) ++
      if exit = .success then counts s run else [])

/-- A message about the progress is one of these. -/
theorem progress_cases {run : Run} {exit : ExitCode} {message : Text}
    (h : message ∈ progress s run exit) :
    message = announcement s ∨ (∃ path ∈ s.symbols, message = "Wrote symbols to ".toList ++ path) ∨
      message ∈ counts s run := by
  rcases List.mem_cons.mp h with h | h
  · exact .inl h
  rcases List.mem_append.mp h with h | h
  · split at h
    · obtain ⟨path, hpath, rfl⟩ := List.mem_map.mp h
      exact .inr (.inl ⟨path, Option.mem_toList.mp hpath, rfl⟩)
    · cases h
  · split at h
    · exact .inr (.inr h)
    · cases h

theorem completed_not_mem_progress (s : Settings) (run : Run) (exit : ExitCode) :
    completed ∉ progress s run exit := by
  intro h
  obtain h | ⟨path, -, h⟩ | h := progress_cases h
  · have hstart : completed.take 8 = "Assembli".toList := congrArg (List.take 8) h
    exact absurd hstart (by decide)
  · have hstart : completed.head? = some 'W' := congrArg List.head? h
    exact absurd hstart (by decide)
  · -- the counts start with two other letters
    have hstart : completed.head? = some 'W' ∨ completed.head? = some 'D' := by
      rcases List.mem_cons.mp h with h | h
      · exact .inl (congrArg List.head? h)
      rcases List.mem_cons.mp h with h | h
      · exact .inl (congrArg List.head? h)
      · exact .inr (congrArg List.head? (List.mem_singleton.mp h))
    exact absurd hstart (by decide)

/-- Every message is fit for one line if all paths in it are. -/
theorem isPresentable_of_mem_progress {run : Run} {exit : ExitCode}
    (hpaths : ∀ path ∈ s.source :: s.listing :: s.load :: s.symbols.toList, path.isPresentable = true)
    {message : Text} (h : message ∈ progress s run exit) : message.isPresentable = true := by
  simp only [List.forall_mem_cons] at hpaths
  obtain ⟨hsource, hlisting, hload, hsymbols⟩ := hpaths
  have hcount (words : Text) (hwords : words.isPresentable = true) (n : Nat) :
      Text.isPresentable (words ++ Numeral.decimal n) = true :=
    Text.isPresentable_append hwords (Numeral.isPresentable_decimal n)
  obtain rfl | ⟨path, hpath, rfl⟩ | h := progress_cases h
  · exact Text.isPresentable_append (Text.isPresentable_append (by decide) hsource) (by decide)
  · exact Text.isPresentable_append (by decide) (hsymbols path (Option.mem_toList.mpr hpath))
  · rcases List.mem_cons.mp h with rfl | h
    · exact Text.isPresentable_append (by decide) hlisting
    rcases List.mem_cons.mp h with rfl | h
    · exact Text.isPresentable_append
        (Text.isPresentable_append (hcount _ (by decide) _) (by decide)) hload
    · obtain rfl := List.mem_singleton.mp h
      exact Text.isPresentable_append (hcount _ (by decide) _) (by decide)

/-- The messages on the standard output. -/
def messages (verbose : Bool) (s : Settings) (run : Run) (exit : ExitCode) : List Text :=
  (if verbose then progress s run exit else []) ++ if exit.number = 0 then [completed] else []

theorem completed_mem_messages_iff {run : Run} {exit : ExitCode} :
    completed ∈ messages verbose s run exit ↔ exit.number = 0 := by
  rw [messages, List.mem_append]
  constructor
  · rintro (h | h)
    · split at h
      · exact absurd h (completed_not_mem_progress s run exit)
      · cases h
    · split at h
      · next hexit => exact hexit
      · cases h
  · intro hexit
    rw [if_pos hexit]
    exact .inr List.mem_cons_self

section

variable (hpaths : verbose = true → ∀ path ∈ s.source :: s.listing :: s.load :: s.symbols.toList,
  path.isPresentable = true)

include hpaths

theorem isPresentable_of_mem_messages {run : Run} {exit : ExitCode} {message : Text}
    (h : message ∈ messages verbose s run exit) : message.isPresentable = true := by
  rcases List.mem_append.mp h with h | h
  · split at h
    · next hverbose => exact isPresentable_of_mem_progress (hpaths hverbose) h
    · cases h
  · split at h
    · obtain rfl := List.mem_singleton.mp h
      decide
    · cases h

/-- Each message is shown on a line of its own. -/
theorem endLines_messages (h : console.Faithful) (run : Run) (exit : ExitCode) :
    (detail console verbose (progress s run exit) ++
      if exit.number = 0 then completed ++ ['\n'] else []) =
      endLines (messages verbose s run exit) := by
  have hcompleted : console.echo completed = completed ++ ['\n'] := h.plain _ (by decide)
  rw [← h.flatMap_echo fun _ => isPresentable_of_mem_messages hpaths, messages, List.flatMap_append,
    detail]
  congr 1
  · split
    · rfl
    · rfl
  · split
    · exact (hcompleted.symm.trans (List.append_nil _).symm)
    · rfl

/-- **The line of success** is on the standard output exactly if it was put there at the end. -/
theorem completed_mem_fileLines_iff (h : console.Faithful) (run : Run) (exit : ExitCode) :
    completed ∈ Text.fileLines (detail console verbose (progress s run exit) ++
      if exit.number = 0 then completed ++ ['\n'] else []) ↔ exit.number = 0 := by
  have hlines : Text.fileLines (endLines (messages verbose s run exit)) =
      messages verbose s run exit := by
    refine Text.lines_endLines rfl rfl fun line hline c hc => ?_
    exact (Text.isPresentable_iff.mp (isPresentable_of_mem_messages hpaths hline) c hc).1
  rw [endLines_messages hpaths h, hlines]
  exact completed_mem_messages_iff

end

end Command

/-! ## Reports and troubles -/

theorem Report.feed_mem_text (r : Report) : '\n' ∈ r.text :=
  Text.mem_join_of_mem (List.mem_append_right _ List.mem_cons_self) List.mem_cons_self

namespace Command

variable {console : Console}

/-- A trouble has a heading on one line. -/
theorem Trouble.isPresentable_heading (trouble : Trouble) :
    Text.isPresentable (trouble.heading "Assembly".toList) = true := by
  rw [heading]
  cases trouble.exitCode with
  | success | buildError | invalidArguments | internalError => decide

/-- No message of a trouble is the empty report. -/
theorem echo_report_ne_empty (h : console.Faithful) (trouble : Trouble) :
    console.echo (trouble.report "Assembly".toList) ≠ Report.empty.text ++ ['\n'] := by
  intro heq
  obtain ⟨c, hhead, hc⟩ : ∃ c, (trouble.heading "Assembly".toList).head? = some c ∧ c ≠ '\n' := by
    rw [Trouble.heading]
    cases trouble.exitCode with
    | internalError => exact ⟨'I', rfl, by decide⟩
    | buildError => exact ⟨'A', rfl, by decide⟩
    | success | invalidArguments => exact ⟨'E', rfl, by decide⟩
  obtain ⟨rest, hrest⟩ :=
    h.start _ trouble.text (Text.control_not_mem_of_isPresentable trouble.isPresentable_heading)
  have hstart : (console.echo (trouble.report "Assembly".toList)).head? = some c := by
    rw [Trouble.report, ← hrest, List.head?_append, hhead, Option.some_or]
  rw [heq] at hstart
  exact hc (Option.some.inj hstart).symm

/-- No refusal to open a file is a report. -/
theorem echo_report_ofOpen_ne (h : console.Faithful) (path : Text) (fault : OpenFault) (r : Report) :
    console.echo ((Trouble.ofFailure (.ofOpen path fault)).report "Assembly".toList) ≠
      r.text ++ ['\n'] := by
  intro heq
  have htext : Text.isPresentable (Trouble.ofFailure (.ofOpen path fault)).text = true := by
    cases fault with
    | nullInPath =>
      have hwords : Text.isPresentable "embedded null byte".toList = true := by decide
      exact hwords
    | system fault => exact fault.isPresentable_report path
  have hpresentable : Text.isPresentable
      ((Trouble.ofFailure (.ofOpen path fault)).report "Assembly".toList) = true :=
    Text.isPresentable_append (Trouble.isPresentable_heading _) htext
  rw [h.plain _ (Text.control_not_mem_of_isPresentable hpresentable)] at heq
  have hfeed := r.feed_mem_text
  rw [← List.append_cancel_right heq] at hfeed
  exact Text.feed_not_mem_of_isPresentable hpresentable hfeed

end Command

end TwoPass
