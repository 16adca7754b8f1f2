import TwoPass.Proofs.Lines
import TwoPass.Source.Operand

/-!
# The parts of a line

A text that is not all blanks has a first token: `Line.Parts` is such a text cut into the blanks before
the token, the token, and what follows it, which is nothing or starts with a blank. Every text with a
token can be cut that way (`Line.exists_parts`), and what the assembler reads off a text is read off its
parts: the head of the statement is the token, and the tail is the trimmed rest
(`Statement.ofText?_text`).

Blanks around a text are lost on every reader. Trimming forgets them by definition, and so do the first
token, the text before a comment and the operand fields (`Line.firstToken?_trim`,
`Line.stripComment_trim`, `Operand.fields_trim`). A comment behind a gap is lost on the readers that
strip comments (`Line.stripComment_append_comment`).
-/

namespace TwoPass

/-! ## Blanks, gaps and tokens -/

namespace Text

/-- Is the text made of blanks only? -/
def isBlanks (t : Text) : Bool := t.all isBlank

/-- Is the text made of blanks, at least one? -/
def isGap (t : Text) : Bool := !t.isEmpty && isBlanks t

/-- Is the text made of characters that are not blank, at least one? -/
def isToken (t : Text) : Bool := !t.isEmpty && t.all fun c => !isBlank c

/-- Can the text stand right behind a token: is it empty, or is its first character a blank? -/
def endsToken (t : Text) : Bool := t.head?.all isBlank

theorem isBlank_of_isBlanks {t : Text} (h : isBlanks t = true) : ∀ c ∈ t, isBlank c = true :=
  List.all_eq_true.mp h

theorem isBlanks_of_isGap {t : Text} (h : isGap t = true) : isBlanks t = true :=
  (Bool.and_eq_true_iff.mp h).2

theorem isBlanks_append {t s : Text} (ht : isBlanks t = true) (hs : isBlanks s = true) :
    isBlanks (t ++ s) = true := by
  rw [isBlanks, List.all_append, Bool.and_eq_true]
  exact ⟨ht, hs⟩

theorem not_isBlank_of_isToken {t : Text} (h : isToken t = true) : ∀ c ∈ t, isBlank c = false := by
  intro c hc
  simpa using List.all_eq_true.mp (Bool.and_eq_true_iff.mp h).2 c hc

/-- A gap ends a token, whatever follows it. -/
theorem endsToken_append_of_isGap {gap : Text} (h : isGap gap = true) (t : Text) :
    endsToken (gap ++ t) = true := by
  cases gap with
  | nil => cases h
  | cons c gap => exact isBlank_of_isBlanks (isBlanks_of_isGap h) c List.mem_cons_self

/-- The semicolon is no blank, so it is never lost in trimming. -/
theorem semicolon_not_mem_of_isBlanks {t : Text} (h : isBlanks t = true) : ';' ∉ t := by
  intro hmem
  exact absurd (isBlank_of_isBlanks h ';' hmem) (by decide)

/-! ## Trimming and appending -/

theorem trimStart_append {blanks : Text} (h : isBlanks blanks = true) (t : Text) :
    trimStart (blanks ++ t) = trimStart t :=
  List.dropWhile_append_of_pos (isBlank_of_isBlanks h)

theorem trimEnd_append (t s : Text) :
    trimEnd (t ++ s) = if trimEnd s = [] then trimEnd t else t ++ trimEnd s := by
  rw [trimEnd, List.reverse_append, List.dropWhile_append]
  by_cases h : s.reverse.dropWhile isBlank = []
  · simp [trimEnd, h]
  · simp [trimEnd, h]

theorem trimEnd_eq_nil_iff {t : Text} : trimEnd t = [] ↔ isBlanks t = true :=
  List.rdropWhile_eq_nil_iff.trans List.all_eq_true.symm

/-- The two ends of a text can be trimmed in either order. -/
theorem trimStart_trimEnd (t : Text) : trimStart (trimEnd t) = trim t := by
  have hlead : isBlanks (t.takeWhile isBlank) = true := List.all_takeWhile
  have hsplit : t.takeWhile isBlank ++ trimStart t = t := List.takeWhile_append_dropWhile
  calc trimStart (trimEnd t)
    _ = trimStart (trimEnd (t.takeWhile isBlank ++ trimStart t)) := by rw [hsplit]
    _ = trim t := by
      rw [trimEnd_append]
      by_cases hnil : trimEnd (trimStart t) = []
      · rw [if_pos hnil, trimEnd_eq_nil_iff.mpr hlead, trim, hnil]
        rfl
      · rw [if_neg hnil, trimStart_append hlead]
        exact trimStart_trim t

@[simp] theorem trim_eq_nil_iff {t : Text} : trim t = [] ↔ isBlanks t = true := by
  rw [← trimStart_trimEnd]
  constructor
  · intro h
    -- what is left after the end is trimmed does not end with a blank, so it is empty
    have hall : ∀ c ∈ trimEnd t, isBlank c = true := List.dropWhile_eq_nil_iff.mp h
    refine trimEnd_eq_nil_iff.mp ?_
    have hsettled : trimEnd (trimEnd t) = trimEnd t := List.rdropWhile_idempotent isBlank t
    rw [← hsettled, trimEnd_eq_nil_iff]
    exact List.all_eq_true.mpr hall
  · intro h
    rw [trimEnd_eq_nil_iff.mpr h]
    rfl

/-- Blanks before a text are trimmed away. -/
theorem trim_append_left {blanks : Text} (h : isBlanks blanks = true) (t : Text) :
    trim (blanks ++ t) = trim t := by
  rw [trim, trimStart_append h]
  rfl

/-- Blanks behind a text are trimmed away. -/
theorem trim_append_right (t : Text) {blanks : Text} (h : isBlanks blanks = true) :
    trim (t ++ blanks) = trim t := by
  rw [← trimStart_trimEnd, trimEnd_append, if_pos (trimEnd_eq_nil_iff.mpr h), trimStart_trimEnd]

/-- A text is its trimmed text with blanks at both ends. -/
theorem exists_eq_append_trim (t : Text) :
    ∃ blanks blanks', isBlanks blanks = true ∧ isBlanks blanks' = true ∧
      t = blanks ++ (trim t ++ blanks') := by
  refine ⟨t.takeWhile isBlank, (trimStart t).rtakeWhile isBlank, List.all_takeWhile, ?_, ?_⟩
  · exact List.all_eq_true.mpr fun c hc => List.mem_rtakeWhile_imp hc
  · have hend : trim t ++ (trimStart t).rtakeWhile isBlank = trimStart t :=
      List.rdropWhile_append_rtakeWhile
    rw [hend]
    exact List.takeWhile_append_dropWhile.symm

/-- A function that does not see blanks at the ends of a text does not see trimming. -/
theorem apply_trim {α : Type} {f : Text → α}
    (hleft : ∀ blanks t, isBlanks blanks = true → f (blanks ++ t) = f t)
    (hright : ∀ blanks t, isBlanks blanks = true → f (t ++ blanks) = f t) (t : Text) :
    f (trim t) = f t := by
  obtain ⟨blanks, blanks', hblanks, hblanks', ht⟩ := exists_eq_append_trim t
  calc f (trim t)
    _ = f (trim t ++ blanks') := (hright blanks' _ hblanks').symm
    _ = f (blanks ++ (trim t ++ blanks')) := (hleft blanks _ hblanks).symm
    _ = f t := by rw [← ht]

end Text

/-! ## Parts -/

namespace Line

/-- A text cut at its first token. -/
structure Parts where
  /-- the blanks before the token -/
  lead : Text
  /-- the token -/
  token : Text
  /-- what follows the token -/
  rest : Text
  /-- there is nothing but blanks before the token -/
  isBlanks_lead : Text.isBlanks lead = true
  /-- the token has no blanks -/
  isToken_token : Text.isToken token = true
  /-- the token ends where the rest begins -/
  endsToken_rest : Text.endsToken rest = true

/-- The text that was cut. -/
def Parts.text (p : Parts) : Text := p.lead ++ (p.token ++ p.rest)

/-- Every text with something on it can be cut at its first token. -/
theorem exists_parts {t : Text} (h : Text.isBlanks t = false) : ∃ p : Parts, p.text = t := by
  have hstart : Text.trimStart t ≠ [] := by
    intro hnil
    have hall : Text.isBlanks t = true := List.all_eq_true.mpr (List.dropWhile_eq_nil_iff.mp hnil)
    rw [hall] at h
    cases h
  obtain ⟨c, behind, hcons⟩ := List.exists_cons_of_ne_nil hstart
  have hc : Text.isBlank c = false := Text.isBlank_of_trimStart_eq_cons hcons
  have hword : Text.word (Text.trimStart t) ++
      (Text.trimStart t).dropWhile (fun c => !Text.isBlank c) = Text.trimStart t :=
    List.takeWhile_append_dropWhile
  refine ⟨⟨t.takeWhile Text.isBlank, Text.word (Text.trimStart t),
    (Text.trimStart t).dropWhile fun c => !Text.isBlank c, List.all_takeWhile, ?_, ?_⟩, ?_⟩
  · have hall : (Text.word (Text.trimStart t)).all (fun c => !Text.isBlank c) = true :=
      List.all_takeWhile
    rw [Text.isToken, hall, hcons, Text.word, List.takeWhile_cons_of_pos (by simp [hc])]
    rfl
  · have hhead := List.head?_dropWhile_not (fun c => !Text.isBlank c) (Text.trimStart t)
    rw [Text.endsToken]
    split at hhead
    · next c hc => simpa [hc] using hhead
    · next hnone => rw [hnone]; rfl
  · rw [Parts.text, hword]
    exact List.takeWhile_append_dropWhile

namespace Parts

variable (p : Parts)

theorem token_ne_nil : p.token ≠ [] := by
  intro hnil
  have htoken := p.isToken_token
  rw [hnil] at htoken
  cases htoken

theorem trim_text : Text.trim p.text = p.token ++ Text.trimEnd p.rest := by
  have hblank := Text.not_isBlank_of_isToken p.isToken_token
  have hstart : Text.trimStart (p.token ++ p.rest) = p.token ++ p.rest := by
    obtain ⟨c, token, hcons⟩ := List.exists_cons_of_ne_nil p.token_ne_nil
    rw [hcons]
    exact Text.trimStart_of_not_isBlank _ (hblank c (hcons ▸ List.mem_cons_self))
  have hend : Text.trimEnd p.token = p.token := by
    refine List.rdropWhile_eq_self_iff.mpr fun hne => ?_
    rw [hblank _ (List.getLast_mem hne)]
    exact Bool.false_ne_true
  rw [text, Text.trim_append_left p.isBlanks_lead, Text.trim, hstart, Text.trimEnd_append, hend]
  split
  · next hnil => rw [hnil, List.append_nil]
  · rfl

/-- The first character of the trimmed text is that of the token. -/
theorem head?_trim_text : (Text.trim p.text).head? = p.token.head? := by
  rw [trim_text, List.head?_append_of_ne_nil _ p.token_ne_nil]

theorem word_trim_text : Text.word (Text.trim p.text) = p.token := by
  have hblank := Text.not_isBlank_of_isToken p.isToken_token
  have hrest : (Text.trimEnd p.rest).takeWhile (fun c => !Text.isBlank c) = [] := by
    cases hcons : Text.trimEnd p.rest with
    | nil => rfl
    | cons c behind =>
      obtain ⟨trail, htrail⟩ := Text.trimEnd_isPrefix p.rest
      have hc := p.endsToken_rest
      rw [← htrail, hcons, Text.endsToken] at hc
      exact List.takeWhile_cons_of_neg (by simpa using hc)
  rw [trim_text, Text.word, List.takeWhile_append_of_pos (by simpa using hblank), hrest,
    List.append_nil]

theorem afterWord_trim_text : Text.afterWord (Text.trim p.text) = Text.trim p.rest := by
  have hsplit : Text.word (Text.trim p.text) ++
      (Text.trim p.text).dropWhile (fun c => !Text.isBlank c) = Text.trim p.text :=
    List.takeWhile_append_dropWhile
  rw [word_trim_text, trim_text] at hsplit
  rw [Text.afterWord, trim_text, List.append_cancel_left hsplit, Text.trimStart_trimEnd]

end Parts

end Line

/-! ## Reading the parts -/

namespace Statement

/-- The tail of a statement whose head is followed by the text. -/
def tailOf (rest : Text) : Option Text :=
  if (Text.trim rest).isEmpty then none else some (Text.trim rest)

@[simp] theorem getD_tailOf (rest : Text) : (tailOf rest).getD [] = Text.trim rest := by
  rw [tailOf]
  split
  · next hempty => exact (List.isEmpty_iff.mp hempty).symm
  · rfl

/-- **A statement is read off its parts**. -/
theorem ofText?_text (p : Line.Parts) : ofText? p.text = some ⟨p.token, tailOf p.rest⟩ := by
  have hword := p.word_trim_text
  have hafter := p.afterWord_trim_text
  rw [ofText?]
  cases htrim : Text.trim p.text with
  | nil =>
    rw [htrim] at hword
    exact absurd hword.symm p.token_ne_nil
  | cons c rest =>
    rw [htrim] at hword hafter
    simp only [hword, hafter]
    rfl

theorem ofText?_of_isBlanks {t : Text} (h : Text.isBlanks t = true) : ofText? t = none := by
  rw [ofText?, Text.trim_eq_nil_iff.mpr h]

@[simp] theorem ofText?_trim (t : Text) : ofText? (Text.trim t) = ofText? t := by
  rw [ofText?, ofText?, Text.trim_trim]

/-- The statement that starts in a tail. -/
theorem bind_tailOf (rest : Text) : (tailOf rest).bind ofText? = ofText? rest := by
  rw [tailOf]
  split
  · next hempty =>
    rw [List.isEmpty_iff, Text.trim_eq_nil_iff] at hempty
    exact (ofText?_of_isBlanks hempty).symm
  · exact ofText?_trim rest

end Statement

namespace Line

theorem isInert_text (p : Parts) : isInert p.text = (p.token.head? == some ';') := by
  rw [← p.head?_trim_text, isInert]
  cases htrim : Text.trim p.text with
  | nil =>
    rw [Parts.trim_text, List.append_eq_nil_iff] at htrim
    exact absurd htrim.1 p.token_ne_nil
  | cons c rest => rfl

theorem isInert_of_isBlanks {t : Text} (h : Text.isBlanks t = true) : isInert t = true := by
  rw [isInert, Text.trim_eq_nil_iff.mpr h]

@[simp] theorem isInert_trim (t : Text) : isInert (Text.trim t) = isInert t := by
  rw [isInert, isInert, Text.trim_trim]

theorem firstToken?_text (p : Parts) : firstToken? p.text = some p.token := by
  rw [firstToken?, Statement.ofText?_text]
  rfl

theorem firstToken?_of_isBlanks {t : Text} (h : Text.isBlanks t = true) : firstToken? t = none := by
  rw [firstToken?, Statement.ofText?_of_isBlanks h]
  rfl

@[simp] theorem firstToken?_trim (t : Text) : firstToken? (Text.trim t) = firstToken? t := by
  rw [firstToken?, Statement.ofText?_trim]
  rfl

/-! ## Comments -/

theorem stripComment_append_left {blanks : Text} (h : Text.isBlanks blanks = true) (t : Text) :
    stripComment (blanks ++ t) = stripComment t := by
  have hblanks : ∀ c ∈ blanks, (c != ';') = true := by
    intro c hc
    refine bne_iff_ne.mpr ?_
    rintro rfl
    exact Text.semicolon_not_mem_of_isBlanks h hc
  rw [stripComment, List.takeWhile_append_of_pos hblanks, Text.trim_append_left h]
  rfl

/-- **A comment is lost** on whoever strips comments, and so are the blanks before it. -/
theorem stripComment_append (t : Text) {blanks : Text} (h : Text.isBlanks blanks = true)
    {comment : Text} (hcomment : comment.head?.all (· == ';') = true) :
    stripComment (t ++ (blanks ++ comment)) = stripComment t := by
  by_cases hmem : ';' ∈ t
  · -- the text has a comment already, and everything else lies behind its semicolon
    have hlength : (t.takeWhile (· != ';')).length ≠ t.length := by
      intro hlength
      have hself : t.takeWhile (· != ';') = t :=
        (List.takeWhile_prefix _).eq_of_length hlength
      exact absurd (List.takeWhile_eq_self_iff.mp hself ';' hmem) (by decide)
    rw [stripComment, List.takeWhile_append, if_neg hlength]
    rfl
  · have hfree : ∀ s : Text, ';' ∉ s → ∀ c ∈ s, (c != ';') = true := by
      intro s hs c hc
      refine bne_iff_ne.mpr ?_
      rintro rfl
      exact hs hc
    have hend : comment.takeWhile (· != ';') = [] := by
      cases comment with
      | nil => rfl
      | cons c comment => exact List.takeWhile_cons_of_neg (by simpa using hcomment)
    rw [stripComment, stripComment, List.takeWhile_append_of_pos (hfree t hmem),
      List.takeWhile_append_of_pos (hfree blanks (Text.semicolon_not_mem_of_isBlanks h)), hend,
      List.append_nil, Text.trim_append_right t h, List.takeWhile_eq_self_iff.mpr (hfree t hmem)]

@[simp] theorem stripComment_trim (t : Text) : stripComment (Text.trim t) = stripComment t := by
  refine Text.apply_trim (fun blanks t h => stripComment_append_left h t) ?_ t
  intro blanks t h
  have hcomment : ([] : Text).head?.all (· == ';') = true := rfl
  simpa using stripComment_append t h hcomment

end Line

@[simp] theorem Operand.fields_trim (t : Text) : fields (Text.trim t) = fields t := by
  rw [fields, fields, Line.stripComment_trim]

end TwoPass
