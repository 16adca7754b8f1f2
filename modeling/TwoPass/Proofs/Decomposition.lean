import TwoPass.Proofs.Fields
import TwoPass.Proofs.Reading

/-!
# Lines in one way only

The readers of a line each take it apart anew: the statement on it, its first token, whether it starts with
a label, what the label is and what follows it, whether there is anything on it. They agree because there is
only one way to take a text apart. A trimmed text that is not empty is a token, or a token, a gap and a text
that is *tight*: it neither starts nor ends with a blank. `Line.Cut` is a text in that form.

Every text with something on it has a cut (`Line.exists_cut`), and whatever cut it has is what is read off it
(`Statement.ofText?_of_cut`). So it has no two of them: reading is a function, and it gives back the token and
the tail, which leave no choice for the gap (`Line.Cut.eq_of_text_eq_trim`). The other readers look at the head
and the tail of the cut, and none of them sees the blanks around the text.
-/

namespace TwoPass

/-! ## Tight texts -/

/-- The text is not empty, and neither its first character nor its last one is a blank. -/
structure Text.IsTight (t : Text) : Prop where
  /-- there is something in it -/
  ne_nil : t ≠ []
  /-- it does not start with a blank -/
  head : ∀ c, t.head? = some c → isBlank c = false
  /-- it does not end with a blank -/
  last : ∀ c, t.getLast? = some c → isBlank c = false

namespace Text

/-- There is nothing to trim from a tight text. -/
theorem IsTight.trim_eq {t : Text} (h : IsTight t) : trim t = t := trim_eq_self h.head h.last

theorem IsTight.isBlanks_eq {t : Text} (h : IsTight t) : isBlanks t = false := by
  rw [← Bool.not_eq_true, ← trim_eq_nil_iff, h.trim_eq]
  exact h.ne_nil

/-- Trimming makes a text tight, unless nothing is left of it. -/
theorem isTight_trim {t : Text} (h : isBlanks t = false) : IsTight (trim t) := by
  have hne : trim t ≠ [] := by
    rw [Ne, trim_eq_nil_iff, h]
    exact Bool.false_ne_true
  refine ⟨hne, fun c hc => ?_, fun c hc => ?_⟩
  · obtain ⟨rest, hrest⟩ := List.head?_eq_some_iff.mp hc
    exact isBlank_of_trim_eq_cons hrest
  · have hlast := List.rdropWhile_last_not isBlank (trimStart t) hne
    rw [← Option.some.inj ((List.getLast?_eq_some_getLast hne).symm.trans hc)]
    exact Bool.eq_false_iff.mpr hlast

end Text

/-! ## Cuts -/

namespace Line

/-- What stands behind the first token of a text: a gap and a tight text. -/
structure Remainder where
  /-- the blanks behind the token -/
  gap : Text
  /-- the text behind the blanks -/
  tail : Text
  /-- there is at least one blank -/
  isGap_gap : Text.isGap gap = true
  /-- all blanks before the text are in the gap, and there are none behind it -/
  isTight_tail : Text.IsTight tail

/-- A text without blanks around it, cut behind its first token. -/
structure Cut where
  /-- the token -/
  head : Text
  /-- what stands behind it, if anything does -/
  behind : Option Remainder
  /-- the token has no blanks -/
  isToken_head : Text.isToken head = true

namespace Cut

variable (c : Cut)

/-- What stands behind the token, as it is written. -/
def rest : Text := (c.behind.map fun r => r.gap ++ r.tail).getD []

/-- The text that was cut. -/
def text : Text := c.head ++ c.rest

/-- The token and the tail as a statement. -/
def statement : Statement := ⟨c.head, c.behind.map Remainder.tail⟩

theorem endsToken_rest : Text.endsToken c.rest = true := by
  rw [rest]
  cases c.behind with
  | none => rfl
  | some r => exact Text.endsToken_append_of_isGap r.isGap_gap r.tail

/-- The cut as parts, with no blanks before the token. -/
def parts : Parts := ⟨[], c.head, c.rest, rfl, c.isToken_head, c.endsToken_rest⟩

/-- Behind the token the gap is trimmed away, and the tail is left. -/
theorem tailOf_rest : Statement.tailOf c.rest = c.statement.tail := by
  rw [statement, rest]
  cases c.behind with
  | none => rfl
  | some r =>
    have htrim : Text.trim (r.gap ++ r.tail) = r.tail := by
      rw [Text.trim_append_left (Text.isBlanks_of_isGap r.isGap_gap), r.isTight_tail.trim_eq]
    change Statement.tailOf (r.gap ++ r.tail) = some r.tail
    rw [Statement.tailOf, htrim, if_neg]
    rw [List.isEmpty_iff]
    exact r.isTight_tail.ne_nil

end Cut

/-- **Every text with something on it has a cut**. -/
theorem exists_cut {t : Text} (h : Text.isBlanks t = false) : ∃ c : Cut, c.text = Text.trim t := by
  obtain ⟨p, rfl⟩ := exists_parts h
  rw [p.trim_text]
  by_cases hrest : Text.isBlanks p.rest = true
  · refine ⟨⟨p.token, none, p.isToken_token⟩, ?_⟩
    rw [Text.trimEnd_eq_nil_iff.mpr hrest]
    rfl
  · rw [Bool.not_eq_true] at hrest
    -- the gap is what trimming takes from the start of the rest; the rest starts with a blank
    have hgap : Text.isGap (p.rest.takeWhile Text.isBlank) = true := by
      have hends := p.endsToken_rest
      cases hcons : p.rest with
      | nil =>
        rw [hcons] at hrest
        cases hrest
      | cons c behind =>
        have hc : Text.isBlank c = true := by simpa [hcons, Text.endsToken] using hends
        have hall : ((c :: behind).takeWhile Text.isBlank).all Text.isBlank = true := List.all_takeWhile
        rw [Text.isGap, Text.isBlanks, hall, List.takeWhile_cons_of_pos hc]
        rfl
    have htight := Text.isTight_trim hrest
    have hsplit : Text.trimEnd p.rest = p.rest.takeWhile Text.isBlank ++ Text.trim p.rest := by
      conv_lhs => rw [← List.takeWhile_append_dropWhile (p := Text.isBlank) (l := p.rest)]
      rw [Text.trimEnd_append]
      exact if_neg htight.ne_nil
    refine ⟨⟨p.token, some ⟨_, _, hgap, htight⟩, p.isToken_token⟩, ?_⟩
    rw [hsplit]
    rfl

end Line

/-- **The cut is what is read**. -/
theorem Statement.ofText?_of_cut {t : Text} {c : Line.Cut} (h : c.text = Text.trim t) :
    ofText? t = some c.statement := by
  have hparts : c.parts.text = Text.trim t := h
  rw [← ofText?_trim, ← hparts, ofText?_text]
  exact congrArg some (congrArg (Statement.mk c.head) c.tailOf_rest)

namespace Line

/-- A text has only one cut. -/
theorem Cut.eq_of_text_eq_trim {t : Text} {c c' : Cut} (h : c.text = Text.trim t)
    (h' : c'.text = Text.trim t) : c = c' := by
  have hread : c.statement = c'.statement :=
    Option.some.inj ((Statement.ofText?_of_cut h).symm.trans (Statement.ofText?_of_cut h'))
  have htext : c.text = c'.text := h.trans h'.symm
  obtain ⟨head, behind, _⟩ := c
  obtain ⟨head', behind', _⟩ := c'
  obtain ⟨rfl, htail⟩ := Statement.mk.inj hread
  -- the heads agree, and so do the tails; what is between them is then the same too
  have hrest := List.append_cancel_left htext
  cases behind with
  | none =>
    cases behind' with
    | none => rfl
    | some r' => cases htail
  | some r =>
    cases behind' with
    | none => cases htail
    | some r' =>
      obtain ⟨gap, tail, _, _⟩ := r
      obtain ⟨gap', tail', _, _⟩ := r'
      obtain rfl : tail = tail' := Option.some.inj htail
      obtain rfl : gap = gap' := List.append_cancel_right hrest
      rfl

end Line

/-! ## The readers of a line -/

namespace Statement

theorem ofText?_eq_none_iff {t : Text} : ofText? t = none ↔ Text.isBlanks t = true := by
  refine ⟨fun hnone => ?_, ofText?_of_isBlanks⟩
  by_contra hblanks
  obtain ⟨c, hc⟩ := Line.exists_cut (Bool.eq_false_iff.mpr hblanks)
  rw [ofText?_of_cut hc] at hnone
  cases hnone

theorem isBlanks_of_ofText? {t : Text} {s : Statement} (h : ofText? t = some s) :
    Text.isBlanks t = false := by
  rw [← Bool.not_eq_true, ← ofText?_eq_none_iff, h]
  exact Option.some_ne_none s

/-- A tail is tight. -/
theorem isTight_tail {t : Text} {s : Statement} (h : ofText? t = some s) :
    ∀ tail, s.tail = some tail → Text.IsTight tail := by
  obtain ⟨c, hc⟩ := Line.exists_cut (isBlanks_of_ofText? h)
  obtain rfl : c.statement = s := Option.some.inj ((ofText?_of_cut hc).symm.trans h)
  intro tail htail
  obtain ⟨r, -, rfl⟩ := Option.map_eq_some_iff.mp htail
  exact r.isTight_tail

/-- A tail can be trimmed once more, and dropped if nothing is left of it, to no effect. -/
theorem filter_map_trim_tail {t : Text} {s : Statement} (h : ofText? t = some s) :
    ((s.tail.map Text.trim).filter fun rest => !rest.isEmpty) = s.tail := by
  cases htail : s.tail with
  | none => rfl
  | some tail =>
    have htight := isTight_tail h tail htail
    rw [Option.map_some, htight.trim_eq]
    exact Option.filter_some_pos (by simpa using htight.ne_nil)

end Statement

namespace Line

/-- **What taking a label off can give**: nothing from a text of blanks, the label and the tail from a text
that has a label, and the text itself from one that has none. -/
theorem peel_cases (t : Text) :
    (Statement.ofText? t = none ∧ peel t = ⟨none, none⟩) ∨
    (∃ s label, Statement.ofText? t = some s ∧ s.isLabel = true ∧ s.head = label ++ [':'] ∧
      peel t = ⟨some label, s.tail⟩) ∨
    (∃ s, Statement.ofText? t = some s ∧ s.isLabel = false ∧ peel t = ⟨none, some t⟩) := by
  rw [peel]
  cases hs : Statement.ofText? t with
  | none => exact .inl ⟨rfl, rfl⟩
  | some s =>
    cases hlabel : s.isLabel with
    | true =>
      have hhead := (Statement.dropLast_head_eq_iff hlabel).mp rfl
      exact .inr (.inl ⟨s, s.head.dropLast, rfl, hlabel, hhead, if_pos hlabel⟩)
    | false => exact .inr (.inr ⟨s, rfl, hlabel, if_neg (by simp [hlabel])⟩)

/-- Take a label off with care: what is behind it is trimmed once more, and dropped if nothing is left. -/
def peelWithCare (t : Text) : Labelled :=
  match Statement.ofText? t with
  | none => ⟨none, none⟩
  | some s =>
    if s.isLabel then
      ⟨some s.head.dropLast, (s.tail.map Text.trim).filter fun rest => !rest.isEmpty⟩
    else ⟨none, some t⟩

/-- The care is not needed. -/
theorem peelWithCare_eq (t : Text) : peelWithCare t = peel t := by
  rw [peelWithCare, peel]
  cases hs : Statement.ofText? t with
  | none => rfl
  | some s => simp only [Statement.filter_map_trim_tail hs]

theorem startsWithLabel_iff (t : Text) : startsWithLabel t = true ↔ (peel t).label.isSome = true := by
  rw [startsWithLabel]
  rcases peel_cases t with ⟨hs, hpeel⟩ | ⟨s, label, hs, hlabel, -, hpeel⟩ | ⟨s, hs, hlabel, hpeel⟩
  · simp [hs, hpeel]
  · simp [hs, hpeel, hlabel]
  · simp [hs, hpeel, hlabel]

theorem isBlanks_rest {t rest : Text} (h : (peel t).rest = some rest) :
    Text.isBlanks rest = false := by
  rcases peel_cases t with ⟨-, hpeel⟩ | ⟨s, label, hs, -, -, hpeel⟩ | ⟨s, hs, -, hpeel⟩
  · rw [hpeel] at h
    cases h
  · rw [hpeel] at h
    exact (Statement.isTight_tail hs rest h).isBlanks_eq
  · rw [hpeel] at h
    cases h
    exact Statement.isBlanks_of_ofText? hs

theorem isInert_iff (t : Text) :
    isInert t = true ↔
      firstToken? t = none ∨ ∃ head, firstToken? t = some head ∧ head.head? = some ';' := by
  cases hblanks : Text.isBlanks t with
  | true => simp [isInert_of_isBlanks hblanks, firstToken?_of_isBlanks hblanks]
  | false =>
    obtain ⟨p, rfl⟩ := exists_parts hblanks
    simp [isInert_text, firstToken?_text]

/-- Blanks around a text make no difference to its label; without a label they are in the rest. -/
theorem peel_trim (t : Text) :
    peel (Text.trim t) = ⟨(peel t).label, (peel t).rest.map Text.trim⟩ := by
  rw [peel, peel, Statement.ofText?_trim]
  cases hs : Statement.ofText? t with
  | none => rfl
  | some s =>
    cases hlabel : s.isLabel with
    | false => simp [hlabel]
    | true =>
      cases htail : s.tail with
      | none => simp [hlabel, htail]
      | some tail => simp [hlabel, htail, (Statement.isTight_tail hs tail htail).trim_eq]

/-- **A line can be taken apart in one way only, and all readers take it apart that way**. A text of blanks
has no statement. Any other has exactly one cut, and its statement is that of the cut. A text starts with a
label exactly if one can be taken off; the head is then the label with a colon, and the rest is the tail.
Without a label the rest is the text itself, if there is anything on it. The rest is never a text of blanks,
so there is no need for care in taking the label off. A text is inert if it has no head or one that starts
with a semicolon. Blanks around the text change none of this. -/
theorem decomposition (t : Text) :
    (Statement.ofText? t = none ↔ Text.isBlanks t = true) ∧
    (Text.isBlanks t = false → ∃ c : Cut, c.text = Text.trim t ∧
      Statement.ofText? t = some c.statement ∧ ∀ c' : Cut, c'.text = Text.trim t → c' = c) ∧
    (startsWithLabel t = true ↔ (peel t).label.isSome = true) ∧
    (∀ label, (peel t).label = some label → ∃ s, Statement.ofText? t = some s ∧
      s.head = label ++ [':'] ∧ (peel t).rest = s.tail) ∧
    ((peel t).label = none → (peel t).rest = if Text.isBlanks t then none else some t) ∧
    (∀ rest, (peel t).rest = some rest → Text.isBlanks rest = false) ∧
    peelWithCare t = peel t ∧
    (isInert t = true ↔
      firstToken? t = none ∨ ∃ head, firstToken? t = some head ∧ head.head? = some ';') ∧
    Statement.ofText? (Text.trim t) = Statement.ofText? t ∧
    firstToken? (Text.trim t) = firstToken? t ∧
    startsWithLabel (Text.trim t) = startsWithLabel t ∧
    isInert (Text.trim t) = isInert t ∧
    peel (Text.trim t) = ⟨(peel t).label, (peel t).rest.map Text.trim⟩ := by
  refine ⟨Statement.ofText?_eq_none_iff, fun h => ?_, startsWithLabel_iff t, fun label h => ?_,
    fun h => ?_, fun rest => isBlanks_rest, peelWithCare_eq t, isInert_iff t, Statement.ofText?_trim t,
    firstToken?_trim t, ?_, isInert_trim t, peel_trim t⟩
  · obtain ⟨c, hc⟩ := exists_cut h
    exact ⟨c, hc, Statement.ofText?_of_cut hc, fun c' hc' => Cut.eq_of_text_eq_trim hc' hc⟩
  · rcases peel_cases t with ⟨-, hpeel⟩ | ⟨s, label', hs, -, hhead, hpeel⟩ | ⟨s, -, -, hpeel⟩
    · rw [hpeel] at h
      cases h
    · rw [hpeel] at h
      cases h
      exact ⟨s, hs, hhead, by rw [hpeel]⟩
    · rw [hpeel] at h
      cases h
  · rcases peel_cases t with ⟨hs, hpeel⟩ | ⟨s, label', hs, -, hhead, hpeel⟩ | ⟨s, hs, -, hpeel⟩
    · rw [hpeel, if_pos (Statement.ofText?_eq_none_iff.mp hs)]
    · rw [hpeel] at h
      cases h
    · rw [hpeel, if_neg (by simp [Statement.isBlanks_of_ofText? hs])]
  · rw [startsWithLabel, Statement.ofText?_trim]
    rfl

-- a no-break space separates like any blank, and a zero-width space is part of the token
example :
    peel "\u00a0A\u200b:\u2003 HLT\u00a0".toList = ⟨some "A\u200b".toList, some "HLT".toList⟩ := by
  decide

/-- A labelled line with blanks around it and a gap of two kinds of blanks. -/
theorem decomposition_labelled :
    let t := " LOOP:\t LDA 1 ".toList
    Text.isBlanks t = false ∧
    (∃ c : Cut, c.text = "LOOP:\t LDA 1".toList ∧
      Statement.ofText? t = some c.statement ∧ ∀ c' : Cut, c'.text = "LOOP:\t LDA 1".toList → c' = c) ∧
    (peel t).label = some "LOOP".toList ∧
    ∃ s, Statement.ofText? t = some s ∧ s.head = "LOOP:".toList ∧ (peel t).rest = s.tail := by
  intro t
  have hblanks : Text.isBlanks t = false := by decide
  have htrim : Text.trim t = "LOOP:\t LDA 1".toList := by decide
  have hlabel : (peel t).label = some "LOOP".toList := by decide
  obtain ⟨-, hcut, -, hpeeled, -⟩ := decomposition t
  rw [← htrim]
  exact ⟨hblanks, hcut hblanks, hlabel, hpeeled _ hlabel⟩

end Line

end TwoPass
