import Terrain.Proofs.Markup.Written

/-!
# In front of the root element

Blanks, comments and a declaration may stand in front of the root element. Scanning them leaves behind
texts of blanks at most (`Waits`), and what was scanned before the root element only stands in front of
its events (`read_behind`). Gathered, texts of blanks are nothing, so the root element is the same
without them (`rootOfEvents?_blanks`).
-/

namespace Terrain.Markup

/-! ### Texts of blanks -/

/-- A text in which there are only blanks. -/
def AllBlank (text : List Char) : Prop := ∀ c ∈ text, isBlank c = true

instance (text : List Char) : Decidable (AllBlank text) :=
  List.decidableBAll (isBlank · = true) text

/-- A text event that tells nothing. -/
def Event.IsBlank (e : Event) : Prop := ∃ text, e = .text text ∧ AllBlank text

variable {text content front body : List Char} {blanks : List Event} {s : Scan}

lemma AllBlank.singleton {c : Char} (h : isBlank c = true) : AllBlank [c] :=
  List.forall_mem_singleton.mpr h

lemma AllBlank.trimStart_eq_nil (h : AllBlank text) : trimStart text = [] :=
  List.dropWhile_eq_nil_iff.mpr h

lemma AllBlank.not_mem_bracket (h : AllBlank text) : '<' ∉ text := fun hmem =>
  absurd (h _ hmem) (by decide)

/-- One more text of blanks in front of others. -/
lemma AllBlank.forall_textEvents (h : AllBlank text) (hblanks : ∀ e ∈ blanks, e.IsBlank) :
    ∀ e ∈ textEvents text ++ blanks, e.IsBlank := by
  rw [textEvents]
  split_ifs
  · exact hblanks
  · exact List.forall_mem_cons.mpr ⟨⟨text, rfl, h⟩, hblanks⟩

/-- Texts of blanks are gathered into nothing. -/
lemma gather_blanks (h : ∀ e ∈ blanks, e.IsBlank) :
    blanks.foldl Gathering.step ⟨[], []⟩ = ⟨[], []⟩ := by
  induction blanks with
  | nil => rfl
  | cons e blanks ih =>
    rw [List.forall_mem_cons] at h
    obtain ⟨⟨text, rfl, htext⟩, hblanks⟩ := h
    have hstep : Gathering.step ⟨[], []⟩ (.text text) = ⟨[], []⟩ := by
      simp [Gathering.step, addRaw, htext.trimStart_eq_nil]
    rw [List.foldl_cons, hstep, ih hblanks]

/-- The root element is the same behind texts of blanks. -/
lemma rootOfEvents?_blanks (h : ∀ e ∈ blanks, e.IsBlank) (events : List Event) :
    rootOfEvents? (blanks ++ events) = rootOfEvents? events := by
  rw [rootOfEvents?, rootOfEvents?, tokens, tokens, List.foldl_append, gather_blanks h]

/-! ### What was scanned before -/

namespace Scan

/-- A scan with earlier events, which stand at the end because the last event comes first. -/
def behind (past : List Event) (s : Scan) : Scan := ⟨s.events ++ past, s.opened, s.mode⟩

variable (past : List Event)

lemma endText_behind (s : Scan) (raw : List Char) :
    (s.behind past).endText raw = (s.endText raw).behind past := by
  rw [endText, endText]
  split_ifs <;> rfl

lemma endTag_behind (s : Scan) (content : List Char) :
    (s.behind past).endTag content = (s.endTag content).behind past := by
  simp only [endTag]
  split_ifs <;> rfl

lemma closeElement_behind (s : Scan) (content : List Char) :
    (s.behind past).closeElement content = (s.closeElement content).behind past := by
  obtain ⟨events, opened, mode⟩ := s
  simp only [closeElement, behind]
  split
  · split_ifs <;> rfl
  · rfl

lemma endInstruction_behind (s : Scan) (content : List Char) :
    (s.behind past).endInstruction content = (s.endInstruction content).behind past := by
  simp only [endInstruction]
  split <;> rfl

lemma closeMark_behind (s : Scan) (kind : Mark) (content : List Char) (depth : Nat) :
    (s.behind past).closeMark kind content depth =
      (s.closeMark kind content depth).behind past := by
  simp only [closeMark]
  split
  · split_ifs <;> rfl
  · split_ifs <;> rfl
  · split_ifs <;> rfl
  · rfl

lemma stepTag_behind (s : Scan) (content : List Char) (quote : Option Char) (c : Char) :
    (s.behind past).stepTag content quote c = (s.stepTag content quote c).behind past := by
  cases quote with
  | some q => rfl
  | none =>
    simp only [stepTag]
    split_ifs
    · exact endTag_behind past s content
    · rfl
    · rfl

lemma stepMarked_behind (s : Scan) (c : Char) :
    (s.behind past).stepMarked c = (s.stepMarked c).behind past := by
  simp only [stepMarked]
  split_ifs <;> rfl

/-- No step looks at the events before it. -/
lemma step_behind (s : Scan) (c : Char) : (s.behind past).step c = (s.step c).behind past := by
  obtain ⟨events, opened, mode⟩ := s
  cases mode with
  | text raw =>
    have htext := endText_behind past ⟨events, opened, .text raw⟩ raw
    simp only [step, behind] at htext ⊢
    split_ifs
    · rw [htext]
    · rfl
  | opened =>
    simp only [step, behind]
    split_ifs
    · rfl
    · rfl
    · rfl
    · exact stepTag_behind past ⟨events, opened, .opened⟩ [] none c
  | tag content quote =>
    exact stepTag_behind past ⟨events, opened, .tag content quote⟩ content quote c
  | endTag name =>
    simp only [step, behind]
    split_ifs
    · exact closeElement_behind past ⟨events, opened, .endTag name⟩ name
    · rfl
  | instruction content =>
    simp only [step, behind]
    split_ifs
    · exact endInstruction_behind past ⟨events, opened, .instruction content⟩ content
    · rfl
  | marked => exact stepMarked_behind past ⟨events, opened, .marked⟩ c
  | mark kind content depth =>
    simp only [step, behind]
    split_ifs
    · exact closeMark_behind past ⟨events, opened, .mark kind content depth⟩ kind content depth
    · rfl
    · rfl
  | broken => rfl

lemma read_behind (s : Scan) (text : List Char) :
    (s.behind past).read text = (s.read text).behind past := by
  induction text generalizing s with
  | nil => rfl
  | cons c text ih => rw [read_cons, read_cons, step_behind, ih]

lemma finish_behind (s : Scan) : (s.behind past).finish = s.finish.behind past := by
  obtain ⟨events, opened, mode⟩ := s
  cases mode with
  | text raw => exact endText_behind past ⟨events, opened, .text raw⟩ raw
  | endTag name => exact closeElement_behind past ⟨events, opened, .endTag name⟩ name
  | instruction content =>
    exact endInstruction_behind past ⟨events, opened, .instruction content⟩ content
  | opened | broken | tag | marked | mark => rfl

end Scan

/-! ### Comments and declarations -/

/-- A comment. -/
def comment (content : List Char) : List Char := "<!--".toList ++ content ++ "-->".toList

/-- A declaration, with what it says. -/
def declarationOf (content : List Char) : List Char := "<?xml".toList ++ content ++ "?>".toList

namespace Scan

variable {past : List Event} {opened : List (List Char)}

lemma read_instruction (before : List Char) (h : '>' ∉ text) :
    read ⟨past, opened, .instruction before⟩ text =
      ⟨past, opened, .instruction (text.reverse ++ before)⟩ := by
  induction text generalizing before with
  | nil => rfl
  | cons c text ih =>
    rw [List.mem_cons, not_or] at h
    have hstep : step ⟨past, opened, .instruction before⟩ c =
        ⟨past, opened, .instruction (c :: before)⟩ := if_neg (Ne.symm h.1)
    rw [read_cons, hstep, ih _ h.2, List.reverse_cons, List.append_assoc, List.singleton_append]

lemma exists_read_mark (past : List Event) (opened : List (List Char)) (kind : Mark)
    (before : List Char) (depth : Nat) (h : '>' ∉ text) :
    ∃ depth', read ⟨past, opened, .mark kind before depth⟩ text =
      ⟨past, opened, .mark kind (text.reverse ++ before) depth'⟩ := by
  induction text generalizing before depth with
  | nil => exact ⟨depth, rfl⟩
  | cons c text ih =>
    rw [List.mem_cons, not_or] at h
    have hstep : step ⟨past, opened, .mark kind before depth⟩ c =
        ⟨past, opened, .mark kind (c :: before) (if c = '<' then depth + 1 else depth)⟩ :=
      if_neg (Ne.symm h.1)
    rw [read_cons, hstep, List.reverse_cons, List.append_assoc, List.singleton_append]
    exact ih _ _ h.2

lemma exists_append_eq_cons_cons (text : List Char) (a b : Char) (rest : List Char) :
    ∃ c d tail, text ++ a :: b :: rest = c :: d :: tail := by
  rcases text with _ | ⟨c, _ | ⟨d, text⟩⟩
  · exact ⟨a, b, rest, rfl⟩
  · exact ⟨c, a, b :: rest, rfl⟩
  · exact ⟨c, d, text ++ a :: b :: rest, rfl⟩

/-- A comment leaves nothing behind but the characters in front of it. -/
lemma read_comment (h : '>' ∉ content) (text : List Char) :
    read ⟨past, opened, .text text.reverse⟩ (comment content) =
      ⟨textEvents text ++ past, opened, .text []⟩ := by
  have hopen : read ⟨past, opened, .text text.reverse⟩ "<!--".toList =
      ⟨textEvents text ++ past, opened, .mark .comment ['-', '-'] 0⟩ := by
    rw [← endText_reverse ⟨past, opened, .text text.reverse⟩]
    rfl
  obtain ⟨depth, hcontent⟩ :=
    exists_read_mark (textEvents text ++ past) opened .comment ['-', '-'] 0 h
  have hbegins : beginsWith ['-', '-']
      ('-' :: '-' :: (content.reverse ++ ['-', '-'])).reverse = true := by
    simp [beginsWith]
  have hclose : read ⟨textEvents text ++ past, opened,
      .mark .comment (content.reverse ++ ['-', '-']) depth⟩ "-->".toList =
        ⟨textEvents text ++ past, opened, .text []⟩ := by
    obtain ⟨c, d, tail, hlong⟩ := exists_append_eq_cons_cons content.reverse '-' '-' []
    rw [hlong] at hbegins ⊢
    exact if_pos hbegins
  rw [comment, read_append, read_append, hopen, hcontent, hclose]

/-- So does a declaration. -/
lemma read_declarationOf (h : '>' ∉ content) (text : List Char) :
    read ⟨past, opened, .text text.reverse⟩ (declarationOf content) =
      ⟨textEvents text ++ past, opened, .text []⟩ := by
  have hopen : read ⟨past, opened, .text text.reverse⟩ "<?xml".toList =
      ⟨textEvents text ++ past, opened, .instruction ['l', 'm', 'x', '?']⟩ := by
    rw [← endText_reverse ⟨past, opened, .text text.reverse⟩]
    rfl
  have hclose : read ⟨textEvents text ++ past, opened,
      .instruction (content.reverse ++ ['l', 'm', 'x', '?'])⟩ "?>".toList =
        ⟨textEvents text ++ past, opened, .text []⟩ := by
    obtain ⟨c, d, tail, hlong⟩ := exists_append_eq_cons_cons content.reverse 'l' 'm' ['x', '?']
    rw [hlong]
    rfl
  rw [declarationOf, read_append, read_append, hopen, read_instruction _ h, hclose]

end Scan

/-! ### Prologues -/

/-- Blanks and comments in any order. -/
inductive IsMisc : List Char → Prop where
  | nil : IsMisc []
  | blank {c : Char} {rest : List Char} : isBlank c = true → IsMisc rest → IsMisc (c :: rest)
  | comment {content rest : List Char} : '>' ∉ content → IsMisc rest →
      IsMisc (comment content ++ rest)

/-- What may stand in front of a root element: blanks and comments, and in front of the first comment
a declaration. -/
inductive IsPrologue : List Char → Prop where
  | plain {misc : List Char} : IsMisc misc → IsPrologue misc
  | declared {blanks content misc : List Char} : AllBlank blanks → '>' ∉ content → IsMisc misc →
      IsPrologue (blanks ++ (declarationOf content ++ misc))

namespace Scan

/-- The reader still waits for the root element: it has met texts of blanks at most, and stands in
one. -/
def Waits (s : Scan) : Prop :=
  ∃ past text, (∀ e ∈ past, e.IsBlank) ∧ AllBlank text ∧ s = ⟨past, [], .text text.reverse⟩

lemma waits_start : start.Waits :=
  ⟨[], [], fun _ h => absurd h List.not_mem_nil, by decide, rfl⟩

/-- A mark that leaves nothing behind but the characters in front of it. -/
lemma Waits.of_read {mark : List Char} (h : s.Waits)
    (hread : ∀ past text, read ⟨past, [], .text text.reverse⟩ mark =
      ⟨textEvents text ++ past, [], .text []⟩) : (s.read mark).Waits := by
  obtain ⟨past, text, hpast, htext, rfl⟩ := h
  exact ⟨textEvents text ++ past, [], htext.forall_textEvents hpast, by decide, hread past text⟩

lemma Waits.read_blanks (h : s.Waits) (hfront : AllBlank front) : (s.read front).Waits := by
  obtain ⟨past, text, hpast, htext, rfl⟩ := h
  refine ⟨past, text ++ front, hpast, fun c hc => ?_, ?_⟩
  · exact (List.mem_append.mp hc).elim (htext c) (hfront c)
  · rw [read_text _ hfront.not_mem_bracket, List.reverse_append]

lemma Waits.read_misc (h : s.Waits) (hfront : IsMisc front) : (s.read front).Waits := by
  induction hfront generalizing s with
  | nil => exact h
  | blank hc _ ih => exact ih (h.read_blanks (.singleton hc))
  | comment hcontent _ ih =>
    rw [read_append]
    exact ih (h.of_read fun _ => read_comment hcontent)

/-- At the end of a prologue the reader waits. -/
lemma waits_read (h : IsPrologue front) : (start.read front).Waits := by
  cases h with
  | plain hmisc => exact waits_start.read_misc hmisc
  | declared hblanks hcontent hmisc =>
    rw [read_append, read_append]
    exact ((waits_start.read_blanks hblanks).of_read fun _ => read_declarationOf hcontent).read_misc
      hmisc

/-- A reader that waits goes on from a tag as one that starts there. -/
lemma Waits.exists_read_tag (h : s.Waits) (rest : List Char) :
    ∃ past, (∀ e ∈ past, e.IsBlank) ∧
      s.read ('<' :: rest) = (start.read ('<' :: rest)).behind past := by
  obtain ⟨past, text, hpast, htext, rfl⟩ := h
  refine ⟨textEvents text ++ past, htext.forall_textEvents hpast, ?_⟩
  have hopen : step ⟨past, [], .text text.reverse⟩ '<' =
      (start.step '<').behind (textEvents text ++ past) :=
    congrArg (fun events => Scan.mk events [] .opened) (endText_reverse _)
  rw [read_cons, hopen, read_behind, read_cons]

end Scan

/-! ### The root element behind a prologue -/

lemma IsMisc.eq_or_isBlank (h : IsMisc front) {rest : List Char} {c : Char}
    (hc : (front ++ '<' :: rest).head? = some c) : c = '<' ∨ isBlank c = true := by
  cases h with
  | nil => exact Or.inl (Option.some.inj hc).symm
  | blank hblank _ => exact Or.inr (Option.some.inj hc ▸ hblank)
  | comment _ _ => exact Or.inl (Option.some.inj hc).symm

/-- No byte order mark stands in front of a prologue. -/
lemma IsPrologue.withoutByteOrderMark (h : IsPrologue front) (rest : List Char) :
    withoutByteOrderMark (front ++ '<' :: rest) = front ++ '<' :: rest := by
  have hhead {c : Char} (hc : (front ++ '<' :: rest).head? = some c) :
      c = '<' ∨ isBlank c = true := by
    cases h with
    | plain hmisc => exact hmisc.eq_or_isBlank hc
    | @declared blanks content misc hblanks _ _ =>
      cases blanks with
      | nil => exact Or.inl (Option.some.inj hc).symm
      | cons b blanks => exact Or.inr (Option.some.inj hc ▸ hblanks b List.mem_cons_self)
  cases htext : front ++ '<' :: rest with
  | nil => rfl
  | cons c text =>
    refine if_neg fun hc => ?_
    rcases hhead (htext ▸ rfl : (front ++ '<' :: rest).head? = some c) with h' | h' <;>
      rw [hc] at h' <;> exact absurd h' (by decide)

/-- Behind a prologue the events are those of the root element, but for texts of blanks. -/
lemma IsPrologue.exists_events (h : IsPrologue front) (rest : List Char) :
    ∃ blanks, (∀ e ∈ blanks, e.IsBlank) ∧
      events (front ++ '<' :: rest) = blanks ++ events ('<' :: rest) := by
  obtain ⟨past, hpast, hread⟩ := (Scan.waits_read h).exists_read_tag rest
  refine ⟨past.reverse, fun e he => hpast e (List.mem_reverse.mp he), ?_⟩
  have hbare := (IsPrologue.plain .nil).withoutByteOrderMark rest
  rw [List.nil_append] at hbare
  rw [events, events, h.withoutByteOrderMark, hbare, Scan.read_append, hread, Scan.finish_behind,
    Scan.behind, List.reverse_append]

/-- The root element behind a prologue. -/
lemma IsPrologue.root?_eq (h : IsPrologue front) (rest : List Char) :
    root? (front ++ '<' :: rest) = root? ('<' :: rest) := by
  obtain ⟨blanks, hblanks, hevents⟩ := h.exists_events rest
  rw [root?, root?, hevents, rootOfEvents?_blanks hblanks]

end Terrain.Markup
