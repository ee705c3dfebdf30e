import Mathlib.Data.List.DropRight
import Mathlib.Data.List.TakeWhile
import Mathlib.Tactic
import Terrain.Document.Layout
import Terrain.Markup.Reading

/-!
# Elements that were written

A document that is written consists of elements only: some hold a text without a character that
markup gives a meaning to, others hold elements, and one without children may close itself. Such a
row of elements is read as it was written, wherever it stands.
-/

namespace Terrain.Markup

/-- A name that is written as it is and has no prefix. -/
def IsName (name : List Char) : Prop := name ≠ [] ∧ ∀ c ∈ name, c.isAlphanum = true

-- the characters of the list are gone through, and not all characters there are
instance (name : List Char) : Decidable (IsName name) :=
  @instDecidableAnd _ _ inferInstance (List.decidableBAll (Char.isAlphanum · = true) name)

/-- A text that is written as it is and has no blanks. -/
def IsPlain (text : List Char) : Prop := ∀ c ∈ text, c ≠ '<' ∧ c ≠ '&' ∧ isBlank c = false

/-- The element that holds a text. -/
def leaf (name text : List Char) : Node :=
  .element name [] (if text = [] then [] else [.text (some text)]) true

/-- The row of elements that a text writes. -/
inductive Writes : List Char → List Node → Prop where
  | nil : Writes [] []
  | leaf {name text : List Char} : IsName name → IsPlain text →
      Writes (Document.element name text) [leaf name text]
  | closed {name : List Char} : IsName name →
      Writes ('<' :: name ++ ['/', '>']) [.element name [] [] true]
  | element {name content : List Char} {nodes : List Node} : IsName name → Writes content nodes →
      Writes (Document.element name content) [.element name [] nodes true]
  | append {a b : List Char} {l m : List Node} : Writes a l → Writes b m → Writes (a ++ b) (l ++ m)

variable {name text content : List Char}

/-- Texts that write one node each are written in a row. -/
lemma Writes.flatMap {α : Type} {write : α → List Char} {node : α → Node} {items : List α}
    (h : ∀ a ∈ items, Writes (write a) [node a]) :
    Writes (items.flatMap write) (items.map node) := by
  induction items with
  | nil => exact .nil
  | cons a items ih =>
    rw [List.forall_mem_cons] at h
    exact h.1.append (ih h.2)

/-! ### Characters -/

lemma IsName.ne {c : Char} (h : IsName name) (hc : c.isAlphanum = false) : c ∉ name := by
  intro hmem
  have := h.2 c hmem
  rw [hc] at this
  contradiction

lemma not_isBlank_of_isAlphanum {c : Char} (h : c.isAlphanum = true) : isBlank c = false := by
  rw [← Bool.not_eq_true]
  intro hblank
  simp only [isBlank, Bool.or_eq_true, decide_eq_true_eq] at hblank
  rcases hblank with ((rfl | rfl) | rfl) | rfl <;> exact absurd h (by decide)

lemma IsPlain.not_mem_amp (h : IsPlain text) : '&' ∉ text := fun hmem => (h _ hmem).2.1 rfl

lemma IsPlain.trimStart (h : IsPlain text) : trimStart text = text := by
  cases text with
  | nil => rfl
  | cons c text => exact List.dropWhile_cons_of_neg (by simp [(h c List.mem_cons_self).2.2])

lemma IsPlain.trimEnd (h : IsPlain text) : trimEnd text = text := by
  have hreverse : IsPlain text.reverse := fun c hc => h c (List.mem_reverse.mp hc)
  rw [Markup.trimEnd, ← Markup.trimStart, hreverse.trimStart, List.reverse_reverse]

/-! ### Blanks at the ends -/

/-- A text without the blanks at its ends. -/
def trim (text : List Char) : List Char := trimEnd (trimStart text)

lemma IsPlain.trim (h : IsPlain text) : trim text = text := by
  rw [Markup.trim, h.trimStart, h.trimEnd]

lemma mem_of_mem_trim {c : Char} (h : c ∈ trim text) : c ∈ text :=
  (List.dropWhile_sublist _).mem ((List.rdropWhile_prefix isBlank _).mem h)

/-- Only a text of blanks is trimmed away. -/
lemma trim_eq_nil_iff : trim text = [] ↔ trimStart text = [] := by
  refine ⟨fun h => ?_, fun h => by rw [trim, h]; rfl⟩
  have hblank : ∀ c ∈ trimStart text, isBlank c = true := List.rdropWhile_eq_nil_iff.mp h
  by_contra hne
  exact absurd (hblank _ (List.head_mem hne))
    (Bool.not_eq_true _ ▸ List.head_dropWhile_not isBlank hne)

/-- Trimming takes away nothing but blanks. -/
lemma filter_trim {p : Char → Bool} (hp : ∀ c, isBlank c = true → p c = false)
    (text : List Char) : (trim text).filter p = text.filter p := by
  have hstart : ∀ text : List Char, (trimStart text).filter p = text.filter p := by
    intro text
    have hfront : (text.takeWhile isBlank).filter p = [] :=
      List.filter_eq_nil_iff.mpr fun c hc => by simp [hp c (List.mem_takeWhile_imp hc)]
    conv_rhs => rw [← List.takeWhile_append_dropWhile (p := isBlank) (l := text)]
    rw [List.filter_append, hfront, List.nil_append, trimStart]
  have hend : trimEnd (trimStart text) = (trimStart (trimStart text).reverse).reverse := rfl
  rw [trim, hend, List.filter_reverse, hstart, List.filter_reverse, List.reverse_reverse, hstart]

/-! ### Scanning -/

/-- The events of a row of characters between tags. -/
def textEvents (text : List Char) : List Event := if text = [] then [] else [.text text]

namespace Scan

variable {past : List Event} {opened : List (List Char)}

lemma read_cons (s : Scan) (c : Char) (text : List Char) :
    s.read (c :: text) = (s.step c).read text := rfl

lemma read_text (raw : List Char) (h : '<' ∉ text) :
    read ⟨past, opened, .text raw⟩ text = ⟨past, opened, .text (text.reverse ++ raw)⟩ := by
  induction text generalizing raw with
  | nil => rfl
  | cons c text ih =>
    rw [List.mem_cons, not_or] at h
    have hstep : step ⟨past, opened, .text raw⟩ c = ⟨past, opened, .text (c :: raw)⟩ :=
      if_neg (Ne.symm h.1)
    rw [read_cons, hstep, ih _ h.2, List.reverse_cons, List.append_assoc, List.singleton_append]

lemma read_tag (content : List Char) (h : IsName name) :
    read ⟨past, opened, .tag content none⟩ name =
      ⟨past, opened, .tag (name.reverse ++ content) none⟩ := by
  obtain ⟨-, h⟩ := h
  induction name generalizing content with
  | nil => rfl
  | cons c name ih =>
    rw [List.forall_mem_cons] at h
    have hend : c ≠ '>' := by
      rintro rfl
      exact absurd h.1 (by decide)
    have hquote : ¬(c = '"' ∨ c = '\'') := by
      rintro (rfl | rfl) <;> exact absurd h.1 (by decide)
    have hstep : step ⟨past, opened, .tag content none⟩ c =
        ⟨past, opened, .tag (c :: content) none⟩ := by
      simp [step, stepTag, hend, hquote]
    rw [read_cons, hstep, ih _ h.2, List.reverse_cons, List.append_assoc, List.singleton_append]

lemma read_endTag (content : List Char) (h : IsName name) :
    read ⟨past, opened, .endTag content⟩ name =
      ⟨past, opened, .endTag (name.reverse ++ content)⟩ := by
  obtain ⟨-, h⟩ := h
  induction name generalizing content with
  | nil => rfl
  | cons c name ih =>
    rw [List.forall_mem_cons] at h
    have hend : c ≠ '>' := by
      rintro rfl
      exact absurd h.1 (by decide)
    have hstep : step ⟨past, opened, .endTag content⟩ c = ⟨past, opened, .endTag (c :: content)⟩ :=
      if_neg hend
    rw [read_cons, hstep, ih _ h.2, List.reverse_cons, List.append_assoc, List.singleton_append]

/-- The name of a tag without attributes. -/
lemma takeWhile_name (h : IsName name) : name.takeWhile (fun c => !isBlank c) = name := by
  refine List.takeWhile_eq_self_iff.mpr fun c hc => ?_
  rw [not_isBlank_of_isAlphanum (h.2 c hc)]
  rfl

lemma dropWhile_name (h : IsName name) : name.dropWhile (fun c => !isBlank c) = [] := by
  refine List.dropWhile_eq_nil_iff.mpr fun c hc => ?_
  rw [not_isBlank_of_isAlphanum (h.2 c hc)]
  rfl

lemma endTag_reverse (s : Scan) (h : IsName name) :
    s.endTag name.reverse = ⟨.start name [] :: s.events, name :: s.opened, .text []⟩ := by
  have hopen : ¬name.reverse.head? = some '/' := by
    intro hslash
    exact h.ne (c := '/') (by decide) (List.mem_reverse.mp (List.mem_of_mem_head? hslash))
  rw [endTag]
  simp only [hopen, if_false, List.reverse_reverse, takeWhile_name h, dropWhile_name h]

lemma endTag_slash_reverse (s : Scan) (h : IsName name) :
    s.endTag ('/' :: name.reverse) = ⟨.stop :: .start name [] :: s.events, s.opened, .text []⟩ := by
  rw [endTag]
  simp [takeWhile_name h, dropWhile_name h, emit]

lemma endName_reverse (h : IsName name) : endName name.reverse = name := by
  have hkept : name.reverse.dropWhile isBlank = name.reverse := by
    refine List.dropWhile_eq_self_iff.mpr fun hl => ?_
    rw [not_isBlank_of_isAlphanum (h.2 _ (List.mem_reverse.mp (List.getElem_mem hl)))]
    exact Bool.false_ne_true
  rw [endName, hkept, ite_self, List.reverse_reverse]

lemma endText_reverse (s : Scan) :
    (s.endText text.reverse).events = textEvents text ++ s.events := by
  rw [endText, textEvents]
  cases text with
  | nil => rfl
  | cons c text => simp [emit]

/-- A start tag up to its name. -/
lemma read_open (text : List Char) (h : IsName name) :
    read ⟨past, opened, .text text.reverse⟩ ('<' :: name) =
      ⟨textEvents text ++ past, opened, .tag name.reverse none⟩ := by
  have hbracket : step ⟨past, opened, .text text.reverse⟩ '<' =
      ⟨textEvents text ++ past, opened, .opened⟩ := by
    rw [← endText_reverse ⟨past, opened, .text text.reverse⟩]
    rfl
  have hfirst : read ⟨textEvents text ++ past, opened, .opened⟩ name =
      read ⟨textEvents text ++ past, opened, .tag [] none⟩ name := by
    cases name with
    | nil => exact absurd rfl h.1
    | cons c name =>
      have hc : c ≠ '/' ∧ c ≠ '?' ∧ c ≠ '!' := by
        refine ⟨?_, ?_, ?_⟩ <;> rintro rfl <;> exact absurd (h.2 _ List.mem_cons_self) (by decide)
      rw [read_cons, read_cons]
      simp only [step, if_neg hc.1, if_neg hc.2.1, if_neg hc.2.2]
      rfl
  rw [read_cons, hbracket, hfirst, read_tag [] h, List.append_nil]

/-- An end tag and the characters in front of it. -/
lemma read_close (text : List Char) (h : IsName name) :
    read ⟨past, name :: opened, .text text.reverse⟩ ('<' :: '/' :: (name ++ ['>'])) =
      ⟨.stop :: (textEvents text ++ past), opened, .text []⟩ := by
  have hbracket : read ⟨past, name :: opened, .text text.reverse⟩ ['<', '/'] =
      ⟨textEvents text ++ past, name :: opened, .endTag []⟩ := by
    rw [← endText_reverse ⟨past, name :: opened, .text text.reverse⟩]
    rfl
  have hend : read ⟨textEvents text ++ past, name :: opened, .endTag name.reverse⟩ ['>'] =
      ⟨.stop :: (textEvents text ++ past), opened, .text []⟩ :=
    if_pos (endName_reverse h)
  have hsplit : '<' :: '/' :: (name ++ ['>']) = ['<', '/'] ++ (name ++ ['>']) := rfl
  rw [hsplit, read_append, hbracket, read_append, read_endTag [] h, List.append_nil, hend]

/-- A start tag without attributes, with what stands behind its name. -/
lemma read_startTag (h : IsName name) (ending : List Char) :
    read ⟨past, opened, .text []⟩ ('<' :: name ++ ending) =
      read ⟨past, opened, .tag name.reverse none⟩ ending := by
  have hopen : read ⟨past, opened, .text []⟩ ('<' :: name) =
      ⟨past, opened, .tag name.reverse none⟩ := read_open [] h
  rw [read_append, hopen]

/-- An element whose content ends with the given characters. -/
lemma read_element {past' : List Event} (text : List Char) (h : IsName name)
    (hcontent : read ⟨.start name [] :: past, name :: opened, .text []⟩ content =
      ⟨past', name :: opened, .text text.reverse⟩) :
    read ⟨past, opened, .text []⟩ (Document.element name content) =
      ⟨.stop :: (textEvents text ++ past'), opened, .text []⟩ := by
  have hsplit : Document.element name content =
      '<' :: name ++ (['>'] ++ (content ++ '<' :: '/' :: (name ++ ['>']))) := by
    simp [Document.element]
  have hstart : read ⟨past, opened, .tag name.reverse none⟩ ['>'] =
      ⟨.start name [] :: past, name :: opened, .text []⟩ :=
    endTag_reverse ⟨past, opened, .tag name.reverse none⟩ h
  rw [hsplit, read_startTag h, read_append, hstart, read_append, hcontent, read_close text h]

end Scan

/-- A text adds its events wherever it stands between tags. -/
def Scans (text : List Char) (events : List Event) : Prop :=
  ∀ past opened, Scan.read ⟨past, opened, .text []⟩ text = ⟨events.reverse ++ past, opened, .text []⟩

namespace Scans

open Scan

variable {events events' : List Event}

lemma append {a b : List Char} (ha : Scans a events) (hb : Scans b events') :
    Scans (a ++ b) (events ++ events') := by
  intro past opened
  rw [read_append, ha, hb, List.reverse_append, List.append_assoc]

lemma element (h : IsName name) (hcontent : Scans content events) :
    Scans (Document.element name content) (.start name [] :: events ++ [.stop]) := by
  intro past opened
  rw [read_element [] h (hcontent _ _)]
  simp [textEvents]

lemma leaf (h : IsName name) (htext : '<' ∉ text) :
    Scans (Document.element name text) (.start name [] :: textEvents text ++ [.stop]) := by
  intro past opened
  have hcontent : read ⟨.start name [] :: past, name :: opened, .text []⟩ text =
      ⟨.start name [] :: past, name :: opened, .text (text.reverse ++ [])⟩ := read_text [] htext
  rw [List.append_nil] at hcontent
  rw [read_element text h hcontent, textEvents]
  split <;> simp

lemma closed (h : IsName name) : Scans ('<' :: name ++ ['/', '>']) [.start name [], .stop] := by
  intro past opened
  rw [read_startTag h]
  exact endTag_slash_reverse ⟨past, opened, .tag ('/' :: name.reverse) none⟩ h

end Scans

/-! ### Gathering -/

/-- Events add their tokens wherever they stand behind a tag. -/
def Gathers (events : List Event) (tokens : List Token) : Prop :=
  ∀ done, events.foldl Gathering.step ⟨done, []⟩ = ⟨tokens.reverse ++ done, []⟩

/-- The tokens of a row of characters between tags. -/
def textTokens (text : List Char) : List Token := if text = [] then [] else [.text (some text)]

namespace Gathers

variable {events events' : List Event} {tokens tokens' : List Token}

lemma nil : Gathers [] [] := fun _ => rfl

lemma append (h : Gathers events tokens) (h' : Gathers events' tokens') :
    Gathers (events ++ events') (tokens ++ tokens') := by
  intro done
  rw [List.foldl_append, h, h', List.reverse_append, List.append_assoc]

lemma element (h : Gathers events tokens) :
    Gathers (.start name [] :: events ++ [.stop]) (.start name [] :: tokens ++ [.stop]) := by
  have hstart : Gathers [.start name []] [.start name []] := fun _ => rfl
  have hstop : Gathers [.stop] [.stop] := fun _ => rfl
  exact (hstart.append h).append hstop

lemma joinPieces_raw (h : '&' ∉ text) :
    joinPieces [.raw (trimStart text)] = some (trim text) := by
  have hvalue : expand? (trim text) = some (trim text) :=
    expand?_eq_self fun hmem => h (mem_of_mem_trim hmem)
  rw [trim] at hvalue
  simp [joinPieces, Piece.value?, trim, hvalue]

/-- The blanks at the ends of the text in an element are no part of it. -/
lemma trimmed (name : List Char) (h : '&' ∉ text) :
    Gathers (.start name [] :: textEvents text ++ [.stop])
      (.start name [] :: textTokens (trim text) ++ [.stop]) := by
  intro done
  by_cases hblank : trimStart text = []
  · rw [textEvents, textTokens, if_pos (trim_eq_nil_iff.mpr hblank)]
    split_ifs
    · rfl
    · simp [Gathering.step, Gathering.flush, addRaw, hblank]
  · have htrim : trim text ≠ [] := mt trim_eq_nil_iff.mp hblank
    have hempty : text ≠ [] := by
      rintro rfl
      exact hblank rfl
    simp [textEvents, textTokens, htrim, hempty, Gathering.step, Gathering.flush, addRaw, hblank,
      joinPieces_raw h]

lemma leaf (h : IsPlain text) :
    Gathers (.start name [] :: textEvents text ++ [.stop])
      (.start name [] :: textTokens text ++ [.stop]) := by
  have htrimmed := trimmed name h.not_mem_amp
  rwa [h.trim] at htrimmed

end Gathers

/-! ### Building -/

/-- Tokens add their nodes to the element in which they stand. -/
def Builds (tokens : List Token) (nodes : List Node) : Prop :=
  ∀ frame outer, tokens.foldl Building.step (.inside frame outer) =
    .inside { frame with children := nodes.reverse ++ frame.children } outer

namespace Builds

variable {tokens tokens' : List Token} {nodes nodes' : List Node}

lemma nil : Builds [] [] := fun _ _ => rfl

lemma append (h : Builds tokens nodes) (h' : Builds tokens' nodes') :
    Builds (tokens ++ tokens') (nodes ++ nodes') := by
  intro frame outer
  rw [List.foldl_append, h, h', List.reverse_append, List.append_assoc]

lemma element (h : Builds tokens nodes) :
    Builds (.start name [] :: tokens ++ [.stop]) [.element name [] nodes true] := by
  intro frame outer
  have hinner : (.start name [] :: tokens).foldl Building.step (.inside frame outer) =
      .inside ⟨name, [], nodes.reverse ++ []⟩ (frame :: outer) := h _ _
  have hnode : Frame.node ⟨name, [], nodes.reverse ++ []⟩ true = .element name [] nodes true := by
    rw [Frame.node, List.append_nil, List.reverse_reverse]
  rw [List.foldl_append, hinner, ← hnode]
  rfl

lemma textTokens (text : List Char) :
    Builds (textTokens text) (if text = [] then [] else [.text (some text)]) := by
  intro frame outer
  rw [Markup.textTokens]
  split <;> rfl

end Builds

/-! ### Reading -/

variable {nodes : List Node}

/-- What is written is scanned, gathered and built into the nodes that it writes. -/
theorem Writes.reads (h : Writes text nodes) :
    ∃ events tokens, Scans text events ∧ Gathers events tokens ∧ Builds tokens nodes := by
  induction h with
  | nil => exact ⟨[], [], fun _ _ => rfl, .nil, .nil⟩
  | leaf hname htext =>
    have hbracket : '<' ∉ _ := fun hmem => (htext _ hmem).1 rfl
    exact ⟨_, _, .leaf hname hbracket, .leaf htext, .element (.textTokens _)⟩
  | closed hname => exact ⟨_, _, .closed hname, .element .nil, .element .nil⟩
  | element hname _ ih =>
    obtain ⟨_, _, hscan, hgather, hbuild⟩ := ih
    exact ⟨_, _, hscan.element hname, hgather.element, hbuild.element⟩
  | append _ _ ih ih' =>
    obtain ⟨_, _, hscan, hgather, hbuild⟩ := ih
    obtain ⟨_, _, hscan', hgather', hbuild'⟩ := ih'
    exact ⟨_, _, hscan.append hscan', hgather.append hgather', hbuild.append hbuild'⟩

lemma Scans.events_eq {events : List Event} (h : Scans content events) (hname : IsName name) :
    Markup.events (Document.element name content) = .start name [] :: events ++ [.stop] := by
  have hfront : withoutByteOrderMark (Document.element name content) =
      Document.element name content := by
    simp [Document.element, withoutByteOrderMark, byteOrderMark]
  rw [Markup.events, hfront, Scan.start, h.element hname]
  simp [Scan.finish, Scan.endText]

/-- The root element around a content that is scanned, gathered and built. -/
lemma Scans.root?_element {events : List Event} {tokens : List Token} (hscan : Scans content events)
    (hgather : Gathers events tokens) (hbuild : Builds tokens nodes) (hname : IsName name) :
    root? (Document.element name content) = some (.element name [] nodes true) := by
  have htokens : Markup.tokens (.start name [] :: events ++ [.stop]) =
      .start name [] :: tokens ++ [.stop] := by
    rw [Markup.tokens, hgather.element]
    simp [Gathering.flush]
  have hinner : (.start name [] :: tokens).foldl Building.step .before =
      .inside ⟨name, [], nodes.reverse ++ []⟩ [] := hbuild _ _
  rw [root?, rootOfEvents?, hscan.events_eq hname, htokens, List.foldl_append, hinner]
  simp [Building.step, Building.finish, Frame.node]

/-- The root element of a document that was written. -/
theorem Writes.root?_element (h : Writes content nodes) (hname : IsName name) :
    root? (Document.element name content) = some (.element name [] nodes true) := by
  obtain ⟨events, tokens, hscan, hgather, hbuild⟩ := h.reads
  exact hscan.root?_element hgather hbuild hname

/-- A root element that holds one element, which holds a text with blanks at its ends. -/
theorem root?_element_leaf {field : List Char} (hname : IsName name) (hfield : IsName field)
    (hbracket : '<' ∉ text) (hamp : '&' ∉ text) :
    root? (Document.element name (Document.element field text)) =
      some (.element name [] [leaf field (trim text)] true) :=
  (Scans.leaf hfield hbracket).root?_element (.trimmed field hamp) (.element (.textTokens _)) hname

/-! ### Fields -/

lemma IsName.localName (h : IsName name) : localName name = name := by
  have hcolon : name.dropWhile (· ≠ ':') = [] := by
    refine List.dropWhile_eq_nil_iff.mpr fun c hc => ?_
    have hne : c ≠ ':' := fun hc' => h.ne (by decide) (hc' ▸ hc)
    simpa using hne
  rw [Markup.localName, hcolon]

lemma readText_leaf (name text : List Char) : readText (leaf name text) = .ok text := by
  rw [leaf]
  split_ifs with h
  · rw [h]
    rfl
  · rfl

lemma readValue_leaf {α : Type} {read? : List Char → Option α} {value : α} (name : List Char)
    (h : read? text = some value) : readValue read? (leaf name text) = .ok value := by
  rw [readValue, readText_leaf]
  change Except.bind (.ok text) _ = _
  simp only [Except.bind, h]
  rfl

lemma readRecord_element {σ : Type} (start : σ) (child : σ → Node → Except SchemaFault σ)
    (name : List Char) (nodes : List Node) :
    readRecord start child (.element name [] nodes true) = nodes.foldlM child start := by
  rw [readRecord]
  cases nodes.foldlM child start <;> rfl

lemma foldlM_cons_of_ok {σ : Type} {child : σ → Node → Except SchemaFault σ} {held held' : σ}
    {node : Node} (h : child held node = .ok held') (nodes : List Node) :
    (node :: nodes).foldlM child held = nodes.foldlM child held' := by
  rw [List.foldlM_cons, h]
  rfl

end Terrain.Markup
