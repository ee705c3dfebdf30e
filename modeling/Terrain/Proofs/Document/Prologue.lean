import Terrain.Proofs.Document.Data
import Terrain.Proofs.Markup.Prologue

/-!
# Documents with a prologue

A document is gone through twice, once for the name of its root element and once, without the
declaration, for what the root element holds. Both times the root element is found behind whatever may
stand in front of it, so a prologue does not change what is read (`Document.decode_prologue`).
-/

namespace Terrain

open Markup

variable {front : List Char} {c : Char}

namespace DocumentLayout

lemma ofEvents_blanks {blanks : List Event} (h : ∀ e ∈ blanks, e.IsBlank) (events : List Event) :
    ofEvents (blanks ++ events) = ofEvents events := by
  induction blanks with
  | nil => rfl
  | cons e blanks ih =>
    rw [List.forall_mem_cons] at h
    obtain ⟨⟨text, rfl, -⟩, hblanks⟩ := h
    exact ih hblanks

/-- The layout of a document is that of the root element behind the prologue. -/
lemma detect_prologue (h : IsPrologue front) (rest : List Char) :
    detect (front ++ '<' :: rest) = detect ('<' :: rest) := by
  obtain ⟨blanks, hblanks, hevents⟩ := h.exists_events rest
  rw [detect, detect, hevents, ofEvents_blanks hblanks]

end DocumentLayout

namespace Document

/-! ### Without the declaration -/

lemma body_blanks {blanks : List Char} (h : AllBlank blanks) (text : List Char) :
    body (blanks ++ text) = body text := by
  have hdrop : (blanks ++ text).dropWhile isSpace = text.dropWhile isSpace :=
    List.dropWhile_append_of_pos fun c hc => isSpace_of_isBlank (h c hc)
  rw [body, body, hdrop]

lemma afterInstruction?_append {text : List Char} (h : '>' ∉ text) (rest : List Char) :
    afterInstruction? (text ++ '?' :: '>' :: rest) = some rest := by
  induction text with
  | nil => rfl
  | cons c text ih =>
    rw [List.mem_cons, not_or] at h
    rw [List.cons_append, afterInstruction?.eq_2, ih h.2]
    intro after _ hafter
    cases text with
    | nil => simp at hafter
    | cons d text => exact h.2 (by simp [(List.cons.inj hafter).1])

/-- The declaration is cut off. -/
lemma body_declarationOf {content : List Char} (h : '>' ∉ content) (text : List Char) :
    body (declarationOf content ++ text) = text := by
  have hafter : afterInstruction? (declarationOf content ++ text) = some text := by
    have hmem : '>' ∉ "<?xml".toList ++ content := by simp [h]
    rw [declarationOf, List.append_assoc]
    exact afterInstruction?_append hmem text
  have hkept : (declarationOf content ++ text).dropWhile isSpace = declarationOf content ++ text :=
    List.dropWhile_cons_of_neg (by decide)
  have hfront : "<?xml".toList.isPrefixOf (declarationOf content ++ text) = true := by
    simp [declarationOf]
  rw [body]
  simp only [hkept, if_pos hfront, hafter, Option.getD_some]

/-- What is read of a document with a prologue has blanks and comments in front at most. -/
lemma exists_body_prologue (h : IsPrologue front) (hc : c ≠ '?') (rest : List Char) :
    ∃ misc, IsMisc misc ∧ body (front ++ '<' :: c :: rest) = misc ++ '<' :: c :: rest := by
  cases h with
  | plain hmisc =>
    induction hmisc with
    | nil => exact ⟨[], .nil, body_of_not_instruction hc rest⟩
    | @blank b misc hblank _ ih =>
      obtain ⟨misc', hmisc', hbody⟩ := ih
      exact ⟨misc', hmisc', (body_blanks (.singleton hblank) _).trans hbody⟩
    | comment hcontent hmisc _ =>
      exact ⟨_, .comment hcontent hmisc, body_of_not_instruction (by decide) _⟩
  | declared hblanks hcontent hmisc =>
    refine ⟨_, hmisc, ?_⟩
    rw [List.append_assoc, List.append_assoc, body_blanks hblanks, body_declarationOf hcontent]

/-- The record of a root element behind a prologue. -/
lemma readRoot_prologue {α : Type} (read : Node → Except SchemaFault α) (h : IsPrologue front)
    (hc : c ≠ '?') (rest : List Char) :
    readRoot read (front ++ '<' :: c :: rest) = readRoot read ('<' :: c :: rest) := by
  obtain ⟨misc, hmisc, hbody⟩ := exists_body_prologue h hc rest
  have hroot := (IsPrologue.plain hmisc).root?_eq (c :: rest)
  rw [readRoot, readRoot, hbody, body_of_not_instruction hc, hroot]

/-! ### Reading -/

/-- A prologue in front of a text that starts like an element, well-formed or not, changes nothing: the
same region is read, or the same error is met, and the same is noted in the log. -/
theorem decode_prologue (width height altitude : Nat) (front : List Char) (h : IsPrologue front)
    (c : Char) (hc : c.isAlpha = true) (rest : List Char) :
    decode width height altitude (front ++ '<' :: c :: rest) =
      decode width height altitude ('<' :: c :: rest) := by
  have hmark : c ≠ '?' := by
    rintro rfl
    exact absurd hc (by decide)
  have hlegacy : LegacyDocument.decode width height altitude (front ++ '<' :: c :: rest) =
      LegacyDocument.decode width height altitude ('<' :: c :: rest) := by
    rw [LegacyDocument.decode, LegacyDocument.decode, readRoot_prologue _ h hmark]
  have hversioned : VersionedDocument.decode (front ++ '<' :: c :: rest) =
      VersionedDocument.decode ('<' :: c :: rest) := by
    rw [VersionedDocument.decode, VersionedDocument.decode, readRoot_prologue _ h hmark]
  rw [decode, decode, DocumentLayout.detect_prologue h, hlegacy, hversioned]

/-- A declaration of another encoding and a comment, in front of a document and of a text that breaks
off. -/
theorem decode_prologue_comment :
    let front := "\n".toList ++ (declarationOf " version='9' encoding='utf-16'".toList ++
      '\t' :: (comment " <TerrainMap2 ".toList ++ []))
    IsPrologue front ∧
    (∃ r, (decode 1 1 7 (front ++ LegacyDocument.ofData "AACAPw==".toList)).result = .ok r ∧
      r.stored? 0 0 = some 100) ∧
    (decode 1 1 7 (front ++ "<TerrainMap a='".toList)).result = .error .malformedMarkup := by
  intro front
  have hfront : IsPrologue front :=
    .declared (by decide) (by decide) (.blank (by decide) (.comment (by decide) .nil))
  have hread := decode_prologue 1 1 7 front hfront 'T' (by decide)
  refine ⟨hfront, ?_, ?_⟩
  · have hlength : 1 * 1 ≤ ([0, 0, 128, 63] : List UInt8).length / 4 := by decide
    obtain ⟨r, hr, hfresh⟩ := LegacyDocument.exists_ofBytes (by decide) hlength 7
    have hfilter : "AACAPw==".toList.filter (fun c => !isDataBlank c) =
        Base64.encode [0, 0, 128, 63] := by decide
    have hscan := Scans.leaf LegacyDocument.isName_field
      (LegacyDocument.not_mem_of_filter hfilter (.inl rfl))
    have hone : LegacyDocument.cell 1 [0, 0, 128, 63] 0 0 = 100 := by decide +kernel
    refine ⟨r, ?_, hone ▸ hfresh.stored_eq (by decide) (by decide)⟩
    refine (congrArg Logged.result (hread _)).trans ?_
    exact (result_decode_of_legacy (DocumentLayout.detect_of_scans .legacy hscan) 1 1 7).trans
      ((LegacyDocument.decode_of_filter hfilter 1 1 7).trans hr)
  · exact (congrArg Logged.result (hread _)).trans rfl

end Document

end Terrain
