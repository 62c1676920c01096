/-
ProcBook/Proofs/Banner.lean

Documents with a banner and documents without one.

A source is trimmed as a whole before its banner goes, so what is left of it may start with blanks that
the same text without a banner does not have.  Such blanks are moved past one search at a time: they
belong to no word, so each phrase is found where it was (`find?_append_blanks`), the region of the
header and the inside of the documentation block stay what they were, and only the body shows the
blanks (`readDocument_append_blanks`).
-/
import ProcBook.Proofs.Document

namespace ProcBook.Text

/-! ### Searching behind blanks -/

/-- Of the character before a text only counts whether it belongs to a word. -/
theorem find?_of_previous {phrase : Phrase} {previous : Option Char}
    (h : previous.any isWord = false) (text : List Char) :
    find? phrase previous text = find? phrase none text := by
  cases text with
  | nil => rfl
  | cons c text =>
    have hread : readWhole? phrase previous (c :: text) = readWhole? phrase none (c :: text) := by
      simp [readWhole?, h]
    rw [find?, find?, hread]

/-- A blank in front of a text is in no match of a phrase of words, and shifts the match there is. -/
theorem find?_cons_blank {phrase : Phrase} (hp : IsPlain phrase) (hne : phrase ≠ []) {c : Char}
    (hc : isBlank c = true) (text : List Char) :
    find? phrase none (c :: text) = (find? phrase none text).map (Found.shift c) := by
  -- A written phrase starts with a letter.
  have hread : readWhole? phrase none (c :: text) = none := by
    rcases hr : readWhole? phrase none (c :: text) with - | ⟨written, rest⟩
    · rfl
    · obtain ⟨hw, htext, -, -⟩ := (readWhole?_eq_some_iff hp hne).1 hr
      obtain ⟨d, written, rfl, -, hd⟩ := hw.exists_cons hp
      obtain ⟨rfl, -⟩ := List.cons.inj htext
      rw [hc] at hd
      cases hd
  rw [find?, hread]
  simp only
  rw [find?_of_previous (by simp [isWord_of_isBlank hc])]

/-- Behind blanks a phrase is found where it was. -/
theorem find?_append_blanks {phrase : Phrase} (hp : IsPlain phrase) (hne : phrase ≠ [])
    {blanks : List Char} (hb : Blanks blanks) (text : List Char) :
    find? phrase none (blanks ++ text) =
      (find? phrase none text).map fun f => { f with before := blanks ++ f.before } := by
  induction blanks with
  | nil =>
    rw [List.nil_append]
    cases find? phrase none text <;> rfl
  | cons c blanks ih =>
    obtain ⟨hc, hrest⟩ := List.forall_mem_cons.1 hb
    rw [List.cons_append, find?_cons_blank hp hne hc, ih hrest, Option.map_map]
    rfl

/-- Blanks in front only lengthen what stands before the first of two phrases. -/
theorem findPair?_append_blanks {opening closing : Phrase} (hp : IsPlain opening)
    (hne : opening ≠ []) {blanks : List Char} (hb : Blanks blanks) (text : List Char) :
    findPair? opening closing (blanks ++ text) = (findPair? opening closing text).map
      fun (first, second) => ({ first with before := blanks ++ first.before }, second) := by
  rw [findPair?, findPair?, find?_append_blanks hp hne hb]
  cases find? opening none text with
  | none => rfl
  | some first =>
    simp only [Option.map_some]
    cases find? closing first.matched.getLast? first.after <;> rfl

end ProcBook.Text

namespace ProcBook.Sql

open Text (Blanks)

/-! ### Reading behind blanks -/

variable {blanks : List Char}

/-- Blanks in front of a text become part of what leads to its header. -/
theorem HeaderCut.ofText_append_blanks (hb : Blanks blanks) (text : List Char) :
    HeaderCut.ofText (blanks ++ text) =
      (HeaderCut.ofText text).map fun cut => { cut with lead := blanks ++ cut.lead } := by
  have hsign : (blanks ++ text).contains '@' = text.contains '@' := by
    have hblanks : '@' ∉ blanks := fun hc => absurd (hb _ hc) (by decide)
    simp [hblanks]
  rw [ofText, ofText, hsign, Text.find?_append_blanks (by decide) (by decide) hb]
  cases Text.find? procedureKeyword none text with
  | none => rfl
  | some keyword =>
    simp only [Option.map_some]
    split
    · rfl
    · cases Text.find? bodyKeyword keyword.matched.getLast? keyword.after with
      | none => rfl
      | some body =>
        show Except.ok _ = Except.ok _
        rw [List.append_assoc]

/-- What stands in front of a header moves its body along and changes nothing else. -/
theorem HeaderCut.header_append (cut : HeaderCut) (front : List Char) :
    HeaderCut.header { cut with lead := front ++ cut.lead } = cut.header.map fun header =>
      { header with bodyStart := Text.byteLength front + header.bodyStart } := by
  have hname : HeaderCut.name { cut with lead := front ++ cut.lead } = cut.name := rfl
  have hparameters : HeaderCut.parameters { cut with lead := front ++ cut.lead } =
    cut.parameters := rfl
  have hstart : HeaderCut.bodyStart { cut with lead := front ++ cut.lead } =
      Text.byteLength front + cut.bodyStart := by
    simp only [bodyStart, Text.byteLength_append, Nat.add_assoc]
  rw [header, header, hname, hparameters, hstart]
  split
  · rfl
  · split <;> rfl

/-- The docs block does not see blanks in front of the text. -/
theorem DocsBlock.ofText_append_blanks (hb : Blanks blanks) (text : List Char) :
    DocsBlock.ofText (blanks ++ text) = DocsBlock.ofText text := by
  rw [ofText, ofText, Text.findPair?_append_blanks (by decide) (by decide) hb]
  cases Text.findPair? startDocs endDocs text <;> rfl

/-- Blanks in front of a text show in the body, and in nothing else that is read. -/
theorem readDocument_append_blanks (hb : Blanks blanks) (schema : String) (text : List Char) :
    readDocument schema (blanks ++ text) = (readDocument schema text).map fun procedure =>
      { procedure with body := String.ofList (blanks ++ text) } := by
  rw [readDocument, readDocument, HeaderCut.ofText_append_blanks hb,
    DocsBlock.ofText_append_blanks hb]
  cases HeaderCut.ofText text with
  | error fault => rfl
  | ok cut =>
    simp only [Except.map, HeaderCut.header_append]
    cases cut.header with
    | error fault => rfl
    | ok header => cases DocsBlock.ofText text <;> rfl

end ProcBook.Sql

namespace ProcBook

open Sql (documentText readDocument)

/-- **Dropping a banner is the same as not having one.**  Both ways of reading fail with the same fault,
or they give the same record, but for the blanks in front of the body. -/
theorem Procedure.ofSource_banner {banner : String} (hline : '\n' ∉ banner.toList)
    (hshown : ∃ c ∈ banner.toList, Text.isBlank c = false) (schema source : String) :
    (∃ fault, Procedure.ofSource ⟨schema, true⟩ (banner ++ "\n" ++ source) = .error fault ∧
        Procedure.ofSource ⟨schema, false⟩ source = .error fault) ∨
      ∃ procedure, Procedure.ofSource ⟨schema, true⟩ (banner ++ "\n" ++ source) = .ok procedure ∧
        Procedure.ofSource ⟨schema, false⟩ source =
          .ok { procedure with body := String.ofList (Text.trimStart procedure.body.toList) } := by
  have hsource : (banner ++ "\n" ++ source).toList = banner.toList ++ '\n' :: source.toList := by
    simp
  -- The two texts differ by blanks at the front.
  obtain ⟨blanks, hb, htrim⟩ := Text.exists_append_trim source.toList
  have hdropped : Procedure.ofSource ⟨schema, true⟩ (banner ++ "\n" ++ source) =
      readDocument schema (blanks ++ Text.trim source.toList) := by
    rw [Procedure.ofSource, hsource, Sql.documentText_banner hline hshown, htrim]
  have hkept : Procedure.ofSource ⟨schema, false⟩ source =
      readDocument schema (Text.trim source.toList) := rfl
  rw [hdropped, hkept, Sql.readDocument_append_blanks hb]
  cases hread : readDocument schema (Text.trim source.toList) with
  | error fault => exact .inl ⟨fault, rfl, rfl⟩
  | ok procedure =>
    obtain ⟨cut, header, docs, -, -, -, rfl⟩ := Sql.readDocument_eq_ok hread
    refine .inr ⟨_, rfl, ?_⟩
    have hbody : Text.trimStart (blanks ++ Text.trim source.toList) = Text.trim source.toList := by
      rw [Text.trimStart_append_blanks hb, Text.trimStart_of_head (Text.isTrimmed_trim _).head]
    simp only [String.toList_ofList, hbody]

/-- A document behind an empty line and blanks. -/
def indentedSource : String :=
  "\n  procedure [p] @a INT as -- start docs\n\x7b\"description\": \"\", \"returns\": []\x7d end docs"

/-- Behind a banner an indented document keeps its blanks, on its own it loses them. -/
theorem Procedure.ofSource_banner_indentedSource :
    let procedure : Procedure := { name := "p", body := indentedSource, parameters := ["@a INT"] }
    Procedure.ofSource ⟨"dbo", true⟩ ("/* p */" ++ "\n" ++ indentedSource) = .ok procedure ∧
      Procedure.ofSource ⟨"dbo", false⟩ indentedSource =
        .ok { procedure with body := String.ofList (indentedSource.toList.drop 3) } := by
  intro procedure
  have hread : Procedure.ofSource ⟨"dbo", true⟩ ("/* p */" ++ "\n" ++ indentedSource) =
      .ok procedure := by decide +kernel
  have hline : '\n' ∉ "/* p */".toList := by decide
  have hshown : ∃ c ∈ "/* p */".toList, Text.isBlank c = false := ⟨'p', by decide, by decide⟩
  obtain ⟨fault, hfault, -⟩ | ⟨procedure', hdropped, hkept⟩ :=
    Procedure.ofSource_banner hline hshown "dbo" indentedSource
  · rw [hread] at hfault
    cases hfault
  · have hsame : procedure = procedure' := Except.ok.inj (hread.symm.trans hdropped)
    have hbody : Text.trimStart procedure.body.toList = indentedSource.toList.drop 3 := by decide
    rw [← hsame, hbody] at hkept
    exact ⟨hread, hkept⟩

end ProcBook
