/-
ProcBook/Proofs/Header.lean

What is read as a header, and that nothing around a header matters.

`HeaderPieces` are the pieces of a text that is cut at its keywords.  `HeaderPieces.IsCut` says without
any search that the cut is the right one, and `HeaderCut.ofText_eq_ok_iff` that this is the cut which is
found.  Everything else follows from it: the name and the parameters are cut out of the region between
the keywords, always at characters that belong to no word, so they are parts of the region
(`Text.IsPart`) and hold no keyword that the region does not hold.

Main results: `Header.ofText_sound`, for what a header and its text have to do with each other, and
`Header.ofText_surroundings`, for replacing what stands before and behind the header.
-/
import ProcBook.Proofs.Parameters
import ProcBook.Proofs.Parts
import ProcBook.Sql.Header

namespace ProcBook.Sql

open Text (Holds HoldsAfter IsFirst IsPart StandsAt Written isWord)

/-! ### Cutting at the keywords -/

/-- The pieces of a text with a header. -/
structure HeaderPieces where
  before : List Char
  /-- The keyword before the name, as it is written. -/
  keyword : List Char
  region : List Char
  /-- The keyword before the body, as it is written. -/
  body : List Char
  after : List Char

namespace HeaderPieces

/-- What stands in front of the keyword before the body. -/
def front (p : HeaderPieces) : List Char := p.before ++ p.keyword ++ p.region

/-- The text that was cut. -/
def text (p : HeaderPieces) : List Char := p.front ++ p.body ++ p.after

/-- The cut, in which the keywords are not told apart from what stands beside them. -/
def cut (p : HeaderPieces) : HeaderCut := ⟨p.before ++ p.keyword, p.region, p.body ++ p.after⟩

/-- The pieces meet at the keywords: each keyword is a whole word, and none stands before it. -/
structure IsCut (p : HeaderPieces) : Prop where
  keyword : Written procedureKeyword p.keyword
  body : Written bodyKeyword p.body
  no_keyword : ¬ Holds procedureKeyword p.before
  no_body : ¬ Holds bodyKeyword p.region
  region_ne_nil : p.region ≠ []
  before_end : p.before.getLast?.any isWord = false
  region_start : p.region.head?.any isWord = false
  region_end : p.region.getLast?.any isWord = false
  after_start : p.after.head?.any isWord = false

variable {p : HeaderPieces}

/-- The first keyword of the pieces is the one that is found. -/
theorem IsCut.find?_keyword (h : p.IsCut) : Text.find? procedureKeyword none p.text =
    some ⟨p.before, p.keyword, p.region ++ (p.body ++ p.after)⟩ := by
  have htext : p.text = p.before ++ (p.keyword ++ (p.region ++ (p.body ++ p.after))) := by
    simp [text, front]
  rw [htext]
  apply Text.find?_append_written (by decide) (by decide) h.keyword h.no_keyword
  · exact ⟨Text.cutsNoWord_of_getLast h.before_end _, by simp [procedureKeyword]⟩
  · rw [Option.or_none]
    exact h.before_end
  · rw [List.head?_append_of_ne_nil _ h.region_ne_nil]
    exact h.region_start

/-- So is the keyword of the body behind it. -/
theorem IsCut.find?_body (h : p.IsCut) (previous : Option Char) :
    Text.find? bodyKeyword previous (p.region ++ (p.body ++ p.after)) =
      some ⟨p.region, p.body, p.after⟩ := by
  apply Text.find?_append_written (by decide) (by decide) h.body (fun hr => h.no_body hr.holds)
  · exact ⟨Text.cutsNoWord_of_getLast h.region_end _, by simp [bodyKeyword]⟩
  · rw [Text.getLast?_or_of_ne_nil h.region_ne_nil]
    exact h.region_end
  · exact h.after_start

/-- What a search for one keyword and then for the other finds is a cut. -/
theorem isCut_of_find? {keyword body : Text.Found} {text : List Char}
    (hkeyword : Text.find? procedureKeyword none text = some keyword)
    (hbody : Text.find? bodyKeyword keyword.matched.getLast? keyword.after = some body) :
    IsCut ⟨keyword.before, keyword.matched, body.before, body.matched, body.after⟩ := by
  have hfirst := Text.isFirst_of_find? (by decide) (by decide) hkeyword
  have hsecond := Text.isFirst_of_find? (by decide) (by decide) hbody
  have hafter : body.before ++ body.matched ++ body.after = keyword.after :=
    Text.text_of_find? hbody
  -- The second keyword does not follow the first at once, since a word ends there.
  have hregion : body.before ≠ [] := by
    intro hnil
    obtain ⟨c, rest, hmatched, hc, -⟩ := hsecond.written.exists_cons (by decide)
    have hright := hfirst.right
    rw [← hafter, hnil, hmatched] at hright
    simp [hc] at hright
  have hstart : body.before.head?.any isWord = false := by
    have hright := hfirst.right
    rwa [← hafter, List.append_assoc, List.head?_append_of_ne_nil _ hregion] at hright
  have hend : body.before.getLast?.any isWord = false := by
    have hleft := hsecond.left
    rwa [Text.getLast?_or_of_ne_nil hregion] at hleft
  have hbefore : keyword.before.getLast?.any isWord = false := by
    have hleft := hfirst.left
    rwa [Option.or_none] at hleft
  exact {
    keyword := hfirst.written
    body := hsecond.written
    no_keyword := hfirst.not_holdsAfter (by decide)
    no_body := fun h => hsecond.not_holdsAfter (by decide) (h.after (by decide) hstart _)
    region_ne_nil := hregion
    before_end := hbefore
    region_start := hstart
    region_end := hend
    after_start := hsecond.right }

end HeaderPieces

/-- **A text is cut exactly at its keywords**, if it holds the sign of a parameter or a variable. -/
theorem HeaderCut.ofText_eq_ok_iff {text : List Char} {cut : HeaderCut} :
    HeaderCut.ofText text = .ok cut ↔
      '@' ∈ text ∧ ∃ p : HeaderPieces, p.text = text ∧ p.cut = cut ∧ p.IsCut := by
  constructor
  · intro h
    unfold HeaderCut.ofText at h
    split at h
    · cases h
    · next keyword hkeyword =>
      split at h
      · cases h
      · next hsign =>
        split at h
        · cases h
        · next body hbody =>
          refine ⟨by simpa using hsign,
            ⟨keyword.before, keyword.matched, body.before, body.matched, body.after⟩, ?_,
            Except.ok.inj h, HeaderPieces.isCut_of_find? hkeyword hbody⟩
          rw [← Text.text_of_find? hkeyword, Text.Found.text, ← Text.text_of_find? hbody]
          simp [HeaderPieces.text, HeaderPieces.front, Text.Found.text]
  · rintro ⟨hsign, p, rfl, rfl, hcut⟩
    rw [HeaderCut.ofText, hcut.find?_keyword]
    simp [hsign, hcut.find?_body, HeaderPieces.cut]

/-- A header is read exactly from texts that can be cut into pieces that give it. -/
theorem Header.ofText_eq_ok_iff {text : List Char} {header : Header} :
    Header.ofText text = .ok header ↔
      '@' ∈ text ∧ ∃ p : HeaderPieces, p.text = text ∧ p.IsCut ∧ p.cut.header = .ok header := by
  constructor
  · intro h
    unfold Header.ofText at h
    split at h
    · cases h
    · next cut hcut =>
      obtain ⟨hsign, p, htext, rfl, hp⟩ := HeaderCut.ofText_eq_ok_iff.1 hcut
      exact ⟨hsign, p, htext, hp, h⟩
  · rintro ⟨hsign, p, htext, hp, hheader⟩
    rw [Header.ofText, HeaderCut.ofText_eq_ok_iff.2 ⟨hsign, p, htext, rfl, hp⟩]
    exact hheader

/-! ### The name -/

/-- What ends a part without brackets is no character of a word. -/
theorem isWord_of_not_isBare {c : Char} (h : isBare c = false) : isWord c = false := by
  have hcases : c = '.' ∨ c = '[' ∨ c = ']' := by
    simpa [isBare, or_assoc, imp_iff_not_or] using h
  rcases hcases with rfl | rfl | rfl <;> decide

theorem head?_dropWhile_isBare (text : List Char) :
    (text.dropWhile isBare).head?.any isWord = false := by
  have hhead := Text.any_head?_dropWhile isBare text
  cases hd : (text.dropWhile isBare).head? with
  | none => rfl
  | some c => exact isWord_of_not_isBare (by simpa [hd] using hhead)

/-- The parts of a qualified name are cut out between its dots and brackets. -/
theorem isPart_of_mem_nameParts {text part : List Char} (h : part ∈ nameParts text) :
    IsPart part text := by
  -- What is cut off in front ends with no character of a word.
  have hcons : ∀ {c : Char} (rest : List Char), isWord c = false → IsPart rest (c :: rest) := by
    intro c rest hc
    have hcut : Text.CutsNoWord [c] rest := Text.cutsNoWord_of_getLast (by simpa using hc) rest
    exact hcut.isPart_right
  fun_induction nameParts text with
  | case1 => cases h
  | case2 c rest hc _ ih =>
    obtain rfl := eq_of_beq hc
    exact (ih h).trans (hcons rest (by decide))
  | case3 c rest hc d after hdrop _ ih =>
    obtain rfl := eq_of_beq hc
    refine IsPart.trans ?_ (hcons rest (by decide))
    rcases List.mem_cons.1 h with rfl | h
    · exact Text.isPart_takeWhile_ne (by decide) rest
    · -- The closing bracket is no character of a word either.
      have hd : isWord d = false := by
        have hhead := Text.head?_dropWhile_ne (c := ']') (by decide) rest
        simpa [hdrop] using hhead
      have hpart := Text.isPart_dropWhile_ne (c := ']') (by decide) rest
      rw [hdrop] at hpart
      exact ((ih h).trans (hcons after hd)).trans hpart
  | case4 c rest _ hbare _ ih =>
    have hcut := Text.cutsNoWord_of_head (head?_dropWhile_isBare rest) (c :: rest.takeWhile isBare)
    have htext : c :: rest.takeWhile isBare ++ rest.dropWhile isBare = c :: rest := by simp
    rcases List.mem_cons.1 h with rfl | h
    · exact htext ▸ hcut.isPart_left
    · exact (ih h).trans (htext ▸ hcut.isPart_right)
  | case5 c rest _ hbare ih =>
    exact (ih h).trans (hcons rest (isWord_of_not_isBare (by simpa using hbare)))

/-- A part of a name holds no closing bracket. -/
theorem not_mem_of_mem_nameParts {text part : List Char} (h : part ∈ nameParts text) :
    ']' ∉ part := by
  fun_induction nameParts text with
  | case1 => cases h
  | case2 _ _ _ _ ih => exact ih h
  | case3 c rest _ _ _ _ _ ih =>
    rcases List.mem_cons.1 h with rfl | h
    · intro hmem
      simpa using List.mem_takeWhile_imp hmem
    · exact ih h
  | case4 c rest _ hbare _ ih =>
    rcases List.mem_cons.1 h with rfl | h
    · intro hmem
      rcases List.mem_cons.1 hmem with rfl | hmem
      · revert hbare
        decide
      · exact absurd (List.mem_takeWhile_imp hmem) (by decide)
    · exact ih h
  | case5 _ _ _ _ ih => exact ih h

/-- A qualified name is empty or has a last part. -/
theorem unqualify_cases (text : List Char) :
    unqualify text = [] ∨ ∃ part ∈ nameParts text, unqualify text = Text.trim part := by
  unfold unqualify
  cases hlast : (nameParts text).getLast? with
  | none => exact .inl rfl
  | some part => exact .inr ⟨part, List.mem_of_getLast? hlast, rfl⟩

/-- What is left of the parentheses cuts no word of the text. -/
theorem isPart_dropOpenings (text : List Char) : IsPart (dropOpenings text) text := by
  have hend : Text.CutsNoWord (dropOpenings text) (text.reverse.takeWhile (· == '(')).reverse := by
    apply Text.cutsNoWord_of_head
    cases hd : (text.reverse.takeWhile (· == '(')).reverse.head? with
    | none => rfl
    | some c =>
      have hmem := List.mem_reverse.1 (List.mem_of_head? hd)
      obtain rfl : c = '(' := by simpa using List.mem_takeWhile_imp hmem
      decide
  have htext : dropOpenings text ++ (text.reverse.takeWhile (· == '(')).reverse = text := by
    rw [dropOpenings, ← List.reverse_append, List.takeWhile_append_dropWhile, List.reverse_reverse]
  have hpart := hend.isPart_left
  rwa [htext] at hpart

namespace HeaderCut

variable {cut : HeaderCut}

/-- The name is cut out of what stands before the first sign. -/
theorem isPart_name (hne : cut.name ≠ "") :
    IsPart cut.name.toList (cut.region.takeWhile (· != '@')) := by
  have hpart : IsPart (Text.trimEnd (dropOpenings cut.namePart))
      (cut.region.takeWhile (· != '@')) :=
    ((Text.isPart_trimEnd _).trans (isPart_dropOpenings _)).trans (Text.isPart_trim _)
  rcases unqualify_cases (Text.trimEnd (dropOpenings cut.namePart)) with h | ⟨part, hmem, h⟩
  · exact absurd (by rw [HeaderCut.name, h]) hne
  · rw [HeaderCut.name, String.toList_ofList, h]
    exact ((Text.isPart_trim part).trans (isPart_of_mem_nameParts hmem)).trans hpart

theorem not_mem_name : ']' ∉ cut.name.toList := by
  rw [HeaderCut.name, String.toList_ofList]
  rcases unqualify_cases (Text.trimEnd (dropOpenings cut.namePart)) with h | ⟨part, hmem, h⟩
  · simp [h]
  · rw [h]
    intro hc
    exact not_mem_of_mem_nameParts hmem ((Text.isPart_trim part).isInfix.subset hc)

theorem isTrimmed_name : Text.IsTrimmed cut.name.toList := by
  rw [HeaderCut.name, String.toList_ofList]
  exact Text.isTrimmed_trim _

/-- A cut gives a header exactly if its name is there and can name a page. -/
theorem header_eq_ok_iff {header : Header} : cut.header = .ok header ↔
    cut.name ≠ "" ∧ isPageName cut.name = true ∧
      ⟨cut.name, cut.parameters, cut.bodyStart⟩ = header := by
  unfold HeaderCut.header
  by_cases hempty : cut.name = ""
  · simp [hempty]
  · by_cases hpage : isPageName cut.name = true
    · simp [hempty, hpage]
    · simp [hempty, hpage]

/-! ### The parameters -/

/-- A region without `@` has no parameters. -/
theorem parameters_of_not_mem (h : '@' ∉ cut.region) : cut.parameters = [] := by
  have hdrop : cut.parameterPart = [] := Text.dropWhile_ne_of_not_mem h
  rw [HeaderCut.parameters, hdrop]
  cases cut.namePart.getLast? == some '(' <;> rfl

/-- One with an `@` has a first parameter, and it begins there. -/
theorem exists_parameters_cons (h : '@' ∈ cut.region) :
    ∃ p ps, cut.parameters = p :: ps ∧ p.toList.head? = some '@' := by
  obtain ⟨before, after, hregion, hbefore⟩ := List.eq_append_cons_of_mem h
  have hhead : cut.parameterPart.head? = some '@' := by
    rw [HeaderCut.parameterPart, hregion, Text.dropWhile_ne_append hbefore]
    rfl
  obtain ⟨p, ps, hsplit, hp⟩ :=
    exists_splitParameters_cons (cut.namePart.getLast? == some '(') hhead
  exact ⟨String.ofList p, ps.map String.ofList, by rw [HeaderCut.parameters, hsplit]; rfl,
    by rwa [String.toList_ofList]⟩

theorem toList_parameters (cut : HeaderCut) : cut.parameters.map String.toList =
    splitParameters (cut.namePart.getLast? == some '(') cut.parameterPart := by
  rw [HeaderCut.parameters, List.map_map]
  simp [Function.comp_def]

theorem isPart_parameterPart (cut : HeaderCut) : IsPart cut.parameterPart cut.region :=
  Text.isPart_dropWhile_ne (by decide) cut.region

end HeaderCut

/-! ### Headers and their texts -/

/-- What a header has to do with the pieces of its text. -/
structure HeaderPieces.Shows (p : HeaderPieces) (header : Header) : Prop where
  /-- The keyword before the name is the first in the text. -/
  keyword : IsFirst procedureKeyword none ⟨p.before, p.keyword, p.region ++ (p.body ++ p.after)⟩
  /-- The keyword before the body is a whole word. -/
  body : StandsAt bodyKeyword none ⟨p.front, p.body, p.after⟩
  /-- The offset of the header is where that keyword starts. -/
  bodyStart : header.bodyStart = Text.byteLength p.front
  no_body : ¬ Holds bodyKeyword p.region
  name_ne_empty : header.name ≠ ""
  name_trimmed : Text.IsTrimmed header.name.toList
  name_page : isPageName header.name = true
  name_chars : '@' ∉ header.name.toList ∧ ']' ∉ header.name.toList
  name_no_body : ¬ Holds bodyKeyword header.name.toList
  /-- The name stands in the region, in front of the first sign. -/
  name_infix : header.name.toList <:+: p.region.takeWhile (· != '@')
  parameters_eq_nil : header.parameters = [] ↔ '@' ∉ p.region
  /-- The first parameter starts with the sign. -/
  first_sign : ∀ q ∈ header.parameters.head?, q.toList.head? = some '@'
  parameters : ∀ q ∈ header.parameters,
    q ≠ "" ∧ Text.IsTrimmed q.toList ∧ ¬ Holds bodyKeyword q.toList
  /-- The parameters stand in the region in their order, without overlap. -/
  inOrder : Text.InOrder (header.parameters.map String.toList) p.region

/-- What a header says about its pieces: the name is the last part of the qualified name, the
parameters are pieces of the list in their order, and the body starts where the second keyword does. -/
theorem HeaderPieces.IsCut.shows {p : HeaderPieces} {header : Header} (h : p.IsCut)
    (hheader : p.cut.header = .ok header) : p.Shows header := by
  obtain ⟨hne, hpage, rfl⟩ := HeaderCut.header_eq_ok_iff.1 hheader
  -- Name and parameters are parts of the region, and parts inherit that the body keyword is not there.
  have hname := HeaderCut.isPart_name hne
  have hfront : Text.IsPart (p.region.takeWhile (· != '@')) p.region :=
    Text.isPart_takeWhile_ne (by decide) p.region
  have hparameters := p.cut.toList_parameters
  exact {
    keyword := Text.isFirst_of_find? (by decide) (by decide) h.find?_keyword
    body := by
      refine ⟨h.body, ?_, h.after_start⟩
      rw [Option.or_none, HeaderPieces.front, List.getLast?_append_of_ne_nil _ h.region_ne_nil]
      exact h.region_end
    bodyStart := rfl
    no_body := h.no_body
    name_ne_empty := hne
    name_trimmed := HeaderCut.isTrimmed_name
    name_page := hpage
    name_chars := by
      refine ⟨fun hc => ?_, HeaderCut.not_mem_name⟩
      simpa using List.mem_takeWhile_imp (hname.isInfix.subset hc)
    name_no_body := fun hr => h.no_body ((hname.trans hfront).holds (by decide) hr)
    name_infix := hname.isInfix
    parameters_eq_nil := by
      constructor
      · intro hnil hsign
        obtain ⟨q, qs, hcons, -⟩ : ∃ q qs, p.cut.parameters = q :: qs ∧ _ :=
          HeaderCut.exists_parameters_cons hsign
        rw [hcons] at hnil
        cases hnil
      · intro hsign
        exact HeaderCut.parameters_of_not_mem hsign
    first_sign := by
      intro q hq
      by_cases hsign : '@' ∈ p.cut.region
      · obtain ⟨q', qs, hcons, hq'⟩ := HeaderCut.exists_parameters_cons hsign
        rw [hcons, List.head?_cons, Option.mem_some_iff] at hq
        rwa [← hq]
      · rw [HeaderCut.parameters_of_not_mem hsign] at hq
        cases hq
    parameters := by
      intro q hq
      have hmem : q.toList ∈ p.cut.parameters.map String.toList := List.mem_map_of_mem hq
      rw [hparameters] at hmem
      have hpart := (isPart_of_mem_splitParameters hmem).trans p.cut.isPart_parameterPart
      obtain ⟨hnil, htrimmed⟩ := isTrimmed_of_mem_splitParameters hmem
      refine ⟨?_, htrimmed, fun hr => h.no_body (hpart.holds (by decide) hr)⟩
      rintro rfl
      exact hnil rfl
    inOrder := by
      rw [hparameters]
      exact (inOrder_splitParameters _ _).of_isInfix p.cut.isPart_parameterPart.isInfix }

/-- **What is read as a header is one.**  The text splits at the first keyword before a name and at a
keyword before a body, which stands where the header says; between the two stand the name and, behind
it and in order, the parameters, all of them without that keyword. -/
theorem Header.ofText_sound {text : List Char} {header : Header}
    (h : Header.ofText text = .ok header) : ∃ p : HeaderPieces, p.text = text ∧ p.Shows header := by
  obtain ⟨-, p, htext, hcut, hheader⟩ := Header.ofText_eq_ok_iff.1 h
  exact ⟨p, htext, hcut.shows hheader⟩

/-- A text in which brackets stay open and both keywords stand inside words. -/
def roughHeader : List Char :=
  "-- procedures [é\nCREATE PROCEDURE [basis.[Löschen (@von DATE,, @bis DECIMAL(9, 2) )\n".toList ++
    "As SELECT 1".toList

theorem ofText_roughHeader : Header.ofText roughHeader =
    .ok ⟨"Löschen", ["@von DATE", "@bis DECIMAL(9, 2)"], 86⟩ := by
  decide +kernel

theorem Header.ofText_sound_roughHeader : ∃ p : HeaderPieces, p.text = roughHeader ∧
    p.Shows ⟨"Löschen", ["@von DATE", "@bis DECIMAL(9, 2)"], 86⟩ :=
  Header.ofText_sound ofText_roughHeader

/-! ### Around a header -/

/-- **The header does not depend on what surrounds it.**  A text up to the keyword before its body can
be continued in any way and put behind any text without the keyword before the name, as long as neither
touches a word and there is a sign left: the name and the parameters stay, and the offset moves along. -/
theorem Header.ofText_surroundings {text : List Char} {header : Header}
    (h : Header.ofText text = .ok header) :
    ∃ front keyword back, text = front ++ keyword ++ back ∧ Written bodyKeyword keyword ∧
      Text.byteLength front = header.bodyStart ∧
      ∀ before after, ¬ Holds procedureKeyword before → before.getLast?.any isWord = false →
        after.head?.any isWord = false → '@' ∈ before ++ (front ++ keyword) ++ after →
        Header.ofText (before ++ (front ++ keyword) ++ after) =
          .ok { header with bodyStart := Text.byteLength before + header.bodyStart } := by
  obtain ⟨-, p, htext, hcut, hheader⟩ := Header.ofText_eq_ok_iff.1 h
  obtain ⟨hne, hpage, rfl⟩ := HeaderCut.header_eq_ok_iff.1 hheader
  refine ⟨p.front, p.body, p.after, htext.symm, hcut.body, rfl, ?_⟩
  intro before after hbefore hlast hafter hsign
  -- Only the outer pieces change, and the region decides the name and the parameters.
  have hcut' : HeaderPieces.IsCut { p with before := before ++ p.before, after := after } := {
    hcut with
    no_keyword := Text.not_holds_append (by decide) (by decide) rfl
      (Text.cutsNoWord_of_getLast hlast _) hbefore hcut.no_keyword
    before_end := by
      rw [List.getLast?_append]
      cases hp : p.before.getLast? with
      | none => simpa using hlast
      | some c => simpa [hp] using hcut.before_end
    after_start := hafter }
  refine Header.ofText_eq_ok_iff.2 ⟨hsign, _, ?_, hcut', HeaderCut.header_eq_ok_iff.2
    ⟨hne, hpage, ?_⟩⟩
  · simp [HeaderPieces.text, HeaderPieces.front]
  · congr 1
    simp [HeaderPieces.cut, HeaderCut.bodyStart]

theorem Header.ofText_surroundings_roughHeader :
    ∃ front keyword back, roughHeader = front ++ keyword ++ back ∧ Written bodyKeyword keyword ∧
      Text.byteLength front = 86 ∧
      Header.ofText ("/* é@ */".toList ++ (front ++ keyword) ++ "(procedure)".toList) =
        .ok ⟨"Löschen", ["@von DATE", "@bis DECIMAL(9, 2)"], 95⟩ := by
  obtain ⟨front, keyword, back, htext, hkeyword, hstart, hmoved⟩ :=
    Header.ofText_surroundings ofText_roughHeader
  have hbefore : ¬ Holds procedureKeyword "/* é@ */".toList :=
    (Text.find?_eq_none_iff (by decide) (by decide)).1 (by decide +kernel)
  exact ⟨front, keyword, back, htext, hkeyword, hstart,
    hmoved _ _ hbefore (by decide) (by decide) (by simp)⟩

end ProcBook.Sql
