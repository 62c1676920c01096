/-
ProcBook/Proofs/DocsLayout.lean

The layouts of a documentation block.  A record can stand

* on lines of its own between the lines of the markers (`DocsFrame.source`),
* on lines of its own, with the closing marker behind it (`DocsFrame.shared`),
* on one line with both markers (`DocsFrame.single`),

and `DocsBlock.ofText_layouts` says that it is read in the same way in each of them, and whatever stands
around the block.  `recordText` decides by new lines and a closing brace which lines belong to the
markers; in all three layouts the record itself is left.
-/
import ProcBook.Proofs.DocsReferences
import ProcBook.Proofs.Document
import ProcBook.Proofs.Parts

namespace ProcBook.Text

/-! ### Phrases around a solid piece -/

/-- Blanks behind a text complete no phrase, since every phrase ends with a letter. -/
theorem not_holds_append_blanks {phrase : Phrase} {text blanks : List Char} (hp : IsPlain phrase)
    (hne : phrase ≠ []) (hb : Blanks blanks) (h : ¬ Holds phrase text) :
    ¬ Holds phrase (text ++ blanks) := by
  have hsep : Separates phrase text blanks := by
    refine ⟨cutsNoWord_of_head (any_isWord_head_of_blanks hb) text, fun word hword => ?_⟩
    have hword := hp word (List.mem_of_mem_tail hword)
    rw [List.dropWhile_eq_nil_iff.2 hb]
    cases word with
    | nil => exact absurd rfl hword.1
    | cons => rfl
  intro hr
  rcases hr.of_append hp hne hsep with hr | hr
  · exact h hr
  · exact not_holds_blanks hp hb hr.holds

/-- No phrase goes on across a piece whose first and last character are neither letters nor blanks. -/
theorem not_holds_around {phrase : Phrase} {left piece right : List Char} {c d : Char}
    (hp : IsPlain phrase) (hne : phrase ≠ []) (hhead : piece.head? = some c)
    (hc : isWord c = false ∧ isBlank c = false) (hlast : piece.getLast? = some d)
    (hd : isWord d = false ∧ isBlank d = false) (hleft : ¬ Holds phrase left)
    (hpiece : ¬ Holds phrase piece) (hright : ¬ Holds phrase right) :
    ¬ Holds phrase (left ++ (piece ++ right)) := by
  intro h
  have hsep : Separates phrase left (piece ++ right) := by
    obtain ⟨rest, rfl⟩ := List.head?_eq_some_iff.1 hhead
    exact .of_head hc.1 (fresh_of_head hp hc.1 hc.2 _)
  rcases h.of_append hp hne hsep with h | h
  · exact hleft h
  · -- The last character of the piece is a cut as well, and goes to neither side of it.
    obtain ⟨start, rfl⟩ := List.getLast?_eq_some_iff.1 hlast
    rw [List.append_assoc, List.singleton_append] at h
    rcases h.holds.of_append_cons hp hne hd.1 (fresh_of_head hp hd.1 hd.2 _) with h | h
    · have hpart : IsPart start (start ++ [d]) :=
        (cutsNoWord_of_head (by simpa using hd.1) start).isPart_left
      exact hpiece (hpart.holds hp h)
    · exact hright h

end ProcBook.Text

namespace ProcBook.Sql

open Text (Holds Written isWord)

/-! ### The block between its markers -/

/-- A marker does not start like its second word. -/
theorem fresh_marker {l : Char} {first : List Char} (hl : l = 's' ∨ l = 'e') {written : List Char}
    (h : Written [l :: first, ['d', 'o', 'c', 's']] written) (rest : List Char) :
    ∀ word ∈ [['d', 'o', 'c', 's']],
      Text.readWord? word ((written ++ rest).dropWhile Text.isBlank) = none := by
  obtain ⟨start, more, hword, rfl⟩ := h.exists_word
  cases hword with
  | @cons _ c _ start hc _ =>
    have hd : Text.sameLetter 'd' c = false := by
      by_contra hne
      have hlow : c.toLower = 'd' := by simpa [Text.sameLetter] using hne
      rcases hl with rfl | rfl
      · -- Besides `s` and `S` only the long `s` passes for the letter.
        obtain rfl : c = 'ſ' := by simpa [Text.sameLetter, hlow] using hc
        revert hlow
        decide
      · simp [Text.sameLetter, hlow] at hc
    have hlower : l.isLower = true := by rcases hl with rfl | rfl <;> decide
    have hblank : Text.isBlank c = false := Text.isBlank_of_sameLetter hlower hc
    have htail : [l :: first, ['d', 'o', 'c', 's']].tail = [['d', 'o', 'c', 's']] := rfl
    exact Convention.fresh_docs htail hblank hd _

/-- What stands between the first pair of markers decides the block. -/
theorem DocsBlock.ofText_between {before opening inner closing after : List Char}
    (hopening : Written startDocs opening) (hclosing : Written endDocs closing)
    (hstart : ¬ Holds startDocs before) (hbefore : before.getLast?.any isWord = false)
    (hne : inner ≠ []) (hfirst : inner.head?.any isWord = false)
    (hlast : inner.getLast?.any isWord = false) (hend : ¬ Holds endDocs inner)
    (hafter : after.head?.any isWord = false) :
    DocsBlock.ofText (before ++ (opening ++ (inner ++ (closing ++ after)))) =
      (DocsBlock.ofJson (recordText inner)).mapError .malformedDocs := by
  have hopen : Text.find? startDocs none (before ++ (opening ++ (inner ++ (closing ++ after)))) =
      some ⟨before, opening, inner ++ (closing ++ after)⟩ := by
    apply Text.find?_append_written (by decide) (by decide) hopening hstart
    · exact ⟨Text.cutsNoWord_of_getLast hbefore _, fresh_marker (.inl rfl) hopening _⟩
    · rw [Option.or_none]
      exact hbefore
    · rw [List.head?_append_of_ne_nil _ hne]
      exact hfirst
  have hclose : Text.find? endDocs opening.getLast? (inner ++ (closing ++ after)) =
      some ⟨inner, closing, after⟩ := by
    apply Text.find?_append_written (by decide) (by decide) hclosing fun h => hend h.holds
    · exact ⟨Text.cutsNoWord_of_getLast hlast _, fresh_marker (.inr rfl) hclosing _⟩
    · rw [Text.getLast?_or_of_ne_nil hne]
      exact hlast
    · exact hafter
  rw [DocsBlock.ofText_eq (Text.findPair?_eq hopen hclose)]

/-! ### The record in the block -/

theorem dropFirstLine_append {head : List Char} (h : '\n' ∉ head) (rest : List Char) :
    dropFirstLine (head ++ '\n' :: rest) = rest := by
  rw [dropFirstLine, Text.after?_append h, Option.getD_some]

theorem dropFirstLine_of_not_mem {text : List Char} (h : '\n' ∉ text) :
    dropFirstLine text = text := by
  rw [dropFirstLine, Text.after?, Text.dropWhile_ne_of_not_mem h]
  rfl

/-- A last line without a closing brace belongs to the marker. -/
theorem dropMarkerLine_append {last : List Char} (hline : '\n' ∉ last) (hbrace : '\x7d' ∉ last)
    (text : List Char) : dropMarkerLine (text ++ '\n' :: last) = text := by
  have hreverse : (text ++ '\n' :: last).reverse = last.reverse ++ '\n' :: text.reverse := by simp
  have hlast : ((text ++ '\n' :: last).reverse.takeWhile (· != '\n')).reverse = last := by
    rw [hreverse, Text.takeWhile_ne_append (by simpa using hline), List.reverse_reverse]
  have hlength : (text ++ '\n' :: last).length - last.length - 1 = text.length := by
    rw [List.length_append, List.length_cons]
    omega
  have hkeep : (!(text ++ '\n' :: last).contains '\n' || last.contains '\x7d') = false := by
    simp [hbrace]
  simp only [dropMarkerLine, hlast, hkeep, hlength, Bool.false_eq_true, if_false, List.take_left]

/-- A last line with a closing brace belongs to the record. -/
theorem dropMarkerLine_of_brace {text right : List Char} (h : text.getLast? = some '\x7d')
    (hright : '\n' ∉ right) : dropMarkerLine (text ++ right) = text ++ right := by
  obtain ⟨start, rfl⟩ := List.getLast?_eq_some_iff.1 h
  have hlast : '\x7d' ∈ (start ++ ['\x7d'] ++ right).reverse.takeWhile (· != '\n') := by
    have hline : '\n' ∉ right.reverse := by simpa using hright
    rw [List.reverse_append, List.takeWhile_append_of_pos (Text.bne_of_not_mem hline),
      List.reverse_append]
    simp
  rw [dropMarkerLine, if_pos]
  rw [Bool.or_eq_true]
  exact .inr (List.contains_iff_mem.2 (List.mem_reverse.2 hlast))

/-- A text in the braces of a record. -/
structure IsBraced (record : List Char) : Prop where
  head : record.head? = some '\x7b'
  getLast : record.getLast? = some '\x7d'

namespace IsBraced

variable {record : List Char}

theorem ne_nil (h : IsBraced record) : record ≠ [] := by
  rintro rfl
  cases h.head

theorem isTrimmed (h : IsBraced record) : Text.IsTrimmed record := by
  apply Text.isTrimmed_of_ends
  · rw [h.head]
    decide
  · rw [h.getLast]
    decide

/-- On lines of its own the record is found whole: the first line and what follows the last brace are
left out. -/
theorem recordText_lines (h : IsBraced record) {head last : List Char} (hhead : '\n' ∉ head)
    (hlast : '\n' ∉ last) (hbrace : '\x7d' ∉ last) :
    recordText (head ++ '\n' :: (record ++ '\n' :: last)) = record := by
  rw [recordText, dropFirstLine_append hhead, dropMarkerLine_append hlast hbrace]
  exact h.isTrimmed

theorem trim_blank (h : IsBraced record) {left right : List Char} (hleft : Text.Blanks left)
    (hright : Text.Blanks right) : Text.trim (left ++ record ++ right) = record :=
  h.isTrimmed.trim_blanks h.ne_nil left right hleft hright

/-- The record may end on the line of the closing marker. -/
theorem recordText_shared (h : IsBraced record) {head : List Char} (hhead : '\n' ∉ head) :
    recordText (head ++ '\n' :: (record ++ [' '])) = record := by
  rw [recordText, dropFirstLine_append hhead, dropMarkerLine_of_brace h.getLast (by decide)]
  have hleft : Text.Blanks [] := by decide
  exact h.trim_blank hleft (by decide)

/-- On the line of both markers there is no first line to leave out. -/
theorem recordText_single (h : IsBraced record) (hline : '\n' ∉ record) :
    recordText ([' '] ++ record ++ [' ']) = record := by
  have hlast : ([' '] ++ record).getLast? = some '\x7d' := by
    rw [List.getLast?_append_of_ne_nil _ h.ne_nil, h.getLast]
  rw [recordText, dropFirstLine_of_not_mem (by simp [hline]),
    dropMarkerLine_of_brace hlast (by decide)]
  exact h.trim_blank (by decide) (by decide)

end IsBraced

/-! ### The layouts -/

namespace DocsFrame

/-- The source with the closing marker behind the record. -/
def shared (frame : DocsFrame) (record : List Char) : List Char :=
  frame.before ++ frame.opening ++ frame.head ++ '\n' ::
    (record ++ ' ' :: (frame.closing ++ frame.after))

/-- The source with the record and its markers on one line. -/
def single (frame : DocsFrame) (record : List Char) : List Char :=
  frame.before ++ frame.opening ++ ' ' :: (record ++ ' ' :: (frame.closing ++ frame.after))

/-- The frame and the record fit together: the markers are whole words, the opening one is the first in
the text and the closing one the first behind it. -/
structure Fits (frame : DocsFrame) (record : List Char) : Prop where
  opening : Written startDocs frame.opening
  closing : Written endDocs frame.closing
  no_start : ¬ Holds startDocs frame.before
  before_end : frame.before.getLast?.any isWord = false
  after_start : frame.after.head?.any isWord = false
  head_line : '\n' ∉ frame.head
  head_start : frame.head.head?.any isWord = false
  last_line : '\n' ∉ frame.last
  last_brace : '\x7d' ∉ frame.last
  last_end : frame.last.getLast?.any isWord = false
  braced : IsBraced record
  /-- The block is not closed early. -/
  no_end : ∀ piece ∈ [frame.head, record, frame.last], ¬ Holds endDocs piece

variable {frame : DocsFrame} {record : List Char}

/-- The closing marker is not found around the record. -/
theorem Fits.no_end_around (h : frame.Fits record) {left right : List Char}
    (hleft : ¬ Holds endDocs left) (hright : ¬ Holds endDocs right) :
    ¬ Holds endDocs (left ++ (record ++ right)) :=
  Text.not_holds_around (by decide) (by decide) h.braced.head (by decide) h.braced.getLast
    (by decide) hleft (h.no_end record (by simp)) hright

/-- The closing marker is not found behind the line of the opening one either. -/
theorem Fits.no_end_lines (h : frame.Fits record) {right : List Char}
    (hright : ¬ Holds endDocs right) :
    ¬ Holds endDocs (frame.head ++ '\n' :: (record ++ right)) := by
  have hhead : ¬ Holds endDocs (frame.head ++ ['\n']) :=
    Text.not_holds_append_blanks (by decide) (by decide) (by decide) (h.no_end _ (by simp))
  simpa using h.no_end_around hhead hright

theorem Fits.head_lines (h : frame.Fits record) (rest : List Char) :
    (frame.head ++ '\n' :: rest).head?.any isWord = false := by
  cases hhead : frame.head with
  | nil => rfl
  | cons c head => simpa [hhead] using h.head_start

/-- The record is read out of any text between the markers that the closing one cannot end early. -/
theorem Fits.ofText_between (h : frame.Fits record) {inner : List Char}
    (hfirst : inner.head?.any isWord = false) (hlast : inner.getLast?.any isWord = false)
    (hend : ¬ Holds endDocs inner) (hne : inner ≠ []) (hrecord : recordText inner = record) :
    DocsBlock.ofText (frame.before ++ (frame.opening ++ (inner ++ (frame.closing ++ frame.after)))) =
      (DocsBlock.ofJson record).mapError .malformedDocs := by
  rw [DocsBlock.ofText_between h.opening h.closing h.no_start h.before_end hne hfirst hlast hend
    h.after_start, hrecord]

/-- A record on lines of its own is read as it is read alone, a failure included. -/
theorem Fits.ofText_source (h : frame.Fits record) :
    DocsBlock.ofText (frame.source record) =
      (DocsBlock.ofJson record).mapError .malformedDocs := by
  have hsource : frame.source record = frame.before ++ (frame.opening ++
      ((frame.head ++ '\n' :: (record ++ '\n' :: frame.last)) ++ (frame.closing ++ frame.after))) := by
    simp [source]
  have hline : ¬ Holds endDocs ('\n' :: frame.last) := fun hr =>
    h.no_end frame.last (by simp) (hr.of_cons (by decide) (by decide) (by decide))
  have hlast : (frame.head ++ '\n' :: (record ++ '\n' :: frame.last)).getLast?.any isWord =
      false := by
    have hend := h.last_end
    rcases List.eq_nil_or_concat frame.last with hnil | ⟨start, c, hconcat⟩
    · simp [hnil, List.getLast?_cons, List.getLast?_append]
      decide
    · rw [hconcat] at hend ⊢
      simpa [List.getLast?_cons, List.getLast?_append] using hend
  rw [hsource]
  exact h.ofText_between (h.head_lines _) hlast (h.no_end_lines hline) (by simp)
    (h.braced.recordText_lines h.head_line h.last_line h.last_brace)

/-- So is one that ends on the line of the closing marker. -/
theorem Fits.ofText_shared (h : frame.Fits record) :
    DocsBlock.ofText (frame.shared record) =
      (DocsBlock.ofJson record).mapError .malformedDocs := by
  have hshared : frame.shared record = frame.before ++ (frame.opening ++
      ((frame.head ++ '\n' :: (record ++ [' '])) ++ (frame.closing ++ frame.after))) := by
    simp [shared]
  have hlast : (frame.head ++ '\n' :: (record ++ [' '])).getLast? = some ' ' := by
    simp [List.getLast?_cons, List.getLast?_append]
  rw [hshared]
  apply h.ofText_between (h.head_lines _) (by rw [hlast]; rfl) ?_ (by simp)
    (h.braced.recordText_shared h.head_line)
  exact h.no_end_lines (Text.not_holds_blanks (by decide) (by decide))

/-- So is a record without line breaks on the line of both markers. -/
theorem Fits.ofText_single (h : frame.Fits record) (hline : '\n' ∉ record) :
    DocsBlock.ofText (frame.single record) =
      (DocsBlock.ofJson record).mapError .malformedDocs := by
  have hsingle : frame.single record = frame.before ++ (frame.opening ++
      (([' '] ++ record ++ [' ']) ++ (frame.closing ++ frame.after))) := by
    simp [single]
  have hblank : ¬ Holds endDocs [' '] := Text.not_holds_blanks (by decide) (by decide)
  have hend : ¬ Holds endDocs ([' '] ++ record ++ [' ']) := by
    rw [List.append_assoc]
    exact h.no_end_around hblank hblank
  have hlast : ([' '] ++ record ++ [' ']).getLast? = some ' ' := List.getLast?_concat
  rw [hsingle]
  exact h.ofText_between rfl (by rw [hlast]; rfl) hend (by simp)
    (h.braced.recordText_single hline)

end DocsFrame

/-- **A record is read in the same way in every layout, whatever stands around its block.** -/
theorem DocsBlock.ofText_layouts (frame : DocsFrame) (record : List Char) (h : frame.Fits record) :
    let result := (DocsBlock.ofJson record).mapError Fault.malformedDocs
    DocsBlock.ofText (frame.source record) = result ∧
      DocsBlock.ofText (frame.shared record) = result ∧
      ('\n' ∉ record → DocsBlock.ofText (frame.single record) = result) ∧
      ∀ docs : DocsBlock, docs.Encodes record → result = .ok docs := by
  refine ⟨h.ofText_source, h.ofText_shared, h.ofText_single, ?_⟩
  intro docs hdocs
  rw [Convention.ofJson_of_encodes hdocs]
  rfl

/-! ### The records of a block -/

namespace DocsBlock

/-- The record of a block without any blanks. -/
def compactText (docs : DocsBlock) : List Char :=
  '\x7b' :: ((Json.quote "description").toList ++ ':' :: ((Json.quote docs.description).toList ++
    ',' :: ((Json.quote "returns").toList ++ ':' :: '[' :: ([','].intercalate
      (docs.returns.map fun value => (Json.quote value).toList) ++ [']']))) ++ ['\x7d'])

/-- The record of a block with a line for each field and for each column it returns. -/
def indentedText (docs : DocsBlock) : List Char :=
  (Json.renderFields
    [("description", .text docs.description), ("returns", .texts docs.returns)]).toList

/-- The compact text of docs is one of their encodings. -/
theorem encodes_compactText (docs : DocsBlock) : docs.Encodes docs.compactText := by
  have hreturns : Json.Enclosed '[' ']' Json.StringText ('[' :: ([','].intercalate
      (docs.returns.map fun value => (Json.quote value).toList) ++ [']'])) docs.returns := by
    rcases Decidable.em (docs.returns = []) with hnil | hne
    · rw [hnil]
      exact .empty Json.spaces_nil
    · have helements := Json.elements_intercalate (fun value => (Json.quote value).toList)
        Json.spaces_nil Json.spaces_nil hne
        (fun value _ => Json.padded_of_item (Json.stringText_quote value))
      rw [List.nil_append, List.append_nil] at helements
      exact .full helements
  have hfirst := Json.MemberText.mk (Json.stringText_quote "description")
    (show layout.field? "description" = some _ from rfl) rfl Json.spaces_nil Json.spaces_nil
    (.text (Json.stringText_quote docs.description))
  have hsecond := Json.MemberText.mk (Json.stringText_quote "returns")
    (show layout.field? "returns" = some _ from rfl) rfl Json.spaces_nil Json.spaces_nil
    (.texts hreturns)
  have hmembers := Json.Elements.more Json.spaces_nil hfirst Json.spaces_nil
    (.last Json.spaces_nil hsecond Json.spaces_nil)
  have hrecord : Json.RecordText layout _ _ := .full hmembers
  refine ⟨_, ?_, .inl rfl⟩
  simpa only [compactText, List.nil_append, List.append_nil, List.append_assoc, List.cons_append]
    using hrecord

/-- Their indented text is another. -/
theorem encodes_indentedText (docs : DocsBlock) : docs.Encodes docs.indentedText := by
  refine ⟨_, Json.recordText_renderFields (List.cons_ne_nil _ _) ?_, .inl rfl⟩
  intro member hmember
  simp only [List.mem_cons, List.not_mem_nil, or_false] at hmember
  rcases hmember with rfl | rfl
  · exact ⟨_, rfl, rfl, rfl⟩
  · exact ⟨_, rfl, rfl, rfl⟩

end DocsBlock

/-- A frame with a remark behind the opening marker and another in front of the closing one. -/
def remarkedFrame : DocsFrame where
  before := "AS\n/* the docs: ".toList
  opening := "START \t docs".toList
  head := " (as JSON)".toList
  last := "-- the ".toList
  closing := "End\nDocs".toList
  after := "*/\nstart docs".toList

/-- Any record without the closing marker in it fits the frame. -/
theorem fits_remarkedFrame {record : List Char} (hbraced : IsBraced record)
    (hend : Text.find? endDocs none record = none) : remarkedFrame.Fits record where
  opening := (Text.written_iff_readPhrase? (by decide) (by decide)).2 (by decide)
  closing := (Text.written_iff_readPhrase? (by decide) (by decide)).2 (by decide)
  no_start := (Text.find?_eq_none_iff (by decide) (by decide)).1 (by decide)
  before_end := by decide
  after_start := by decide
  head_line := by decide
  head_start := by decide
  last_line := by decide
  last_brace := by decide
  last_end := by decide
  braced := hbraced
  no_end := by
    have h : ∀ piece ∈ [remarkedFrame.head, record, remarkedFrame.last],
        Text.find? endDocs none piece = none := by
      simp only [List.forall_mem_cons]
      exact ⟨by decide, hend, by decide, by simp⟩
    intro piece hpiece
    exact (Text.find?_eq_none_iff (by decide) (by decide)).1 (h piece hpiece)

/-- Docs with braces in their description, in a frame with remarks around the record. -/
theorem DocsBlock.ofText_layouts_remarkedFrame :
    let docs : DocsBlock := ⟨"the \x7bend\x7d", ["Id", "Email"]⟩
    remarkedFrame.Fits docs.indentedText ∧ remarkedFrame.Fits docs.compactText ∧
      DocsBlock.ofText (remarkedFrame.source docs.indentedText) = .ok docs ∧
      DocsBlock.ofText (remarkedFrame.shared docs.indentedText) = .ok docs ∧
      DocsBlock.ofText (remarkedFrame.single docs.compactText) = .ok docs := by
  intro docs
  have hindented : remarkedFrame.Fits docs.indentedText :=
    fits_remarkedFrame ⟨by decide, by decide⟩ (by decide)
  have hcompact : remarkedFrame.Fits docs.compactText :=
    fits_remarkedFrame ⟨by decide, by decide⟩ (by decide)
  obtain ⟨hsource, hshared, -, hresult⟩ := DocsBlock.ofText_layouts _ _ hindented
  obtain ⟨-, -, hsingle, hresult'⟩ := DocsBlock.ofText_layouts _ _ hcompact
  have hok := hresult docs docs.encodes_indentedText
  have hok' := hresult' docs docs.encodes_compactText
  exact ⟨hindented, hcompact, hsource.trans hok, hshared.trans hok,
    (hsingle (by decide)).trans hok'⟩

end ProcBook.Sql
