/-
ProcBook/Proofs/DocsReferences.lean

What the record of a documentation block adds to the references.

References are read from everything behind the keyword of the body, and the block has no place of its
own there: its record counts as SQL wherever no comment hides it.

A `DocsFrame` is a source around its record.  To compare sources with different records, the searches
that a document goes through are taken apart at the ends of lines: `seek?` is a search that forgets what
stands in front, so it can be cut in two (`seek?_append_cons`), and `body?` is the body by two of them.

Main result: `references_record`.  If the frame hides the record (`DocsFrame.Hides`), the record is
without influence.  If the record stands in the body, the references are those of the body with the
record in it.
-/
import ProcBook.Proofs.OpenComment
import ProcBook.Proofs.Phrase
import ProcBook.Sql.Document

namespace ProcBook.Text

/-! ### Searching piece by piece -/

/-- A phrase where it stands first, and what follows it. -/
def seek? (phrase : Phrase) (previous : Option Char) (text : List Char) :
    Option (List Char × List Char) :=
  (find? phrase previous text).map fun f => (f.matched, f.after)

/-- A phrase is looked for at each place in turn. -/
theorem seek?_cons (phrase : Phrase) (previous : Option Char) (c : Char) (text : List Char) :
    seek? phrase previous (c :: text) =
      (readWhole? phrase previous (c :: text)).or (seek? phrase (some c) text) := by
  rw [seek?, find?]
  rcases readWhole? phrase previous (c :: text) with - | p
  · rw [Option.none_or, seek?, Option.map_map]
    rfl
  · rfl

theorem seek?_eq_none_iff {previous : Option Char} {phrase : Phrase} {text : List Char}
    (hp : IsPlain phrase) (hne : phrase ≠ []) :
    seek? phrase previous text = none ↔ ¬ HoldsAfter previous phrase text := by
  rw [seek?, Option.map_eq_none_iff, find?_eq_none_iff hp hne]

/-- What is read in front of a cut does not depend on what follows the cut. -/
theorem readWhole?_append_eq {phrase : Phrase} {previous : Option Char} {left right : List Char}
    (hp : IsPlain phrase) (hne : phrase ≠ []) (hleft : left ≠ []) (hsep : Separates phrase left right)
    (hright : right.head?.any isWord = false) :
    readWhole? phrase previous (left ++ right) =
      (readWhole? phrase previous left).map fun p => (p.1, p.2 ++ right) := by
  rcases hread : readWhole? phrase previous left with - | ⟨written, rest⟩
  · rcases hread' : readWhole? phrase previous (left ++ right) with - | ⟨written, rest⟩
    · rfl
    · obtain ⟨rest', hrest⟩ := readWhole?_append hp hne hsep hleft hread'
      rw [hread] at hrest
      cases hrest
  · obtain ⟨hw, rfl, hprev, hrest⟩ := (readWhole?_eq_some_iff hp hne).1 hread
    refine (readWhole?_eq_some_iff hp hne).2 ⟨hw, List.append_assoc .., hprev, ?_⟩
    cases rest with
    | nil => exact hright
    | cons c rest => exact hrest

/-- A text is searched piece by piece, if no phrase goes on across the cut. -/
theorem seek?_append {phrase : Phrase} {previous : Option Char} {left right : List Char}
    (hp : IsPlain phrase) (hne : phrase ≠ []) (hsep : Separates phrase left right)
    (hright : right.head?.any isWord = false) :
    seek? phrase previous (left ++ right) =
      ((seek? phrase previous left).map fun p => (p.1, p.2 ++ right)).or
        (seek? phrase (left.getLast?.or previous) right) := by
  induction left generalizing previous with
  | nil => rfl
  | cons c left ih =>
    rw [List.cons_append, seek?_cons, ← List.cons_append,
      readWhole?_append_eq hp hne (by simp) hsep hright, ih hsep.of_cons, seek?_cons, getLast?_cons_or]
    cases readWhole? phrase previous (c :: left) <;> rfl

/-- A character that belongs to no word is passed over, and what stands before it does not matter. -/
theorem seek?_cons_of_not_isWord {phrase : Phrase} (hp : IsPlain phrase) (hne : phrase ≠ [])
    {c : Char} (hc : isWord c = false) (previous : Option Char) (text : List Char) :
    seek? phrase previous (c :: text) = seek? phrase none text := by
  have hread : readWhole? phrase previous (c :: text) = none := by
    rcases hread : readWhole? phrase previous (c :: text) with - | ⟨written, rest⟩
    · rfl
    · obtain ⟨hw, htext, -⟩ := (readWhole?_eq_some_iff hp hne).1 hread
      obtain ⟨d, written, rfl, hd, -⟩ := hw.exists_cons hp
      obtain ⟨rfl, -⟩ := List.cons.inj htext
      rw [hc] at hd
      cases hd
  rw [seek?_cons, hread, Option.none_or]
  cases text with
  | nil => rfl
  | cons d text =>
    have hstart : readWhole? phrase (some c) (d :: text) = readWhole? phrase none (d :: text) := by
      simp only [readWhole?, Option.any_some, Option.any_none, hc]
    rw [seek?_cons, seek?_cons, hstart]

/-- A phrase of one word is looked for on both sides of a divider that belongs to no word. -/
theorem seek?_append_cons {phrase : Phrase} (hp : IsPlain phrase) (hne : phrase ≠ [])
    (htail : phrase.tail = []) {c : Char} (hc : isWord c = false) (previous : Option Char)
    (left right : List Char) :
    seek? phrase previous (left ++ c :: right) =
      ((seek? phrase previous left).map fun p => (p.1, p.2 ++ c :: right)).or
        (seek? phrase none right) := by
  have hsep : Separates phrase left (c :: right) := .of_head hc (by simp [htail])
  rw [seek?_append hp hne hsep (by simpa using hc), seek?_cons_of_not_isWord hp hne hc]

end ProcBook.Text

namespace ProcBook.Sql

open Text (Holds Written seek?)

/-! ### The body of a text -/

/-- The body of a text, from its keyword on, if both keywords stand in the text. -/
def body? (text : List Char) : Option (List Char) :=
  (seek? procedureKeyword none text).bind fun first =>
    (seek? bodyKeyword first.1.getLast? first.2).map fun second => second.1 ++ second.2

/-- A header that is read cuts the text at the body that is looked for here. -/
theorem body?_of_headerCut {text : List Char} {cut : HeaderCut}
    (h : HeaderCut.ofText text = .ok cut) : body? text = some cut.body := by
  unfold HeaderCut.ofText at h
  split at h
  · cases h
  · next keyword hkeyword =>
    split at h
    · cases h
    · split at h
      · cases h
      · next body hbody =>
        obtain rfl := Except.ok.inj h
        rw [body?, seek?, hkeyword]
        simp only [Option.map_some, Option.bind_some, seek?, hbody]

/-- The keywords are looked for line by line. -/
theorem body?_append (left right : List Char) :
    body? (left ++ '\n' :: right) =
      match seek? procedureKeyword none left with
      | none => body? right
      | some first =>
        match seek? bodyKeyword first.1.getLast? first.2 with
        | none => (seek? bodyKeyword none right).map fun second => second.1 ++ second.2
        | some second => some (second.1 ++ second.2 ++ '\n' :: right) := by
  rw [body?, Text.seek?_append_cons (by decide) (by decide) rfl (by decide)]
  cases seek? procedureKeyword none left with
  | none => rfl
  | some first =>
    simp only [Option.map_some, Option.some_or, Option.bind_some]
    rw [Text.seek?_append_cons (by decide) (by decide) rfl (by decide)]
    cases seek? bodyKeyword first.1.getLast? first.2 with
    | none => rfl
    | some second => simp only [Option.map_some, Option.some_or, List.append_assoc]

/-- A body that was found goes on to the end of the text. -/
theorem body?_append_of_some {left part : List Char} (h : body? left = some part)
    (right : List Char) : body? (left ++ '\n' :: right) = some (part ++ '\n' :: right) := by
  obtain ⟨first, hfirst, hpart⟩ := Option.bind_eq_some_iff.1 h
  obtain ⟨second, hsecond, rfl⟩ := Option.map_eq_some_iff.1 hpart
  rw [body?_append, hfirst]
  simp only [hsecond]

/-- Lines in which no keyword stands have no part in where a later body starts. -/
theorem body?_append_of_none {left lines : List Char} (h : body? left = none)
    (hprocedure : ¬ Holds procedureKeyword lines) (hbody : ¬ Holds bodyKeyword lines)
    (right : List Char) :
    body? (left ++ '\n' :: (lines ++ '\n' :: right)) = body? (left ++ '\n' :: right) := by
  have hprocedure' : seek? procedureKeyword none lines = none :=
    (Text.seek?_eq_none_iff (by decide) (by decide)).2 hprocedure
  have hbody' : seek? bodyKeyword none lines = none :=
    (Text.seek?_eq_none_iff (by decide) (by decide)).2 hbody
  rw [body?_append, body?_append left]
  cases hfirst : seek? procedureKeyword none left with
  | none =>
    -- The first keyword is still to come, and it does not stand in the lines.
    simp only
    rw [body?_append, hprocedure']
  | some first =>
    have hsecond : seek? bodyKeyword first.1.getLast? first.2 = none := by
      rw [body?, hfirst, Option.bind_some, Option.map_eq_none_iff] at h
      exact h
    simp only [hsecond]
    rw [Text.seek?_append_cons (by decide) (by decide) rfl (by decide), hbody', Option.map_none,
      Option.none_or]

/-! ### Sources around their record -/

/-- A source around the record of its documentation block. -/
structure DocsFrame where
  /-- What stands in front of the opening marker. -/
  before : List Char
  /-- The opening marker, as it is written. -/
  opening : List Char
  /-- The rest of the line of the opening marker. -/
  head : List Char
  /-- The line of the closing marker, up to the marker. -/
  last : List Char
  /-- The closing marker, as it is written. -/
  closing : List Char
  /-- What follows the closing marker. -/
  after : List Char

namespace DocsFrame

/-- The source with a record in its frame. -/
def source (frame : DocsFrame) (record : List Char) : List Char :=
  frame.before ++ frame.opening ++ frame.head ++ '\n' ::
    (record ++ '\n' :: (frame.last ++ frame.closing ++ frame.after))

/-- The markers are where the frame says, and the opening one stands below the banner. -/
structure WellFormed (frame : DocsFrame) (skipBanner : Bool) : Prop where
  opening : Written startDocs frame.opening
  closing : Written endDocs frame.closing
  head : '\n' ∉ frame.head
  last : '\n' ∉ frame.last
  below_banner : skipBanner = true → '\n' ∈ Text.trimStart frame.before

/-- The part of the source that counts, up to the line of the opening marker. -/
def lead (frame : DocsFrame) (skipBanner : Bool) : List Char :=
  (if skipBanner then (Text.after? '\n' (Text.trimStart frame.before)).getD []
    else Text.trimStart frame.before) ++ frame.opening ++ frame.head

/-- The part of the source from the line of the closing marker on. -/
def tail (frame : DocsFrame) : List Char := frame.last ++ frame.closing ++ frame.after

/-- The closing marker has letters in it. -/
theorem WellFormed.exists_tail {frame : DocsFrame} {skipBanner : Bool}
    (h : frame.WellFormed skipBanner) : ∃ c ∈ frame.tail, Text.isBlank c = false := by
  obtain ⟨c, closing, hclosing, -, hc⟩ := h.closing.exists_cons (by decide)
  exact ⟨c, by simp [tail, hclosing], hc⟩

/-- What counts of a source is the same around every record. -/
theorem documentText_source {frame : DocsFrame} {skipBanner : Bool} (h : frame.WellFormed skipBanner)
    (record : List Char) :
    documentText skipBanner (frame.source record) =
      frame.lead skipBanner ++ '\n' :: (record ++ '\n' :: Text.trimEnd frame.tail) := by
  -- The opening marker starts with a letter, so trimming stops in front of it.
  obtain ⟨c, opening, hopening, -, hc⟩ := h.opening.exists_cons (by decide)
  have hhead : ∀ rest, (frame.opening ++ rest).head? = some c := by simp [hopening]
  have hstart : Text.trimStart (frame.source record) = Text.trimStart frame.before ++
      (frame.opening ++ (frame.head ++ '\n' :: (record ++ ['\n']))) ++ frame.tail := by
    have hsource : frame.source record = frame.before ++ (frame.opening ++ (frame.head ++ '\n' ::
        (record ++ '\n' :: frame.tail))) := by
      simp [source, tail]
    rw [hsource, Text.trimStart_append_of_head (hhead _) hc]
    simp
  have htrim : Text.trim (frame.source record) = Text.trimStart frame.before ++
      (frame.opening ++ (frame.head ++ '\n' :: (record ++ '\n' :: Text.trimEnd frame.tail))) := by
    rw [Text.trim, hstart, Text.trimEnd_append_of_exists h.exists_tail]
    simp
  rw [documentText, htrim, lead]
  cases skipBanner with
  | false => simp
  | true =>
    obtain ⟨banner, rest, hbefore, hbanner⟩ := List.eq_append_cons_of_mem (h.below_banner rfl)
    simp only [if_true, hbefore, List.append_assoc, List.cons_append, Text.after?_append hbanner,
      Option.getD_some]

/-- The references have nothing to do with the record. -/
inductive Hides (frame : DocsFrame) (skipBanner : Bool) (record : List Char) : Prop
  /-- The record stands in a block of the body, which is closed behind the record and not in it. -/
  | comment {part : List Char} : body? (frame.lead skipBanner) = some part →
      leavesOpen part = true → ['*', '/'] <:+: frame.tail → ¬ ['*', '/'] <:+: record →
      Hides frame skipBanner record
  /-- The record stands in front of the body, and no word of it passes for a keyword. -/
  | header : body? (frame.lead skipBanner) = none → ¬ Holds procedureKeyword record →
      ¬ Holds bodyKeyword record → Hides frame skipBanner record

end DocsFrame

/-- What stands in a block that is closed behind it adds no references. -/
theorem references_inside (schema : String) {part : List Char} (hopen : leavesOpen part = true)
    {tail : List Char} (htail : ['*', '/'] <:+: tail) {record record' : List Char}
    (hrecord : ¬ ['*', '/'] <:+: record) (hrecord' : ¬ ['*', '/'] <:+: record') :
    references schema (part ++ '\n' :: (record ++ '\n' :: tail)) =
      references schema (part ++ '\n' :: (record' ++ '\n' :: tail)) := by
  obtain ⟨kept, -, hlost⟩ := dropBlocks_append_open hopen
  obtain ⟨rest, hrest⟩ : ∃ rest, afterBlock? tail = some rest :=
    Option.ne_none_iff_exists'.1 fun hnone => afterBlock?_eq_none_iff.1 hnone htail
  have hinside : ∀ {record : List Char}, ¬ ['*', '/'] <:+: record →
      dropBlocks (part ++ '\n' :: (record ++ '\n' :: tail)) = kept ++ dropBlocks rest := by
    intro record hrecord
    have hmark : afterBlock? ('\n' :: (record ++ '\n' :: tail)) = some rest := by
      rw [afterBlock?_cons (by simp), afterBlock?_append hrecord (by simp), afterBlock?_cons (by simp),
        hrest]
    exact (hlost _ (by simp)).1 rest hmark
  rw [references, references, stripComments, stripComments, hinside hrecord, hinside hrecord']

/-! ### The references of a source -/

/-- The references of a document are those of its body, once the document is read. -/
theorem references_of_readDocument {schema : String} {text : List Char} {procedure : Procedure}
    (h : readDocument schema text = .ok procedure) :
    ∃ body, body? text = some body ∧ procedure.references = references schema body := by
  obtain ⟨cut, header, docs, hcut, -, -, rfl⟩ := readDocument_eq_ok h
  exact ⟨cut.body, body?_of_headerCut hcut, rfl⟩

section

variable {options : SourceOptions} {frame : DocsFrame} {record : List Char} {procedure : Procedure}

/-- For a source with a docs block, the body is that of the text in which the banner is left out and
the end is trimmed. -/
theorem references_of_source (hframe : frame.WellFormed options.skipBanner)
    (h : Procedure.ofSource options (String.ofList (frame.source record)) = .ok procedure) :
    ∃ body, body? (frame.lead options.skipBanner ++ '\n' ::
        (record ++ '\n' :: Text.trimEnd frame.tail)) = some body ∧
      procedure.references = references options.schema body := by
  rw [Procedure.ofSource, String.toList_ofList, DocsFrame.documentText_source hframe] at h
  exact references_of_readDocument h

/-- A record behind the keyword of the body is read along with the body. -/
theorem references_of_lead {part : List Char} (hframe : frame.WellFormed options.skipBanner)
    (hpart : body? (frame.lead options.skipBanner) = some part)
    (h : Procedure.ofSource options (String.ofList (frame.source record)) = .ok procedure) :
    procedure.references =
      references options.schema (part ++ '\n' :: (record ++ '\n' :: frame.tail)) := by
  obtain ⟨body, hbody, hreferences⟩ := references_of_source hframe h
  obtain rfl := Option.some.inj ((body?_append_of_some hpart _).symm.trans hbody)
  have htrim : Text.trimEnd (part ++ '\n' :: (record ++ '\n' :: frame.tail)) =
      part ++ '\n' :: (record ++ '\n' :: Text.trimEnd frame.tail) := by
    have hlines : part ++ '\n' :: (record ++ '\n' :: frame.tail) =
        (part ++ '\n' :: (record ++ ['\n'])) ++ frame.tail := by
      simp
    rw [hlines, Text.trimEnd_append_of_exists hframe.exists_tail]
    simp
  rw [hreferences, ← htrim, references_trimEnd]

/-- A record in front of the body has no part in it, unless the body starts in the record. -/
theorem references_of_no_lead (hframe : frame.WellFormed options.skipBanner)
    (hnone : body? (frame.lead options.skipBanner) = none)
    (hprocedure : ¬ Holds procedureKeyword record) (hkeyword : ¬ Holds bodyKeyword record)
    (h : Procedure.ofSource options (String.ofList (frame.source record)) = .ok procedure) :
    (body? (frame.lead options.skipBanner ++ '\n' :: Text.trimEnd frame.tail)).map
      (references options.schema) = some procedure.references := by
  obtain ⟨body, hbody, hreferences⟩ := references_of_source hframe h
  rw [body?_append_of_none hnone hprocedure hkeyword] at hbody
  rw [hbody, hreferences]
  rfl

end

/-- **The record of a documentation block adds no references** where a comment hides it, or where it
stands in front of the body and holds no keyword: sources that differ in such records only have the same
references.  In the body and outside of comments the record is read like the rest of the body, and its
lists pass for names in brackets. -/
theorem references_record (options : SourceOptions) (frame : DocsFrame)
    (hframe : frame.WellFormed options.skipBanner) {record record' : List Char}
    {procedure procedure' : Procedure}
    (hsource : Procedure.ofSource options (String.ofList (frame.source record)) = .ok procedure)
    (hsource' : Procedure.ofSource options (String.ofList (frame.source record')) = .ok procedure') :
    (frame.Hides options.skipBanner record → frame.Hides options.skipBanner record' →
      procedure.references = procedure'.references) ∧
    ∀ part, body? (frame.lead options.skipBanner) = some part → procedure.references =
      references options.schema (part ++ '\n' :: (record ++ '\n' :: frame.tail)) := by
  refine ⟨?_, fun part hpart => references_of_lead hframe hpart hsource⟩
  intro h h'
  cases h with
  | comment hpart hopen htail hrecord =>
    cases h' with
    | comment _ _ _ hrecord' =>
      rw [references_of_lead hframe hpart hsource, references_of_lead hframe hpart hsource']
      exact references_inside options.schema hopen htail hrecord hrecord'
    | header hnone _ _ =>
      rw [hnone] at hpart
      cases hpart
  | header hnone hprocedure hkeyword =>
    cases h' with
    | comment hpart _ _ _ =>
      rw [hnone] at hpart
      cases hpart
    | header _ hprocedure' hkeyword' =>
      have hsame := references_of_no_lead hframe hnone hprocedure hkeyword hsource
      rw [references_of_no_lead hframe hnone hprocedure' hkeyword' hsource'] at hsame
      exact (Option.some.inj hsame).symm

/-- A source whose block has comment marks around its markers. -/
def markedFrame (opening closing ending : String) : DocsFrame where
  before := "--\nPROCEDURE p @a AS\n".toList ++ opening.toList
  opening := "START docs".toList
  head := []
  last := closing.toList
  closing := "end docs".toList
  after := ending.toList ++ "\nFROM [T]".toList

/-- The frame is well formed whatever the marks, as long as the closing one is on one line. -/
theorem wellFormed_markedFrame {closing : String} (h : '\n' ∉ closing.toList)
    (opening ending : String) : (markedFrame opening closing ending).WellFormed true where
  opening := by
    show Written startDocs "START docs".toList
    exact (Text.written_iff_readPhrase? (by decide) (by decide)).2 (by decide)
  closing := by
    show Written endDocs "end docs".toList
    exact (Text.written_iff_readPhrase? (by decide) (by decide)).2 (by decide)
  head := List.not_mem_nil
  last := h
  below_banner := by
    intro _
    show '\n' ∈ Text.trimStart ("--\nPROCEDURE p @a AS\n".toList ++ opening.toList)
    rw [Text.trimStart_append ⟨'-', by decide, by decide⟩]
    exact List.mem_append_left _ (by decide)

/-- A record with a list of returns. -/
def returnsRecord (returns : String) : String :=
  "\x7b\"description\": \"d\", \"returns\": [" ++ returns ++ "]\x7d"

/-- Inside of a block comment a record with a name in its returns adds no reference. -/
theorem references_record_blockFrame :
    let frame := markedFrame "/* " "" " */"
    let source returns := String.ofList (frame.source (returnsRecord returns).toList)
    ∃ procedure procedure' : Procedure, Procedure.ofSource {} (source "") = .ok procedure ∧
      Procedure.ofSource {} (source "\"Id\"") = .ok procedure' ∧
      procedure.returns = [] ∧ procedure'.returns = ["Id"] ∧
      procedure.references = procedure'.references := by
  intro frame source
  have hread : Procedure.ofSource {} (source "") = .ok {
      name := "p"
      body := "PROCEDURE p @a AS\n/* START docs\n" ++ returnsRecord "" ++ "\nend docs */\nFROM [T]"
      description := "d"
      parameters := ["@a"]
      references := ["T"] } := by
    decide +kernel
  have hread' : Procedure.ofSource {} (source "\"Id\"") = .ok {
      name := "p"
      body := "PROCEDURE p @a AS\n/* START docs\n" ++ returnsRecord "\"Id\"" ++
        "\nend docs */\nFROM [T]"
      description := "d"
      parameters := ["@a"]
      returns := ["Id"]
      references := ["T"] } := by
    decide +kernel
  have hlead : body? (frame.lead true) = some "AS\n/* START docs".toList := by decide +kernel
  have hopen : leavesOpen "AS\n/* START docs".toList = true := by decide +kernel
  have htail : ['*', '/'] <:+: frame.tail := by decide +kernel
  obtain ⟨hequal, -⟩ := references_record {} frame (wellFormed_markedFrame (by decide) "/* " " */")
    hread hread'
  exact ⟨_, _, hread, hread', rfl, rfl, hequal (.comment hlead hopen htail (by decide +kernel))
    (.comment hlead hopen htail (by decide +kernel))⟩

/-- Between markers in line comments the record counts as SQL, and what it lists as references. -/
theorem references_record_lineFrame :
    let frame := markedFrame "-- " "-- " ""
    let source returns := String.ofList (frame.source (returnsRecord returns).toList)
    (Procedure.ofSource {} (source "")).toOption.map Procedure.references = some ["T"] ∧
      (Procedure.ofSource {} (source "\"Id\"")).toOption.map Procedure.references =
        some ["\"Id\"", "T"] := by
  refine ⟨by decide +kernel, by decide +kernel⟩

end ProcBook.Sql
