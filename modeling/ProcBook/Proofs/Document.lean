/-
ProcBook/Proofs/Document.lean

Documents in the usual form, and that reading one gives back what went into it.

A `Convention` lists the pieces of such a document; `Convention.source` puts them together, a line or
more each: the banner, the header with its parameters, the keyword of the body, the documentation block
in a comment of its own, and the rest of the body.  `Convention.IsRegular` says which pieces fit
together: none of them may hold what ends the piece before it.

Four searches run over the same text, for the two keywords and for the two markers of the block.  The
proof follows them from left to right: `cut_textWith` for the keywords, `docs_textWith` for the markers,
and what comments and brackets make of the rest in `references_textWith`.
-/
import ProcBook.Proofs.Comment
import ProcBook.Proofs.HeaderGrammar
import ProcBook.Proofs.JsonWriter
import ProcBook.Sql.Document

namespace ProcBook.Sql

open Text (Holds HoldsAfter IsPlain Phrase)

/-- What stands between the markers decides the block. -/
theorem DocsBlock.ofText_eq {text : List Char} {first second : Text.Found}
    (hpair : Text.findPair? startDocs endDocs text = some (first, second)) :
    DocsBlock.ofText text =
      (DocsBlock.ofJson (recordText second.before)).mapError .malformedDocs := by
  rw [DocsBlock.ofText, hpair]
  cases hjson : DocsBlock.ofJson (recordText second.before) with
  | error error =>
    simp only [hjson]
    rfl
  | ok block =>
    simp only [hjson]
    rfl

theorem HeaderCut.ofText_eq {text : List Char} {keyword body : Text.Found}
    (hkeyword : Text.find? procedureKeyword none text = some keyword) (hsign : '@' ∈ text)
    (hbody : Text.find? bodyKeyword keyword.matched.getLast? keyword.after = some body) :
    HeaderCut.ofText text =
      .ok ⟨keyword.before ++ keyword.matched, body.before, body.matched ++ body.after⟩ := by
  rw [HeaderCut.ofText, hkeyword]
  simp [hsign, hbody]

/-! ### Behind the banner -/

/-- Behind a banner that shows something, the rest of a source is trimmed at its end only. -/
theorem documentText_banner {banner : List Char} (hline : '\n' ∉ banner)
    (hshown : ∃ c ∈ banner, Text.isBlank c = false) (text : List Char) :
    documentText true (banner ++ '\n' :: text) = Text.trimEnd text := by
  have hbanner : '\n' ∉ Text.trimStart banner :=
    fun hc => hline ((List.dropWhile_sublist _).subset hc)
  have htrim : Text.trim (banner ++ '\n' :: text) =
      Text.trimEnd (Text.trimStart banner ++ '\n' :: text) := by
    rw [Text.trim, Text.trimStart_append hshown]
  rw [documentText, if_pos rfl, htrim]
  by_cases htext : ∃ c ∈ text, Text.isBlank c = false
  · have hrest : Text.trimEnd ('\n' :: text) = '\n' :: Text.trimEnd text :=
      Text.trimEnd_append_of_exists htext ['\n']
    obtain ⟨c, hc, hb⟩ := htext
    rw [Text.trimEnd_append_of_exists ⟨c, List.mem_cons_of_mem _ hc, hb⟩, hrest,
      Text.after?_append hbanner, Option.getD_some]
  · -- Of a blank rest nothing is left, the end of the banner's line included.
    have hblanks := Text.blanks_of_not_exists htext
    have hline' : Text.Blanks ('\n' :: text) := List.forall_mem_cons.2 ⟨by decide, hblanks⟩
    have hnone : '\n' ∉ Text.trimEnd (Text.trimStart banner) :=
      fun hc => hbanner ((Text.isPart_trimEnd _).isInfix.subset hc)
    rw [Text.trimEnd_append_blanks hline', Text.after?, Text.dropWhile_ne_of_not_mem hnone,
      Text.trimEnd_eq_nil hblanks]
    rfl

/-! ### Documents in the usual form -/

/-- A JSON text says what a documentation block says: it is an object with the two fields, in either
order. -/
def DocsBlock.Encodes (json : List Char) (block : DocsBlock) : Prop :=
  ∃ fields : Json.Fields, Json.RecordText layout json fields ∧
    (fields = [("description", .text block.description), ("returns", .texts block.returns)] ∨
      fields = [("returns", .texts block.returns), ("description", .text block.description)])

/-- The pieces of a document in the usual form. -/
structure Convention where
  banner : List Char
  schema : List Char
  name : List Char
  parameters : List (List Char)
  /-- The text of the documentation block. -/
  json : List Char
  /-- The body after the documentation block. -/
  tail : List Char

namespace Convention

/-- The header with the schema and the name in brackets. -/
def header (d : Convention) : List Char :=
  "CREATE PROCEDURE [".toList ++ d.schema ++ "].[".toList ++ d.name ++ "]".toList

/-- The document without its banner. -/
def text (d : Convention) : List Char :=
  ['\n'].intercalate [d.header, [',', '\n'].intercalate d.parameters, "AS".toList,
    "/* start docs".toList, d.json, "end docs */".toList, d.tail]

/-- The document. -/
def source (d : Convention) : List Char := ['\n'].intercalate [d.banner, d.text]

/-- The pieces fit together, and the block says what `docs` says. -/
structure IsRegular (d : Convention) (docs : DocsBlock) : Prop where
  banner_line : '\n' ∉ d.banner
  banner_shown : ∃ c ∈ d.banner, Text.isBlank c = false
  schema_chars : ']' ∉ d.schema ∧ '@' ∉ d.schema
  name_chars : ']' ∉ d.name ∧ '@' ∉ d.name
  name_trimmed : Text.IsTrimmed d.name
  name_page : isPageName (String.ofList d.name) = true
  parameters : ∀ p ∈ d.parameters, IsParameter p
  first_sign : ∀ p ∈ d.parameters.head?, p.head? = some '@'
  no_keyword : ∀ piece ∈ d.schema :: d.name :: d.parameters, ¬ Holds bodyKeyword piece
  no_start : ∀ piece ∈ d.schema :: d.name :: d.parameters, ¬ Holds startDocs piece
  json_docs : docs.Encodes d.json
  json_open : ¬ ['*', '/'] <:+: d.json
  no_end : ¬ Holds endDocs d.json
  /-- A document has to hold the sign of a parameter or a variable somewhere. -/
  sign : '@' ∈ d.text

/-! ### The text in the order of the searches -/

/-- What stands between the two keywords. -/
def region (d : Convention) : List Char :=
  ' ' :: '[' :: (d.schema ++ ']' :: '.' :: '[' :: (d.name ++ ']' :: '\n' ::
    ([',', '\n'].intercalate d.parameters ++ ['\n'])))

/-- The documentation block in its comment, behind the keyword of the body. -/
def block (d : Convention) : List Char :=
  '\n' :: '/' :: '*' :: ' ' :: ("start docs".toList ++ '\n' :: (d.json ++ '\n' ::
    ("end docs".toList ++ [' ', '*', '/'])))

/-- A text that differs from the document only in what follows the block. -/
def textWith (d : Convention) (rest : List Char) : List Char :=
  "CREATE ".toList ++ ("PROCEDURE".toList ++ (d.region ++ ("AS".toList ++ (d.block ++ rest))))

theorem text_eq (d : Convention) : d.text = d.textWith ('\n' :: d.tail) := by
  unfold text textWith header region block
  iterate 6 rw [List.intercalate_cons_cons]
  rw [List.intercalate_singleton]
  generalize [',', '\n'].intercalate d.parameters = ps
  simp

/-- The document ends with its block when nothing follows it. -/
theorem getLast?_textWith (d : Convention) : (d.textWith []).getLast? = some '/' := by
  unfold textWith block
  simp [List.getLast?_cons, List.getLast?_append]

theorem textWith_append (d : Convention) (rest : List Char) :
    d.textWith rest = d.textWith [] ++ rest := by
  unfold textWith
  simp only [List.append_assoc, List.append_nil]

/-- Trimming the end of a document touches only what follows the docs block. -/
theorem trimEnd_text (d : Convention) :
    Text.trimEnd d.text = d.textWith (Text.trimEnd ('\n' :: d.tail)) := by
  rw [text_eq, textWith_append, Text.trimEnd_append d.getLast?_textWith (by decide),
    ← textWith_append]

/-- Trimming a document leaves its first line apart from the rest. -/
theorem documentText_source {d : Convention} (hline : '\n' ∉ d.banner)
    (hshown : ∃ c ∈ d.banner, Text.isBlank c = false) :
    documentText true d.source = Text.trimEnd d.text := by
  have hsource : d.source = d.banner ++ '\n' :: d.text := by
    rw [source, List.intercalate_cons_cons, List.intercalate_singleton, List.append_assoc,
      List.singleton_append]
  rw [hsource, documentText_banner hline hshown]

/-! ### The region holds no marker -/

/-- A phrase that stands in no parameter stands in no list of them either. -/
theorem holds_parameters {phrase : Phrase} (hp : IsPlain phrase) (hne : phrase ≠ [])
    {post : List Char}
    (hfresh : ∀ word ∈ phrase.tail, Text.readWord? word (post.dropWhile Text.isBlank) = none)
    {ps : List (List Char)} (h : Holds phrase ([',', '\n'].intercalate ps ++ '\n' :: post)) :
    (∃ p ∈ ps, Holds phrase p) ∨ Holds phrase post := by
  induction ps with
  | nil => exact .inr (h.of_cons hp hne (by decide))
  | cons p ps ih =>
    cases ps with
    | nil =>
      rw [List.intercalate_singleton] at h
      have hfresh' : ∀ word ∈ phrase.tail,
          Text.readWord? word (('\n' :: post).dropWhile Text.isBlank) = none := hfresh
      rcases h.of_append_cons hp hne (by decide) hfresh' with h | h
      · exact .inl ⟨p, by simp, h⟩
      · exact .inr h
    | cons next ps =>
      rw [List.intercalate_cons_cons, List.append_assoc, List.append_assoc] at h
      rcases h.of_append_cons hp hne (by decide) (Text.fresh_of_head hp (by decide) (by decide) _)
        with h | h
      · exact .inl ⟨p, by simp, h⟩
      · rcases ih (h.of_cons hp hne (by decide)) with ⟨q, hq, hholds⟩ | h
        · exact .inl ⟨q, List.mem_cons_of_mem _ hq, hholds⟩
        · exact .inr h

/-- A phrase that stands in none of the pieces stands nowhere between the keywords. -/
theorem not_holds_region {d : Convention} {phrase : Phrase} (hp : IsPlain phrase)
    (hne : phrase ≠ []) (h : ∀ piece ∈ d.schema :: d.name :: d.parameters, ¬ Holds phrase piece)
    (previous : Option Char) (post : List Char)
    (hfresh : ∀ word ∈ phrase.tail, Text.readWord? word (post.dropWhile Text.isBlank) = none)
    (hpost : ¬ Holds phrase post) : ¬ HoldsAfter previous phrase (d.region ++ post) := by
  have hregion : d.region ++ post = ' ' :: '[' :: (d.schema ++ ']' :: '.' :: '[' :: (d.name ++
      ']' :: '\n' :: ([',', '\n'].intercalate d.parameters ++ '\n' :: post))) := by
    simp [region]
  rw [hregion]
  intro hr
  -- The dividers around each piece belong to no word, so a match lies inside one of the pieces.
  have hr := (hr.of_cons hp hne (by decide)).of_cons hp hne (by decide)
  rcases hr.of_append_cons hp hne (by decide) (Text.fresh_of_head hp (by decide) (by decide) _)
    with hr | hr
  · exact h d.schema (by simp) hr
  · have hr := (hr.of_cons hp hne (by decide)).of_cons hp hne (by decide)
    rcases hr.of_append_cons hp hne (by decide) (Text.fresh_of_head hp (by decide) (by decide) _)
      with hr | hr
    · exact h d.name (by simp) hr
    · have hr := hr.of_cons hp hne (by decide)
      rcases holds_parameters hp hne hfresh hr with ⟨p, hmem, hr⟩ | hr
      · exact h p (by simp [hmem]) hr
      · exact hpost hr

/-! ### The keywords -/

theorem getLast?_region (d : Convention) : d.region.getLast? = some '\n' := by
  simp [region, List.getLast?_cons, List.getLast?_append]

/-- The keywords of a document are found where it has them, if none stands in its pieces. -/
theorem cut_textWith {d : Convention} {rest : List Char}
    (h : ∀ piece ∈ d.schema :: d.name :: d.parameters, ¬ Holds bodyKeyword piece)
    (hsign : '@' ∈ d.textWith rest) :
    HeaderCut.ofText (d.textWith rest) =
      .ok ⟨"CREATE ".toList ++ "PROCEDURE".toList, d.region,
        "AS".toList ++ (d.block ++ rest)⟩ := by
  -- The first keyword has only a fixed text before it, so this part is a computation.
  have hprocedure : Text.find? procedureKeyword none (d.textWith rest) =
      some ⟨"CREATE ".toList, "PROCEDURE".toList,
        d.region ++ ("AS".toList ++ (d.block ++ rest))⟩ := by
    apply Text.find?_append_written (by decide) (by decide)
    · exact (Text.written_iff_readPhrase? (by decide) (by decide)).2 (by decide)
    · exact (Text.find?_eq_none_iff (by decide) (by decide)).1 (by decide)
    · exact .of_getLast (c := ' ') (by decide) (by decide) (by simp [procedureKeyword])
    · decide
    · rfl
  -- The second one is looked for from there, and the pieces of the region do not hold it.
  have hbody : Text.find? bodyKeyword (some 'E') (d.region ++ ("AS".toList ++ (d.block ++ rest))) =
      some ⟨d.region, "AS".toList, d.block ++ rest⟩ := by
    apply Text.find?_append_written (by decide) (by decide)
    · exact (Text.written_iff_readPhrase? (by decide) (by decide)).2 (by decide)
    · have hempty : ¬ Holds bodyKeyword [] :=
        (Text.find?_eq_none_iff (by decide) (by decide)).1 (by decide)
      have := not_holds_region (by decide) (by decide) h (some 'E') [] (by decide) hempty
      rwa [List.append_nil] at this
    · exact .of_getLast d.getLast?_region (by decide) (by simp [bodyKeyword])
    · rw [getLast?_region]
      decide
    · rfl
  exact HeaderCut.ofText_eq hprocedure hsign hbody

/-! ### The header -/

/-- The name with its schema, both in brackets. -/
def qualified (d : Convention) : List Char :=
  '[' :: (d.schema ++ ']' :: '.' :: '[' :: (d.name ++ [']']))

/-- A name in brackets with its schema has these two parts. -/
theorem nameParts_qualified {d : Convention} (hs : ']' ∉ d.schema) (hn : ']' ∉ d.name) :
    nameParts d.qualified = [d.schema, d.name] := by
  rw [qualified, nameParts_bracket hs, nameParts_dot, nameParts_bracket hn, nameParts]

/-- The first sign cuts the region into the name and the parameters, with blanks around both. -/
theorem region_cut {d : Convention} (hs : '@' ∉ d.schema) (hn : '@' ∉ d.name)
    (hfirst : ∀ p ∈ d.parameters.head?, p.head? = some '@') :
    ∃ left right, Text.Blanks left ∧ Text.Blanks right ∧
      d.region.takeWhile (· != '@') = [' '] ++ d.qualified ++ left ∧
      d.region.dropWhile (· != '@') = [',', '\n'].intercalate d.parameters ++ right := by
  have hregion : d.region = ([' '] ++ d.qualified ++ ['\n']) ++
      ([',', '\n'].intercalate d.parameters ++ ['\n']) := by
    simp [region, qualified]
  have hname : '@' ∉ [' '] ++ d.qualified ++ ['\n'] := by
    simp [qualified, hs, hn]
  have hne := Text.bne_of_not_mem hname
  rw [hregion, List.takeWhile_append_of_pos hne, List.dropWhile_append_of_pos hne]
  cases hps : d.parameters with
  | nil => exact ⟨['\n', '\n'], [], by decide, by decide, by simp, rfl⟩
  | cons p ps =>
    -- The sign opens the first parameter, so the name ends in front of the list.
    obtain ⟨text, htext⟩ : ∃ text, [',', '\n'].intercalate (p :: ps) ++ ['\n'] = '@' :: text := by
      have hp := hfirst p (by simp [hps])
      cases p with
      | nil => simp at hp
      | cons c p =>
        obtain rfl : c = '@' := by simpa using hp
        cases ps with
        | nil => exact ⟨_, rfl⟩
        | cons next ps => exact ⟨_, by rw [List.intercalate_cons_cons]; rfl⟩
    refine ⟨['\n'], ['\n'], by decide, by decide, ?_, ?_⟩
    · rw [htext, List.takeWhile_cons_of_neg (by simp), List.append_nil]
    · rw [htext, List.dropWhile_cons_of_neg (by simp)]

theorem getLast?_qualified (d : Convention) : d.qualified.getLast? = some ']' := by
  simp [qualified, List.getLast?_cons, List.getLast?_append]

theorem isTrimmed_qualified (d : Convention) : Text.IsTrimmed d.qualified := by
  apply Text.isTrimmed_of_ends
  · rfl
  · rw [getLast?_qualified]
    rfl

theorem dropOpenings_qualified (d : Convention) : dropOpenings d.qualified = d.qualified := by
  -- The name ends with a bracket and not with an opening parenthesis.
  apply dropOpenings_of_getLast
  rw [getLast?_qualified]
  decide

/-- The header of a regular document is read back from its region. -/
theorem header_region {d : Convention} {docs : DocsBlock} (h : d.IsRegular docs)
    (lead body : List Char) :
    ∃ start, HeaderCut.header ⟨lead, d.region, body⟩ =
      .ok ⟨String.ofList d.name, d.parameters.map String.ofList, start⟩ := by
  -- The region is cut at the first `@`, that of the first parameter or none.
  obtain ⟨left, right, hleft, hright, htake, hdrop⟩ :=
    region_cut h.schema_chars.2 h.name_chars.2 h.first_sign
  have hpart : HeaderCut.namePart ⟨lead, d.region, body⟩ = d.qualified := by
    rw [HeaderCut.namePart, htake]
    exact d.isTrimmed_qualified.trim_blanks (by simp [qualified]) [' '] left (by decide) hleft
  have hname : HeaderCut.name ⟨lead, d.region, body⟩ = String.ofList d.name := by
    have hunqualify : unqualify d.qualified = d.name := by
      rw [unqualify, nameParts_qualified h.schema_chars.1 h.name_chars.1]
      exact h.name_trimmed
    rw [HeaderCut.name, hpart, dropOpenings_qualified,
      Text.trimEnd_of_getLast d.isTrimmed_qualified.getLast, hunqualify]
  have hparameters : HeaderCut.parameters ⟨lead, d.region, body⟩ =
      d.parameters.map String.ofList := by
    rw [HeaderCut.parameters, hpart, getLast?_qualified, HeaderCut.parameterPart, hdrop]
    exact congrArg _ (splitParameters_intercalate h.parameters hright)
  have hnonempty : (String.ofList d.name == "") = false := by
    have := h.name_page
    simp only [isPageName, Bool.and_eq_true, bne_iff_ne] at this
    simpa using this.1.1.1
  refine ⟨HeaderCut.bodyStart ⟨lead, d.region, body⟩, ?_⟩
  rw [HeaderCut.header, hname, hparameters, hnonempty, h.name_page]
  rfl

/-! ### The documentation block -/

theorem recordText_lines {json : List Char} (h : Text.IsTrimmed json) :
    recordText ('\n' :: (json ++ ['\n'])) = json := by
  have hfirst : dropFirstLine ('\n' :: (json ++ ['\n'])) = json ++ ['\n'] := rfl
  have hmarker : dropMarkerLine (json ++ ['\n']) = json := by
    simp [dropMarkerLine]
  rw [recordText, hfirst, hmarker]
  exact h

/-- A record has no blanks at its ends. -/
theorem isTrimmed_of_recordText {layout : Json.Layout} {text : List Char} {fields : Json.Fields}
    (h : Json.RecordText layout text fields) : Text.IsTrimmed text := by
  cases h with
  | empty hgap =>
    apply Text.isTrimmed_of_ends
    · rfl
    · simp [List.getLast?_cons, List.getLast?_append]
      decide
  | full h =>
    apply Text.isTrimmed_of_ends
    · rfl
    · simp [List.getLast?_cons, List.getLast?_append]
      decide

/-- A text that encodes docs is read as them. -/
theorem ofJson_of_encodes {json : List Char} {docs : DocsBlock} (h : docs.Encodes json) :
    DocsBlock.ofJson json = .ok docs := by
  obtain ⟨fields, htext, hfields⟩ := h
  rw [← List.append_nil json, DocsBlock.ofJson]
  rcases hfields with rfl | rfl
  · exact Json.parse_of_recordText htext (by simp) rfl [] Json.spaces_nil
  · exact Json.parse_of_recordText htext (by simp) rfl [] Json.spaces_nil

/-- The second word of a marker does not stand where its first word stands. -/
theorem fresh_docs {marker : Phrase} (hmarker : marker.tail = [['d', 'o', 'c', 's']]) {c : Char}
    (hb : Text.isBlank c = false) (hc : Text.sameLetter 'd' c = false) (text : List Char) :
    ∀ word ∈ marker.tail, Text.readWord? word ((c :: text).dropWhile Text.isBlank) = none := by
  intro word hword
  obtain rfl : word = ['d', 'o', 'c', 's'] := by simpa [hmarker] using hword
  rw [List.dropWhile_cons_of_neg (by simp [hb]), Text.readWord?, hc]
  rfl

/-- The opening marker is not found before its place. -/
theorem find?_startDocs {d : Convention}
    (h : ∀ piece ∈ d.schema :: d.name :: d.parameters, ¬ Holds startDocs piece)
    (rest : List Char) :
    Text.find? startDocs none (d.textWith rest) =
      some ⟨"CREATE PROCEDURE".toList ++ (d.region ++ "AS\n/* ".toList), "start docs".toList,
        '\n' :: (d.json ++ '\n' :: ("end docs".toList ++ ' ' :: '*' :: '/' :: rest))⟩ := by
  have htext : d.textWith rest = ("CREATE PROCEDURE".toList ++ (d.region ++ "AS\n/* ".toList)) ++
      ("start docs".toList ++
        '\n' :: (d.json ++ '\n' :: ("end docs".toList ++ ' ' :: '*' :: '/' :: rest))) := by
    unfold textWith block
    simp
  have hlast : ("CREATE PROCEDURE".toList ++ (d.region ++ "AS\n/* ".toList)).getLast? =
      some ' ' := by
    simp [List.getLast?_cons, List.getLast?_append]
  have hbefore : ¬ HoldsAfter none startDocs
      ("CREATE PROCEDURE".toList ++ (d.region ++ "AS\n/* ".toList)) := by
    have hsep : Text.Separates startDocs "CREATE PROCEDURE".toList
        (d.region ++ "AS\n/* ".toList) := by
      apply Text.Separates.of_head (by decide)
      -- The blank in front of the bracket is passed over.
      exact Text.fresh_of_head (c := '[') (by decide) (by decide) (by decide) _
    intro hr
    -- `CREATE PROCEDURE` is fixed again; behind it the pieces are looked through.
    rcases hr.of_append (by decide) (by decide) hsep with hr | hr
    · revert hr
      exact (Text.find?_eq_none_iff (by decide) (by decide)).1 (by decide)
    · have hpost : ¬ Holds startDocs "AS\n/* ".toList :=
        (Text.find?_eq_none_iff (by decide) (by decide)).1 (by decide)
      exact not_holds_region (by decide) (by decide) h _ _ (by decide) hpost hr
  rw [htext]
  apply Text.find?_append_written (by decide) (by decide)
  · exact (Text.written_iff_readPhrase? (by decide) (by decide)).2 (by decide)
  · exact hbefore
  · exact .of_getLast hlast (by decide) (fresh_docs rfl (c := 's') (by decide) (by decide) _)
  · rw [hlast]
    decide
  · rfl

/-- The closing marker of a document is the first one behind its record. -/
theorem find?_endDocs {d : Convention} (h : ¬ Holds endDocs d.json) (rest : List Char) :
    Text.find? endDocs (some 's')
        ('\n' :: (d.json ++ '\n' :: ("end docs".toList ++ ' ' :: '*' :: '/' :: rest))) =
      some ⟨'\n' :: (d.json ++ ['\n']), "end docs".toList, ' ' :: '*' :: '/' :: rest⟩ := by
  have htext : '\n' :: (d.json ++ '\n' :: ("end docs".toList ++ ' ' :: '*' :: '/' :: rest)) =
      '\n' :: (d.json ++ ['\n']) ++ ("end docs".toList ++ ' ' :: '*' :: '/' :: rest) := by
    simp
  have hlast : ('\n' :: (d.json ++ ['\n'])).getLast? = some '\n' := by
    simp [List.getLast?_cons, List.getLast?_append]
  -- The record may end with a brace and a line break, neither of which begins the marker.
  have hbefore : ¬ HoldsAfter (some 's') endDocs ('\n' :: (d.json ++ ['\n'])) := by
    intro hr
    have hr := hr.of_cons (by decide) (by decide) (by decide)
    rcases hr.of_append_cons (by decide) (by decide) (by decide) (by decide) with hr | hr
    · exact h hr
    · revert hr
      exact (Text.find?_eq_none_iff (by decide) (by decide)).1 (by decide)
  rw [htext]
  apply Text.find?_append_written (by decide) (by decide)
  · exact (Text.written_iff_readPhrase? (by decide) (by decide)).2 (by decide)
  · exact hbefore
  · exact .of_getLast hlast (by decide) (fresh_docs rfl (c := 'e') (by decide) (by decide) _)
  · rw [hlast]
    decide
  · rfl

/-- The docs of a regular document are read back, whatever follows their block. -/
theorem docs_textWith {d : Convention} {docs : DocsBlock} (h : d.IsRegular docs)
    (rest : List Char) : DocsBlock.ofText (d.textWith rest) = .ok docs := by
  have htrimmed : Text.IsTrimmed d.json := by
    obtain ⟨fields, htext, -⟩ := h.json_docs
    exact isTrimmed_of_recordText htext
  have hpair : Text.findPair? startDocs endDocs (d.textWith rest) =
      some (⟨"CREATE PROCEDURE".toList ++ (d.region ++ "AS\n/* ".toList), "start docs".toList,
          '\n' :: (d.json ++ '\n' :: ("end docs".toList ++ ' ' :: '*' :: '/' :: rest))⟩,
        ⟨'\n' :: (d.json ++ ['\n']), "end docs".toList, ' ' :: '*' :: '/' :: rest⟩) :=
    Text.findPair?_eq (find?_startDocs h.no_start rest) (find?_endDocs h.no_end rest)
  rw [DocsBlock.ofText_eq hpair, recordText_lines htrimmed, ofJson_of_encodes h.json_docs]
  rfl

/-! ### The references -/

/-- Nothing in front of the rest of the body is a reference. -/
theorem references_textWith {d : Convention} (schema : String) (h : ¬ ['*', '/'] <:+: d.json)
    (rest : List Char) :
    references schema ("AS".toList ++ (d.block ++ rest)) = references schema rest := by
  have hlead : "AS".toList ++ (d.block ++ rest) = "AS\n".toList ++ ('/' :: '*' ::
      (" start docs\n".toList ++ (d.json ++ ("\nend docs ".toList ++ '*' :: '/' :: rest)))) := by
    simp [block]
  have hblock : afterBlock? (" start docs\n".toList ++
      (d.json ++ ("\nend docs ".toList ++ '*' :: '/' :: rest))) = some rest := by
    -- The opening line holds no star, so nothing depends on what follows it.
    show afterBlock? (d.json ++ ("\nend docs ".toList ++ '*' :: '/' :: rest)) = some rest
    rw [afterBlock?_append h (by simp)]
    rfl
  have hinert : IsInert "AS\n".toList := by decide
  rw [hlead, references_append_inert schema hinert, references_block schema hblock]

/-- The procedure that a document describes. -/
def procedure (d : Convention) (docs : DocsBlock) (schema : String) : Procedure where
  name := String.ofList d.name
  body := String.ofList (Text.trimEnd d.text)
  description := docs.description
  parameters := d.parameters.map String.ofList
  returns := docs.returns
  references := references schema d.tail

/-- The stages together: header, docs and references of a regular document. -/
theorem readDocument_text {d : Convention} {docs : DocsBlock} (h : d.IsRegular docs)
    (schema : String) : readDocument schema (Text.trimEnd d.text) = .ok (d.procedure docs schema) := by
  -- Trimming takes blanks from the tail only, and the sign is none.
  have hsign : '@' ∈ d.textWith (Text.trimEnd ('\n' :: d.tail)) := by
    rw [← d.trimEnd_text]
    exact (Text.mem_trimEnd (by decide)).2 h.sign
  have hreferences : references schema
      ("AS".toList ++ (d.block ++ Text.trimEnd ('\n' :: d.tail))) = references schema d.tail := by
    have hinert : IsInert ['\n'] := by decide
    rw [references_textWith schema h.json_open, references_trimEnd]
    exact references_append_inert schema hinert d.tail
  obtain ⟨start, hheader⟩ := header_region h ("CREATE ".toList ++ "PROCEDURE".toList)
    ("AS".toList ++ (d.block ++ Text.trimEnd ('\n' :: d.tail)))
  have hcut := cut_textWith h.no_keyword hsign
  have hdocs := docs_textWith h (Text.trimEnd ('\n' :: d.tail))
  rw [procedure, d.trimEnd_text, readDocument, hcut]
  simp only [hheader, hdocs, hreferences]

end Convention

/-! ### Reading a document -/

/-- **Reading a document in the usual form gives back what went into it.** -/
theorem ofSource_convention (options : SourceOptions) (hskip : options.skipBanner = true)
    (d : Convention) (docs : DocsBlock) (h : d.IsRegular docs) :
    Procedure.ofSource options (String.ofList d.source) = .ok {
      name := String.ofList d.name
      body := String.ofList (Text.trimEnd d.text)
      description := docs.description
      parameters := d.parameters.map String.ofList
      returns := docs.returns
      references := references options.schema d.tail
      notes := "" } := by
  rw [Procedure.ofSource, hskip, String.toList_ofList,
    Convention.documentText_source h.banner_line h.banner_shown]
  exact Convention.readDocument_text h options.schema

/-- A document with a comma inside a parameter and keywords inside words. -/
def orderTotals : Convention where
  banner := "USE [Sales]".toList
  schema := "dbo".toList
  name := "Order totals".toList
  parameters := ["@year INT".toList, "@least DECIMAL(10, 2) = NULL".toList]
  json := (Json.renderFields
    [("description", .text "Totals as \"sums\""), ("returns", .texts ["year", "total"])]).toList
  tail := "SELECT total FROM [dbo].[Orders] -- [no]\n".toList

theorem isRegular_orderTotals :
    orderTotals.IsRegular ⟨"Totals as \"sums\"", ["year", "total"]⟩ where
  banner_line := by decide
  banner_shown := ⟨'U', by decide, by decide⟩
  schema_chars := by decide
  name_chars := by decide
  name_trimmed := by decide
  name_page := by decide
  parameters := by decide
  first_sign := by decide
  no_keyword := by
    have h : ∀ piece ∈ orderTotals.schema :: orderTotals.name :: orderTotals.parameters,
        Text.find? bodyKeyword none piece = none := by decide
    intro piece hpiece
    exact (Text.find?_eq_none_iff (by decide) (by decide)).1 (h piece hpiece)
  no_start := by
    have h : ∀ piece ∈ orderTotals.schema :: orderTotals.name :: orderTotals.parameters,
        Text.find? startDocs none piece = none := by decide
    intro piece hpiece
    exact (Text.find?_eq_none_iff (by decide) (by decide)).1 (h piece hpiece)
  json_docs := by
    refine ⟨_, Json.recordText_renderFields (List.cons_ne_nil _ _) ?_, .inl rfl⟩
    intro member hmember
    simp only [List.mem_cons, List.not_mem_nil, or_false] at hmember
    rcases hmember with rfl | rfl <;> exact ⟨_, rfl, rfl, rfl⟩
  json_open := by decide +kernel
  no_end := (Text.find?_eq_none_iff (by decide) (by decide)).1 (by decide)
  sign := by decide

theorem ofSource_orderTotals :
    Procedure.ofSource {} (String.ofList orderTotals.source) = .ok {
      name := "Order totals"
      body := String.ofList (Text.trimEnd orderTotals.text)
      description := "Totals as \"sums\""
      parameters := ["@year INT", "@least DECIMAL(10, 2) = NULL"]
      returns := ["year", "total"]
      references := references "dbo" orderTotals.tail
      notes := "" } :=
  ofSource_convention {} rfl orderTotals _ isRegular_orderTotals

end ProcBook.Sql
