/-
ProcBook/Proofs/Links.lean

The links of a page.

`Html.links` reads a page tag by tag and collects the values of its `href` attributes.  It knows nothing
of how pages are made, so that

    links (catalog.page .linked selected) = the escaped links of the records that have a page

says two things (`links_page`): each such record has its link, in order, and no other text of a page,
be it a name, a title or a body, is ever taken for a link.  The second one rests on `escape`, which
leaves neither the start of a tag nor a quotation mark.

What a link looks like follows from the name alone: `mem_pageHref` tells its characters.
-/
import Mathlib.Data.List.Basic
import ProcBook.Catalog.Page

namespace ProcBook.Html

/-! ### Reading a page -/

/-- Where a reader of a page stands. -/
inductive Place where
  /-- Outside of tags. -/
  | text
  /-- In a tag, behind the characters of a word. -/
  | tag (word : List Char)
  /-- In the value of an attribute, which stands between quotation marks. -/
  | value (key read : List Char)
deriving Repr, DecidableEq

/-- Where the reader stands behind a character. -/
def Place.next : Place → Char → Place
  | text, c => if c = '<' then tag [] else text
  | tag word, c =>
    if c = '>' then text
    else if c = '"' then value word []
    else if Text.isBlank c then tag []
    else tag (word ++ [c])
  | value key read, c => if c = '"' then tag [] else value key (read ++ [c])

/-- The link that a character ends: it closes the value of an `href`. -/
def Place.link? : Place → Char → Option String
  | value key read, c =>
    if c = '"' ∧ key = "href=".toList then some (String.ofList read) else none
  | _, _ => none

/-- The links in a text, where the reader stands somewhere already. -/
def linksFrom (place : Place) : List Char → List String
  | [] => []
  | c :: text => (place.link? c).toList ++ linksFrom (place.next c) text

/-- The links of a page. -/
def links (page : String) : List String := linksFrom .text page.toList

/-- The reader of links goes through a page from left to right and keeps only the place it is at. -/
theorem linksFrom_append (place : Place) (front back : List Char) :
    linksFrom place (front ++ back) =
      linksFrom place front ++ linksFrom (front.foldl Place.next place) back := by
  induction front generalizing place with
  | nil => rfl
  | cons c front ih => rw [List.cons_append, linksFrom, linksFrom, ih, List.append_assoc]; rfl

/-- A part of a page that starts and ends outside of tags, and the links in it. -/
def Yields (part : String) (found : List String) : Prop :=
  part.toList.foldl Place.next .text = .text ∧ links part = found

instance (part : String) (found : List String) : Decidable (Yields part found) :=
  inferInstanceAs (Decidable (_ ∧ _))

/-- Parts that each end outside of tags have their links one after the other. -/
theorem Yields.append {front back : String} {found found' : List String}
    (h : Yields front found) (h' : Yields back found') :
    Yields (front ++ back) (found ++ found') := by
  refine ⟨?_, ?_⟩
  · rw [String.toList_append, List.foldl_append, h.1, h'.1]
  · rw [links, String.toList_append, linksFrom_append, h.1, ← h.2, ← h'.2]
    rfl

/-- A row of such parts has the links of each in turn. -/
theorem yields_join {α : Type} {part : α → String} {found : α → List String}
    (h : ∀ a, Yields (part a) (found a)) (as : List α) :
    Yields (String.join (as.map part)) (as.flatMap found) := by
  induction as with
  | nil => exact ⟨rfl, rfl⟩
  | cons a as ih =>
    rw [List.map_cons, String.join_cons, List.flatMap_cons]
    exact (h a).append ih

/-- Outside of tags nothing is a link. -/
theorem yields_of_not_mem {part : String} (h : '<' ∉ part.toList) : Yields part [] := by
  unfold Yields links
  generalize part.toList = text at h
  induction text with
  | nil => exact ⟨rfl, rfl⟩
  | cons c text ih =>
    rw [List.mem_cons, not_or] at h
    have hnext : Place.text.next c = .text := if_neg (Ne.symm h.1)
    obtain ⟨hplace, hlinks⟩ := ih h.2
    rw [List.foldl_cons, linksFrom, hnext]
    exact ⟨hplace, hlinks⟩

/-- Up to the next quotation mark a value goes on. -/
theorem read_value (key read : List Char) {text : List Char} (h : '"' ∉ text) :
    text.foldl Place.next (.value key read) = .value key (read ++ text) ∧
      linksFrom (.value key read) text = [] := by
  induction text generalizing read with
  | nil => simp [linksFrom]
  | cons c text ih =>
    rw [List.mem_cons, not_or] at h
    have hne : ¬ c = '"' := Ne.symm h.1
    have hnext : (Place.value key read).next c = .value key (read ++ [c]) := if_neg hne
    have hlink : (Place.value key read).link? c = none := if_neg (fun hc => hne hc.1)
    obtain ⟨hplace, hlinks⟩ := ih (read ++ [c]) h.2
    rw [List.foldl_cons, linksFrom, hnext, hlink, hplace, hlinks, List.append_assoc]
    exact ⟨rfl, rfl⟩

/-! ### Escaped texts -/

/-- Escaped text has none of the characters that delimit tags and attributes. -/
theorem not_mem_escapeChar {c : Char} (hc : c ∈ ['<', '>', '"']) (d : Char) : c ∉ escapeChar d := by
  simp only [List.mem_cons, List.not_mem_nil, or_false] at hc
  unfold escapeChar
  split
  · rcases hc with rfl | rfl | rfl <;> decide
  · rcases hc with rfl | rfl | rfl <;> decide
  · rcases hc with rfl | rfl | rfl <;> decide
  · rcases hc with rfl | rfl | rfl <;> decide
  · next hlt hgt hquote =>
    rw [List.mem_singleton]
    rintro rfl
    rcases hc with h | h | h
    exacts [hlt h, hgt h, hquote h]

theorem not_mem_escape {c : Char} (hc : c ∈ ['<', '>', '"']) (text : String) :
    c ∉ (escape text).toList := by
  rw [escape, String.toList_ofList, List.mem_flatMap]
  rintro ⟨d, -, hd⟩
  exact not_mem_escapeChar hc d hd

/-- So escaped text has no links in it. -/
theorem yields_escape (text : String) : Yields (escape text) [] :=
  yields_of_not_mem (not_mem_escape (by decide) text)

/-- Reads the escapes of a text. -/
def unescapeChars : List Char → List Char
  | '&' :: 'a' :: 'm' :: 'p' :: ';' :: text => '&' :: unescapeChars text
  | '&' :: 'l' :: 't' :: ';' :: text => '<' :: unescapeChars text
  | '&' :: 'g' :: 't' :: ';' :: text => '>' :: unescapeChars text
  | '&' :: 'q' :: 'u' :: 'o' :: 't' :: ';' :: text => '"' :: unescapeChars text
  | c :: text => c :: unescapeChars text
  | [] => []

/-- The text that an escaped text stands for. -/
def unescape (text : String) : String := String.ofList (unescapeChars text.toList)

theorem unescapeChars_cons {c : Char} (h : c ≠ '&') (text : List Char) :
    unescapeChars (c :: text) = c :: unescapeChars text := by
  rw [unescapeChars]
  all_goals
    intros
    simp_all

/-- One character is read back, and the reader goes on behind it. -/
theorem unescapeChars_escapeChar (c : Char) (text : List Char) :
    unescapeChars (escapeChar c ++ text) = c :: unescapeChars text := by
  unfold escapeChar
  split
  · rfl
  · rfl
  · rfl
  · rfl
  · next hamp _ _ _ => exact unescapeChars_cons hamp text

/-- Reading escapes back undoes the escaping: the ampersand is escaped itself, so a text that looks
like an escape comes back as it was. -/
theorem unescapeChars_flatMap (text : List Char) :
    unescapeChars (text.flatMap escapeChar) = text := by
  induction text with
  | nil => rfl
  | cons c text ih => rw [List.flatMap_cons, unescapeChars_escapeChar, ih]

theorem unescape_escape (text : String) : unescape (escape text) = text := by
  rw [unescape, escape, String.toList_ofList, unescapeChars_flatMap, String.ofList_toList]

/-! ### The parts of a page -/

theorem not_mem_style {c : Char} (hc : c ∈ ['<', '&']) : c ∉ style.toList := by
  unfold style
  -- Lists of characters, unlike the texts they make, are compared without decoding.
  iterate 6 rewrite [String.toList_append]
  iterate 7 rewrite [String.toList_ofList]
  simp only [List.mem_cons, List.not_mem_nil, or_false] at hc
  rcases hc with rfl | rfl
  · decide +kernel
  · decide +kernel

theorem yields_style : Yields style [] := yields_of_not_mem (not_mem_style (by decide))

theorem yields_opening (title : String) : Yields (opening title) [] := by
  have hstart : Yields "<!DOCTYPE html>\n<html>\n<head>\n<meta charset=\"utf-8\">\n<title>" [] := by
    decide
  have htitle : Yields "</title>\n<style>\n" [] := by decide
  have hend : Yields "</style>\n</head>\n<body>\n" [] := by decide
  exact (((hstart.append (yields_escape title)).append htitle).append yields_style).append hend

/-- A text between tags that hold no link. -/
theorem yields_between {left right : String} (hleft : Yields left []) (hright : Yields right [])
    (text : String) : Yields (left ++ escape text ++ right) [] :=
  (hleft.append (yields_escape text)).append hright

theorem yields_items (texts : List String) : Yields (items texts) [] := by
  have hitem : ∀ text, Yields ("  <li>" ++ escape text ++ "</li>\n") [] :=
    yields_between (by decide) (by decide)
  have hitems := yields_join hitem texts
  rw [List.flatMap_eq_nil_iff.2 (fun _ _ => rfl)] at hitems
  have hstart : Yields "<ul>\n" [] := by decide
  have hend : Yields "</ul>\n" [] := by decide
  exact (hstart.append hitems).append hend

/-- A section has no links if its contents have none. -/
theorem yields_block {id heading contents : String}
    (hheading : Yields ("<section id=\"" ++ id ++ "\">\n<h2>" ++ heading ++ "</h2>\n") [])
    (h : Yields contents []) : Yields (block id heading contents) [] := by
  have hend : Yields "</section>\n" [] := by decide
  exact (hheading.append h).append hend

theorem yields_paragraph (text : String) : Yields (paragraph text) [] :=
  yields_between (by decide) (by decide) text

theorem yields_code (text : String) : Yields (code text) [] :=
  yields_between (by decide) (by decide) text

/-- The sections of a record hold no links, whatever the record says. -/
theorem yields_detail (procedure : Procedure) : Yields (detail procedure) [] := by
  have hstart : Yields ("<section id=\"documentation\">\n<h1>" ++ escape procedure.name ++
      "</h1>\n") [] := yields_between (by decide) (by decide) procedure.name
  have hdescription : Yields (block "description" "Description"
      (paragraph procedure.description)) [] := yields_block (by decide) (yields_paragraph _)
  have hparams : Yields (block "params" "Parameters"
      (code ("\n".intercalate procedure.parameters))) [] := yields_block (by decide) (yields_code _)
  have hreturns : Yields (block "returns" "Returns" (items procedure.returns)) [] :=
    yields_block (by decide) (yields_items _)
  have hbody : Yields (block "body" "Try It" (code procedure.body)) [] :=
    yields_block (by decide) (yields_code _)
  have hrefs : Yields (block "refs" "References" (items procedure.references)) [] :=
    yields_block (by decide) (yields_items _)
  have hnotes : Yields (if procedure.notes == "" then ""
      else block "meta" "Notes" (paragraph procedure.notes)) [] := by
    split
    · exact ⟨rfl, rfl⟩
    · exact yields_block (by decide) (yields_paragraph _)
  have hend : Yields "</section>\n" [] := by decide
  exact ((((((hstart.append hdescription).append hparams).append hreturns).append hbody).append
    hrefs).append hnotes).append hend

end ProcBook.Html

namespace ProcBook

/-! ### Links of a catalog's pages -/

namespace Catalog

open Html

/-- No panel has a link in it: what a record says is never more than text. -/
theorem yields_renderPanel (panel : Panel) : Yields (renderPanel panel) [] := by
  cases panel with
  | loading => decide
  | failed message => exact yields_between (by decide) (by decide) message
  | detail procedure => exact yields_detail procedure

/-- The opening tag of an entry holds one link, with or without the mark of the name selected. -/
theorem yields_anchor (selected : Option String) (name : String) {value : String}
    (h : '"' ∉ value.toList) :
    Yields ("  <li><a href=\"" ++ value ++ "\"" ++ activeMark selected name ++ ">") [value] := by
  -- The reader comes to the value, goes through it, and stands in the tag behind it.
  have hstart : "  <li><a href=\"".toList.foldl Place.next .text = .value "href=".toList [] ∧
      linksFrom .text "  <li><a href=\"".toList = [] := by decide
  obtain ⟨hplace, hlinks⟩ := read_value "href=".toList [] h
  have hclose : "\"".toList.foldl Place.next (.value "href=".toList value.toList) = .tag [] ∧
      linksFrom (.value "href=".toList value.toList) "\"".toList = [value] := by
    refine ⟨rfl, ?_⟩
    show [String.ofList value.toList] = [value]
    rw [String.ofList_toList]
  have hmark : (activeMark selected name ++ ">").toList.foldl Place.next (.tag []) = .text ∧
      linksFrom (.tag []) (activeMark selected name ++ ">").toList = [] := by
    unfold activeMark
    split <;> decide
  rw [String.append_assoc]
  unfold Yields links
  rw [String.toList_append, String.toList_append, String.toList_append]
  simp only [List.foldl_append, linksFrom_append, hstart, hplace, List.nil_append, hlinks, hclose,
    hmark, List.append_nil, and_self]

/-- The links of the records that have a page. -/
theorem yields_sidebarEntry (selected : Option String) (procedure : Procedure) :
    Yields (sidebarEntry .linked selected procedure)
      (if isPageName procedure.name then [escape (pageHref procedure.name)] else []) := by
  unfold sidebarEntry
  by_cases hname : isPageName procedure.name = true
  · have hanchor := yields_anchor selected procedure.name
      (not_mem_escape (by decide) (pageHref procedure.name))
    have hend : Yields "</a></li>\n" [] := by decide
    simp only [hname, Bool.and_true, beq_self_eq_true, if_true]
    exact (hanchor.append (yields_escape procedure.name)).append hend
  · have hstart : Yields ("  <li><span" ++ activeMark selected procedure.name ++ ">") [] := by
      unfold activeMark
      split <;> decide
    have hend : Yields "</span></li>\n" [] := by decide
    simp only [hname, Bool.and_false, Bool.false_eq_true, if_false]
    exact (hstart.append (yields_escape procedure.name)).append hend

/-- **The links of a page** are those of the records that have a page of their own, in order, and each
leads to that page. -/
theorem links_page (catalog : Catalog) (selected : Option String) :
    links (catalog.page .linked selected) =
      (catalog.records.filter fun record => isPageName record.name).map fun record =>
        escape (pageHref record.name) := by
  have hentries := yields_join (yields_sidebarEntry selected) catalog.records
  have hstart : Yields "<aside>\n<ul>\n" [] := by decide
  have hend : Yields "</ul>\n</aside>\n" [] := by decide
  have hmain : Yields "<main>\n" [] := by decide
  have hclose : Yields "</main>\n" [] := by decide
  have hclosing : Yields closing [] := by decide
  have hpage := (((((yields_opening (pageTitle selected)).append
    ((hstart.append hentries).append hend)).append hmain).append
    (yields_renderPanel (catalog.panel selected))).append hclose).append hclosing
  refine hpage.2.trans ?_
  simp only [List.append_nil, List.nil_append]
  induction catalog.records with
  | nil => rfl
  | cons record records ih =>
    rw [List.flatMap_cons, ih]
    by_cases hname : isPageName record.name = true <;> simp [hname]

end Catalog

/-! ### The characters of a link -/

/-- The characters that the codes of a link are made of. -/
def codeChars : List Char := ['%', '0', '2', '3', '5', 'F']

/-- Codes apart, a character of a link is one of the file's name that needs no code. -/
theorem mem_hrefChar {c : Char} (hc : c ∉ codeChars) (d : Char) :
    c ∈ hrefChar d ↔ c = d ∧ c ∉ [' ', '#', '?'] := by
  have hcoded : ∀ {d : Char} {code : List Char}, d ∈ ['%', ' ', '#', '?'] → code ⊆ codeChars →
      (c ∈ code ↔ c = d ∧ c ∉ [' ', '#', '?']) := by
    intro d code hd hcode
    refine iff_of_false (fun hmem => hc (hcode hmem)) ?_
    rintro ⟨rfl, hplain⟩
    obtain rfl : c = '%' := (List.mem_cons.1 hd).resolve_right hplain
    exact hc (by decide)
  unfold hrefChar
  split
  · exact hcoded (by decide) (by decide)
  · exact hcoded (by decide) (by decide)
  · exact hcoded (by decide) (by decide)
  · exact hcoded (by decide) (by decide)
  · next hspace hhash hquestion =>
    rw [List.mem_singleton]
    refine ⟨?_, And.left⟩
    rintro rfl
    simp only [List.mem_cons, List.not_mem_nil, or_false, not_or, true_and]
    exact ⟨hspace, hhash, hquestion⟩

/-- The characters of a link, those of codes and of the file's extension apart, are the ones of the
name that need no code. -/
theorem mem_pageHref {c : Char} (hc : c ∉ codeChars) (hextension : c ∉ ".html".toList)
    (name : String) : c ∈ (pageHref name).toList ↔ c ∈ name.toList ∧ c ∉ [' ', '#', '?'] := by
  rw [pageHref, pageFile, String.toList_ofList, String.toList_append, List.mem_flatMap]
  simp only [mem_hrefChar hc, List.mem_append]
  constructor
  · rintro ⟨d, hd, rfl, hplain⟩
    exact ⟨hd.resolve_right hextension, hplain⟩
  · rintro ⟨hmem, hplain⟩
    exact ⟨c, .inl hmem, rfl, hplain⟩

/-- A link of a record that has a page stays in the directory, and does not end at a query or at a
fragment. -/
theorem not_mem_pageHref {name : String} (h : isPageName name = true) {c : Char}
    (hc : c ∈ ['/', '\\', '?', '#']) : c ∉ (pageHref name).toList := by
  simp only [List.mem_cons, List.not_mem_nil, or_false] at hc
  rcases hc with rfl | rfl | rfl | rfl
  all_goals
    rw [mem_pageHref (by decide) (by decide)]
    rintro ⟨hmem, hplain⟩
  · exact not_mem_of_isPageName h (by decide) hmem
  · exact not_mem_of_isPageName h (by decide) hmem
  · exact hplain (by decide)
  · exact hplain (by decide)

/-- The escaping of a link leaves colons as they are. -/
theorem colon_mem_pageHref {name : String} : ':' ∈ (pageHref name).toList ↔ ':' ∈ name.toList := by
  rw [mem_pageHref (by decide) (by decide)]
  exact and_iff_left (by decide)

namespace Catalog

/-- What a reader takes the links of a page for. -/
theorem map_unescape_links_page (catalog : Catalog) (selected : Option String) :
    (Html.links (catalog.page .linked selected)).map Html.unescape =
      (catalog.records.filter fun record => isPageName record.name).map fun record =>
        pageHref record.name := by
  rw [links_page, List.map_map]
  exact List.map_congr_left fun record _ => Html.unescape_escape (pageHref record.name)

/-- **The links of a page stay beside it.**  They are the links of the records that have a page, in
order.  None holds a separator of paths, a query or a fragment.  A colon, which a reader may take for
the end of a scheme, comes from the name of a record and from there only. -/
theorem links_relative (catalog : Catalog) (selected : Option String) :
    let hrefs := (Html.links (catalog.page .linked selected)).map Html.unescape
    hrefs = (catalog.records.filter fun record => isPageName record.name).map
      (fun record => pageHref record.name) ∧
    (∀ href ∈ hrefs, ∀ c ∈ ['/', '\\', '?', '#'], c ∉ href.toList) ∧
    ((∀ href ∈ hrefs, ':' ∉ href.toList) ↔
      ∀ record ∈ catalog.records, isPageName record.name = true → ':' ∉ record.name.toList) := by
  intro hrefs
  have hhrefs : hrefs = _ := catalog.map_unescape_links_page selected
  have hmem : ∀ href, href ∈ hrefs ↔
      ∃ record ∈ catalog.records, isPageName record.name = true ∧ pageHref record.name = href := by
    intro href
    simp only [hhrefs, List.mem_map, List.mem_filter, and_assoc]
  refine ⟨hhrefs, ?_, ?_⟩
  · intro href hhref c hc
    obtain ⟨record, -, hname, rfl⟩ := (hmem href).1 hhref
    exact not_mem_pageHref hname hc
  · constructor
    · intro hcolon record hrecord hname hmemColon
      exact hcolon _ ((hmem _).2 ⟨record, hrecord, hname, rfl⟩) (colon_mem_pageHref.2 hmemColon)
    · intro hcolon href hhref
      obtain ⟨record, hrecord, hname, rfl⟩ := (hmem href).1 hhref
      exact fun hmemColon => hcolon record hrecord hname (colon_mem_pageHref.1 hmemColon)

/-- Names with characters that links or tags give a meaning to, a name that has no page, and the
text of a link in a body. -/
def linkedCatalog : Catalog :=
  .loaded [{ name := "50% #1?" }, { name := "../p" },
    { name := "a\"b&c", body := "<a href=\"x\">" }]

/-- Names with a percent sign, a question mark, a quote and an ampersand, none with a colon. -/
theorem links_relative_linkedCatalog :
    (Html.links (linkedCatalog.page .linked (some "a\"b&c"))).map Html.unescape =
        ["50%25%20%231%3F.html", "a\"b&c.html"] ∧
      ∀ href ∈ (Html.links (linkedCatalog.page .linked (some "a\"b&c"))).map Html.unescape,
        ':' ∉ href.toList := by
  obtain ⟨hhrefs, -, hcolon⟩ := links_relative linkedCatalog (some "a\"b&c")
  refine ⟨hhrefs.trans (by decide), hcolon.2 (by decide)⟩

/-- A name may start with a scheme, and its link then does too. -/
theorem links_scheme :
    let hrefs := (Html.links ((Catalog.loaded [{ name := "javascript:alert(1)" }]).page .linked
      none)).map Html.unescape
    hrefs = ["javascript:alert(1).html"] ∧ ∃ href ∈ hrefs, ':' ∈ href.toList := by
  have hhrefs := map_unescape_links_page (.loaded [{ name := "javascript:alert(1)" }]) none
  simp only [hhrefs]
  decide

end Catalog

end ProcBook
