/-
ProcBook/Proofs/Markup.lean

No text of a record becomes markup.

`Alike` relates two texts that are put together from the same fixed parts, with escaped texts of their own
in between:

    fixed ++ escape a ++ fixed' ++ …      and      fixed ++ escape b ++ fixed' ++ …

Every page is laid out by its shape, so two pages of the same shape are alike (`alike_page`,
`Catalog.alike_page`).  Alike texts have the same tags and quotation marks in the same order
(`Alike.markup_eq`), and all of their ampersands start escapes (`Alike.escapesAmpersands`).  The second
one is no fact about two texts; it is had from a page that is alike to itself.
-/
import Mathlib.Data.List.Find
import Mathlib.Data.List.Forall2
import ProcBook.Page.Format
import ProcBook.Proofs.Links

namespace ProcBook

/-! ### Shapes -/

/-- Records with the same sections on their pages: as many returns and as many references, and notes in
both or in neither. -/
structure Procedure.SameShape (a b : Procedure) : Prop where
  returns : a.returns.length = b.returns.length
  references : a.references.length = b.references.length
  notes : a.notes = "" ↔ b.notes = ""

theorem Procedure.SameShape.refl (a : Procedure) : a.SameShape a := ⟨rfl, rfl, Iff.rfl⟩

/-- Catalogs with the same entries and the same panel, where `selected` is the name selected in one and
`selected'` that in the other.  Records that stand at the same place agree on whether they can have a
page and on whether they are selected, and so do the records shown on their sections. -/
inductive Catalog.SameShape (selected selected' : Option String) : Catalog → Catalog → Prop
  | loading : SameShape selected selected' .loading .loading
  | failed (message message' : String) :
      SameShape selected selected' (.failed message) (.failed message')
  | loaded {records records' : List Procedure} :
      List.Forall₂ (fun record record' => isPageName record.name = isPageName record'.name ∧
        (selected = some record.name ↔ selected' = some record'.name)) records records' →
      (∀ shown shown', (Catalog.loaded records).current? selected = some shown →
        (Catalog.loaded records').current? selected' = some shown' → shown.SameShape shown') →
      SameShape selected selected' (.loaded records) (.loaded records')

theorem Catalog.SameShape.refl (selected : Option String) (catalog : Catalog) :
    Catalog.SameShape selected selected catalog catalog := by
  cases catalog with
  | loading => exact .loading
  | failed message => exact .failed message message
  | loaded records =>
    refine .loaded (List.forall₂_same.2 fun _ _ => ⟨rfl, Iff.rfl⟩) ?_
    intro shown shown' hshown hshown'
    obtain rfl := Option.some.inj (hshown.symm.trans hshown')
    exact .refl shown

namespace Html

/-! ### Markup -/

/-- The characters of a text that tags and their attributes begin and end with. -/
def markup (text : String) : List Char := text.toList.filter (['<', '>', '"'].contains ·)

/-- The escapes. -/
def escapes : List String := ["&amp;", "&lt;", "&gt;", "&quot;"]

/-- Every ampersand starts an escape. -/
def EscapesAmpersands (text : List Char) : Prop :=
  ∀ front back, text = front ++ '&' :: back → ∃ code ∈ escapes, code.toList <+: '&' :: back

/-- The markup of a text is that of its parts. -/
theorem markup_append (front back : String) :
    markup (front ++ back) = markup front ++ markup back := by
  rw [markup, String.toList_append, List.filter_append]
  rfl

/-- Escaped text has no markup in it. -/
theorem markup_escape (text : String) : markup (escape text) = [] := by
  rw [markup, List.filter_eq_nil_iff]
  intro c hc hmark
  exact not_mem_escape (List.contains_iff_mem.1 hmark) text hc

/-- A text without ampersands has none that is not escaped. -/
theorem escapesAmpersands_of_not_mem {text : List Char} (h : '&' ∉ text) :
    EscapesAmpersands text := by
  rintro front back rfl
  exact absurd (List.mem_append_right front List.mem_cons_self) h

/-- An escape that starts in the first text is complete there, so nothing behind it matters. -/
theorem EscapesAmpersands.append {text text' : List Char} (h : EscapesAmpersands text)
    (h' : EscapesAmpersands text') : EscapesAmpersands (text ++ text') := by
  intro front back heq
  rcases List.append_eq_append_iff.1 heq with ⟨rest, -, hrest⟩ | ⟨rest, hrest, hback⟩
  · exact h' rest back hrest
  · cases rest with
    | nil => exact h' [] back hback.symm
    | cons c rest =>
      -- The ampersand is one of the first text, and so is the escape that it starts.
      obtain ⟨rfl, rfl⟩ := List.cons.inj hback
      obtain ⟨code, hcode, hstart⟩ := h front rest hrest
      exact ⟨code, hcode, hstart.trans ⟨text', rfl⟩⟩

/-- An escape has its ampersand in front. -/
theorem escapesAmpersands_of_escape {text : List Char} (h : String.ofList ('&' :: text) ∈ escapes)
    (hmem : '&' ∉ text) : EscapesAmpersands ('&' :: text) := by
  intro front back heq
  cases front with
  | nil =>
    refine ⟨_, h, ?_⟩
    rw [String.toList_ofList]
    exact ⟨[], by rw [List.append_nil, heq]; rfl⟩
  | cons c front =>
    obtain ⟨-, rfl⟩ := List.cons.inj heq
    exact absurd (List.mem_append_right front List.mem_cons_self) hmem

theorem escapesAmpersands_escapeChar (c : Char) : EscapesAmpersands (escapeChar c) := by
  unfold escapeChar
  split
  · exact escapesAmpersands_of_escape (by decide) (by decide)
  · exact escapesAmpersands_of_escape (by decide) (by decide)
  · exact escapesAmpersands_of_escape (by decide) (by decide)
  · exact escapesAmpersands_of_escape (by decide) (by decide)
  · next hamp _ _ _ =>
    apply escapesAmpersands_of_not_mem
    rw [List.mem_singleton]
    exact Ne.symm hamp

/-- The only ampersands of escaped text are those of its escapes. -/
theorem escapesAmpersands_escape (text : String) : EscapesAmpersands (escape text).toList := by
  rw [escape, String.toList_ofList]
  induction text.toList with
  | nil => exact escapesAmpersands_of_not_mem List.not_mem_nil
  | cons c text ih =>
    rw [List.flatMap_cons]
    exact (escapesAmpersands_escapeChar c).append ih

/-! ### Texts that are alike -/

/-- Two texts that have the same fixed parts, which hold no ampersand, and differ in escaped texts
only. -/
inductive Alike : String → String → Prop
  | fixed {part : String} (plain : '&' ∉ part.toList := by decide) : Alike part part
  | escaped (text text' : String) : Alike (escape text) (escape text')
  | append {front front' back back' : String} : Alike front front' → Alike back back' →
      Alike (front ++ back) (front' ++ back')

/-- Texts that differ in escaped text only have the same markup. -/
theorem Alike.markup_eq {a b : String} (h : Alike a b) : markup a = markup b := by
  induction h with
  | fixed _ => rfl
  | escaped text text' => rw [markup_escape, markup_escape]
  | append _ _ ihfront ihback => rw [markup_append, markup_append, ihfront, ihback]

/-- They have no ampersand but in escapes. -/
theorem Alike.escapesAmpersands {a b : String} (h : Alike a b) : EscapesAmpersands a.toList := by
  induction h with
  | fixed hmem => exact escapesAmpersands_of_not_mem hmem
  | escaped text _ => exact escapesAmpersands_escape text
  | append _ _ ihfront ihback =>
    rw [String.toList_append]
    exact ihfront.append ihback

/-- Rows of texts that are alike one by one are alike. -/
theorem alike_join {α β : Type} {f : α → String} {g : β → String} {as : List α} {bs : List β}
    (h : List.Forall₂ (fun a b => Alike (f a) (g b)) as bs) :
    Alike (String.join (as.map f)) (String.join (bs.map g)) := by
  induction h with
  | nil =>
    show Alike "" ""
    exact .fixed
  | cons hhead _ ih =>
    rw [List.map_cons, List.map_cons, String.join_cons, String.join_cons]
    exact .append hhead ih

/-- Escaped texts between the same tags. -/
theorem alike_between {left right : String} (text text' : String)
    (hleft : '&' ∉ left.toList := by decide) (hright : '&' ∉ right.toList := by decide) :
    Alike (left ++ escape text ++ right) (left ++ escape text' ++ right) :=
  .append (.append (.fixed hleft) (.escaped text text')) (.fixed hright)

/-! ### The parts of a page -/

theorem alike_opening (title title' : String) : Alike (opening title) (opening title') := by
  have hstyle : Alike style style := .fixed (not_mem_style (by decide))
  exact ((alike_between title title').append hstyle).append .fixed

/-- Lists of as many items are alike, whatever the items say. -/
theorem alike_items {texts texts' : List String} (h : texts.length = texts'.length) :
    Alike (items texts) (items texts') := by
  have hitems : List.Forall₂ (fun text text' => Alike ("  <li>" ++ escape text ++ "</li>\n")
      ("  <li>" ++ escape text' ++ "</li>\n")) texts texts' := by
    refine List.forall₂_iff_zip.2 ⟨h, ?_⟩
    intro text text' _
    exact alike_between text text'
  exact .append (.append .fixed (alike_join hitems)) .fixed

/-- A section is alike if its contents are; its heading is fixed. -/
theorem alike_block {id heading contents contents' : String} (h : Alike contents contents')
    (hheading : '&' ∉ ("<section id=\"" ++ id ++ "\">\n<h2>" ++ heading ++ "</h2>\n").toList :=
      by decide) :
    Alike (block id heading contents) (block id heading contents') :=
  ((Alike.fixed hheading).append h).append .fixed

theorem alike_paragraph (text text' : String) : Alike (paragraph text) (paragraph text') :=
  alike_between text text'

theorem alike_code (text text' : String) : Alike (code text) (code text') :=
  alike_between text text'

/-- The sections of records of the same shape are alike. -/
theorem alike_detail {a b : Procedure} (h : a.SameShape b) : Alike (detail a) (detail b) := by
  have hstart : Alike ("<section id=\"documentation\">\n<h1>" ++ escape a.name ++ "</h1>\n")
      ("<section id=\"documentation\">\n<h1>" ++ escape b.name ++ "</h1>\n") :=
    alike_between a.name b.name
  have hdescription : Alike (block "description" "Description" (paragraph a.description))
      (block "description" "Description" (paragraph b.description)) :=
    alike_block (alike_paragraph _ _)
  have hparams : Alike (block "params" "Parameters" (code ("\n".intercalate a.parameters)))
      (block "params" "Parameters" (code ("\n".intercalate b.parameters))) :=
    alike_block (alike_code _ _)
  have hreturns : Alike (block "returns" "Returns" (items a.returns))
      (block "returns" "Returns" (items b.returns)) :=
    alike_block (alike_items h.returns)
  have hbody : Alike (block "body" "Try It" (code a.body)) (block "body" "Try It" (code b.body)) :=
    alike_block (alike_code _ _)
  have hrefs : Alike (block "refs" "References" (items a.references))
      (block "refs" "References" (items b.references)) :=
    alike_block (alike_items h.references)
  have hnotes : Alike (if a.notes == "" then "" else block "meta" "Notes" (paragraph a.notes))
      (if b.notes == "" then "" else block "meta" "Notes" (paragraph b.notes)) := by
    by_cases hempty : a.notes = ""
    · rw [if_pos (beq_iff_eq.2 hempty), if_pos (beq_iff_eq.2 (h.notes.1 hempty))]
      exact .fixed
    · rw [if_neg (fun he => hempty (beq_iff_eq.1 he)),
        if_neg (fun he => hempty (h.notes.2 (beq_iff_eq.1 he)))]
      exact alike_block (alike_paragraph _ _)
  exact ((((((hstart.append hdescription).append hparams).append hreturns).append hbody).append
    hrefs).append hnotes).append .fixed

/-- The contents of a page between its opening and its closing. -/
theorem alike_main {front front' contents contents' : String} (hfront : Alike front front')
    (h : Alike contents contents') :
    Alike (front ++ "<main>\n" ++ contents ++ "</main>\n" ++ closing)
      (front' ++ "<main>\n" ++ contents' ++ "</main>\n" ++ closing) :=
  (((hfront.append .fixed).append h).append .fixed).append .fixed

/-- Pages of records of the same shape are alike. -/
theorem alike_page {a b : Procedure} (h : a.SameShape b) : Alike (page a) (page b) :=
  alike_main (alike_opening a.name b.name) (alike_detail h)

end Html

/-! ### The pages of a catalog -/

namespace Catalog

open Html

/-- The record shown is the first one that is selected. -/
theorem current?_eq_find? (catalog : Catalog) (selected : Option String) :
    catalog.current? selected = catalog.records.find? fun record => selected == some record.name := by
  cases selected with
  | none => exact (List.find?_eq_none.2 fun _ _ => by simp).symm
  | some name =>
    apply List.find?_congr
    intro record _
    rw [Bool.eq_iff_iff, beq_iff_eq, beq_iff_eq, Option.some.injEq]
    exact eq_comm

/-- Where the selected records stand at the same places, there is something to show on both sides or on
neither. -/
theorem isSome_find?_eq {α β : Type} {p : α → Bool} {q : β → Bool} {as : List α} {bs : List β}
    (h : List.Forall₂ (fun a b => p a = q b) as bs) : (as.find? p).isSome = (bs.find? q).isSome := by
  induction h with
  | nil => rfl
  | @cons a b as bs hab _ ih =>
    rw [List.find?_cons, List.find?_cons, hab]
    cases q b with
    | true => rfl
    | false => exact ih

variable {selected selected' : Option String}

/-- Catalogs of the same shape show panels that are alike. -/
theorem alike_renderPanel {catalog catalog' : Catalog}
    (h : SameShape selected selected' catalog catalog') :
    Alike (renderPanel (catalog.panel selected)) (renderPanel (catalog'.panel selected')) := by
  have hloading : Alike (renderPanel .loading) (renderPanel .loading) := .fixed
  cases h with
  | loading => cases selected <;> cases selected' <;> exact hloading
  | failed message message' => exact alike_between message message'
  | @loaded records records' hrecords hshown =>
    -- Both catalogs show a record or neither does.
    have hsome : ((loaded records).current? selected).isSome =
        ((loaded records').current? selected').isSome := by
      rw [current?_eq_find?, current?_eq_find?]
      apply isSome_find?_eq
      refine hrecords.imp ?_
      rintro record record' ⟨-, hselected⟩
      rw [Bool.eq_iff_iff, beq_iff_eq, beq_iff_eq]
      exact hselected
    cases hcurrent : (loaded records).current? selected with
    | none =>
      rw [hcurrent] at hsome
      have hcurrent' : (loaded records').current? selected' = none :=
        Option.isNone_iff_eq_none.1 (by rw [← Option.not_isSome, ← hsome]; rfl)
      simp only [panel, hcurrent, hcurrent']
      exact hloading
    | some shown =>
      rw [hcurrent] at hsome
      obtain ⟨shown', hcurrent'⟩ := Option.isSome_iff_exists.1 hsome.symm
      simp only [panel, hcurrent, hcurrent']
      exact alike_detail (hshown shown shown' hcurrent hcurrent')

/-- Whether an entry is a link depends on whether its name can name a page, and the mark on whether it
is selected.  Nothing else of the name is seen outside of escaped text. -/
theorem alike_sidebarEntry (sidebar : Sidebar) {record record' : Procedure}
    (hname : isPageName record.name = isPageName record'.name)
    (hselected : selected = some record.name ↔ selected' = some record'.name) :
    Alike (sidebarEntry sidebar selected record) (sidebarEntry sidebar selected' record') := by
  have hmark : activeMark selected record.name = activeMark selected' record'.name := by
    simp only [activeMark, beq_iff_eq, hselected]
  have hactive : Alike (activeMark selected record.name) (activeMark selected' record'.name) := by
    rw [← hmark]
    apply Alike.fixed
    unfold activeMark
    split <;> decide
  unfold sidebarEntry
  simp only [← hname]
  split
  · have hhref : Alike ("  <li><a href=\"" ++ escape (pageHref record.name) ++ "\"")
        ("  <li><a href=\"" ++ escape (pageHref record'.name) ++ "\"") :=
      alike_between _ _
    exact (((hhref.append hactive).append .fixed).append (.escaped _ _)).append .fixed
  · have hstart : Alike "  <li><span" "  <li><span" := .fixed
    exact (((hstart.append hactive).append .fixed).append (.escaped _ _)).append .fixed

theorem alike_renderSidebar (sidebar : Sidebar) {catalog catalog' : Catalog}
    (h : SameShape selected selected' catalog catalog') :
    Alike (catalog.renderSidebar sidebar selected) (catalog'.renderSidebar sidebar selected') := by
  have hentries : List.Forall₂ (fun record record' =>
      Alike (sidebarEntry sidebar selected record) (sidebarEntry sidebar selected' record'))
      catalog.records catalog'.records := by
    cases h with
    | loading => exact .nil
    | failed message message' => exact .nil
    | loaded hrecords _ =>
      exact hrecords.imp fun record record' hagree => alike_sidebarEntry sidebar hagree.1 hagree.2
  exact .append (.append .fixed (alike_join hentries)) .fixed

theorem alike_page (sidebar : Sidebar) {catalog catalog' : Catalog}
    (h : SameShape selected selected' catalog catalog') :
    Alike (catalog.page sidebar selected) (catalog'.page sidebar selected') :=
  alike_main ((alike_opening _ _).append (alike_renderSidebar sidebar h)) (alike_renderPanel h)

end Catalog

open Html

/-- **No text of a record becomes markup.**  On the page of a record, and on any page of a catalog, the
tags and quotation marks follow from the shape alone: where shapes agree, so do they, in order.  And
every ampersand starts an escape, so no text can begin one of its own. -/
theorem markup_of_shape :
    (∀ a b : Procedure, a.SameShape b →
      markup (Format.html.render a) = markup (Format.html.render b)) ∧
    (∀ procedure : Procedure, EscapesAmpersands (Format.html.render procedure).toList) ∧
    (∀ (sidebar : Sidebar) (selected selected' : Option String) (catalog catalog' : Catalog),
      Catalog.SameShape selected selected' catalog catalog' →
        markup (catalog.page sidebar selected) = markup (catalog'.page sidebar selected')) ∧
    ∀ (sidebar : Sidebar) (selected : Option String) (catalog : Catalog),
      EscapesAmpersands (catalog.page sidebar selected).toList := by
  refine ⟨?_, ?_, ?_, ?_⟩
  · intro a b h
    exact (alike_page h).markup_eq
  · intro procedure
    exact (alike_page (.refl procedure)).escapesAmpersands
  · intro sidebar selected selected' catalog catalog' h
    exact (Catalog.alike_page sidebar h).markup_eq
  · intro sidebar selected catalog
    exact (Catalog.alike_page sidebar (.refl selected catalog)).escapesAmpersands

/-- A record that tries to add markup wherever it can. -/
def hostileProcedure : Procedure where
  name := "\"><script>"
  body := "</code>"
  description := "&lt;<b>"
  parameters := ["<", ">"]
  returns := ["</ul>"]
  references := ["\""]
  notes := "</section>&"

/-- A record of the same shape that does not. -/
def plainProcedure : Procedure where
  name := "p"
  returns := ["r"]
  references := ["t"]
  notes := "n"

/-- A record that tries to add markup and one that does not have the same markup, on their own pages
and in the catalog. -/
theorem markup_of_shape_hostileProcedure :
    markup (Format.html.render hostileProcedure) = markup (Format.html.render plainProcedure) ∧
    markup ((Catalog.loaded [hostileProcedure]).page .linked (some hostileProcedure.name)) =
      markup ((Catalog.loaded [plainProcedure]).page .linked (some plainProcedure.name)) := by
  have hshape : hostileProcedure.SameShape plainProcedure := ⟨rfl, rfl, by decide⟩
  obtain ⟨hrecord, -, hcatalog, -⟩ := markup_of_shape
  refine ⟨hrecord _ _ hshape, hcatalog .linked _ _ _ _ (.loaded ?_ ?_)⟩
  · exact .cons ⟨by decide, by decide⟩ .nil
  · intro shown shown' hshown hshown'
    have hhostile : (Catalog.loaded [hostileProcedure]).current? (some hostileProcedure.name) =
        some hostileProcedure := by decide
    have hplain : (Catalog.loaded [plainProcedure]).current? (some plainProcedure.name) =
        some plainProcedure := by decide
    obtain rfl := Option.some.inj (hhostile.symm.trans hshown)
    obtain rfl := Option.some.inj (hplain.symm.trans hshown')
    exact hshape

end ProcBook
