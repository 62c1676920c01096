/-
ProcBook/Proofs/Sections.lean

What the page of a record tells.

A part of a page *tells* something if it can be cut off the front of any longer text, and what it tells
is then known:

    part a ++ rest = part b ++ rest'   →   shown a = shown b  and  rest = rest'.

An escaped text is not such a part, since it does not say where it ends.  With a tag behind it, it is
(`tells_between`), because escaping leaves no angle bracket in it.  Parts that stand one behind the other
tell what each of them tells (`Tells.append`), so the sections of a record are put together as the page
is, up to `tells_page`: no text can pass for the end of an item, of a list or of a section.
-/
import ProcBook.Page.Format
import ProcBook.Proofs.Links
import ProcBook.Proofs.Text

namespace ProcBook.Html

/-! ### Parts that can be cut off -/

/-- A part of a page that tells `shown` and where it ends. -/
def Tells {α β : Type} (part : α → String) (shown : α → β) : Prop :=
  ∀ a b rest rest', part a ++ rest = part b ++ rest' → shown a = shown b ∧ rest = rest'

section

variable {α β γ : Type} {part : α → String} {shown : α → β}

/-- A part tells what it is made from through any function. -/
theorem Tells.comp (h : Tells part shown) {δ : Type} (f : δ → α) :
    Tells (fun d => part (f d)) (fun d => shown (f d)) := by
  intro a b rest rest' heq
  exact h (f a) (f b) rest rest' heq

/-- Fixed text in front of a part does not hide what it tells. -/
theorem Tells.fixed_append (h : Tells part shown) (fixed : String) :
    Tells (fun a => fixed ++ part a) shown := by
  intro a b rest rest' heq
  rw [String.append_assoc, String.append_assoc, String.append_right_inj] at heq
  exact h a b rest rest' heq

/-- Nor does fixed text behind it. -/
theorem Tells.append_fixed (h : Tells part shown) (fixed : String) :
    Tells (fun a => part a ++ fixed) shown := by
  intro a b rest rest' heq
  rw [String.append_assoc, String.append_assoc] at heq
  obtain ⟨hshown, hrest⟩ := h a b _ _ heq
  exact ⟨hshown, (String.append_right_inj fixed).1 hrest⟩

/-- Two parts side by side tell both: the first one tells where it ends, so the second one is
found. -/
theorem Tells.append {part' : α → String} {shown' : α → γ} (h : Tells part shown)
    (h' : Tells part' shown') :
    Tells (fun a => part a ++ part' a) (fun a => (shown a, shown' a)) := by
  intro a b rest rest' heq
  rw [String.append_assoc, String.append_assoc] at heq
  obtain ⟨hshown, hrest⟩ := h a b _ _ heq
  obtain ⟨hshown', hrest'⟩ := h' a b _ _ hrest
  exact ⟨Prod.ext hshown hshown', hrest'⟩

end

/-! ### Texts between tags -/

/-- Different texts are escaped differently. -/
theorem escape_injective {text text' : String} (h : escape text = escape text') : text = text' := by
  rw [← unescape_escape text, h, unescape_escape]

/-- An escaped text ends where the next tag begins. -/
theorem tells_between (left right : String) (hright : right.toList.head? = some '<') :
    Tells (fun text => left ++ escape text ++ right) id := by
  intro text text' rest rest' heq
  obtain ⟨tag, htag⟩ : ∃ tag, right.toList = '<' :: tag := by
    cases hchars : right.toList with
    | nil => simp [hchars] at hright
    | cons c tag =>
      rw [hchars, List.head?_cons, Option.some.injEq] at hright
      exact ⟨tag, by rw [hright]⟩
  have hangle : ∀ text, '<' ∉ (escape text).toList := fun text => not_mem_escape (by decide) text
  have hchars : (escape text).toList ++ '<' :: (tag ++ rest.toList) =
      (escape text').toList ++ '<' :: (tag ++ rest'.toList) := by
    have htoList := congrArg String.toList heq
    simpa only [String.toList_append, List.append_assoc, htag, List.cons_append,
      List.append_cancel_left_eq] using htoList
  obtain ⟨htext, hrest⟩ := Text.append_cons_inj (hangle text) (hangle text') hchars
  exact ⟨escape_injective (String.toList_inj.1 htext),
    String.toList_inj.1 (List.append_cancel_left hrest)⟩

/-- Texts that start differently do not become equal further on. -/
theorem append_ne_append (n : Nat) (c c' : Char) {front front' : String}
    (h : front.toList[n]? = some c) (h' : front'.toList[n]? = some c') (hne : c ≠ c')
    (rest rest' : String) : front ++ rest ≠ front' ++ rest' := by
  have hchar : ∀ {front : String} (rest : String) {c : Char}, front.toList[n]? = some c →
      (front ++ rest).toList[n]? = some c := by
    intro front rest c hc
    obtain ⟨hn, -⟩ := List.getElem?_eq_some_iff.1 hc
    rw [String.toList_append, List.getElem?_append_left hn, hc]
  intro heq
  have hsame := hchar rest h
  rw [heq, hchar rest' h', Option.some.injEq] at hsame
  exact hne hsame.symm

/-! ### The parts of a page -/

theorem tells_paragraph : Tells paragraph id := tells_between "<p>" "</p>\n" rfl

theorem tells_code : Tells code id :=
  tells_between "<pre><code class=\"language-sql\">" "</code></pre>\n" rfl

theorem tells_opening : Tells opening id :=
  ((tells_between "<!DOCTYPE html>\n<html>\n<head>\n<meta charset=\"utf-8\">\n<title>"
    "</title>\n<style>\n" rfl).append_fixed style).append_fixed
      "</style>\n</head>\n<body>\n"

/-- An item of a list. -/
def item (text : String) : String := "  <li>" ++ escape text ++ "</li>\n"

theorem tells_item : Tells item id := tells_between "  <li>" "</li>\n" rfl

/-- Items and the closing tag of their list. -/
def listEnd (texts : List String) : String := String.join (texts.map item) ++ "</ul>\n"

theorem listEnd_cons (text : String) (texts : List String) :
    listEnd (text :: texts) = item text ++ listEnd texts := by
  rw [listEnd, List.map_cons, String.join_cons, String.append_assoc]
  rfl

/-- A list tells its items and where it ends: an item never begins like the closing tag. -/
theorem tells_listEnd : Tells listEnd id := by
  -- An item starts with a blank, the closing tag does not.
  have hend : ∀ text texts rest rest', listEnd (text :: texts) ++ rest ≠ listEnd [] ++ rest' := by
    intro text texts rest rest'
    rw [listEnd_cons, item]
    simp only [String.append_assoc]
    exact append_ne_append 0 ' ' '<' rfl rfl (by decide) _ _
  intro texts
  induction texts with
  | nil =>
    rintro (- | ⟨text', texts'⟩) rest rest' heq
    · exact ⟨rfl, (String.append_right_inj _).1 heq⟩
    · exact absurd heq.symm (hend _ _ _ _)
  | cons text texts ih =>
    rintro (- | ⟨text', texts'⟩) rest rest' heq
    · exact absurd heq (hend _ _ _ _)
    · rw [listEnd_cons, listEnd_cons, String.append_assoc, String.append_assoc] at heq
      -- The first item is cut off, and the induction goes on behind it.
      obtain ⟨htext, hrest⟩ := tells_item text text' _ _ heq
      obtain ⟨htexts, hrest'⟩ := ih texts' rest rest' hrest
      exact ⟨congrArg₂ List.cons htext htexts, hrest'⟩

/-- A section that lists texts tells them, an empty list included. -/
theorem tells_items : Tells items id := by
  have hitems : items = fun texts => "<ul>\n" ++ listEnd texts := by
    funext texts
    exact String.append_assoc
  rw [hitems]
  exact tells_listEnd.fixed_append "<ul>\n"

theorem Tells.block {α β : Type} {contents : α → String} {shown : α → β} (h : Tells contents shown)
    (id heading : String) : Tells (fun a => Html.block id heading (contents a)) shown :=
  (h.fixed_append ("<section id=\"" ++ id ++ "\">\n<h2>" ++ heading ++ "</h2>\n")).append_fixed
    "</section>\n"

/-- The notes, if there are any, and the closing tag of the record. -/
def recordEnd (notes : String) : String :=
  (if notes == "" then "" else block "meta" "Notes" (paragraph notes)) ++ "</section>\n"

theorem recordEnd_of_ne {notes : String} (h : notes ≠ "") :
    recordEnd notes = block "meta" "Notes" (paragraph notes) ++ "</section>\n" := by
  rw [recordEnd, if_neg (fun he => h (beq_iff_eq.1 he))]

/-- Without notes the record ends at once, with notes another section is opened first. -/
theorem tells_recordEnd : Tells recordEnd id := by
  have hblock : Tells (fun notes => block "meta" "Notes" (paragraph notes) ++ "</section>\n") id :=
    (tells_paragraph.block "meta" "Notes").append_fixed "</section>\n"
  have hempty : recordEnd "" = "</section>\n" := rfl
  have hend : ∀ {notes rest rest'}, notes ≠ "" → recordEnd notes ++ rest ≠ recordEnd "" ++ rest' := by
    intro notes rest rest' hnotes
    rw [recordEnd_of_ne hnotes, hempty]
    unfold Html.block
    simp only [String.append_assoc]
    exact append_ne_append 1 's' '/' rfl rfl (by decide) _ _
  intro notes notes' rest rest' heq
  by_cases hnotes : notes = ""
  · by_cases hnotes' : notes' = ""
    · subst hnotes hnotes'
      exact ⟨rfl, (String.append_right_inj _).1 heq⟩
    · subst hnotes
      exact absurd heq.symm (hend hnotes')
  · by_cases hnotes' : notes' = ""
    · subst hnotes'
      exact absurd heq (hend hnotes)
    · rw [recordEnd_of_ne hnotes, recordEnd_of_ne hnotes'] at heq
      exact hblock notes notes' rest rest' heq

/-! ### The page of a record -/

/-- The detail of a record, cut at its last section, which is only there if there are notes. -/
theorem detail_eq (procedure : Procedure) : detail procedure =
    "<section id=\"documentation\">\n<h1>" ++ escape procedure.name ++ "</h1>\n" ++
      block "description" "Description" (paragraph procedure.description) ++
      block "params" "Parameters" (code ("\n".intercalate procedure.parameters)) ++
      block "returns" "Returns" (items procedure.returns) ++
      block "body" "Try It" (code procedure.body) ++
      block "refs" "References" (items procedure.references) ++
      recordEnd procedure.notes :=
  String.append_assoc

/-- The sections of a record tell everything that they show; of the parameters only their lines. -/
theorem tells_detail : Tells detail fun procedure =>
    ((((((procedure.name, procedure.description), "\n".intercalate procedure.parameters),
      procedure.returns), procedure.body), procedure.references), procedure.notes) := by
  have hname : Tells (fun procedure : Procedure =>
      "<section id=\"documentation\">\n<h1>" ++ escape procedure.name ++ "</h1>\n") (·.name) :=
    (tells_between "<section id=\"documentation\">\n<h1>" "</h1>\n" rfl).comp Procedure.name
  have hdescription := (tells_paragraph.block "description" "Description").comp Procedure.description
  have hparams := (tells_code.block "params" "Parameters").comp
    fun procedure : Procedure => "\n".intercalate procedure.parameters
  have hreturns := (tells_items.block "returns" "Returns").comp Procedure.returns
  have hbody := (tells_code.block "body" "Try It").comp Procedure.body
  have hrefs := (tells_items.block "refs" "References").comp Procedure.references
  have hend := tells_recordEnd.comp Procedure.notes
  have hall := (((((hname.append hdescription).append hparams).append hreturns).append hbody).append
    hrefs).append hend
  intro a b rest rest' heq
  rw [detail_eq, detail_eq] at heq
  exact hall a b rest rest' heq

/-- A page tells all that its sections show.  The parameters are told as the lines they are joined to,
and the name is told twice, by the title and by the heading. -/
theorem tells_page : Tells page fun procedure =>
    (procedure.name, (((((procedure.name, procedure.description),
      "\n".intercalate procedure.parameters), procedure.returns), procedure.body),
      procedure.references), procedure.notes) :=
  ((((tells_opening.comp Procedure.name).append_fixed "<main>\n").append tells_detail).append_fixed
    "</main>\n").append_fixed closing

/-- **The page of a record loses nothing that it shows.**  Two pages are the same exactly if the records
agree on everything but how the lines of their parameters are cut, so no text can pass for an item or a
section.  What was escaped can be read back. -/
theorem page_eq_page_iff :
    (∀ a b : Procedure, Format.html.render a = Format.html.render b ↔
      a.name = b.name ∧ a.description = b.description ∧ a.returns = b.returns ∧ a.body = b.body ∧
        a.references = b.references ∧ a.notes = b.notes ∧
        "\n".intercalate a.parameters = "\n".intercalate b.parameters) ∧
    ∀ text : String, unescape (escape text) = text := by
  refine ⟨?_, unescape_escape⟩
  intro a b
  constructor
  · intro hpage
    have hpages : page a ++ "" = page b ++ "" := congrArg (· ++ "") hpage
    obtain ⟨hshown, -⟩ := tells_page a b "" "" hpages
    simp only [Prod.mk.injEq] at hshown
    obtain ⟨hname, ⟨⟨⟨⟨⟨-, hdescription⟩, hparameters⟩, hreturns⟩, hbody⟩, hreferences⟩, hnotes⟩ :=
      hshown
    exact ⟨hname, hdescription, hreturns, hbody, hreferences, hnotes, hparameters⟩
  · rintro ⟨hname, hdescription, hreturns, hbody, hreferences, hnotes, hparameters⟩
    show page a = page b
    unfold page detail
    rw [hname, hdescription, hreturns, hbody, hreferences, hnotes, hparameters]

end ProcBook.Html
