/-
ProcBook/Proofs/Browsing.lean

What is seen while browsing.

A browser is led through loads, resets and selections; `Browser.session` is the one that a list of such
steps leads to.  What it holds is told by the steps alone: `lastLoad?` and `lastName?` look back from the
end of the list, and `session_eq` says that the browser holds just that.

What it shows is read off the page, without any knowledge of how pages are made.  `Html.pieces` cuts a
text into its tags and the characters between them.  `Html.entries` reads the sidebar, entry by entry,
and `Html.Shows` compares what stands in the main part with a panel.  The texts of records come through
`escape`, so they add characters to a page and no tags, and neither part is ever cut short.

Main result: `session_shown`.  The entry that is marked and the panel beside it are decided by different
functions; in every session and on either kind of page they agree.
-/
import Mathlib.Data.List.Induction
import ProcBook.Catalog.Source
import ProcBook.Proofs.Markup
import ProcBook.Proofs.Navigation

namespace ProcBook

/-! ### Sessions -/

namespace Browser

/-- What can be done with a browser. -/
inductive Step where
  /-- Starts over with a catalog from a source, as the tree is at the time. -/
  | load (tree : Tree) (source : CatalogSource)
  /-- Starts over with nothing. -/
  | reset
  | select (name : String)

/-- The browser after a step. -/
def step (browser : Browser) : Step → Browser
  | .load tree source => { catalog := source.load tree }
  | .reset => {}
  | .select name => browser.select name

/-- The browser that steps lead to. -/
def session (steps : List Step) : Browser := steps.foldl step {}

/-- The name that a step selects. -/
def Step.name? : Step → Option String
  | .select name => some name
  | _ => none

/-- What the last load has given, unless there was a reset since, or no load at all. -/
def lastLoad? (steps : List Step) : Option (Except Failure (List Procedure)) :=
  match steps.reverse.find? (·.name?.isNone) with
  | some (.load tree source) => some (source.read tree)
  | _ => none

/-- The last name selected since the last load or reset. -/
def lastName? (steps : List Step) : Option String :=
  (steps.reverse.takeWhile (·.name?.isSome)).findSome? Step.name?

/-- The catalog that a load gives. -/
def catalogOf : Option (Except Failure (List Procedure)) → Catalog
  | none => .loading
  | some (.ok records) => .loaded records
  | some (.error failure) => .failed failure.message

/-- Only a load that succeeded has records. -/
theorem records_catalogOf (load : Option (Except Failure (List Procedure))) :
    (catalogOf load).records =
      match load with
      | some (.ok records) => records
      | _ => [] := by
  rcases load with - | (failure | records)
  · rfl
  · rfl
  · rfl

/-- A failed catalog carries the message of the load that failed. -/
theorem catalogOf_eq_failed {load : Option (Except Failure (List Procedure))} {message : String} :
    catalogOf load = .failed message ↔
      ∃ failure, load = some (.error failure) ∧ failure.message = message := by
  rcases load with - | (failure | records)
  · simp [catalogOf]
  · simp [catalogOf]
  · simp [catalogOf]

theorem session_append (steps : List Step) (last : Step) :
    session (steps ++ [last]) = (session steps).step last := by
  rw [session, List.foldl_append]
  rfl

/-- The last step decides which load the session shows, unless it only selects. -/
theorem lastLoad?_append (steps : List Step) (last : Step) :
    lastLoad? (steps ++ [last]) =
      match last with
      | .load tree source => some (source.read tree)
      | .reset => none
      | .select _ => lastLoad? steps := by
  rw [lastLoad?, List.reverse_append]
  cases last with
  | load tree source => rfl
  | reset => rfl
  | select name => rfl

/-- The last step alone decides the selection: a load and a reset both clear it. -/
theorem lastName?_append (steps : List Step) (last : Step) :
    lastName? (steps ++ [last]) = last.name? := by
  rw [lastName?, List.reverse_append]
  cases last with
  | load tree source => rfl
  | reset => rfl
  | select name => rfl

/-- What a browser holds is what the steps say, looking back from their end. -/
theorem session_eq (steps : List Step) :
    session steps = ⟨catalogOf (lastLoad? steps), lastName? steps⟩ := by
  -- One more step changes the browser and what is seen looking back in the same way.
  induction steps using List.reverseRecOn with
  | nil => rfl
  | append_singleton steps last ih =>
    rw [session_append, ih, lastLoad?_append, lastName?_append]
    cases last with
    | load tree source =>
      cases hread : source.read tree with
      | ok records => simp only [step, CatalogSource.load, hread, catalogOf, Step.name?]
      | error failure => simp only [step, CatalogSource.load, hread, catalogOf, Step.name?]
    | reset => rfl
    | select name => rfl

end Browser

/-! ### Reading a page -/

namespace Html

/-- A piece of a page. -/
inductive Piece where
  /-- A tag, with what stands between its brackets. -/
  | tag (text : List Char)
  /-- A character outside of tags. -/
  | char (c : Char)
deriving Repr, DecidableEq

/-- What is read of an open tag behind a character. -/
def nextTag : Option (List Char) → Char → Option (List Char)
  | none, c => if c = '<' then some [] else none
  | some text, c => if c = '>' then none else some (text ++ [c])

/-- The piece that a character ends. -/
def piece? : Option (List Char) → Char → Option Piece
  | none, c => if c = '<' then none else some (.char c)
  | some text, c => if c = '>' then some (.tag text) else none

/-- The pieces of a text, where something is read of an open tag already. -/
def piecesFrom (tag : Option (List Char)) : List Char → List Piece
  | [] => []
  | c :: text => (piece? tag c).toList ++ piecesFrom (nextTag tag c) text

/-- The pieces of a text. -/
def pieces (text : String) : List Piece := piecesFrom none text.toList

/-- What stands in the first element of a name. -/
def inside (name : String) (page : List Piece) : List Piece :=
  ((page.dropWhile (· != .tag name.toList)).drop 1).takeWhile (· != .tag ('/' :: name.toList))

/-- The characters up to the next tag. -/
def leadingText : List Piece → List Char
  | .char c :: pieces => c :: leadingText pieces
  | _ => []

/-- An entry of a sidebar. -/
structure Entry where
  name : String
  active : Bool
deriving Repr, DecidableEq

/-- Whether a tag opens the name of an entry, be it a link or not. -/
def opensName (tag : List Char) : Bool :=
  ["a".toList, "span".toList].contains (tag.takeWhile (· != ' '))

/-- Whether a tag is marked as active. -/
def isMarked (tag : List Char) : Bool := " class=\"active\"".toList.isSuffixOf tag

/-- The entries in the pieces of a sidebar. -/
def entriesIn : List Piece → List Entry
  | [] => []
  | .char _ :: pieces => entriesIn pieces
  | .tag tag :: pieces =>
    if opensName tag then
      ⟨unescape (String.ofList (leadingText pieces)), isMarked tag⟩ :: entriesIn pieces
    else entriesIn pieces

/-- The entries of the sidebar of a page. -/
def entries (page : String) : List Entry := entriesIn (inside "aside" (pieces page))

/-- The main part of a page shows a panel. -/
def Shows (page : String) (panel : Panel) : Prop :=
  inside "main" (pieces page) = pieces ("\n" ++ Catalog.renderPanel panel)

/-! ### Pieces of parts -/

/-- The tokenizer goes through a text from left to right and keeps one thing, the tag it is in. -/
theorem piecesFrom_append (tag : Option (List Char)) (front back : List Char) :
    piecesFrom tag (front ++ back) =
      piecesFrom tag front ++ piecesFrom (front.foldl nextTag tag) back := by
  induction front generalizing tag with
  | nil => rfl
  | cons c front ih => rw [List.cons_append, piecesFrom, piecesFrom, ih, List.append_assoc]; rfl

theorem pieces_append {front : String} (h : front.toList.foldl nextTag none = none) (back : String) :
    pieces (front ++ back) = pieces front ++ pieces back := by
  rw [pieces, String.toList_append, piecesFrom_append, h]
  rfl

/-- A part of a page that starts and ends outside of tags, and its pieces. -/
def Reads (part : String) (found : List Piece) : Prop :=
  part.toList.foldl nextTag none = none ∧ pieces part = found

instance (part : String) (found : List Piece) : Decidable (Reads part found) :=
  inferInstanceAs (Decidable (_ ∧ _))

/-- Texts that end outside of a tag are read one after the other. -/
theorem Reads.append {front back : String} {found found' : List Piece} (h : Reads front found)
    (h' : Reads back found') : Reads (front ++ back) (found ++ found') := by
  refine ⟨?_, ?_⟩
  · rw [String.toList_append, List.foldl_append, h.1, h'.1]
  · rw [pieces_append h.1, h.2, h'.2]

/-- Outside of tags there are characters only. -/
theorem reads_of_not_mem {part : String} (h : '<' ∉ part.toList) :
    Reads part (part.toList.map .char) := by
  unfold Reads pieces
  generalize part.toList = text at h
  induction text with
  | nil => exact ⟨rfl, rfl⟩
  | cons c text ih =>
    rw [List.mem_cons, not_or] at h
    have hnext : nextTag none c = none := if_neg (Ne.symm h.1)
    have hpiece : piece? none c = some (.char c) := if_neg (Ne.symm h.1)
    obtain ⟨htag, hpieces⟩ := ih h.2
    rw [List.foldl_cons, piecesFrom, hnext, hpiece, hpieces]
    exact ⟨htag, rfl⟩

theorem reads_escape (text : String) : Reads (escape text) ((escape text).toList.map .char) :=
  reads_of_not_mem (not_mem_escape (by decide) text)

/-- Up to its closing bracket a tag goes on. -/
theorem read_tag (read : List Char) {text : List Char} (h : '>' ∉ text) :
    text.foldl nextTag (some read) = some (read ++ text) ∧ piecesFrom (some read) text = [] := by
  induction text generalizing read with
  | nil => simp [piecesFrom]
  | cons c text ih =>
    rw [List.mem_cons, not_or] at h
    have hnext : nextTag (some read) c = some (read ++ [c]) := if_neg (Ne.symm h.1)
    have hpiece : piece? (some read) c = none := if_neg (Ne.symm h.1)
    obtain ⟨htag, hpieces⟩ := ih (read ++ [c]) h.2
    rw [List.foldl_cons, piecesFrom, hnext, hpiece, htag, hpieces, List.append_assoc]
    exact ⟨rfl, rfl⟩

theorem reads_tag {text : String} (h : '>' ∉ text.toList) :
    Reads ("<" ++ text ++ ">") [.tag text.toList] := by
  obtain ⟨htag, hpieces⟩ := read_tag [] h
  have hstart : "<".toList.foldl nextTag none = some [] ∧ piecesFrom none "<".toList = [] := by decide
  unfold Reads pieces
  rw [String.toList_append, String.toList_append]
  simp only [List.foldl_append, piecesFrom_append, hstart, htag, hpieces, List.nil_append]
  exact ⟨rfl, rfl⟩

/-! ### Parts without tags of the frame -/

/-- The tags around the two parts of a page. -/
def frameTags : List (List Char) := ["aside", "/aside", "main", "/main"].map String.toList

/-- A part of a page that starts and ends outside of tags and leaves the two parts of a page alone. -/
def Quiet (part : String) : Prop :=
  part.toList.foldl nextTag none = none ∧ ∀ tag ∈ frameTags, .tag tag ∉ pieces part

instance (part : String) : Decidable (Quiet part) := inferInstanceAs (Decidable (_ ∧ _))

theorem Quiet.reads {part : String} (h : Quiet part) : Reads part (pieces part) := ⟨h.1, rfl⟩

/-- Quiet texts stay quiet side by side: no tag begins in one and ends in the other. -/
theorem Quiet.append {front back : String} (h : Quiet front) (h' : Quiet back) :
    Quiet (front ++ back) := by
  obtain ⟨hplace, hpieces⟩ := h.reads.append h'.reads
  refine ⟨hplace, ?_⟩
  intro tag htag
  rw [hpieces, List.mem_append, not_or]
  exact ⟨h.2 tag htag, h'.2 tag htag⟩

theorem quiet_join {α : Type} {part : α → String} (h : ∀ a, Quiet (part a)) (as : List α) :
    Quiet (String.join (as.map part)) := by
  induction as with
  | nil =>
    show Quiet ""
    decide
  | cons a as ih =>
    rw [List.map_cons, String.join_cons]
    exact (h a).append ih

/-- A text without a `<` opens nothing. -/
theorem quiet_of_not_mem {part : String} (h : '<' ∉ part.toList) : Quiet part := by
  obtain ⟨hplace, hpieces⟩ := reads_of_not_mem h
  refine ⟨hplace, ?_⟩
  intro tag _ hmem
  rw [hpieces, List.mem_map] at hmem
  obtain ⟨c, -, hc⟩ := hmem
  cases hc

/-- The tag of an entry is no tag of the frame. -/
theorem quiet_tag {tag : String} (h : '>' ∉ tag.toList) (hopens : opensName tag.toList = true) :
    Quiet ("<" ++ tag ++ ">") := by
  obtain ⟨hplace, hpieces⟩ := reads_tag h
  refine ⟨hplace, ?_⟩
  intro frame hframe hmem
  rw [hpieces, List.mem_singleton, Piece.tag.injEq] at hmem
  subst hmem
  have hnone : ∀ frame ∈ frameTags, opensName frame = false := by decide
  rw [hnone _ hframe] at hopens
  cases hopens

theorem quiet_escape (text : String) : Quiet (escape text) :=
  quiet_of_not_mem (not_mem_escape (by decide) text)

/-- Escaped text inside of quiet markup is quiet, whatever the text. -/
theorem quiet_between {left right : String} (hleft : Quiet left) (hright : Quiet right)
    (text : String) : Quiet (left ++ escape text ++ right) :=
  (hleft.append (quiet_escape text)).append hright

theorem quiet_opening (title : String) : Quiet (opening title) := by
  have htitle := quiet_between
    (show Quiet "<!DOCTYPE html>\n<html>\n<head>\n<meta charset=\"utf-8\">\n<title>" by decide)
    (show Quiet "</title>\n<style>\n" by decide) title
  have hstyle : Quiet style := quiet_of_not_mem (not_mem_style (by decide))
  have hend : Quiet "</style>\n</head>\n<body>\n" := by decide
  exact (htitle.append hstyle).append hend

theorem quiet_items (texts : List String) : Quiet (items texts) := by
  have hitem : ∀ text, Quiet ("  <li>" ++ escape text ++ "</li>\n") :=
    quiet_between (by decide) (by decide)
  have hstart : Quiet "<ul>\n" := by decide
  have hend : Quiet "</ul>\n" := by decide
  exact (hstart.append (quiet_join hitem texts)).append hend

theorem quiet_block {id heading contents : String}
    (hheading : Quiet ("<section id=\"" ++ id ++ "\">\n<h2>" ++ heading ++ "</h2>\n"))
    (h : Quiet contents) : Quiet (block id heading contents) := by
  have hend : Quiet "</section>\n" := by decide
  exact (hheading.append h).append hend

theorem quiet_paragraph (text : String) : Quiet (paragraph text) :=
  quiet_between (by decide) (by decide) text

theorem quiet_code (text : String) : Quiet (code text) :=
  quiet_between (by decide) (by decide) text

/-- The sections of a record stay in their part, whatever the record says. -/
theorem quiet_detail (procedure : Procedure) : Quiet (detail procedure) := by
  have hstart : Quiet ("<section id=\"documentation\">\n<h1>" ++ escape procedure.name ++ "</h1>\n") :=
    quiet_between (by decide) (by decide) procedure.name
  have hnotes : Quiet (if procedure.notes == "" then ""
      else block "meta" "Notes" (paragraph procedure.notes)) := by
    split
    · decide
    · exact quiet_block (by decide) (quiet_paragraph _)
  have hend : Quiet "</section>\n" := by decide
  exact ((((((hstart.append (quiet_block (by decide) (quiet_paragraph _))).append
    (quiet_block (by decide) (quiet_code _))).append
    (quiet_block (by decide) (quiet_items _))).append
    (quiet_block (by decide) (quiet_code _))).append
    (quiet_block (by decide) (quiet_items _))).append hnotes).append hend

/-! ### Elements -/

/-- The content of an element is what stands between its first tag and the next closing one, when
neither occurs earlier. -/
theorem inside_append {name : String} {front content back : List Piece}
    (hfront : .tag name.toList ∉ front) (hcontent : .tag ('/' :: name.toList) ∉ content) :
    inside name (front ++ .tag name.toList :: (content ++ .tag ('/' :: name.toList) :: back)) =
      content := by
  have hne : ∀ {tag : Piece} {text : List Piece}, tag ∉ text → ∀ piece ∈ text, (piece != tag) = true := by
    intro tag text hmem piece hpiece
    exact bne_iff_ne.2 (fun h => hmem (h ▸ hpiece))
  rw [inside, List.dropWhile_append_of_pos (hne hfront), List.dropWhile_cons_of_neg (by simp),
    List.drop_one, List.tail_cons, List.takeWhile_append_of_pos (hne hcontent),
    List.takeWhile_cons_of_neg (by simp), List.append_nil]

/-! ### The sidebar -/

/-- The leading text of an element ends at its first tag. -/
theorem leadingText_append (text : List Char) (tag : List Char) (rest : List Piece) :
    leadingText (text.map .char ++ .tag tag :: rest) = text := by
  induction text with
  | nil => rfl
  | cons c text ih => rw [List.map_cons, List.cons_append, leadingText, ih]

/-- Text before an entry does not hide the entry. -/
theorem entriesIn_append (text : List Char) (rest : List Piece) :
    entriesIn (text.map .char ++ rest) = entriesIn rest := by
  induction text with
  | nil => rfl
  | cons c text ih => rw [List.map_cons, List.cons_append, entriesIn, ih]

end Html

namespace Catalog

open Html

/-- A tag that has no mark of its own is marked if the name is selected, and only then. -/
theorem isMarked_append {text : String} (h : isMarked text.toList = false) (selected : Option String)
    (name : String) :
    isMarked (text ++ activeMark selected name).toList = (selected == some name) := by
  rw [String.toList_append]
  unfold activeMark
  cases selected == some name with
  | true => exact List.isSuffixOf_iff_suffix.2 (List.suffix_append _ _)
  | false => exact (congrArg isMarked (List.append_nil _)).trans h

/-- A link ends in the extension of its file and not in a mark. -/
theorem isMarked_href (name : String) :
    isMarked ("a href=\"" ++ escape (pageHref name) ++ "\"").toList = false := by
  obtain ⟨front, hfront⟩ : ∃ front, (escape (pageHref name)).toList = front ++ ".html".toList := by
    rw [escape, pageHref, pageFile, String.toList_ofList, String.toList_ofList, String.toList_append,
      List.flatMap_append, List.flatMap_append]
    exact ⟨_, rfl⟩
  rw [String.toList_append, String.toList_append, hfront]
  simp only [isMarked, List.isSuffixOf, List.reverse_append]
  rfl

theorem not_mem_activeMark (selected : Option String) (name : String) :
    '>' ∉ (activeMark selected name).toList := by
  unfold activeMark
  split <;> decide

/-- An entry: a tag, the name, and what closes them. -/
theorem exists_sidebarEntry (sidebar : Sidebar) (selected : Option String) (procedure : Procedure) :
    ∃ tag close : String, sidebarEntry sidebar selected procedure =
        "  <li>" ++ ("<" ++ tag ++ ">") ++ escape procedure.name ++ close ∧
      '>' ∉ tag.toList ∧ opensName tag.toList = true ∧
      isMarked tag.toList = (selected == some procedure.name) ∧
      close ∈ ["</a></li>\n", "</span></li>\n"] := by
  unfold sidebarEntry
  dsimp only
  split
  · have hstart : "  <li><a href=\"" = "  <li>" ++ ("<" ++ "a href=\"") := by decide
    refine ⟨"a href=\"" ++ escape (pageHref procedure.name) ++ "\"" ++
      activeMark selected procedure.name, "</a></li>\n", ?_, ?_, ?_, ?_, by decide⟩
    · simp only [hstart, String.append_assoc]
    · simp only [String.toList_append, List.mem_append, not_or]
      exact ⟨⟨⟨by decide, not_mem_escape (by decide) _⟩, by decide⟩, not_mem_activeMark _ _⟩
    · simp [opensName]
    · exact isMarked_append (isMarked_href _) selected procedure.name
  · have hstart : "  <li><span" = "  <li>" ++ ("<" ++ "span") := by decide
    refine ⟨"span" ++ activeMark selected procedure.name, "</span></li>\n", ?_, ?_, ?_, ?_, by decide⟩
    · simp only [hstart, String.append_assoc]
    · simp only [String.toList_append, List.mem_append, not_or]
      exact ⟨by decide, not_mem_activeMark _ _⟩
    · unfold activeMark
      split <;> decide
    · exact isMarked_append (by decide) selected procedure.name

/-- An entry of the sidebar leaves no tag open, whatever the name of its record. -/
theorem quiet_sidebarEntry (sidebar : Sidebar) (selected : Option String) (procedure : Procedure) :
    Quiet (sidebarEntry sidebar selected procedure) := by
  obtain ⟨tag, close, hentry, hbracket, hopens, -, hclose⟩ :=
    exists_sidebarEntry sidebar selected procedure
  have hstart : Quiet "  <li>" := by decide
  have hend : ∀ close ∈ ["</a></li>\n", "</span></li>\n"], Quiet close := by decide
  rw [hentry]
  exact ((hstart.append (quiet_tag hbracket hopens)).append (quiet_escape _)).append (hend _ hclose)

/-- An entry is read as the name of its record, with the mark. -/
theorem entriesIn_sidebarEntry (sidebar : Sidebar) (selected : Option String) (procedure : Procedure)
    (rest : List Piece) : entriesIn (pieces (sidebarEntry sidebar selected procedure) ++ rest) =
      ⟨procedure.name, selected == some procedure.name⟩ :: entriesIn rest := by
  obtain ⟨tag, close, hentry, hbracket, hopens, hmarked, hclose⟩ :=
    exists_sidebarEntry sidebar selected procedure
  have hstart : Reads "  <li>" [.char ' ', .char ' ', .tag "li".toList] := by decide
  obtain ⟨closing, hopens', hend⟩ : ∃ closing, opensName closing = false ∧
      Reads close [.tag closing, .tag "/li".toList, .char '\n'] := by
    simp only [List.mem_cons, List.not_mem_nil, or_false] at hclose
    rcases hclose with rfl | rfl
    · exact ⟨"/a".toList, by decide⟩
    · exact ⟨"/span".toList, by decide⟩
  have hread := ((hstart.append (reads_tag hbracket)).append (reads_escape procedure.name)).append hend
  rw [hentry, hread.2]
  simp only [List.append_assoc, List.cons_append, List.nil_append, entriesIn, hopens, hopens',
    show opensName "li".toList = false by decide, show opensName "/li".toList = false by decide,
    leadingText_append, entriesIn_append, hmarked, String.ofList_toList, unescape_escape,
    Bool.false_eq_true, if_false, if_true]

/-- The entries read off a written sidebar are the records in their order, the selected ones
marked. -/
theorem entriesIn_join (sidebar : Sidebar) (selected : Option String) (records : List Procedure)
    (rest : List Piece) :
    entriesIn (pieces (String.join (records.map (sidebarEntry sidebar selected))) ++ rest) =
      records.map (fun record => ⟨record.name, selected == some record.name⟩) ++ entriesIn rest := by
  induction records with
  | nil => rfl
  | cons record records ih =>
    rw [List.map_cons, String.join_cons, pieces_append (quiet_sidebarEntry _ _ _).1, List.append_assoc,
      entriesIn_sidebarEntry, ih]
    rfl

/-! ### The page -/

/-- A panel leaves no tag open, whatever the record it shows. -/
theorem quiet_renderPanel (panel : Panel) : Quiet (renderPanel panel) := by
  cases panel with
  | loading => decide
  | failed message => exact quiet_between (by decide) (by decide) message
  | detail procedure => exact quiet_detail procedure

/-- The pieces of the list in a sidebar. -/
def listPieces (sidebar : Sidebar) (selected : Option String) (records : List Procedure) : List Piece :=
  .char '\n' :: .tag "ul".toList :: .char '\n' ::
    (pieces (String.join (records.map (sidebarEntry sidebar selected))) ++
      [.tag "/ul".toList, .char '\n'])

/-- The tags that frame the page never occur in the list of records. -/
theorem not_mem_listPieces (sidebar : Sidebar) (selected : Option String) (records : List Procedure)
    {tag : List Char} (h : tag ∈ frameTags) : .tag tag ∉ listPieces sidebar selected records := by
  have hentries := quiet_join (quiet_sidebarEntry sidebar selected) records
  have hlist : "ul".toList ∉ frameTags ∧ "/ul".toList ∉ frameTags := by decide
  simp only [listPieces, List.mem_cons, List.mem_append, List.not_mem_nil, or_false, not_or,
    Piece.tag.injEq, reduceCtorEq, not_false_eq_true, true_and]
  exact ⟨fun hul => hlist.1 (hul ▸ h), hentries.2 tag h, fun hul => hlist.2 (hul ▸ h)⟩

/-- The pieces of a page, part by part: opening, sidebar, panel and closing. -/
theorem pieces_page (catalog : Catalog) (sidebar : Sidebar) (selected : Option String) :
    pieces (catalog.page sidebar selected) =
      pieces (opening (pageTitle selected)) ++ .tag "aside".toList ::
        (listPieces sidebar selected catalog.records ++ .tag ('/' :: "aside".toList) ::
          .char '\n' :: .tag "main".toList ::
            (.char '\n' :: pieces (renderPanel (catalog.panel selected)) ++
              .tag ('/' :: "main".toList) :: .char '\n' :: pieces closing)) := by
  have hstart : Reads "<aside>\n<ul>\n"
      [.tag "aside".toList, .char '\n', .tag "ul".toList, .char '\n'] := by decide
  have hentries := quiet_join (quiet_sidebarEntry sidebar selected) catalog.records
  have hend : Reads "</ul>\n</aside>\n"
      [.tag "/ul".toList, .char '\n', .tag ('/' :: "aside".toList), .char '\n'] := by decide
  have hmain : Reads "<main>\n" [.tag "main".toList, .char '\n'] := by decide
  have hclose : Reads "</main>\n" [.tag ('/' :: "main".toList), .char '\n'] := by decide
  have hclosing : Quiet closing := by decide
  have hpage := ((((quiet_opening (pageTitle selected)).reads.append
    ((hstart.append hentries.reads).append hend)).append hmain).append
    (quiet_renderPanel (catalog.panel selected)).reads).append hclose |>.append hclosing.reads
  refine hpage.2.trans ?_
  simp only [listPieces, List.append_assoc, List.cons_append, List.nil_append]

/-- The sidebar has an entry for every record, in order, and marks those of the name selected. -/
theorem entries_page (catalog : Catalog) (sidebar : Sidebar) (selected : Option String) :
    entries (catalog.page sidebar selected) =
      catalog.records.map fun record => ⟨record.name, selected == some record.name⟩ := by
  have hfront : .tag "aside".toList ∉ pieces (opening (pageTitle selected)) :=
    (quiet_opening _).2 _ (by decide)
  rw [entries, pieces_page, inside_append hfront (not_mem_listPieces _ _ _ (by decide)), listPieces]
  simp only [entriesIn, show opensName "ul".toList = false by decide, entriesIn_join]
  exact List.append_nil _

/-- The main part shows the panel. -/
theorem shows_page (catalog : Catalog) (sidebar : Sidebar) (selected : Option String) :
    Shows (catalog.page sidebar selected) (catalog.panel selected) := by
  -- Here the sidebar belongs to what stands in front.
  have hpage : pieces (catalog.page sidebar selected) =
      (pieces (opening (pageTitle selected)) ++ .tag "aside".toList ::
        (listPieces sidebar selected catalog.records ++ [.tag ('/' :: "aside".toList), .char '\n'])) ++
      .tag "main".toList :: (.char '\n' :: pieces (renderPanel (catalog.panel selected)) ++
        .tag ('/' :: "main".toList) :: .char '\n' :: pieces closing) := by
    rw [pieces_page]
    simp only [List.append_assoc, List.cons_append, List.nil_append]
  have hpanel : .tag ('/' :: "main".toList) ∉
      .char '\n' :: pieces (renderPanel (catalog.panel selected)) := by
    rw [List.mem_cons, not_or]
    exact ⟨by decide, (quiet_renderPanel _).2 _ (by decide)⟩
  rw [Shows, hpage, inside_append _ hpanel, pieces_append (by decide)]
  · rfl
  · simp only [List.mem_append, List.mem_cons, List.not_mem_nil, or_false, not_or]
    exact ⟨(quiet_opening _).2 _ (by decide), by decide, not_mem_listPieces _ _ _ (by decide),
      by decide, by decide⟩

/-! ### Kinds of panels -/

/-- A panel apart from what it says. -/
inductive PanelKind where
  | loading
  | failed
  | detail

/-- The first tag of a panel. -/
def PanelKind.tag : PanelKind → List Char
  | loading => "p".toList
  | failed => "p class=\"error\"".toList
  | detail => "section id=\"documentation\"".toList

theorem PanelKind.tag_injective : Function.Injective PanelKind.tag := by
  intro a b h
  cases a <;> cases b <;> first | rfl | exact absurd h (by decide)

/-- The kind of a panel. -/
def kind : Panel → PanelKind
  | .loading => .loading
  | .failed _ => .failed
  | .detail _ => .detail

/-- A panel begins with the tag that tells its kind. -/
theorem exists_pieces_renderPanel (panel : Panel) :
    ∃ rest, pieces ("\n" ++ renderPanel panel) = .char '\n' :: .tag (kind panel).tag :: rest := by
  -- What follows a start that closes its tags does not change its pieces.
  have hstart : ∀ {start : String} {tag : List Char} {found : List Piece},
      Reads start (.tag tag :: found) → ∀ back : String,
        ∃ rest, pieces ("\n" ++ (start ++ back)) = .char '\n' :: .tag tag :: rest := by
    intro start tag found h back
    rw [pieces_append (by decide), pieces_append h.1, h.2]
    exact ⟨_, rfl⟩
  cases panel with
  | loading =>
    have hread : Reads "<p>" [.tag "p".toList] := by decide
    exact hstart hread "loading....</p>\n"
  | failed message =>
    have hread : Reads "<p class=\"error\">Failed to load procedures: "
        (.tag "p class=\"error\"".toList :: "Failed to load procedures: ".toList.map .char) := by
      decide +kernel
    have hpanel : renderPanel (.failed message) =
        "<p class=\"error\">Failed to load procedures: " ++ (escape message ++ "</p>\n") :=
      String.append_assoc
    rw [hpanel]
    exact hstart hread _
  | detail procedure =>
    have hread : Reads "<section id=\"documentation\">\n<h1>"
        [.tag "section id=\"documentation\"".toList, .char '\n', .tag "h1".toList] := by decide
    have hpanel : renderPanel (.detail procedure) = detail procedure := rfl
    obtain ⟨back, hback⟩ : ∃ back, detail procedure =
        "<section id=\"documentation\">\n<h1>" ++ back := by
      unfold detail
      simp only [String.append_assoc]
      exact ⟨_, rfl⟩
    rw [hpanel, hback]
    exact hstart hread back

/-- Panels of different kinds are told apart. -/
theorem kind_eq_of_shows {page : String} {panel panel' : Panel} (h : Shows page panel)
    (h' : Shows page panel') : kind panel = kind panel' := by
  obtain ⟨rest, hrest⟩ := exists_pieces_renderPanel panel
  obtain ⟨rest', hrest'⟩ := exists_pieces_renderPanel panel'
  rw [Shows, hrest] at h
  rw [Shows, hrest'] at h'
  exact PanelKind.tag_injective (Piece.tag.inj (List.cons.inj (List.cons.inj (h.symm.trans h')).2).1)

/-! ### Entries and panels -/

/-- Without a failure and without a selected record the page says that it is loading. -/
theorem panel_of_current?_eq_none {catalog : Catalog} {selected : Option String}
    (hfailed : ∀ message, catalog ≠ .failed message) (h : catalog.current? selected = none) :
    catalog.panel selected = .loading := by
  cases catalog with
  | failed message => exact absurd rfl (hfailed message)
  | loading => simp only [panel, h]
  | loaded records => simp only [panel, h]

section

variable {catalog : Catalog} {sidebar : Sidebar} {selected : Option String}

/-- There is a record to show if some entry is marked, and only then. -/
theorem exists_active_iff :
    (∃ entry ∈ entries (catalog.page sidebar selected), entry.active = true) ↔
      (catalog.current? selected).isSome = true := by
  rw [entries_page, current?_eq_find?, List.find?_isSome]
  simp only [List.mem_map, exists_exists_and_eq_and]

/-- No entry is marked exactly when no record is selected. -/
theorem forall_inactive_iff :
    (∀ entry ∈ entries (catalog.page sidebar selected), entry.active = false) ↔
      catalog.current? selected = none := by
  rw [← Option.not_isSome_iff_eq_none, ← @exists_active_iff catalog sidebar selected]
  simp only [not_exists, not_and, Bool.not_eq_true]

/-- The record that is shown stands where the first marked entry does. -/
theorem exists_shows_detail_of_findIdx? {i : Nat}
    (h : (entries (catalog.page sidebar selected)).findIdx? Entry.active = some i) :
    ∃ record, catalog.records[i]? = some record ∧
      Shows (catalog.page sidebar selected) (.detail record) := by
  have hcurrent : catalog.current? selected = catalog.records[i]? := by
    rw [entries_page, List.findIdx?_map] at h
    rw [current?_eq_find?, List.find?_eq_bind_findIdx?_getElem?]
    exact congrArg (Option.bind · (catalog.records[·]?)) h
  have hactive : ∃ entry ∈ entries (catalog.page sidebar selected), entry.active = true := by
    rw [← List.any_eq_true, ← List.findIdx?_isSome, h]
    rfl
  obtain ⟨record, hrecord⟩ := Option.isSome_iff_exists.1 (exists_active_iff.1 hactive)
  have hshows := catalog.shows_page sidebar selected
  rw [panel_of_current? hrecord] at hshows
  exact ⟨record, hcurrent.symm.trans hrecord, hshows⟩

/-- A page shows a panel of the kind that the catalog has for the selection. -/
theorem kind_panel {shown : Panel} (h : Shows (catalog.page sidebar selected) shown) :
    kind (catalog.panel selected) = kind shown :=
  kind_eq_of_shows (catalog.shows_page sidebar selected) h

/-- A page shows a failure exactly when the catalog is one. -/
theorem exists_shows_failed_iff :
    (∃ message, Shows (catalog.page sidebar selected) (.failed message)) ↔
      ∃ message, catalog = .failed message := by
  constructor
  · rintro ⟨message, hshows⟩
    have hkind := kind_panel hshows
    by_contra hfailed
    rw [not_exists] at hfailed
    cases hcurrent : catalog.current? selected with
    | none =>
      rw [panel_of_current?_eq_none hfailed hcurrent] at hkind
      cases hkind
    | some record =>
      rw [panel_of_current? hcurrent] at hkind
      cases hkind
  · rintro ⟨message, rfl⟩
    exact ⟨message, shows_page _ _ _⟩

variable (hfailed : ∀ message, catalog ≠ .failed message)
include hfailed

/-- A page shows a record exactly when an entry of its sidebar is marked. -/
theorem exists_shows_detail_iff :
    (∃ record, Shows (catalog.page sidebar selected) (.detail record)) ↔
      ∃ entry ∈ entries (catalog.page sidebar selected), entry.active = true := by
  rw [exists_active_iff]
  have hshows := catalog.shows_page sidebar selected
  cases hcurrent : catalog.current? selected with
  | none =>
    refine iff_of_false ?_ (by simp)
    rintro ⟨record, hrecord⟩
    have hkind := kind_panel hrecord
    rw [panel_of_current?_eq_none hfailed hcurrent] at hkind
    cases hkind
  | some record =>
    rw [panel_of_current? hcurrent] at hshows
    exact iff_of_true ⟨record, hshows⟩ rfl

/-- A page of a catalog that did not fail shows the loading panel exactly when no entry is
marked. -/
theorem shows_loading_iff :
    Shows (catalog.page sidebar selected) .loading ↔
      ∀ entry ∈ entries (catalog.page sidebar selected), entry.active = false := by
  rw [forall_inactive_iff]
  have hshows := catalog.shows_page sidebar selected
  cases hcurrent : catalog.current? selected with
  | none =>
    rw [panel_of_current?_eq_none hfailed hcurrent] at hshows
    exact iff_of_true hshows rfl
  | some record =>
    refine iff_of_false ?_ (by simp)
    intro hloading
    have hkind := kind_panel hloading
    rw [panel_of_current? hcurrent] at hkind
    cases hkind

end

end Catalog

/-- **What is marked and what is shown agree.**  After any steps a browser holds the records of the last
load, or none if that failed or if there was a reset since; selections leave the records alone, and the
last one since counts.  The sidebar of the page has an entry for each record, in order, and marks the
entries with the name selected.  The panel tells of a failure exactly if the last load failed, and it
tells which.  Otherwise it shows the details of a record exactly if some entry is marked, and then those
of the record of the first marked entry, and else that the catalog is loading. -/
theorem session_shown (steps : List Browser.Step) (sidebar : Sidebar) :
    let browser := Browser.session steps
    let page := browser.catalog.page sidebar browser.selected
    (browser.records =
      match Browser.lastLoad? steps with
      | some (.ok records) => records
      | _ => []) ∧
    (∀ name, (Browser.session (steps ++ [.select name])).records = browser.records) ∧
    browser.selected = Browser.lastName? steps ∧
    Html.entries page =
      browser.records.map (fun record => ⟨record.name, browser.selected == some record.name⟩) ∧
    ((∃ message, Html.Shows page (.failed message)) ↔
      ∃ failure, Browser.lastLoad? steps = some (.error failure)) ∧
    (∀ failure, Browser.lastLoad? steps = some (.error failure) →
      Html.Shows page (.failed failure.message)) ∧
    ((∀ failure, Browser.lastLoad? steps ≠ some (.error failure)) →
      ((∃ record, Html.Shows page (.detail record)) ↔ ∃ entry ∈ Html.entries page, entry.active = true) ∧
      (∀ i, (Html.entries page).findIdx? Html.Entry.active = some i →
        ∃ record, browser.records[i]? = some record ∧ Html.Shows page (.detail record)) ∧
      (Html.Shows page .loading ↔ ∀ entry ∈ Html.entries page, entry.active = false)) := by
  intro browser page
  have hbrowser : browser = _ := Browser.session_eq steps
  have hcatalog : browser.catalog = Browser.catalogOf (Browser.lastLoad? steps) := by rw [hbrowser]
  -- All is read off the state that the steps lead to: the last load and, if it came last, the
  -- selection.
  refine ⟨?_, ?_, ?_, ?_, ?_, ?_, ?_⟩
  · rw [Browser.records, hcatalog, Browser.records_catalogOf]
  · intro name
    rw [Browser.session_append]
    rfl
  · rw [hbrowser]
  · exact browser.catalog.entries_page sidebar browser.selected
  · refine Catalog.exists_shows_failed_iff.trans ?_
    rw [hcatalog]
    simp only [Browser.catalogOf_eq_failed]
    constructor
    · rintro ⟨-, failure, hload, -⟩
      exact ⟨failure, hload⟩
    · rintro ⟨failure, hload⟩
      exact ⟨_, failure, hload, rfl⟩
  · intro failure hload
    have hpanel : browser.catalog.panel browser.selected = .failed failure.message := by
      rw [hcatalog, hload]
      rfl
    have hshows := browser.catalog.shows_page sidebar browser.selected
    rw [hpanel] at hshows
    exact hshows
  · intro hload
    -- A load that did not fail leaves no message to show.
    have hfailed : ∀ message, browser.catalog ≠ .failed message := by
      intro message hcatalog'
      obtain ⟨failure, hfailure, -⟩ := Browser.catalogOf_eq_failed.1 (hcatalog.symm.trans hcatalog')
      exact hload failure hfailure
    exact ⟨Catalog.exists_shows_detail_iff hfailed, fun i => Catalog.exists_shows_detail_of_findIdx?,
      Catalog.shows_loading_iff hfailed⟩

/-- A name that two records have is selected, behind a load that failed. -/
theorem session_shown_repeated :
    let first : Procedure := { name := "p", description := "first" }
    let records : List Procedure := [{ name := "<q>" }, first, { name := "p", description := "second" }]
    let failing : List Browser.Step := [.load {} (.given records), .load {} (.broken "x"), .select "p"]
    let steps : List Browser.Step := failing ++ [.load {} (.given records), .select "<q>", .select "p"]
    let page steps := (Browser.session steps).catalog.page .linked (Browser.session steps).selected
    Html.entries (page failing) = [] ∧ Html.Shows (page failing) (.failed "x") ∧
      Html.entries (page steps) = [⟨"<q>", false⟩, ⟨"p", true⟩, ⟨"p", true⟩] ∧
      Html.Shows (page steps) (.detail first) := by
  intro first records failing steps page
  obtain ⟨hnone, -, -, hempty, -, hfailed, -⟩ := session_shown failing .linked
  obtain ⟨hrecords, -, hselected, hentries, -, -, hloaded⟩ := session_shown steps .linked
  have hmarked : Html.entries (page steps) = [⟨"<q>", false⟩, ⟨"p", true⟩, ⟨"p", true⟩] := by
    refine hentries.trans ?_
    rw [hrecords, hselected]
    decide
  obtain ⟨-, hdetail, -⟩ := hloaded (fun failure h => by cases h)
  obtain ⟨record, hrecord, hshows⟩ := hdetail 1 (by rw [hmarked]; rfl)
  rw [hrecords] at hrecord
  obtain rfl := Option.some.inj hrecord
  refine ⟨hempty.trans (by rw [hnone]; rfl), hfailed ⟨"x", []⟩ rfl, hmarked, hshows⟩

end ProcBook
