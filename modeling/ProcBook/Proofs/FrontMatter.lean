/-
ProcBook/Proofs/FrontMatter.lean

The front matter of a Markdown page, read back.

`readFrontMatter?` reads a page line by line.  The first line has to be a fence, the next fence ends the
front matter, and each line between them is an entry or an item of the list above it.  The reader knows
neither the keys nor how the page goes on, so that

    readFrontMatter? (page author procedure) = the entries of the record and of the author

says that no text of a record can end the front matter, add an entry to it or run into the next one
(`readFrontMatter?_page`).  Hence two pages are the same only if all of these texts are (`page_unambiguous`).

The rest of the module is about characters: quoting escapes line ends, tabulators, quotation marks and
backslashes, and lets every other character pass (`unprintable_frontMatter`).
-/
import Mathlib.Data.List.Basic
import ProcBook.Page.Format
import ProcBook.Proofs.Text
import ProcBook.Sql.Document

namespace ProcBook.Markdown

/-! ### Reading a front matter -/

/-- The line in front of a front matter and behind it. -/
def fence : List Char := ['-', '-', '-']

/-- The character that a letter behind a backslash stands for. -/
def escaped? : Char → Option Char
  | '\\' => some '\\'
  | '"' => some '"'
  | 'n' => some '\n'
  | 'r' => some '\r'
  | 't' => some '\t'
  | _ => none

/-- Undoes the escapes of a quoted scalar behind its opening quotation mark.  Nothing may follow the
closing one. -/
def unquoteChars : List Char → Option (List Char)
  | [] => none
  | ['"'] => some []
  | '\\' :: c :: text =>
    match escaped? c, unquoteChars text with
    | some d, some value => some (d :: value)
    | _, _ => none
  | c :: text => if c = '"' ∨ c = '\\' then none else (unquoteChars text).map (c :: ·)

/-- The text that a quoted scalar stands for. -/
def unquote? : List Char → Option String
  | '"' :: text => (unquoteChars text).map String.ofList
  | _ => none

/-- An entry of a front matter. -/
inductive Entry where
  | text (key value : String)
  | texts (key : String) (values : List String)
deriving Repr, DecidableEq

/-- What a line of a front matter can be. -/
inductive Line where
  /-- An entry that ends with the line. -/
  | entry (entry : Entry)
  /-- The key of a list whose items follow. -/
  | heading (key : String)
  | item (value : String)
deriving Repr, DecidableEq

/-- Reads what stands behind a key and its colon. -/
def readBehind? (key : String) : List Char → Option Line
  | [] => some (.heading key)
  | [' ', '[', ']'] => some (.entry (.texts key []))
  | ' ' :: scalar => (unquote? scalar).map fun value => .entry (.text key value)
  | _ => none

/-- Reads a line.  Items are indented; otherwise the key goes up to the first colon. -/
def readLine? (line : List Char) : Option Line :=
  match line with
  | ' ' :: ' ' :: '-' :: ' ' :: scalar => (unquote? scalar).map .item
  | _ =>
    match Text.after? ':' line with
    | none => none
    | some rest => readBehind? (String.ofList (line.takeWhile (· != ':'))) rest

/-- Reads lines: the items of a list whose key stands above them, and the entries that follow. -/
def readLines? : List (List Char) → Option (List String × List Entry)
  | [] => some ([], [])
  | line :: lines =>
    match readLine? line, readLines? lines with
    | some (.item value), some (items, entries) => some (value :: items, entries)
    | some (.heading key), some (items, entries) => some ([], .texts key items :: entries)
    | some (.entry entry), some ([], entries) => some ([], entry :: entries)
    | _, _ => none

/-- The lines of a page's front matter: the first line is a fence, and so is the line behind them. -/
def frontMatterLines? (page : String) : Option (List (List Char)) :=
  match Text.splitOn '\n' page.toList with
  | [] => none
  | first :: lines =>
    if first = fence ∧ fence ∈ lines then some (lines.takeWhile (· != fence)) else none

/-- The entries of a page's front matter. -/
def readFrontMatter? (page : String) : Option (List Entry) :=
  match frontMatterLines? page with
  | none => none
  | some lines =>
    match readLines? lines with
    | some ([], entries) => some entries
    | _ => none

/-! ### Quoted scalars -/

theorem unquoteChars_cons {c : Char} (hquote : c ≠ '"') (hslash : c ≠ '\\') (text : List Char) :
    unquoteChars (c :: text) = (unquoteChars text).map (c :: ·) := by
  rw [unquoteChars]
  · rw [if_neg (not_or.2 ⟨hquote, hslash⟩)]
  · rintro rfl
    exact absurd rfl hquote
  · intro d rest he
    exact absurd he hslash

/-- One character is read back, and the reader goes on behind it. -/
theorem unquoteChars_escapeChar (c : Char) (text : List Char) :
    unquoteChars (escapeChar c ++ text) = (unquoteChars text).map (c :: ·) := by
  have hescape : ∀ {e d : Char}, escaped? e = some d →
      unquoteChars ('\\' :: e :: text) = (unquoteChars text).map (d :: ·) := by
    intro e d he
    rw [unquoteChars, he]
    cases unquoteChars text with
    | none => rfl
    | some value => rfl
  unfold escapeChar
  split
  · exact hescape rfl
  · exact hescape rfl
  · exact hescape rfl
  · exact hescape rfl
  · exact hescape rfl
  · next hslash hquote _ _ _ => exact unquoteChars_cons hquote hslash text

/-- Reading an escaped text back gives the text and ends at the closing quote. -/
theorem unquoteChars_flatMap (text : List Char) :
    unquoteChars (text.flatMap escapeChar ++ ['"']) = some text := by
  induction text with
  | nil => rfl
  | cons c text ih =>
    rw [List.flatMap_cons, List.append_assoc, unquoteChars_escapeChar, ih]
    rfl

theorem toList_quote (text : String) :
    (quote text).toList = '"' :: (text.toList.flatMap escapeChar ++ ['"']) := by
  simp [quote]

/-- A quoted text is read back. -/
theorem unquote?_quote (text : String) : unquote? (quote text).toList = some text := by
  rw [toList_quote, unquote?, unquoteChars_flatMap, Option.map_some, String.ofList_toList]

/-- A quoted text stays on its line: line breaks are escaped. -/
theorem newline_not_mem_quote (text : String) : '\n' ∉ (quote text).toList := by
  have hchar : ∀ c, '\n' ∉ escapeChar c := by
    intro c
    unfold escapeChar
    split
    · decide
    · decide
    · decide
    · decide
    · decide
    · next hnewline _ _ =>
      rw [List.mem_singleton]
      exact Ne.symm hnewline
  rw [toList_quote]
  simp [hchar]

/-! ### Lines -/

/-- The line of an entry with a single text. -/
def entryLine (key text : String) : List Char := (key ++ ": " ++ quote text).toList

/-- The line of an item of a list. -/
def itemOf (text : String) : List Char := ("  - " ++ quote text).toList

/-- The lines of an entry with a list of texts. -/
def listLines (key : String) (texts : List String) : List (List Char) :=
  if texts.isEmpty then [(key ++ ": []").toList] else (key ++ ":").toList :: texts.map itemOf

/-- The lines of a front matter between its fences. -/
def entryLines (author : String) (procedure : Procedure) : List (List Char) :=
  [entryLine "title" procedure.name, entryLine "description" procedure.description,
    entryLine "dbstatus" databaseStatus, entryLine "codestatus" codeStatus] ++
  (listLines "returns" procedure.returns ++
    (listLines "params" procedure.parameters ++
      (listLines "refs" procedure.references ++ [entryLine "createdby" author])))

/-- Lines, each with its end. -/
def endLines (lines : List (List Char)) : List Char := lines.flatMap (· ++ ['\n'])

theorem endLines_cons (line : List Char) (lines : List (List Char)) :
    endLines (line :: lines) = line ++ '\n' :: endLines lines := by
  simp [endLines]

/-- Lines are written one after the other. -/
theorem endLines_append (lines lines' : List (List Char)) :
    endLines (lines ++ lines') = endLines lines ++ endLines lines' :=
  List.flatMap_append

theorem toList_entry (key text : String) :
    (entry key text).toList = endLines [entryLine key text] := by
  simp [entry, entryLine, endLines]

/-- A list is written as its key and one line for each item, or on the key's line if it is empty. -/
theorem toList_listEntry (key : String) (texts : List String) :
    (listEntry key texts).toList = endLines (listLines key texts) := by
  have hitems : (String.join (texts.map fun text => "  - " ++ quote text ++ "\n")).toList =
      endLines (texts.map itemOf) := by
    induction texts with
    | nil => rfl
    | cons text texts ih =>
      rw [List.map_cons, String.join_cons, String.toList_append, ih, List.map_cons, endLines_cons]
      simp [itemOf]
  unfold listEntry listLines
  split
  · simp [endLines]
  · rw [String.toList_append, hitems, endLines_cons]
    simp

/-- A front matter is its lines between two fences. -/
theorem toList_frontMatter (author : String) (procedure : Procedure) :
    (frontMatter author procedure).toList =
      endLines (fence :: (entryLines author procedure ++ [fence])) := by
  have hfence : "---\n".toList = endLines [fence] := rfl
  unfold frontMatter entryLines
  simp only [String.toList_append, toList_entry, toList_listEntry, hfence, ← endLines_append,
    List.append_assoc, List.cons_append, List.nil_append]

/-- Splitting finds lines that were ended. -/
theorem splitOn_endLines {lines : List (List Char)} (h : ∀ line ∈ lines, '\n' ∉ line)
    (rest : List Char) :
    Text.splitOn '\n' (endLines lines ++ rest) = lines ++ Text.splitOn '\n' rest := by
  induction lines with
  | nil => rfl
  | cons line lines ih =>
    have hline : '\n' ∉ line := h line List.mem_cons_self
    have hlines : ∀ other ∈ lines, '\n' ∉ other := fun other hother =>
      h other (List.mem_cons_of_mem _ hother)
    rw [endLines_cons, List.append_assoc, List.cons_append, Text.splitOn_append,
      Text.splitOn_of_not_mem hline, ih hlines]
    rfl

/-! ### What a line says -/

/-- A key: a single word, which a colon ends. -/
def IsKey (key : String) : Prop := key ≠ "" ∧ ∀ c ∈ key.toList, c ∉ [':', '\n', ' ']

instance (key : String) : Decidable (IsKey key) :=
  @instDecidableAnd _ _ _ (List.decidableBAll _ _)

/-- A line that begins with a key and a colon is read as an entry of this key. -/
theorem readLine?_key {key : String} (h : IsKey key) (rest : List Char) :
    readLine? (key.toList ++ ':' :: rest) = readBehind? key rest := by
  have hcolon : ':' ∉ key.toList := fun hmem => h.2 _ hmem (by decide)
  unfold readLine?
  split
  · next scalar hline =>
    -- A key starts with no blank.
    cases hkey : key.toList with
    | nil => exact absurd (String.toList_eq_nil_iff.1 hkey) h.1
    | cons c chars =>
      rw [hkey, List.cons_append, List.cons.injEq] at hline
      exact absurd (by rw [hline.1]; decide) (h.2 c (by rw [hkey]; exact List.mem_cons_self))
  · rw [Text.after?_append hcolon, Text.takeWhile_ne_append hcolon, String.ofList_toList]

/-- The line of a text is read back. -/
theorem readLine?_entryLine {key : String} (h : IsKey key) (text : String) :
    readLine? (entryLine key text) = some (.entry (.text key text)) := by
  have hline : entryLine key text = key.toList ++ ':' :: ' ' :: (quote text).toList := by
    simp [entryLine]
  rw [hline, readLine?_key h]
  have hquote := unquote?_quote text
  rw [toList_quote] at hquote ⊢
  rw [readBehind?, hquote]
  · rfl
  · simp

/-- The line of an item is read back. -/
theorem readLine?_itemOf (text : String) : readLine? (itemOf text) = some (.item text) := by
  have hline : itemOf text = ' ' :: ' ' :: '-' :: ' ' :: (quote text).toList := by
    simp [itemOf]
  rw [hline, readLine?, unquote?_quote]
  rfl

/-! ### What lines say -/

/-- Lines that are read as entries in front of any others. -/
def Says (lines : List (List Char)) (entries : List Entry) : Prop :=
  ∀ rest more, readLines? rest = some ([], more) →
    readLines? (lines ++ rest) = some ([], entries ++ more)

/-- Lines that say entries can be put in front of others that do. -/
theorem Says.append {lines lines' : List (List Char)} {entries entries' : List Entry}
    (h : Says lines entries) (h' : Says lines' entries') :
    Says (lines ++ lines') (entries ++ entries') := by
  intro rest more hrest
  rw [List.append_assoc, List.append_assoc]
  exact h _ _ (h' rest more hrest)

theorem says_entryLine (key : String) (h : IsKey key) (text : String) :
    Says [entryLine key text] [.text key text] := by
  intro rest more hrest
  rw [List.singleton_append, readLines?, readLine?_entryLine h, hrest]
  rfl

/-- Items are collected until a line that is none. -/
theorem readLines?_items (texts : List String) {rest : List (List Char)} {more : List Entry}
    (hrest : readLines? rest = some ([], more)) :
    readLines? (texts.map itemOf ++ rest) = some (texts, more) := by
  induction texts with
  | nil => exact hrest
  | cons text texts ih =>
    rw [List.map_cons, List.cons_append, readLines?, readLine?_itemOf, ih]

/-- The lines of a list say the list, an empty one included. -/
theorem says_listLines (key : String) (h : IsKey key) (texts : List String) :
    Says (listLines key texts) [.texts key texts] := by
  intro rest more hrest
  unfold listLines
  cases texts with
  | nil =>
    have hline : readLine? (key ++ ": []").toList = some (.entry (.texts key [])) := by
      rw [String.toList_append]
      exact readLine?_key h [' ', '[', ']']
    rw [List.isEmpty_nil, if_pos rfl, List.singleton_append, readLines?, hline, hrest]
    rfl
  | cons text texts =>
    have hline : readLine? (key ++ ":").toList = some (.heading key) := by
      rw [String.toList_append]
      exact readLine?_key h []
    rw [List.isEmpty_cons, if_neg Bool.false_ne_true, List.cons_append, readLines?, hline,
      readLines?_items _ hrest]
    rfl

/-- The entries of a front matter. -/
def entries (author : String) (procedure : Procedure) : List Entry := [
  .text "title" procedure.name,
  .text "description" procedure.description,
  .text "dbstatus" databaseStatus,
  .text "codestatus" codeStatus,
  .texts "returns" procedure.returns,
  .texts "params" procedure.parameters,
  .texts "refs" procedure.references,
  .text "createdby" author]

/-- The lines of a front matter say its entries, in their order. -/
theorem readLines?_entryLines (author : String) (procedure : Procedure) :
    readLines? (entryLines author procedure) = some ([], entries author procedure) := by
  have htitle := says_entryLine "title" (by decide) procedure.name
  have hdescription := says_entryLine "description" (by decide) procedure.description
  have hdatabase := says_entryLine "dbstatus" (by decide) databaseStatus
  have hcode := says_entryLine "codestatus" (by decide) codeStatus
  have hreturns := says_listLines "returns" (by decide) procedure.returns
  have hparams := says_listLines "params" (by decide) procedure.parameters
  have hrefs := says_listLines "refs" (by decide) procedure.references
  have hauthor := says_entryLine "createdby" (by decide) author
  have hall := (((htitle.append hdescription).append hdatabase).append hcode).append
    (hreturns.append (hparams.append (hrefs.append hauthor)))
  have hread := hall [] [] rfl
  rw [List.append_nil] at hread
  exact hread

/-! ### Where the front matter ends -/

/-- Lines that can be read hold no fence. -/
theorem fence_not_mem_of_readLines? {lines : List (List Char)} {found : List String × List Entry}
    (h : readLines? lines = some found) : fence ∉ lines := by
  induction lines generalizing found with
  | nil => exact List.not_mem_nil
  | cons line lines ih =>
    rw [readLines?] at h
    cases hlines : readLines? lines with
    | none => simp [hlines] at h
    | some found' =>
      rw [List.mem_cons, not_or]
      refine ⟨?_, ih hlines⟩
      rintro rfl
      have hfence : readLine? fence = none := rfl
      simp [hfence] at h

theorem newline_not_mem_entryLine {key : String} (h : IsKey key) (text : String) :
    '\n' ∉ entryLine key text := by
  have hkey : '\n' ∉ key.toList := fun hmem => h.2 _ hmem (by decide)
  simp [entryLine, hkey, newline_not_mem_quote]

theorem newline_not_mem_listLines {key : String} (h : IsKey key) (texts : List String) :
    ∀ line ∈ listLines key texts, '\n' ∉ line := by
  have hkey : '\n' ∉ key.toList := fun hmem => h.2 _ hmem (by decide)
  unfold listLines
  split
  · simp [hkey]
  · simp [hkey, itemOf, newline_not_mem_quote]

/-- No line of a front matter has a line break in it. -/
theorem newline_not_mem_entryLines (author : String) (procedure : Procedure) :
    ∀ line ∈ entryLines author procedure, '\n' ∉ line := by
  have htexts : ∀ line ∈ [entryLine "title" procedure.name,
      entryLine "description" procedure.description, entryLine "dbstatus" databaseStatus,
      entryLine "codestatus" codeStatus], '\n' ∉ line := by
    rw [List.forall_mem_cons, List.forall_mem_cons, List.forall_mem_cons, List.forall_mem_singleton]
    refine ⟨?_, ?_, ?_, ?_⟩
    all_goals exact newline_not_mem_entryLine (by decide) _
  have hauthor : ∀ line ∈ [entryLine "createdby" author], '\n' ∉ line :=
    List.forall_mem_singleton.2 (newline_not_mem_entryLine (by decide) author)
  unfold entryLines
  rw [List.forall_mem_append, List.forall_mem_append, List.forall_mem_append,
    List.forall_mem_append]
  exact ⟨htexts, newline_not_mem_listLines (by decide) _, newline_not_mem_listLines (by decide) _,
    newline_not_mem_listLines (by decide) _, hauthor⟩

/-- The lines of a text that starts with a front matter. -/
theorem splitOn_frontMatter (author : String) (procedure : Procedure) (rest : List Char) :
    Text.splitOn '\n' ((frontMatter author procedure).toList ++ rest) =
      fence :: (entryLines author procedure ++ fence :: Text.splitOn '\n' rest) := by
  have hlines : ∀ line ∈ fence :: (entryLines author procedure ++ [fence]), '\n' ∉ line := by
    have hfence : '\n' ∉ fence := by decide
    have hinner := newline_not_mem_entryLines author procedure
    intro line hline
    rw [List.mem_cons, List.mem_append, List.mem_singleton] at hline
    rcases hline with rfl | hline | rfl
    exacts [hfence, hinner line hline, hfence]
  rw [toList_frontMatter, splitOn_endLines hlines, List.cons_append, List.append_assoc,
    List.singleton_append]

theorem exists_page_eq (author : String) (procedure : Procedure) :
    ∃ rest, page author procedure = frontMatter author procedure ++ rest := by
  unfold page
  simp only [String.append_assoc]
  exact ⟨_, rfl⟩

/-- The front matter is what stands on a page before the second fence. -/
theorem exists_splitOn_page (author : String) (procedure : Procedure) :
    ∃ behind, Text.splitOn '\n' (page author procedure).toList =
      fence :: (entryLines author procedure ++ fence :: behind) := by
  obtain ⟨rest, hpage⟩ := exists_page_eq author procedure
  refine ⟨Text.splitOn '\n' rest.toList, ?_⟩
  rw [hpage, String.toList_append]
  exact splitOn_frontMatter author procedure rest.toList

/-- No line of a front matter looks like the fence, so the first fence behind it ends it. -/
theorem fence_not_mem_entryLines (author : String) (procedure : Procedure) :
    fence ∉ entryLines author procedure :=
  fence_not_mem_of_readLines? (readLines?_entryLines author procedure)

/-- The lines between the fences of a page are those of its front matter. -/
theorem frontMatterLines?_page (author : String) (procedure : Procedure) :
    frontMatterLines? (page author procedure) = some (entryLines author procedure) := by
  obtain ⟨behind, hsplit⟩ := exists_splitOn_page author procedure
  have hinner : ∀ line ∈ entryLines author procedure, (line != fence) = true := by
    intro line hline
    rw [bne_iff_ne]
    rintro rfl
    exact fence_not_mem_entryLines author procedure hline
  have htake : (entryLines author procedure ++ fence :: behind).takeWhile (· != fence) =
      entryLines author procedure := by
    rw [List.takeWhile_append_of_pos hinner]
    simp
  rw [frontMatterLines?, hsplit]
  simp only [true_and, List.mem_append, List.mem_cons, true_or, or_true, if_true, htake]

/-- The front matter of a page says what the record and the author say, and nothing else. -/
theorem readFrontMatter?_page (author : String) (procedure : Procedure) :
    readFrontMatter? (page author procedure) = some (entries author procedure) := by
  rw [readFrontMatter?, frontMatterLines?_page]
  simp only [readLines?_entryLines]

/-! ### What a page tells -/

/-- Behind the front matter only the body without its comments is new. -/
theorem page_eq_page_of_entries {a b : Procedure} {author author' : String}
    (h : entries author a = entries author' b) :
    page author a = page author' b ↔
      Sql.stripComments a.body.toList = Sql.stripComments b.body.toList := by
  simp only [entries, List.cons.injEq, Entry.text.injEq, Entry.texts.injEq, true_and,
    and_true] at h
  obtain ⟨hname, hdescription, hreturns, hparameters, hreferences, rfl⟩ := h
  unfold page frontMatter code
  rw [hname, hdescription, hreturns, hparameters, hreferences]
  simp only [String.append_assoc, String.append_right_inj, String.append_left_inj,
    String.ofList_inj]

/-- **A page tells its front matter without doubt.**  Two pages are the same only if the authors and all
texts of the records are, the bodies up to comments.  The first line of a page is a fence, and the next
fence ends the front matter, whatever its texts hold.  Read line by line, with the escapes of each quoted
scalar undone, it gives the texts back. -/
theorem page_unambiguous :
    (∀ (a b : Procedure) (author author' : String),
      (Format.markdown author).render a = (Format.markdown author').render b ↔
        (a.name = b.name ∧ a.description = b.description ∧ a.returns = b.returns ∧
          a.parameters = b.parameters ∧ a.references = b.references ∧ author = author') ∧
        Sql.stripComments a.body.toList = Sql.stripComments b.body.toList) ∧
    (∀ (author : String) (procedure : Procedure), ∃ inner behind,
      Text.splitOn '\n' ((Format.markdown author).render procedure).toList =
        fence :: (inner ++ fence :: behind) ∧
      fence ∉ inner ∧
      Text.splitOn '\n' (frontMatter author procedure).toList = fence :: (inner ++ [fence, []])) ∧
    (∀ (author : String) (procedure : Procedure),
      readFrontMatter? ((Format.markdown author).render procedure) =
        some (entries author procedure)) ∧
    ∀ text : String, unquote? (quote text).toList = some text := by
  refine ⟨?_, ?_, readFrontMatter?_page, unquote?_quote⟩
  · intro a b author author'
    have hentries : (a.name = b.name ∧ a.description = b.description ∧ a.returns = b.returns ∧
        a.parameters = b.parameters ∧ a.references = b.references ∧ author = author') ↔
          entries author a = entries author' b := by
      simp [entries]
    rw [hentries]
    constructor
    · intro hpage
      have hread := congrArg readFrontMatter? hpage
      have heq : entries author a = entries author' b := by
        rw [Format.render, Format.render, readFrontMatter?_page, readFrontMatter?_page] at hread
        exact Option.some.inj hread
      exact ⟨heq, (page_eq_page_of_entries heq).1 hpage⟩
    · rintro ⟨heq, hbody⟩
      exact (page_eq_page_of_entries heq).2 hbody
  · intro author procedure
    obtain ⟨behind, hsplit⟩ := exists_splitOn_page author procedure
    have hfront := splitOn_frontMatter author procedure []
    rw [List.append_nil] at hfront
    exact ⟨_, behind, hsplit, fence_not_mem_entryLines author procedure, hfront⟩

/-! ### Characters that cannot be printed -/

/-- The characters that a YAML text may hold. -/
def isPrintable (c : Char) : Bool :=
  let n := c.toNat
  n == 0x09 || n == 0x0a || n == 0x0d || (0x20 ≤ n && n ≤ 0x7e) || n == 0x85 ||
    (0xa0 ≤ n && n ≤ 0xd7ff) || (0xe000 ≤ n && n ≤ 0xfffd) || 0x10000 ≤ n

/-- The characters of a text that a YAML text may not hold. -/
def unprintable (text : String) : List Char := text.toList.filter (! isPrintable ·)

/-- The unprintable characters of a text are those of its parts. -/
theorem unprintable_append (front back : String) :
    unprintable (front ++ back) = unprintable front ++ unprintable back := by
  rw [unprintable, String.toList_append, List.filter_append]
  rfl

/-- What is escaped could be printed, and all else stays as it is. -/
theorem unprintable_quote (text : String) : unprintable (quote text) = unprintable text := by
  have hchar : ∀ c, (escapeChar c).filter (! isPrintable ·) = [c].filter (! isPrintable ·) := by
    intro c
    unfold escapeChar
    split
    · decide
    · decide
    · decide
    · decide
    · decide
    · rfl
  rw [unprintable, toList_quote, List.filter_cons_of_neg (by decide), List.filter_append]
  rw [show ['"'].filter (! isPrintable ·) = [] from rfl, List.append_nil, unprintable]
  induction text.toList with
  | nil => rfl
  | cons c text ih =>
    rw [List.flatMap_cons, List.filter_append, hchar, ih, ← List.filter_append]
    rfl

theorem unprintable_entry {key : String} (h : unprintable key = []) (text : String) :
    unprintable (entry key text) = unprintable text := by
  have hcolon : unprintable ": " = [] := by decide
  have hend : unprintable "\n" = [] := by decide
  simp only [entry, unprintable_append, unprintable_quote, h, hcolon, hend, List.nil_append,
    List.append_nil]

/-- A list adds no unprintable characters to those of its texts. -/
theorem unprintable_listEntry {key : String} (h : unprintable key = []) (texts : List String) :
    unprintable (listEntry key texts) = texts.flatMap unprintable := by
  have hitem : ∀ text, unprintable ("  - " ++ quote text ++ "\n") = unprintable text := by
    have hdash : unprintable "  - " = [] := by decide
    have hend : unprintable "\n" = [] := by decide
    intro text
    simp only [unprintable_append, unprintable_quote, hdash, hend, List.nil_append,
      List.append_nil]
  have hitems : unprintable (String.join (texts.map fun text => "  - " ++ quote text ++ "\n")) =
      texts.flatMap unprintable := by
    induction texts with
    | nil => rfl
    | cons text texts ih =>
      rw [List.map_cons, String.join_cons, unprintable_append, hitem, ih, List.flatMap_cons]
  have hempty : unprintable ": []\n" = [] := by decide
  have hcolon : unprintable ":\n" = [] := by decide
  unfold listEntry
  split
  · next htexts =>
    rw [unprintable_append, h, hempty, List.isEmpty_iff.1 htexts]
    rfl
  · simp only [unprintable_append, h, hcolon, hitems, List.nil_append]

/-- The texts of a record and its author in the order of the front matter. -/
def textsOf (author : String) (procedure : Procedure) : List String :=
  procedure.name :: procedure.description ::
    (procedure.returns ++ (procedure.parameters ++ (procedure.references ++ [author])))

/-- Quoting lets everything pass that cannot be printed. -/
theorem unprintable_frontMatter (author : String) (procedure : Procedure) :
    unprintable (frontMatter author procedure) = (textsOf author procedure).flatMap unprintable := by
  have hfence : unprintable "---\n" = [] := by decide
  have hdatabase : unprintable databaseStatus = [] := by decide
  have hcode : unprintable codeStatus = [] := by decide
  unfold frontMatter textsOf
  rw [unprintable_append, unprintable_append, unprintable_append, unprintable_append,
    unprintable_append, unprintable_append, unprintable_append, unprintable_append,
    unprintable_append, unprintable_entry (by decide), unprintable_entry (by decide),
    unprintable_entry (by decide), unprintable_entry (by decide), unprintable_entry (by decide),
    unprintable_listEntry (by decide), unprintable_listEntry (by decide),
    unprintable_listEntry (by decide), hfence, hdatabase, hcode]
  simp only [List.nil_append, List.append_nil, List.flatMap_cons, List.flatMap_append,
    List.flatMap_nil, List.append_assoc]

theorem unprintable_eq_nil_iff {text : String} :
    unprintable text = [] ↔ ∀ c ∈ text.toList, isPrintable c = true := by
  simp [unprintable, List.filter_eq_nil_iff]

/-- **A front matter can be printed exactly if its texts can.**  What cannot be printed passes from the
texts of the record and from the author into the front matter, all of it and in order, and comes from
nowhere else. -/
theorem frontMatter_printable (author : String) (procedure : Procedure) :
    unprintable (frontMatter author procedure) =
      (textsOf author procedure).flatMap unprintable ∧
    ((∀ c ∈ (frontMatter author procedure).toList, isPrintable c = true) ↔
      ∀ text ∈ textsOf author procedure, ∀ c ∈ text.toList, isPrintable c = true) := by
  refine ⟨unprintable_frontMatter author procedure, ?_⟩
  rw [← unprintable_eq_nil_iff, unprintable_frontMatter, List.flatMap_eq_nil_iff]
  simp only [unprintable_eq_nil_iff]

/-- A source whose description holds a control character, which JSON can spell. -/
def controlSource : String :=
  "-- banner\nCREATE PROCEDURE [dbo].[P]\n@a INT\nAS\n/* start docs\n" ++
    "\x7b\"description\": \"\\u0001\", \"returns\": []\x7d\nend docs */\nSELECT 1"

/-- A control character of a documentation block comes into the front matter as it is. -/
theorem frontMatter_control : ∃ procedure, Procedure.ofSource {} controlSource = .ok procedure ∧
    ∃ c ∈ (frontMatter "dbadmin" procedure).toList, isPrintable c = false := by
  have hread : (Procedure.ofSource {} controlSource).map (·.description) = .ok "\x01" := by
    decide +kernel
  cases hsource : Procedure.ofSource {} controlSource with
  | error fault => simp [hsource, Except.map] at hread
  | ok procedure =>
    rw [hsource, Except.map, Except.ok.injEq] at hread
    refine ⟨procedure, rfl, '\x01', ?_, by decide⟩
    have hmem : '\x01' ∈ unprintable (frontMatter "dbadmin" procedure) := by
      rw [unprintable_frontMatter, List.mem_flatMap]
      refine ⟨procedure.description, ?_, by rw [hread]; decide⟩
      simp [textsOf]
    exact (List.mem_filter.1 hmem).1

end ProcBook.Markdown
