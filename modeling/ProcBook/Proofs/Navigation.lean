/-
ProcBook/Proofs/Navigation.lean

Going from page to page in a site: where links lead, and what is found there.

A link is read in two steps.  `Html.unescape` undoes what the page needs, and `Link.target?` what links
need: it reads codes such as `%20` on the bytes of the link, as browsers do, and knows nothing of how
links are made.  The two together give the file of the record that a link was made for
(`map_target?_links_page`).

What is found there is the first record of the name (`exists_first`).  The pages are made from the names
of all records, and the panels from the first record of a name, by two searches that know nothing of
each other; that a later record of a name counts for neither is said by `sitePages_congr`.
-/
import ProcBook.Proofs.Links
import ProcBook.Proofs.Site
import ProcBook.Text.Digit

namespace ProcBook

/-! ### Reading links -/

namespace Link

/-- The byte that two hexadecimal digits stand for. -/
def codedByte? (high low : UInt8) : Option UInt8 :=
  match Text.hexDigit? (Char.ofUInt8 high), Text.hexDigit? (Char.ofUInt8 low) with
  | some h, some l => some (UInt8.ofNat (16 * h + l))
  | _, _ => none

/-- The bytes that the bytes of a link stand for: `%` with two digits behind it is a code, and all else
stands for itself. -/
def decodeCodes : List UInt8 → List UInt8
  | byte :: high :: low :: bytes =>
    match if byte = '%'.toUInt8 then codedByte? high low else none with
    | some decoded => decoded :: decodeCodes bytes
    | none => byte :: decodeCodes (high :: low :: bytes)
  | bytes => bytes

/-- The file that a link leads to, unless its bytes are no text. -/
def target? (href : String) : Option String :=
  (Text.decode (decodeCodes href.toUTF8.data.toList).toByteArray).toOption

theorem decodeCodes_cons {byte : UInt8} (h : byte ≠ '%'.toUInt8) (bytes : List UInt8) :
    decodeCodes (byte :: bytes) = byte :: decodeCodes bytes := by
  match bytes with
  | [] => rfl
  | [_] => rfl
  | high :: low :: bytes => rw [decodeCodes, if_neg h]

/-- Bytes without a percent sign stand for themselves. -/
theorem decodeCodes_append {front : List UInt8} (h : '%'.toUInt8 ∉ front) (bytes : List UInt8) :
    decodeCodes (front ++ bytes) = front ++ decodeCodes bytes := by
  induction front with
  | nil => rfl
  | cons byte front ih =>
    rw [List.mem_cons, not_or] at h
    rw [List.cons_append, decodeCodes_cons (Ne.symm h.1), ih h.2, List.cons_append]

/-- The sign of a code is no byte of any other character. -/
theorem not_mem_utf8EncodeChar {c : Char} (h : c ≠ '%') :
    '%'.toUInt8 ∉ String.utf8EncodeChar c := by
  have hbyte : ∀ n < 256, n ≠ 0x25 → '%'.toUInt8 ≠ UInt8.ofNat n := by
    intro n hn hne he
    apply hne
    have hvalue := congrArg UInt8.toNat he
    rw [UInt8.toNat_ofNat_of_lt' hn] at hvalue
    exact hvalue.symm
  fun_cases String.utf8EncodeChar c
  · next value hvalue =>
    rw [List.mem_singleton]
    apply hbyte value (by omega)
    intro hpercent
    exact h (Char.ext (UInt32.toNat_inj.1 hpercent))
  -- All bytes of a longer sequence are beyond those of single characters.
  all_goals
    simp only [List.mem_cons, List.not_mem_nil, or_false, not_or]
  · exact ⟨hbyte _ (by omega) (by omega), hbyte _ (by omega) (by omega)⟩
  · exact ⟨hbyte _ (by omega) (by omega), hbyte _ (by omega) (by omega),
      hbyte _ (by omega) (by omega)⟩
  · exact ⟨hbyte _ (by omega) (by omega), hbyte _ (by omega) (by omega),
      hbyte _ (by omega) (by omega), hbyte _ (by omega) (by omega)⟩

/-- One character is read back, and the reader goes on behind it. -/
theorem decodeCodes_hrefChar (c : Char) (bytes : List UInt8) :
    decodeCodes ((hrefChar c).flatMap String.utf8EncodeChar ++ bytes) =
      String.utf8EncodeChar c ++ decodeCodes bytes := by
  unfold hrefChar
  split
  · rfl
  · rfl
  · rfl
  · rfl
  · next hpercent _ _ _ =>
    rw [List.flatMap_singleton]
    exact decodeCodes_append (not_mem_utf8EncodeChar hpercent) bytes

/-- Decoding undoes the escaping of links: each character comes back as its UTF-8 bytes, and the
percent sign is itself escaped. -/
theorem decodeCodes_flatMap (text : List Char) :
    decodeCodes ((text.flatMap hrefChar).flatMap String.utf8EncodeChar) =
      text.flatMap String.utf8EncodeChar := by
  induction text with
  | nil => rfl
  | cons c text ih =>
    rw [List.flatMap_cons, List.flatMap_append, decodeCodes_hrefChar, ih, List.flatMap_cons]

/-- The link to the page of a record leads to its file, whatever the name. -/
theorem target?_pageHref (name : String) : target? (pageHref name) = some (pageFile name) := by
  have hbytes : (decodeCodes (pageHref name).toUTF8.data.toList).toByteArray =
      (pageFile name).toUTF8 := by
    rw [pageHref, String.toUTF8, String.toByteArray_ofList, List.utf8Encode,
      List.toList_data_toByteArray, decodeCodes_flatMap]
    exact String.utf8Encode_toList
  rw [target?, hbytes, Text.decode_toUTF8]
  rfl

end Link

/-! ### Where the links of a site lead -/

namespace Catalog

/-- Every page of a site is a page of the catalog. -/
theorem exists_selected_of_mem_sitePages {catalog : Catalog} {page : SitePage}
    (h : page ∈ catalog.sitePages) : ∃ selected, page.html = catalog.page .linked selected := by
  rw [sitePages_eq] at h
  rcases List.mem_cons.1 h with rfl | h
  · exact ⟨none, rfl⟩
  · obtain ⟨name, -, rfl⟩ := List.mem_map.1 h
    exact ⟨some name, rfl⟩

/-- The links of a page, read off its text and decoded, are the page files of the records with a page,
in the order of the list and whichever record is selected. -/
theorem map_target?_links_page (catalog : Catalog) (selected : Option String) :
    (Html.links (catalog.page .linked selected)).map (fun link => Link.target? (Html.unescape link)) =
      (catalog.records.filter fun record => isPageName record.name).map fun record =>
        some (pageFile record.name) := by
  rw [links_page, List.map_map]
  apply List.map_congr_left
  intro record _
  rw [Function.comp_apply, Html.unescape_escape, Link.target?_pageHref]

/-- The files of the pages behind the index are those of the records that can have a page. -/
theorem mem_tail_sitePages {catalog : Catalog} {file : String} :
    file ∈ catalog.sitePages.tail.map SitePage.file ↔
      ∃ record ∈ catalog.records, isPageName record.name = true ∧ pageFile record.name = file := by
  rw [sitePages_eq, List.tail_cons, map_file_recordPage, List.mem_map]
  constructor
  · rintro ⟨name, hname, rfl⟩
    obtain ⟨hvalid, record, hrecord, rfl⟩ := mem_pageNames.1 hname
    exact ⟨record, hrecord, hvalid, rfl⟩
  · rintro ⟨record, hrecord, hvalid, rfl⟩
    exact ⟨record.name, mem_pageNames.2 ⟨hvalid, record, hrecord, rfl⟩, rfl⟩

/-- **The links of a site lead to its pages.**  On every page the links lead, in order, to the files of
the records that can have a page, and the files they lead to are exactly those of the pages behind the
index: no link leads nowhere, and every record's page can be reached from every page. -/
theorem sitePages_links_resolve (browser : Browser) :
    ∀ page ∈ browser.catalog.sitePages,
      let targets := (Html.links page.html).map fun link => Link.target? (Html.unescape link)
      targets = (browser.records.filter fun record => isPageName record.name).map
        (fun record => some (pageFile record.name)) ∧
      ∀ file, some file ∈ targets ↔ file ∈ browser.catalog.sitePages.tail.map SitePage.file := by
  intro page hpage targets
  obtain ⟨selected, hselected⟩ := exists_selected_of_mem_sitePages hpage
  have htargets : targets = (browser.records.filter fun record => isPageName record.name).map
      fun record => some (pageFile record.name) := by
    show (Html.links page.html).map _ = _
    rw [hselected]
    exact browser.catalog.map_target?_links_page selected
  refine ⟨htargets, ?_⟩
  intro file
  rw [htargets, mem_tail_sitePages, List.mem_map]
  simp only [List.mem_filter, Option.some.injEq, and_assoc]
  rfl

/-- Names with a percent sign, a space, a quote and an ampersand: all are escaped in the page and come
back from it. -/
theorem sitePages_links_resolve_linkedCatalog :
    (Html.links (linkedCatalog.page .linked none)).map
        (fun link => Link.target? (Html.unescape link)) =
      [some "50% #1?.html", some "a\"b&c.html"] ∧
    "a\"b&c.html" ∈ linkedCatalog.sitePages.tail.map SitePage.file := by
  obtain ⟨htargets, hfiles⟩ :=
    sitePages_links_resolve ⟨linkedCatalog, some "p"⟩ _ List.mem_cons_self
  have hlinks := htargets.trans (show _ = [some "50% #1?.html", some "a\"b&c.html"] by decide)
  refine ⟨hlinks, (hfiles _).1 ?_⟩
  rw [hlinks]
  exact List.mem_cons_of_mem _ List.mem_cons_self

/-! ### What the pages of a site show -/

/-- A name that is the first of its records selects that record. -/
theorem panel_of_current? {catalog : Catalog} {selected : Option String} {record : Procedure}
    (h : catalog.current? selected = some record) : catalog.panel selected = .detail record := by
  cases catalog with
  | failed message =>
    -- A catalog that failed has no records, hence no current one.
    cases selected <;> cases h
  | loading => simp only [panel, h]
  | loaded records => simp only [panel, h]

/-- A name with a page is that of a record, and the first such record is the one shown. -/
theorem exists_first {catalog : Catalog} {name : String} (h : name ∈ catalog.pageNames) :
    ∃ before record after, catalog.records = before ++ record :: after ∧ record.name = name ∧
      (∀ other ∈ before, other.name ≠ name) ∧ catalog.panel (some name) = .detail record := by
  obtain ⟨-, any, hany, hname⟩ := mem_pageNames.1 h
  have hfound : (catalog.records.find? (·.name == name)).isSome = true :=
    List.find?_isSome.2 ⟨any, hany, beq_iff_eq.2 hname⟩
  obtain ⟨record, hrecord⟩ := Option.isSome_iff_exists.1 hfound
  obtain ⟨hrecordName, before, after, hrecords, hbefore⟩ := List.find?_eq_some_iff_append.1 hrecord
  refine ⟨before, record, after, hrecords, beq_iff_eq.1 hrecordName, ?_, panel_of_current? hrecord⟩
  intro other hother
  simpa using hbefore other hother

/-- A page follows from the names of the records and from the record that is shown. -/
theorem page_congr {records records' : List Procedure}
    (hnames : records.map Procedure.name = records'.map Procedure.name) {selected : Option String}
    (hcurrent : (loaded records).current? selected = (loaded records').current? selected)
    (sidebar : Sidebar) : (loaded records).page sidebar selected =
      (loaded records').page sidebar selected := by
  have hentries : records.map (sidebarEntry sidebar selected) =
      records'.map (sidebarEntry sidebar selected) := by
    have hname : sidebarEntry sidebar selected =
        (fun name => sidebarEntry sidebar selected { name }) ∘ Procedure.name := rfl
    rw [hname, ← List.map_map, ← List.map_map, hnames]
  have hpanel : (loaded records).panel selected = (loaded records').panel selected := by
    simp only [panel, hcurrent]
  simp only [page, renderSidebar, Catalog.records, hentries, hpanel]

/-- A site follows from the names of the records and from the first record of each name. -/
theorem sitePages_congr {records records' : List Procedure}
    (hnames : records.map Procedure.name = records'.map Procedure.name)
    (hfirst : ∀ name, records.find? (·.name == name) = records'.find? (·.name == name)) :
    (loaded records).sitePages = (loaded records').sitePages := by
  have hpageNames : (loaded records).pageNames = (loaded records').pageNames := by
    rw [pageNames_eq, pageNames_eq]
    show ((records.map Procedure.name).filter isPageName).eraseDups = _
    rw [hnames]
    rfl
  have hpage : (loaded records).recordPage = (loaded records').recordPage := by
    funext name
    have hcurrent : (loaded records).current? (some name) =
        (loaded records').current? (some name) := hfirst name
    rw [recordPage, recordPage, page_congr hnames hcurrent]
  rw [sitePages_eq, sitePages_eq, hpageNames, hpage, page_congr hnames rfl]

/-- Behind a record of its name a record is never the first. -/
theorem find?_behind {before after : List Procedure} {later other : Procedure}
    (hother : other.name = later.name) (hbefore : ∃ record ∈ before, record.name = later.name)
    (name : String) : (before ++ later :: after).find? (·.name == name) =
      (before ++ other :: after).find? (·.name == name) := by
  rw [List.find?_append, List.find?_append]
  by_cases hname : later.name = name
  · subst hname
    obtain ⟨record, hrecord, hname⟩ := hbefore
    have hfound : (before.find? (·.name == later.name)).isSome = true :=
      List.find?_isSome.2 ⟨record, hrecord, beq_iff_eq.2 hname⟩
    obtain ⟨first, hfirst⟩ := Option.isSome_iff_exists.1 hfound
    rw [hfirst]
    rfl
  · rw [List.find?_cons_of_neg (by simpa using hname),
      List.find?_cons_of_neg (by simpa [hother] using hname)]

/-- **Every page shows the first record of its name.**  A site starts with its index, which shows
nothing selected, and a catalog that is not loaded has no other page.  A loaded one has a page for each
name that can name one, in the order of first occurrence, and that page shows the first record of the
name.  What a later record of a name says makes no difference to any page, and neither does the name
selected in the browser. -/
theorem sitePages_show_first (browser : Browser) :
    ∃ pages, browser.catalog.sitePages =
        ⟨"index.html", browser.catalog.page .linked none⟩ :: pages ∧
      ((∀ records, browser.catalog ≠ .loaded records) → pages = []) ∧
      ∀ records, browser.catalog = .loaded records →
        pages.map SitePage.file =
          ((records.map Procedure.name).filter isPageName).eraseDups.map (· ++ ".html") ∧
        (∀ page ∈ pages, ∃ before record after,
          records = before ++ record :: after ∧ (∀ other ∈ before, other.name ≠ record.name) ∧
          page = ⟨record.name ++ ".html", browser.catalog.page .linked (some record.name)⟩ ∧
          browser.catalog.panel (some record.name) = .detail record ∧
          page.html = Html.opening record.name ++
            browser.catalog.renderSidebar .linked (some record.name) ++
            "<main>\n" ++ Html.detail record ++ "</main>\n" ++ Html.closing) ∧
        ∀ before later other after, records = before ++ later :: after →
          other.name = later.name → (∃ record ∈ before, record.name = later.name) →
          (Catalog.loaded (before ++ other :: after)).sitePages = browser.catalog.sitePages := by
  refine ⟨browser.catalog.pageNames.map browser.catalog.recordPage, rfl, ?_, ?_⟩
  · intro hnone
    cases hcatalog : browser.catalog with
    | loading => rfl
    | failed message => rfl
    | loaded records => exact absurd hcatalog (hnone records)
  · intro records hcatalog
    rw [hcatalog]
    refine ⟨?_, ?_, ?_⟩
    · rw [map_file_recordPage, pageNames_eq]
      rfl
    · intro page hpage
      obtain ⟨name, hname, rfl⟩ := List.mem_map.1 hpage
      obtain ⟨before, record, after, hrecords, rfl, hbefore, hpanel⟩ := exists_first hname
      refine ⟨before, record, after, hrecords, hbefore, rfl, hpanel, ?_⟩
      rw [recordPage, Catalog.page, hpanel]
      rfl
    · rintro before later other after rfl hother hbefore
      refine sitePages_congr ?_ (fun name => (find?_behind hother hbefore name).symm)
      rw [List.map_append, List.map_append, List.map_cons, List.map_cons, hother]

/-- A name that can name no page, and one that two records have. -/
def repeatedCatalog (second : String) : Catalog :=
  .loaded [{ name := "../p" }, { name := "p", description := "first" },
    { name := "p", description := second }]

/-- A repeated name shows the first of its records, whatever the later one describes. -/
theorem sitePages_show_first_repeatedCatalog :
    (repeatedCatalog "second").sitePages.map SitePage.file = ["index.html", "p.html"] ∧
    (∀ page ∈ (repeatedCatalog "second").sitePages.tail, ∃ record,
      page.file = record.name ++ ".html" ∧
        (repeatedCatalog "second").panel (some record.name) = .detail record) ∧
    (repeatedCatalog "third").sitePages = (repeatedCatalog "second").sitePages := by
  obtain ⟨pages, hpages, -, hloaded⟩ := sitePages_show_first ⟨repeatedCatalog "second", some "q"⟩
  obtain ⟨hfiles, hshow, hlater⟩ := hloaded _ rfl
  have hp : pages.map SitePage.file = ["p.html"] := hfiles.trans (by decide)
  refine ⟨?_, ?_, ?_⟩
  · rw [hpages, List.map_cons, hp]
  · intro page hpage
    rw [hpages, List.tail_cons] at hpage
    obtain ⟨-, record, -, -, -, rfl, hpanel, -⟩ := hshow page hpage
    exact ⟨record, rfl, hpanel⟩
  · exact hlater [{ name := "../p" }, { name := "p", description := "first" }] _
      { name := "p", description := "third" } [] rfl rfl
      ⟨_, List.mem_cons_of_mem _ List.mem_cons_self, rfl⟩

end Catalog

end ProcBook
