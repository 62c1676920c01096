/-
ProcBook/Proofs/Site.lean

The files of a site and what they hold once the site has been written.

A site has an index and a page for each name in `pageNames`, which are the names that can name a page,
each once (`pageNames_eq`).  Pages of different names have different files, so the only two pages that
can share a file are the index and that of a record named `index` (`nodup_files_iff`).  Pages are
written in order, so of pages with the same file the last one stays (`read_writePages`), and that is
never the index if a record's page has its file (`last?_pageFile`).
-/
import ProcBook.Command.Run
import ProcBook.Proofs.Run

namespace ProcBook

/-! ### The files of a site -/

theorem pageFile_eq (name : String) : pageFile name = Format.html.fileName name := by
  rw [pageFile, Format.fileName, String.append_assoc]
  rfl

theorem pageFile_index : pageFile "index" = "index.html" := by decide

/-- Two names never share a page, so only `index` can collide with the first page. -/
theorem pageFile_injective : Function.Injective pageFile := by
  intro a b h
  rw [pageFile_eq, pageFile_eq] at h
  exact Format.html.fileName_injective h

namespace Catalog

/-- The names that get a page behind those in `seen`. -/
theorem placements_page (seen : List String) (records : List Procedure) :
    ((placements seen records).filter (·.2 == .page)).map (·.1) =
      ((records.map Procedure.name).filter fun name =>
        isPageName name && !seen.contains name).eraseDups := by
  induction records generalizing seen with
  | nil => rfl
  | cons procedure records ih =>
    rw [placements, List.map_cons]
    by_cases hvalid : isPageName procedure.name = true
    · by_cases hseen : procedure.name ∈ seen
      · rw [List.filter_cons_of_neg (by simp [hseen]), ← ih]
        simp [hvalid, hseen]
      · -- The name is new, and from here on it counts as seen.
        rw [List.filter_cons_of_pos (by simp [hvalid, hseen]), List.eraseDups_cons,
          List.filter_filter]
        have hrest : (records.map Procedure.name).filter (fun name =>
            !name == procedure.name && (isPageName name && !seen.contains name)) =
              (records.map Procedure.name).filter fun name =>
                isPageName name && !(procedure.name :: seen).contains name := by
          apply List.filter_congr
          intro name _
          rw [List.contains_cons, Bool.not_or, Bool.and_left_comm]
        rw [hrest, ← ih]
        simp [hvalid, hseen]
    · rw [List.filter_cons_of_neg (by simp [hvalid]), ← ih]
      simp [hvalid]

/-- The names with a page are the names that can name one, each at its first occurrence. -/
theorem pageNames_eq (catalog : Catalog) :
    catalog.pageNames = ((catalog.records.map Procedure.name).filter isPageName).eraseDups := by
  rw [pageNames, placements_page]
  simp

theorem nodup_pageNames (catalog : Catalog) : catalog.pageNames.Nodup := by
  rw [pageNames_eq]
  exact nodup_eraseDups _

theorem mem_pageNames {catalog : Catalog} {name : String} : name ∈ catalog.pageNames ↔
    isPageName name = true ∧ ∃ record ∈ catalog.records, record.name = name := by
  rw [pageNames_eq, List.mem_eraseDups, List.mem_filter, List.mem_map, and_comm]

/-- The page of a record. -/
def recordPage (catalog : Catalog) (name : String) : SitePage :=
  ⟨pageFile name, catalog.page .linked (some name)⟩

theorem sitePages_eq (catalog : Catalog) : catalog.sitePages =
    ⟨"index.html", catalog.page .linked none⟩ :: catalog.pageNames.map catalog.recordPage := rfl

theorem map_file_recordPage (catalog : Catalog) (names : List String) :
    (names.map catalog.recordPage).map SitePage.file = names.map pageFile := by
  rw [List.map_map]
  rfl

/-- Every file of a site is an entry of a directory, and no special one. -/
theorem isName_of_mem_sitePages {catalog : Catalog} {page : SitePage}
    (h : page ∈ catalog.sitePages) : Path.IsName page.file := by
  rw [sitePages_eq] at h
  rcases List.mem_cons.1 h with rfl | h
  · show Path.IsName "index.html"
    decide
  · obtain ⟨name, hname, rfl⟩ := List.mem_map.1 h
    show Path.IsName (pageFile name)
    rw [pageFile_eq]
    exact Format.html.isName_fileName (mem_pageNames.1 hname).1

/-- A record called `index` is not excluded: it gets a page of its own. -/
theorem index_mem_pageNames {catalog : Catalog} :
    "index" ∈ catalog.pageNames ↔ ∃ record ∈ catalog.records, record.name = "index" := by
  have hindex : isPageName "index" = true := by decide
  rw [mem_pageNames, hindex]
  simp

/-- The file names of a site are distinct exactly when no record takes the index page's. -/
theorem nodup_files_iff (catalog : Catalog) : (catalog.sitePages.map SitePage.file).Nodup ↔
    ∀ record ∈ catalog.records, record.name ≠ "index" := by
  have hpages : (catalog.pageNames.map pageFile).Nodup :=
    catalog.nodup_pageNames.map pageFile_injective
  rw [sitePages_eq, List.map_cons, map_file_recordPage, List.nodup_cons, ← pageFile_index,
    List.mem_map_of_injective pageFile_injective, index_mem_pageNames]
  simp only [hpages, and_true, not_exists, not_and, ne_eq]

end Catalog

/-! ### Writing pages one after the other -/

namespace SitePage

/-- The last page of a file. -/
def last? (pages : List SitePage) (file : String) : Option SitePage :=
  pages.reverse.find? (·.file == file)

/-- A later page of the same name wins, as the later write does. -/
theorem last?_cons (page : SitePage) (pages : List SitePage) (file : String) :
    last? (page :: pages) file =
      (last? pages file).or (if page.file = file then some page else none) := by
  rw [last?, List.reverse_cons, List.find?_append, List.find?_singleton]
  simp only [last?, beq_iff_eq]

theorem last?_eq_some {pages : List SitePage} {file : String} {page : SitePage}
    (h : last? pages file = some page) : page ∈ pages ∧ page.file = file := by
  refine ⟨List.mem_reverse.1 (List.mem_of_find?_eq_some h), ?_⟩
  simpa using List.find?_some h

theorem last?_eq_none {pages : List SitePage} {file : String} (h : last? pages file = none) :
    ∀ page ∈ pages, page.file ≠ file := by
  intro page hpage
  simpa using List.find?_eq_none.1 h page (List.mem_reverse.2 hpage)

/-- Where files differ, every page is the last one of its file. -/
theorem last?_of_nodup {pages : List SitePage} (h : (pages.map SitePage.file).Nodup)
    {page : SitePage} (hpage : page ∈ pages) : last? pages page.file = some page := by
  cases hlast : last? pages page.file with
  | none => exact absurd rfl (last?_eq_none hlast page hpage)
  | some other =>
    obtain ⟨hother, hfile⟩ := last?_eq_some hlast
    rw [List.inj_on_of_nodup_map h hother hpage hfile]

end SitePage

namespace Catalog

/-- The page of a record is the last one of its file. -/
theorem last?_pageFile {catalog : Catalog} {name : String} (h : name ∈ catalog.pageNames) :
    SitePage.last? catalog.sitePages (pageFile name) = some (catalog.recordPage name) := by
  have hnodup : ((catalog.pageNames.map catalog.recordPage).map SitePage.file).Nodup := by
    rw [map_file_recordPage]
    exact catalog.nodup_pageNames.map pageFile_injective
  have hlast := SitePage.last?_of_nodup hnodup (List.mem_map_of_mem (f := catalog.recordPage) h)
  -- The index comes first, so it is never the last one of a file that a record has.
  rw [sitePages_eq, SitePage.last?_cons]
  exact Option.or_eq_some_iff.2 (.inl hlast)

end Catalog

namespace ViewCommand

variable {directory : Path}

/-- A write of several pages succeeds when its first page is written and the others are written on what
that left. -/
theorem writePages_cons_eq_none {tree later : Tree} {page : SitePage} {pages : List SitePage} :
    writePages directory tree (page :: pages) = (later, none) ↔
      ∃ next, tree.writeText (directory.join page.file) page.html = .ok next ∧
        writePages directory next pages = (later, none) := by
  rw [writePages]
  cases tree.writeText (directory.join page.file) page.html with
  | error error => simp
  | ok next => simp

/-- A file of a directory that no page is written to stays as it is. -/
theorem read_writePages_of_ne {tree later : Tree} {pages : List SitePage}
    (hnames : ∀ page ∈ pages, Path.IsName page.file)
    (h : writePages directory tree pages = (later, none)) {file : String} {bytes : ByteArray}
    (hfile : Path.IsName file) (hne : ∀ page ∈ pages, page.file ≠ file)
    (hread : tree.read (directory.join file) = .ok bytes) :
    later.read (directory.join file) = .ok bytes := by
  induction pages generalizing tree with
  | nil =>
    obtain ⟨rfl, -⟩ := Prod.mk.inj h
    exact hread
  | cons page pages ih =>
    obtain ⟨next, hwrite, hrest⟩ := writePages_cons_eq_none.1 h
    have hapart : tree.location (directory.join file) ≠ tree.location (directory.join page.file) := by
      rw [Path.location_join tree directory hfile,
        Path.location_join tree directory (hnames page List.mem_cons_self)]
      intro heq
      exact hne page List.mem_cons_self (by simpa using heq.symm)
    exact ih (fun p hp => hnames p (List.mem_cons_of_mem _ hp)) hrest
      (fun p hp => hne p (List.mem_cons_of_mem _ hp)) (Tree.read_write_of_ne hwrite hapart hread)

/-- After pages were written, every file holds the last page that was meant for it. -/
theorem read_writePages {tree later : Tree} {pages : List SitePage}
    (hnames : ∀ page ∈ pages, Path.IsName page.file)
    (h : writePages directory tree pages = (later, none)) {file : String} {page : SitePage}
    (hlast : SitePage.last? pages file = some page) :
    later.read (directory.join file) = .ok page.html.toUTF8 := by
  induction pages generalizing tree with
  | nil => cases hlast
  | cons first pages ih =>
    obtain ⟨next, hwrite, hrest⟩ := writePages_cons_eq_none.1 h
    have hnames' : ∀ page ∈ pages, Path.IsName page.file :=
      fun p hp => hnames p (List.mem_cons_of_mem _ hp)
    rw [SitePage.last?_cons, Option.or_eq_some_iff] at hlast
    rcases hlast with hlast | ⟨hnone, hfirst⟩
    · exact ih hnames' hrest hlast
    · -- No later page has the file of the first one, which therefore stays.
      split at hfirst
      · next hfile =>
        subst hfile
        obtain rfl := Option.some.inj hfirst
        exact read_writePages_of_ne hnames' hrest (hnames first List.mem_cons_self)
          (SitePage.last?_eq_none hnone) (Tree.read_write_self hwrite)
      · cases hfirst

/-- A site that was written without a failure has its directory and all of its pages. -/
theorem runSite_eq_none {catalog : Catalog} {tree : Tree}
    (h : (runSite catalog directory tree).failure = none) :
    ∃ start, tree.makeDirectories directory = (start, .ok ()) ∧
      writePages directory start catalog.sitePages =
        ((runSite catalog directory tree).tree, none) := by
  unfold runSite at h ⊢
  rcases hmake : tree.makeDirectories directory with ⟨start, error | ⟨⟩⟩
  · rw [hmake] at h
    cases h
  · rw [hmake] at h
    simp only at h ⊢
    rcases hpages : writePages directory start catalog.sitePages with ⟨later, - | failure⟩
    · exact ⟨start, rfl, hpages⟩
    · rw [hpages] at h
      cases h

/-- **What a written site holds.**  Its files differ exactly if no record is named `index`.  Every page
but the index stands in its own file, and the index shows nothing selected unless a record is named
`index`, whose page has then taken its place. -/
theorem runSite_pages (catalog : Catalog) :
    ((catalog.sitePages.map SitePage.file).Nodup ↔
      ∀ record ∈ catalog.records, record.name ≠ "index") ∧
    ∀ (directory : Path) (tree : Tree), (runSite catalog directory tree).failure = none →
      let later := (runSite catalog directory tree).tree
      (∀ page ∈ catalog.sitePages, page.file ≠ "index.html" →
        later.read (directory.join page.file) = .ok page.html.toUTF8) ∧
      ((∀ record ∈ catalog.records, record.name ≠ "index") →
        later.read (directory.join "index.html") = .ok (catalog.page .linked none).toUTF8) ∧
      ((∃ record ∈ catalog.records, record.name = "index") →
        later.read (directory.join "index.html") =
          .ok (catalog.page .linked (some "index")).toUTF8) := by
  refine ⟨catalog.nodup_files_iff, ?_⟩
  intro directory tree h later
  obtain ⟨start, -, hpages⟩ := runSite_eq_none h
  have hread : ∀ file page, SitePage.last? catalog.sitePages file = some page →
      later.read (directory.join file) = .ok page.html.toUTF8 :=
    fun file page => read_writePages (fun _ => Catalog.isName_of_mem_sitePages) hpages
  refine ⟨?_, ?_, ?_⟩
  · intro page hpage hfile
    rw [Catalog.sitePages_eq] at hpage
    rcases List.mem_cons.1 hpage with rfl | hpage
    · exact absurd rfl hfile
    · obtain ⟨name, hname, rfl⟩ := List.mem_map.1 hpage
      exact hread _ _ (Catalog.last?_pageFile hname)
  · intro hnone
    exact hread "index.html" ⟨"index.html", catalog.page .linked none⟩
      (SitePage.last?_of_nodup (catalog.nodup_files_iff.2 hnone) List.mem_cons_self)
  · intro hsome
    rw [← pageFile_index]
    exact hread _ _ (Catalog.last?_pageFile (Catalog.index_mem_pageNames.2 hsome))

/-- A catalog with a record of every kind: one whose page is its own, the same name once more, and one
that cannot name a page. -/
def sampleCatalog : Catalog := .loaded [{ name := "p" }, { name := "p" }, { name := "../p" }]

/-- One record, written below a directory that is not there before. -/
theorem runSite_pages_sampleCatalog :
    (runSite sampleCatalog "out" {}).failure = none ∧
    (runSite sampleCatalog "out" {}).tree.read "out/index.html" =
      .ok (sampleCatalog.page .linked none).toUTF8 ∧
    (runSite sampleCatalog "out" {}).tree.read "out/p.html" =
      .ok (sampleCatalog.page .linked (some "p")).toUTF8 := by
  have hrun : (runSite sampleCatalog "out" {}).failure = none := by decide +kernel
  obtain ⟨hpages, hindex, -⟩ := (runSite_pages sampleCatalog).2 "out" {} hrun
  have hname : "p" ∈ sampleCatalog.pageNames := by decide
  refine ⟨hrun, hindex (by decide), ?_⟩
  exact hpages _ (List.mem_cons_of_mem _ (List.mem_map_of_mem hname)) (by decide)

/-- The page of a record named `index` takes the place of the index. -/
theorem runSite_index :
    let catalog : Catalog := .loaded [{ name := "index" }]
    let later := (runSite catalog "out" {}).tree
    (runSite catalog "out" {}).failure = none ∧
      ¬ (catalog.sitePages.map SitePage.file).Nodup ∧
      later.read "out/index.html" ≠ .ok (catalog.page .linked none).toUTF8 := by
  refine ⟨by decide +kernel, by decide, by decide +kernel⟩

end ViewCommand

end ProcBook
