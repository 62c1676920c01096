/-
ProcBook/Proofs/Catalog.lean

What a run writes as records, a catalog reads back.

A catalog lists the record files of a directory and reads them in the order of their names
(`recordFiles_of_list`).  In a directory without record files (`FreeOfRecords`) the ones that are there
after a run are its pages (`mem_sortedNames_of_follows`), and each holds the last procedure of its name
(`readRecord_page`).
-/
import ProcBook.Catalog.Source
import ProcBook.Proofs.JsonWriter
import ProcBook.Proofs.Listing
import ProcBook.Proofs.PathOrder
import ProcBook.Proofs.Run

namespace ProcBook

/-! ### Names in order -/

theorem isLE_compare_iff {a b : String} : (compare a b).isLE = true ↔ a ≤ b :=
  isLE_compareOfLessAndEq String.le_antisymm String.not_le String.le_total

/-- Sorting names that differ puts them in ascending order. -/
theorem pairwise_lt_mergeSort {names : List String} (h : names.Nodup) :
    (names.mergeSort fun a b => (compare a b).isLE).Pairwise (· < ·) := by
  have hsorted : (names.mergeSort fun a b => (compare a b).isLE).Pairwise
      fun a b => (compare a b).isLE = true := by
    apply List.pairwise_mergeSort
    · intro a b c hab hbc
      exact isLE_compare_iff.2
        (String.le_trans (isLE_compare_iff.1 hab) (isLE_compare_iff.1 hbc))
    · intro a b
      rw [Bool.or_eq_true, isLE_compare_iff, isLE_compare_iff]
      exact String.le_total a b
  -- The order has no ties between names that differ.
  have hnodup := (List.mergeSort_perm names fun a b => (compare a b).isLE).nodup_iff.2 h
  refine hsorted.imp₂ ?_ hnodup
  intro a b hle hne
  apply String.not_le.1
  intro hge
  exact hne (String.le_antisymm (isLE_compare_iff.1 hle) hge)

namespace Path

/-- A shared start of two paths does not decide their order, so files of one directory are ordered by
their names. -/
theorem compareComponents_append (front as bs : List Component) :
    compareComponents (front ++ as) (front ++ bs) = compareComponents as bs := by
  induction front with
  | nil => rfl
  | cons component front ih =>
    have hself : component.compare component = .eq := Std.ReflCmp.compare_self
    rw [List.cons_append, List.cons_append, compareComponents, hself, ih]
    rfl

/-- The entries of a directory come in the order of their names. -/
theorem le_join (directory : Path) {a b : String} (ha : IsName a) (hb : IsName b) :
    le (directory.join a) (directory.join b) = (compare a b).isLE := by
  rw [le, components_join directory ha, components_join directory hb, compareComponents_append]
  show ((compare a b).then .eq).isLE = _
  rw [Ordering.then_eq]

end Path

/-! ### Record files -/

namespace Catalog

/-- A record file has the extension the loader looks for.  A record without a name would be stored as
`.json`, which has none. -/
theorem extension?_json {name : String} (h : name ≠ "") :
    Path.extension? (Format.json.fileName name) = some "json" := by
  have hreverse : (Format.json.fileName name).toList.reverse =
      ['n', 'o', 's', 'j'] ++ '.' :: name.toList.reverse := by
    simp [Format.fileName, Format.extension]
  have hne : name.toList.reverse ≠ [] := by
    intro hnil
    exact h (String.toList_inj.1 (List.reverse_eq_nil_iff.1 hnil))
  unfold Path.extension?
  simp only [hreverse]
  rw [Text.dropWhile_ne_append (by decide), Text.takeWhile_ne_append (by decide)]
  -- A file name that starts with its only dot would have no extension.
  obtain ⟨c, rest, hrest⟩ := List.exists_cons_of_ne_nil hne
  rw [hrest]
  rfl

/-- A page in JSON holds its procedure. -/
theorem readRecord_page {tree : Tree} {page : Path} {procedure : Procedure}
    (h : tree.read page = .ok (Format.json.render procedure).toUTF8) :
    readRecord tree page = .ok procedure := by
  have htext : tree.readText page = .ok (procedure.toJson ++ "\n") := Tree.readText_eq_ok_iff.2 h
  have hspaces : Json.Spaces "\n".toList := by decide
  rw [readRecord, htext]
  simp only [Procedure.ofJson_toJson procedure "\n" hspaces]

/-- A file is read as a list of records. -/
theorem read_disk_of_read {tree : Tree} {path : Path} {text : String} {records : List Procedure}
    (h : tree.read path = .ok text.toUTF8) (hrecords : Procedure.catalogOfJson text = .ok records) :
    (CatalogSource.disk path).read tree = .ok records := by
  have hfile : tree.isDirectory path = false := by
    obtain ⟨-, hfind, -⟩ := Tree.read_eq_ok_iff.1 h
    rw [Bool.eq_false_iff]
    intro hdir
    rw [(Tree.isDirectory_iff.1 hdir).2] at hfind
    cases hfind
  rw [CatalogSource.read, hfile, readList, Tree.readText_eq_ok_iff.2 h]
  simp only [hrecords]
  rfl

/-- **Records are read back as they were written**: each from its own text, and any number of them
from the text of their list, also where that text stands in a catalog file. -/
theorem records_read_back :
    (∀ procedure, Procedure.ofJson (Format.json.render procedure) = .ok procedure) ∧
    ∀ procedures : List Procedure,
      let text := "[" ++ ",".intercalate (procedures.map Format.json.render) ++ "]"
      Procedure.catalogOfJson text = .ok procedures ∧
      ∀ (tree : Tree) (path : Path), tree.read path = .ok text.toUTF8 →
        (CatalogSource.disk path).read tree = .ok procedures := by
  have hspaces : Json.Spaces "\n".toList := by decide
  refine ⟨fun procedure => Procedure.ofJson_toJson procedure "\n" hspaces, ?_⟩
  intro procedures text
  have hlist : Procedure.catalogOfJson text = .ok procedures :=
    Procedure.catalogOfJson_intercalate procedures "\n" hspaces
  exact ⟨hlist, fun tree path hread => read_disk_of_read hread hlist⟩

/-- Two records, with a quotation mark, a control character and a character beyond the first plane. -/
def sampleRecords : List Procedure :=
  [{ name := "a\"\\", returns := ["\x01", "\n"] }, { name := "😀" }]

/-- Two records, one of them with characters that JSON escapes, in either spelling of the
list. -/
theorem records_read_back_sampleRecords :
    let text := "[" ++ ",".intercalate (sampleRecords.map Format.json.render) ++ "]"
    (CatalogSource.disk "c.json").read { entries := [(["c.json"], .file text.toUTF8)] } =
      .ok sampleRecords := by
  intro text
  let tree : Tree := { entries := [(["c.json"], .file text.toUTF8)] }
  have hread : tree.read "c.json" = .ok text.toUTF8 :=
    Tree.read_eq_ok_iff.2 ⟨⟨_, rfl, rfl⟩, rfl, rfl⟩
  exact (records_read_back.2 sampleRecords).2 tree "c.json" hread

/-- Files that each hold a record are read one after the other; `file` tells the file of a record. -/
theorem readRecords_map {tree : Tree} {place : String → Path} {file : Procedure → String}
    {P : Procedure → Prop} {names : List String}
    (h : ∀ name ∈ names, ∃ procedure, readRecord tree (place name) = .ok procedure ∧
      file procedure = name ∧ P procedure) :
    ∃ records, readRecords tree (names.map place) = .ok records ∧ records.map file = names ∧
      ∀ procedure ∈ records, P procedure := by
  induction names with
  | nil => exact ⟨[], rfl, rfl, by simp⟩
  | cons name names ih =>
    obtain ⟨procedure, hread, hfile, hprocedure⟩ := h name List.mem_cons_self
    obtain ⟨records, hrecords, hfiles, hall⟩ := ih (fun n hn => h n (List.mem_cons_of_mem _ hn))
    refine ⟨procedure :: records, ?_, ?_, ?_⟩
    · rw [List.map_cons, readRecords, hread]
      simp only [hrecords]
      rfl
    · rw [List.map_cons, hfile, hfiles]
    · intro other hother
      rcases List.mem_cons.1 hother with rfl | hother
      · exact hprocedure
      · exact hall other hother

/-- Those of the names in a directory that are names of record files, in order. -/
def sortedNames (tree : Tree) (directory : Path) (names : List String) : List String :=
  (names.filter (isRecordFile tree directory)).mergeSort fun a b => (compare a b).isLE

section

variable {tree : Tree} {directory : Path} {names : List String}

theorem mem_sortedNames {name : String} : name ∈ sortedNames tree directory names ↔
    name ∈ names ∧ Path.extension? name = some "json" ∧ tree.isFile (directory.join name) = true := by
  rw [sortedNames, List.mem_mergeSort, List.mem_filter, isRecordFile, Bool.and_eq_true, beq_iff_eq]

/-- No two record files of a directory have the same name. -/
theorem pairwise_sortedNames (hlist : tree.list directory = .ok names) :
    (sortedNames tree directory names).Pairwise (· < ·) :=
  pairwise_lt_mergeSort ((Tree.names_of_list hlist).1.filter _)

/-- The record files of a directory are in the order of their names. -/
theorem recordFiles_of_list (hlist : tree.list directory = .ok names) :
    recordFiles tree directory = .ok ((sortedNames tree directory names).map directory.join) := by
  rw [recordFiles, hlist, sortedNames, List.map_mergeSort]
  intro a ha b hb
  have hnames := (Tree.names_of_list hlist).2
  exact (Path.le_join directory (hnames a (List.mem_filter.1 ha).1)
    (hnames b (List.mem_filter.1 hb).1)).symm

theorem readDirectory_of_list (hlist : tree.list directory = .ok names) :
    readDirectory tree directory =
      readRecords tree ((sortedNames tree directory names).map directory.join) := by
  rw [readDirectory, recordFiles_of_list hlist]

/-- A directory whose names cannot be read has no records to read. -/
theorem readDirectory_of_error {error : FileError} (hlist : tree.list directory = .error error) :
    readDirectory tree directory =
      .error ⟨"failed to read catalog directory: " ++ directory, [error.message]⟩ := by
  rw [readDirectory, recordFiles, hlist]

/-- The record files of a directory are told by what can be read in it. -/
theorem mem_sortedNames_iff_read (hlist : tree.list directory = .ok names) {name : String} :
    name ∈ sortedNames tree directory names ↔ Path.extension? name = some "json" ∧
      Path.IsName name ∧ ∃ bytes, tree.read (directory.join name) = .ok bytes := by
  rw [mem_sortedNames, Tree.isFile_iff]
  constructor
  · rintro ⟨hname, hextension, hread⟩
    exact ⟨hextension, (Tree.names_of_list hlist).2 name hname, hread⟩
  · rintro ⟨hextension, hname, bytes, hread⟩
    refine ⟨?_, hextension, bytes, hread⟩
    -- What can be read stands in the directory, so its name is listed.
    obtain ⟨-, hfind, -⟩ := Tree.read_eq_ok_iff.1 hread
    obtain ⟨-, rfl⟩ := Tree.list_eq_ok hlist
    rw [Path.location_join tree directory hname] at hfind
    rw [Tree.mem_children_iff, hfind]
    rfl

end

/-- No record file stands in the place that a path denotes. -/
def FreeOfRecords (tree : Tree) (directory : Path) : Prop :=
  ∀ name bytes, Path.extension? name = some "json" →
    tree.find? (tree.location directory ++ [name]) ≠ some (.file bytes)

/-- Making directories makes no record file. -/
theorem FreeOfRecords.makeDirectories {tree later : Tree} {directory path : Path}
    (h : FreeOfRecords tree directory) (hmake : tree.makeDirectories path = (later, .ok ())) :
    FreeOfRecords later directory := by
  intro name bytes hextension hfind
  apply h name bytes hextension
  rw [(Tree.keeps_of_makeDirectories hmake).location, Tree.find?_makeDirectories hmake,
    Option.or_eq_some_iff] at hfind
  rcases hfind with hfind | ⟨-, hfind⟩
  · exact hfind
  · split at hfind <;> cases hfind

section

variable {plan : Plan} {start : Tree} {sources : List Path} {progress : Progress}
  {names : List String}

/-- In a directory that had no record files, those that are there after a run are its pages. -/
theorem mem_sortedNames_of_follows (h : progress.Follows plan start sources)
    (hformat : plan.format = .json) (hlist : progress.tree.list plan.output = .ok names)
    (hempty : FreeOfRecords start plan.output) {name : String} :
    name ∈ sortedNames progress.tree plan.output names ↔
      ∃ procedure ∈ plan.procedures start sources, name = plan.format.fileName procedure.name := by
  rw [mem_sortedNames_iff_read hlist]
  constructor
  · rintro ⟨hextension, hname, bytes, hread⟩
    obtain ⟨-, hfind, -⟩ := Tree.read_eq_ok_iff.1 hread
    rw [Path.location_join _ plan.output hname, h.none_lost.location] at hfind
    -- A file that is not a page would have been there at the start.
    by_contra hnone
    apply hempty name bytes hextension
    rw [← hfind, h.find?]
    intro page hpage hlocation
    obtain ⟨procedure, hmem, rfl⟩ := h.mem_written.1 hpage
    rw [Plan.location_page start (Plan.isPageName_of_mem hmem)] at hlocation
    exact hnone ⟨procedure, hmem, by simpa using hlocation⟩
  · rintro ⟨procedure, hmem, rfl⟩
    have hpage := Plan.isPageName_of_mem hmem
    obtain ⟨last, hlast⟩ := Procedure.exists_last? hmem
    refine ⟨?_, plan.format.isName_fileName hpage, _, h.read_page hlast⟩
    rw [hformat]
    apply extension?_json
    rintro hname
    rw [hname] at hpage
    cases hpage

/-- Each record file that is there after a run holds the last procedure of its name. -/
theorem readRecord_of_follows (h : progress.Follows plan start sources)
    (hformat : plan.format = .json) (hlist : progress.tree.list plan.output = .ok names)
    (hempty : FreeOfRecords start plan.output) {name : String}
    (hname : name ∈ sortedNames progress.tree plan.output names) :
    ∃ procedure, readRecord progress.tree (plan.output.join name) = .ok procedure ∧
      plan.format.fileName procedure.name = name ∧
      Procedure.last? (plan.procedures start sources) procedure.name = some procedure := by
  obtain ⟨procedure, hmem, rfl⟩ := (mem_sortedNames_of_follows h hformat hlist hempty).1 hname
  obtain ⟨last, hlast⟩ := Procedure.exists_last? hmem
  obtain ⟨-, hlastname⟩ := Procedure.last?_eq_some hlast
  have hpage := h.read_page hlast
  rw [hformat] at hpage
  refine ⟨last, readRecord_page hpage, ?_, ?_⟩
  · rw [hlastname]
  · rw [hlastname, hlast]

/-- The records that are there after a run: one for each file, in order, and each the last of its
name. -/
theorem readRecords_of_follows (h : progress.Follows plan start sources)
    (hformat : plan.format = .json) (hlist : progress.tree.list plan.output = .ok names)
    (hempty : FreeOfRecords start plan.output) :
    ∃ records, readDirectory progress.tree plan.output = .ok records ∧
      (records.map fun procedure => procedure.name ++ ".json").Pairwise (· < ·) ∧
      ∀ procedure, procedure ∈ records ↔
        Procedure.last? (plan.procedures start sources) procedure.name = some procedure := by
  have hfile : (fun procedure : Procedure => procedure.name ++ ".json") =
      fun procedure => plan.format.fileName procedure.name := by
    funext procedure
    rw [hformat, Format.fileName, String.append_assoc]
    rfl
  obtain ⟨records, hrecords, hfiles, hall⟩ :=
    readRecords_map fun name hname => readRecord_of_follows h hformat hlist hempty hname
  rw [readDirectory_of_list hlist, hfile]
  refine ⟨records, hrecords, ?_, ?_⟩
  · rw [hfiles]
    exact pairwise_sortedNames hlist
  · intro procedure
    refine ⟨hall procedure, ?_⟩
    intro hlast
    obtain ⟨hmem, -⟩ := Procedure.last?_eq_some hlast
    have hname : plan.format.fileName procedure.name ∈
        records.map fun procedure => plan.format.fileName procedure.name := by
      rw [hfiles, mem_sortedNames_of_follows h hformat hlist hempty]
      exact ⟨procedure, hmem, rfl⟩
    -- The record in the file of its name has that name, and is the last one of it too.
    obtain ⟨other, hother, hsame⟩ := List.mem_map.1 hname
    have := hall other hother
    rw [plan.format.fileName_injective hsame, hlast] at this
    exact Option.some.inj this ▸ hother

end

/-- In a catalog that holds the last procedure of each name, that is the one a name selects. -/
theorem find?_eq_last? {procedures records : List Procedure}
    (h : ∀ procedure, procedure ∈ records ↔
      Procedure.last? procedures procedure.name = some procedure) (name : String) :
    records.find? (·.name == name) = Procedure.last? procedures name := by
  cases hfind : records.find? (·.name == name) with
  | some procedure =>
    obtain rfl : procedure.name = name := by simpa using List.find?_some hfind
    exact ((h procedure).1 (List.mem_of_find?_eq_some hfind)).symm
  | none =>
    cases hlast : Procedure.last? procedures name with
    | none => rfl
    | some procedure =>
      obtain ⟨-, rfl⟩ := Procedure.last?_eq_some hlast
      have := List.find?_eq_none.1 hfind procedure ((h procedure).2 hlast)
      simp at this

end Catalog

/-! ### From a run to a catalog -/

/-- **A catalog reads back what a run has written.**  In a directory that had no record files the
catalog has the last procedure of each name, in the order of the files, and shows it when its name is
selected.  Only where the names in the directory cannot be read does the catalog fail, and says so. -/
theorem read_generate (plan : Plan) (tree : Tree) (sources : List Path) (summary : Summary)
    (hformat : plan.format = .json) (hne : plan.output ≠ "")
    (hinside : ∀ source ∈ sources, ∀ name,
      tree.location source ≠ tree.location plan.output ++ [name])
    (hempty : Catalog.FreeOfRecords tree plan.output)
    (hresult : (generate plan tree sources).result = .ok summary) :
    let later := (generate plan tree sources).tree
    let procedures := plan.procedures (tree.makeDirectories plan.output).1 sources
    (tree.unlisted.lookup (tree.location plan.output) = none →
      ∃ records, (CatalogSource.disk plan.output).read later = .ok records ∧
        (records.map fun procedure => procedure.name ++ ".json").Pairwise (· < ·) ∧
        (∀ procedure, procedure ∈ records ↔
          Procedure.last? procedures procedure.name = some procedure) ∧
        ∀ name, (Browser.select { catalog := (CatalogSource.disk plan.output).load later }
          name).current? = Procedure.last? procedures name) ∧
    ∀ error, tree.unlisted.lookup (tree.location plan.output) = some error →
      (CatalogSource.disk plan.output).read later =
        .error ⟨"failed to read catalog directory: " ++ plan.output, [error.message]⟩ := by
  obtain ⟨start, last, hmake, hsteps, rfl⟩ := generate_eq_ok hresult
  have hlater : (generate plan tree sources).tree = last.tree := by
    rw [generate_eq_ofSteps hmake, hsteps]
    rfl
  rw [hlater, hmake]
  intro later procedures
  have hkeeps := Tree.keeps_of_makeDirectories hmake
  -- Pages stand in the output directory and sources do not, so no source is written over.
  have hfollows : last.Follows plan start sources := by
    have hpages := Progress.exists_page_of_steps hsteps (by simp)
    have := (Progress.follows_nil plan start).steps hsteps
    rw [List.nil_append] at this
    apply this
    intro source hsource page hpage
    obtain ⟨name, hname, rfl⟩ := hpages page hpage
    rw [Plan.location_page start hname, hkeeps.location, hkeeps.location]
    exact hinside source hsource _
  have hdirectory : last.tree.isDirectory plan.output = true :=
    hfollows.none_lost.isDirectory (Tree.isDirectory_makeDirectories hne hmake)
  have hlist := Tree.list_of_isDirectory hdirectory
  rw [(hkeeps.trans hfollows.none_lost).unlisted, (hkeeps.trans hfollows.none_lost).location] at hlist
  have hread : (CatalogSource.disk plan.output).read last.tree =
      Catalog.readDirectory last.tree plan.output := by
    rw [CatalogSource.read, if_pos hdirectory]
  constructor
  · intro hlisted
    rw [hlisted] at hlist
    obtain ⟨records, hrecords, hsorted, hmem⟩ := Catalog.readRecords_of_follows hfollows hformat
      hlist (hempty.makeDirectories hmake)
    refine ⟨records, hread.trans hrecords, hsorted, hmem, ?_⟩
    intro name
    show (Catalog.current? (CatalogSource.load last.tree (.disk plan.output)) (some name)) = _
    rw [CatalogSource.load, hread, hrecords]
    exact Catalog.find?_eq_last? hmem name
  · intro error hunlisted
    rw [hunlisted] at hlist
    exact hread.trans (Catalog.readDirectory_of_error hlist)

/-- A run over three sources, one of them twice, followed by a load of its output. -/
theorem read_generate_sampleTree :
    let later := (generate samplePlan sampleTree ["a", "b", "a"]).tree
    let procedures := samplePlan.procedures (sampleTree.makeDirectories "out").1 ["a", "b", "a"]
    ∃ records, (CatalogSource.disk "out").read later = .ok records ∧
      (records.map fun procedure => procedure.name ++ ".json").Pairwise (· < ·) ∧
      (∀ procedure, procedure ∈ records ↔
        Procedure.last? procedures procedure.name = some procedure) ∧
      ∀ name, (Browser.select { catalog := (CatalogSource.disk "out").load later }
        name).current? = Procedure.last? procedures name := by
  have hinside : ∀ source ∈ ["a", "b", "a"], ∀ name,
      sampleTree.location source ≠ sampleTree.location "out" ++ [name] := by
    intro source hsource name heq
    have hlength : ∀ source ∈ ["a", "b", "a"], (sampleTree.location source).length = 1 := by decide
    have := hlength source hsource
    rw [heq] at this
    cases this
  have hempty : Catalog.FreeOfRecords sampleTree "out" := by
    intro name bytes _ hfind
    cases hfind
  exact (read_generate samplePlan sampleTree _ _ rfl (by decide) hinside hempty
    generate_sampleTree).1 rfl

/-- A path may not lead anywhere at first and yet denote a directory with a record in it: the
directory on its way is made, and the record is read with those of the run.  A directory may also take
pages without showing its names, and then none of them is read. -/
theorem read_generate_stale :
    let tree : Tree := {
      entries := [
        (["b"], .directory),
        (["b", "x.json"], .file "\x7b\"name\": \"x\"\x7d".toUTF8)] }
    let plan : Plan := ⟨"a/../b", .json, {}, .skip⟩
    let hidden : Tree := {
      entries := (["out"], .directory) :: sampleTree.entries
      unlisted := [(["out"], .denied)] }
    (tree.node plan.output = .error .notFound ∧
      (generate plan tree []).result = .ok ⟨[], []⟩ ∧
      (CatalogSource.disk plan.output).read (generate plan tree []).tree =
        .ok [{ name := "x" }]) ∧
    (generate samplePlan hidden ["a"]).result = .ok ⟨["out/p.json"], []⟩ ∧
      (CatalogSource.disk "out").read (generate samplePlan hidden ["a"]).tree =
        .error ⟨"failed to read catalog directory: out", ["Permission denied (os error 13)"]⟩ :=
  ⟨⟨by decide +kernel, by decide +kernel, by decide +kernel⟩, by decide +kernel, by decide +kernel⟩

end ProcBook
