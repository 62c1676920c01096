/-
ProcBook/Proofs/RecordFiles.lean

What a catalog in a directory holds.

Record files are told by their names (`extension?_eq_json_iff`) and taken in the order of these names, so
the order in which a tree lists its entries is lost (`sortedNames_agrees`).  `HoldsRecord` and `Offends`
say of a file what makes it good or bad, from its bytes.  All files are read or none: the first bad one is
the failure of the whole catalog (`exists_first_of_readRecords`), and so is a directory whose names cannot
be read.  Main result: `load_directory`.
-/
import ProcBook.Proofs.Browsing
import ProcBook.Proofs.Catalog

namespace ProcBook.Catalog

/-! ### One file -/

/-- A file is the text of a record. -/
def HoldsRecord (tree : Tree) (path : Path) (record : Procedure) : Prop :=
  ∃ text : String, tree.read path = .ok text.toUTF8 ∧ Procedure.ofJson text = .ok record

/-- A file is no text, or not that of a record. -/
inductive Offends (tree : Tree) (path : Path) : Failure → Prop
  | noText {bytes : ByteArray} (hread : tree.read path = .ok bytes)
      (hbytes : ∀ text : String, bytes ≠ text.toUTF8) :
      Offends tree path ⟨"failed to read " ++ path, ["stream did not contain valid UTF-8"]⟩
  | noRecord {text : String} {error : Json.Error} (hread : tree.read path = .ok text.toUTF8)
      (hjson : Procedure.ofJson text = .error error) :
      Offends tree path ⟨"invalid record: " ++ path, [error.message]⟩

section

variable {tree other : Tree} {directory path : Path} {listed : List String}

/-- A record is read from a file exactly if the file is its text. -/
theorem readRecord_eq_ok_iff {record : Procedure} :
    readRecord tree path = .ok record ↔ HoldsRecord tree path record := by
  simp only [HoldsRecord, ← Tree.readText_eq_ok_iff]
  unfold readRecord
  cases tree.readText path with
  | error error => simp
  | ok text =>
    cases hjson : Procedure.ofJson text with
    | error error => simp [hjson]
    | ok procedure => simp [hjson]

/-- A file holds at most one record. -/
theorem HoldsRecord.unique {record record' : Procedure} (h : HoldsRecord tree path record)
    (h' : HoldsRecord tree path record') : record = record' :=
  Except.ok.inj ((readRecord_eq_ok_iff.2 h).symm.trans (readRecord_eq_ok_iff.2 h'))

/-- A file from which no record is read is a bad one, and the failure says why. -/
theorem offends_of_readRecord (hfile : tree.isFile path = true) {failure : Failure}
    (h : readRecord tree path = .error failure) : Offends tree path failure := by
  obtain ⟨bytes, hread⟩ := Tree.isFile_iff.1 hfile
  unfold readRecord at h
  cases hdecode : Text.decode bytes with
  | error fault =>
    have htext : tree.readText path = .error .notText := by
      simp only [Tree.readText, hread, hdecode]
    rw [htext] at h
    obtain rfl := Except.error.inj h
    refine .noText hread ?_
    intro text hbytes
    rw [Text.decode_eq_ok_iff.2 hbytes] at hdecode
    cases hdecode
  | ok text =>
    obtain rfl := Text.decode_eq_ok_iff.1 hdecode
    rw [Tree.readText_eq_ok_iff.2 hread] at h
    dsimp only at h
    split at h
    · next error hjson =>
      obtain rfl := Except.error.inj h
      exact .noRecord hread hjson
    · cases h

/-- A file that gives a failure holds no record. -/
theorem Offends.not_holdsRecord {failure : Failure} (h : Offends tree path failure) (record : Procedure) :
    ¬ HoldsRecord tree path record := by
  rintro ⟨text, hread, hrecord⟩
  cases h with
  | noText hbytes hno => exact hno text (Except.ok.inj (hbytes.symm.trans hread))
  | @noRecord other error hother hjson =>
    have htext : Text.decode other.toUTF8 = .ok text :=
      Text.decode_eq_ok_iff.2 (Except.ok.inj (hother.symm.trans hread))
    rw [Text.decode_toUTF8] at htext
    obtain rfl := Except.ok.inj htext
    rw [hrecord] at hjson
    cases hjson

theorem readRecord_agrees (h : tree.Agrees other) (path : Path) :
    readRecord tree path = readRecord other path := by
  rw [readRecord, readRecord, h.readText]

/-! ### Files one after the other -/

/-- Files are read to the end exactly if each is the text of its record. -/
theorem readRecords_eq_ok_iff {paths : List Path} {records : List Procedure} :
    readRecords tree paths = .ok records ↔ List.Forall₂ (HoldsRecord tree) paths records := by
  induction paths generalizing records with
  | nil => simp [readRecords, eq_comm]
  | cons path paths ih =>
    rw [List.forall₂_cons_left_iff, readRecords]
    simp only [← readRecord_eq_ok_iff, ← ih]
    cases readRecord tree path with
    | error failure => simp
    | ok record =>
      cases readRecords tree paths with
      | error failure => simp [Except.map]
      | ok records' => simp [Except.map, eq_comm]

/-- A list of files is read only when each of them holds a record. -/
theorem exists_record_of_readRecords {paths : List Path} {records : List Procedure}
    (h : readRecords tree paths = .ok records) :
    ∀ path ∈ paths, ∃ record, HoldsRecord tree path record := by
  have hboth := (readRecords_eq_ok_iff.1 h).imp fun path record hrecord =>
    And.intro (Exists.intro record hrecord) hrecord
  exact ((List.forall₂_and_left _ _).1 hboth).1

/-- Reading ends at the first bad file. -/
theorem exists_first_of_readRecords {paths : List Path} {failure : Failure}
    (h : readRecords tree paths = .error failure) :
    ∃ before path after, paths = before ++ path :: after ∧
      (∀ good ∈ before, ∃ record, HoldsRecord tree good record) ∧
      readRecord tree path = .error failure := by
  induction paths with
  | nil => cases h
  | cons path paths ih =>
    rw [readRecords] at h
    cases hfirst : readRecord tree path with
    | error failure' =>
      rw [hfirst] at h
      obtain rfl := Except.error.inj h
      exact ⟨[], path, paths, rfl, by simp, hfirst⟩
    | ok record =>
      rw [hfirst] at h
      cases hrest : readRecords tree paths with
      | ok records =>
        rw [hrest] at h
        cases h
      | error failure' =>
        rw [hrest] at h
        obtain rfl := Except.error.inj h
        obtain ⟨before, bad, after, rfl, hbefore, hbad⟩ := ih hrest
        refine ⟨path :: before, bad, after, rfl, ?_, hbad⟩
        intro good hgood
        rcases List.mem_cons.1 hgood with rfl | hgood
        · exact ⟨record, readRecord_eq_ok_iff.1 hfirst⟩
        · exact hbefore good hgood

theorem readRecords_agrees (h : tree.Agrees other) (paths : List Path) :
    readRecords tree paths = readRecords other paths := by
  induction paths with
  | nil => rfl
  | cons path paths ih => rw [readRecords, readRecords, readRecord_agrees h, ih]

/-! ### Which files are read -/

/-- A name has the extension of records if something stands before its last five characters, which spell
the extension. -/
theorem extension?_eq_json_iff {name : String} :
    Path.extension? name = some "json" ↔ ∃ stem, stem ≠ "" ∧ name = stem ++ ".json" := by
  constructor
  · intro h
    -- The last dot splits the name; something must stand on both its sides.
    have hsplit : name.toList.reverse.takeWhile (· != '.') ++ name.toList.reverse.dropWhile (· != '.') =
      name.toList.reverse := List.takeWhile_append_dropWhile
    have hdot := List.head?_dropWhile_not (· != '.') name.toList.reverse
    unfold Path.extension? at h
    dsimp only at h
    rcases hback : name.toList.reverse.dropWhile (· != '.') with - | ⟨c, - | ⟨d, rest⟩⟩
    · rw [hback] at h
      cases h
    · rw [hback] at h
      cases h
    · rw [hback] at h hsplit hdot
      obtain rfl : c = '.' := by simpa using hdot
      have hjson : (name.toList.reverse.takeWhile (· != '.')).reverse = "json".toList :=
        String.ofList_injective (Option.some.inj h)
      refine ⟨String.ofList (d :: rest).reverse, by simp, ?_⟩
      apply String.toList_inj.1
      rw [← List.reverse_reverse name.toList, ← hsplit, List.reverse_append, hjson]
      simp
  · rintro ⟨stem, hstem, rfl⟩
    have hname : stem ++ ".json" = Format.json.fileName stem := by
      rw [Format.fileName, String.append_assoc]
      rfl
    rw [hname]
    exact extension?_json hstem

theorem mem_sortedNames_iff {name : String} : name ∈ sortedNames tree directory listed ↔
    (∃ stem, stem ≠ "" ∧ name = stem ++ ".json") ∧ name ∈ listed ∧
      tree.isFile (directory.join name) = true := by
  rw [mem_sortedNames, extension?_eq_json_iff, and_left_comm]

/-- The order of names does not depend on that of the entries. -/
theorem sortedNames_agrees (hagrees : tree.Agrees other) {listed' : List String}
    (hlist : tree.list directory = .ok listed) (hlist' : other.list directory = .ok listed')
    (hsame : ∀ name, name ∈ listed ↔ name ∈ listed') :
    sortedNames tree directory listed = sortedNames other directory listed' := by
  apply (pairwise_sortedNames hlist).eq_of_mem_iff (pairwise_sortedNames hlist')
  intro name
  rw [mem_sortedNames_iff, mem_sortedNames_iff, hsame, hagrees.isFile]

/-- What a directory is read as depends on its listing as a set and on the files' bytes: the names are
sorted first, so the order of the entries has no say. -/
theorem readDirectory_agrees (hagrees : tree.Agrees other) (directory : Path) :
    readDirectory tree directory = readDirectory other directory := by
  cases hlist : tree.list directory with
  | error error =>
    rw [readDirectory_of_error hlist, readDirectory_of_error (hagrees.list_eq_error_iff.1 hlist)]
  | ok listed =>
    obtain ⟨listed', hlist', hsame⟩ := hagrees.list hlist
    rw [readDirectory_of_list hlist, readDirectory_of_list hlist', readRecords_agrees hagrees,
      sortedNames_agrees hagrees hlist hlist' hsame]

theorem read_directory (hdirectory : tree.isDirectory directory = true) :
    (CatalogSource.disk directory).read tree = readDirectory tree directory := by
  rw [CatalogSource.read, if_pos hdirectory]

/-- A directory with a bad record file fails as a catalog, for the first of its bad files. -/
theorem exists_first_of_readDirectory (hlist : tree.list directory = .ok listed) {failure : Failure}
    (h : readDirectory tree directory = .error failure) :
    ∃ before name after, sortedNames tree directory listed = before ++ name :: after ∧
      (∀ good ∈ before, ∃ record, HoldsRecord tree (directory.join good) record) ∧
      Offends tree (directory.join name) failure := by
  rw [readDirectory_of_list hlist] at h
  obtain ⟨before, path, after, hpaths, hbefore, hbad⟩ := exists_first_of_readRecords h
  obtain ⟨good, back, hnames, rfl, hback⟩ := List.map_eq_append_iff.1 hpaths
  obtain ⟨name, rest, rfl, rfl, rfl⟩ := List.map_eq_cons_iff.1 hback
  refine ⟨good, name, rest, hnames, ?_, ?_⟩
  · intro other hother
    exact hbefore _ (List.mem_map_of_mem hother)
  · have hname : name ∈ sortedNames tree directory listed :=
      hnames ▸ List.mem_append_right _ List.mem_cons_self
    exact offends_of_readRecord (mem_sortedNames_iff.1 hname).2.2 hbad

/-- Where every record file is good, all of them are read. -/
theorem exists_records_of_readDirectory (hlist : tree.list directory = .ok listed)
    (hgood : ∀ name ∈ sortedNames tree directory listed,
      ∃ record, HoldsRecord tree (directory.join name) record) :
    ∃ records, readDirectory tree directory = .ok records ∧
      List.Forall₂ (fun name => HoldsRecord tree (directory.join name))
        (sortedNames tree directory listed) records := by
  cases hread : readDirectory tree directory with
  | error failure =>
    obtain ⟨before, name, after, hnames, -, hoffends⟩ := exists_first_of_readDirectory hlist hread
    obtain ⟨record, hrecord⟩ := hgood name (hnames ▸ List.mem_append_right _ List.mem_cons_self)
    exact absurd hrecord (hoffends.not_holdsRecord record)
  | ok records =>
    refine ⟨records, rfl, ?_⟩
    rw [readDirectory_of_list hlist, readRecords_eq_ok_iff] at hread
    exact List.forall₂_map_left_iff.1 hread

/-- Where a record file is bad, none is read. -/
theorem exists_failure_of_readDirectory (hlist : tree.list directory = .ok listed) {name : String}
    (hname : name ∈ sortedNames tree directory listed)
    (hbad : ∀ record, ¬ HoldsRecord tree (directory.join name) record) :
    ∃ failure, readDirectory tree directory = .error failure := by
  cases hread : readDirectory tree directory with
  | error failure => exact ⟨failure, rfl⟩
  | ok records =>
    rw [readDirectory_of_list hlist] at hread
    obtain ⟨record, hrecord⟩ := exists_record_of_readRecords hread _ (List.mem_map_of_mem hname)
    exact absurd hrecord (hbad record)

end

/-- A catalog that cannot be read has no records, and its page shows the failure. -/
theorem shows_failure {tree : Tree} {source : CatalogSource} {failure : Failure}
    (h : source.read tree = .error failure) (selected : Option String) :
    let browser : Browser := ⟨source.load tree, selected⟩
    browser.records = [] ∧ Html.Shows browser.page (.failed failure.message) := by
  intro browser
  have hload : browser.catalog = .failed failure.message := by
    show source.load tree = _
    rw [CatalogSource.load, h]
  refine ⟨by rw [Browser.records, hload]; rfl, ?_⟩
  have hshows := browser.catalog.shows_page .plain browser.selected
  rw [hload] at hshows
  rw [Browser.page, hload]
  exact hshows

/-! ### Main result -/

/-- **A directory is loaded as a whole or not at all, in the order of its file names.**  Its record files
are the files in it whose names end in `.json` behind something.  If each of them is the text of a
record, these records are the catalog.  Otherwise the first bad file is the failure, and no records are
there to show but the failure.  So it is too where the names in the directory cannot be read.  In which
order the directory is listed does not matter. -/
theorem load_directory {tree : Tree} {directory : Path}
    (hdirectory : tree.isDirectory directory = true) :
    let source := CatalogSource.disk directory
    (∀ listed, tree.list directory = .ok listed → ∃ names : List String, names.Pairwise (· < ·) ∧
      (∀ name, name ∈ names ↔ (∃ stem, stem ≠ "" ∧ name = stem ++ ".json") ∧
        name ∈ listed ∧ tree.isFile (directory.join name) = true) ∧
      ((∀ name ∈ names, ∃ record, HoldsRecord tree (directory.join name) record) →
        ∃ records, source.read tree = .ok records ∧ source.load tree = .loaded records ∧
          List.Forall₂ (fun name => HoldsRecord tree (directory.join name)) names records) ∧
      ((∃ name ∈ names, ∀ record, ¬ HoldsRecord tree (directory.join name) record) →
        ∃ before name after failure, names = before ++ name :: after ∧
          (∀ good ∈ before, ∃ record, HoldsRecord tree (directory.join good) record) ∧
          Offends tree (directory.join name) failure ∧ source.read tree = .error failure ∧
          ∀ selected, let browser : Browser := ⟨source.load tree, selected⟩
            browser.records = [] ∧ Html.Shows browser.page (.failed failure.message))) ∧
    (∀ error, tree.list directory = .error error →
      let failure : Failure :=
        ⟨"failed to read catalog directory: " ++ directory, [error.message]⟩
      source.read tree = .error failure ∧
      ∀ selected, let browser : Browser := ⟨source.load tree, selected⟩
        browser.records = [] ∧ Html.Shows browser.page (.failed failure.message)) ∧
    ∀ other : Tree, tree.Agrees other → source.read other = source.read tree := by
  intro source
  have hsource : source.read tree = readDirectory tree directory := read_directory hdirectory
  refine ⟨?_, ?_, ?_⟩
  · intro listed hlist
    -- The names are read in order, so what is reported is the first that offends.
    refine ⟨sortedNames tree directory listed, pairwise_sortedNames hlist,
      fun name => mem_sortedNames_iff, ?_, ?_⟩
    · intro hgood
      obtain ⟨records, hread, hrecords⟩ := exists_records_of_readDirectory hlist hgood
      exact ⟨records, hsource.trans hread, by rw [CatalogSource.load, hsource, hread], hrecords⟩
    · rintro ⟨name, hname, hbad⟩
      obtain ⟨failure, hread⟩ := exists_failure_of_readDirectory hlist hname hbad
      obtain ⟨before, first, after, hnames, hbefore, hoffends⟩ :=
        exists_first_of_readDirectory hlist hread
      have hfailed := hsource.trans hread
      exact ⟨before, first, after, failure, hnames, hbefore, hoffends, hfailed, shows_failure hfailed⟩
  · intro error hlist failure
    have hfailed := hsource.trans (readDirectory_of_error hlist)
    exact ⟨hfailed, shows_failure hfailed⟩
  · intro other hagrees
    rw [hsource, readDirectory_agrees hagrees, read_directory]
    exact hagrees.isDirectory directory ▸ hdirectory

/-- Two record files, and beside them a file without a name, a directory and a file of another kind. -/
def sampleDirectory : Tree where
  entries := [
    (["d"], .directory),
    (["d", ".json"], .file "".toUTF8),
    (["d", "a.json"], .file "\x7b\"name\": \"a\"\x7d".toUTF8),
    (["d", "b.json"], .file "\x7b\"name\": \"b\"\x7d".toUTF8),
    (["d", "c.json"], .directory),
    (["d", "e.txt"], .file "".toUTF8)]
  home := ["d", "c.json"]

/-- A directory named from the root, and read as `..` from a directory below it whatever the order of
its entries.  Directories, names without a stem and other extensions are left out. -/
theorem load_directory_sampleDirectory :
    let other : Tree := { entries := sampleDirectory.entries.reverse, home := ["d", "c.json"] }
    (CatalogSource.disk "/d").read sampleDirectory = .ok [{ name := "a" }, { name := "b" }] ∧
    (CatalogSource.disk "..").read other = (CatalogSource.disk "..").read sampleDirectory := by
  intro other
  have hdirectory : sampleDirectory.isDirectory "/d" = true := by decide +kernel
  have hlist : sampleDirectory.list "/d" = .ok [".json", "a.json", "b.json", "c.json", "e.txt"] := by
    decide +kernel
  obtain ⟨names, hsorted, hnames, hgood, -⟩ := (load_directory hdirectory).1 _ hlist
  obtain rfl : names = ["a.json", "b.json"] := by
    apply hsorted.eq_of_mem_iff (by decide)
    intro name
    rw [hnames, ← mem_sortedNames_iff, sortedNames, List.mem_mergeSort]
    have hfilter : [".json", "a.json", "b.json", "c.json", "e.txt"].filter
        (isRecordFile sampleDirectory "/d") = ["a.json", "b.json"] := by decide +kernel
    rw [hfilter]
  have ha : HoldsRecord sampleDirectory "/d/a.json" { name := "a" } :=
    readRecord_eq_ok_iff.1 (by decide +kernel)
  have hb : HoldsRecord sampleDirectory "/d/b.json" { name := "b" } :=
    readRecord_eq_ok_iff.1 (by decide +kernel)
  obtain ⟨records, hread, -, hrecords⟩ := hgood (by
    simp only [List.forall_mem_cons, List.not_mem_nil, false_imp_iff, implies_true, and_true]
    exact ⟨⟨_, ha⟩, _, hb⟩)
  have hagrees : sampleDirectory.Agrees other := Tree.agrees_of_perm (List.reverse_perm _).symm rfl rfl
  refine ⟨?_, (load_directory (by decide +kernel)).2.2 other hagrees⟩
  obtain ⟨a, _, hfirst, htail, rfl⟩ := List.forall₂_cons_left_iff.1 hrecords
  obtain ⟨b, _, hsecond, hnil, rfl⟩ := List.forall₂_cons_left_iff.1 htail
  obtain rfl := List.forall₂_nil_left_iff.1 hnil
  rw [hread, ha.unique hfirst, hb.unique hsecond]

end ProcBook.Catalog
