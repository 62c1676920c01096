/-
ProcBook/Proofs/Run.lean

What a run over sources leaves behind.

`Treats` lists what a single step can do, and everything about runs follows from it.  `Follows` is the
invariant of a run that passes over bad sources: after the sources in `done`, what the run has collected
and what stands in its tree are functions of the procedures in those sources.  It is kept where a source
is passed over (`Follows.pass`) and where one is documented (`Follows.document`).  A source has to be
readable as it was at the start for this, so no page may be written over a source that is still to be
read.
-/
import Mathlib.Data.List.Find
import ProcBook.Generation.Run
import ProcBook.Proofs.Directories
import ProcBook.Proofs.Repetition

namespace ProcBook

/-! ### Pages and procedures -/

/-- The page of a procedure. -/
def Plan.page (plan : Plan) (name : String) : Path := plan.output.join (plan.format.fileName name)

/-- The procedure in a source, if the source can be read and holds one. -/
def Plan.procedure? (plan : Plan) (tree : Tree) (source : Path) : Option Procedure :=
  match tree.read source with
  | .error _ => none
  | .ok bytes => (Procedure.ofBytes plan.options bytes).toOption

/-- The procedures in sources, in order. -/
def Plan.procedures (plan : Plan) (tree : Tree) (sources : List Path) : List Procedure :=
  sources.filterMap (plan.procedure? tree)

/-- The last procedure of a name. -/
def Procedure.last? (procedures : List Procedure) (name : String) : Option Procedure :=
  procedures.reverse.find? (·.name == name)

/-- The page that stands at a place of a tree after procedures were documented.  The last one of a name
counts. -/
def Plan.pageAt? (plan : Plan) (tree : Tree) (procedures : List Procedure) (location : Location) :
    Option Node :=
  (procedures.reverse.find? fun procedure =>
    tree.location (plan.page procedure.name) == location).map
      fun procedure => .file (plan.format.render procedure).toUTF8

/-- Whether an event reports a name that an earlier source has used. -/
def Event.isRepetition (event : Event) : Bool :=
  event.message == "duplicate procedure name, later file overwrites"

/-- The last procedure of a name is one of the procedures, and has that name. -/
theorem Procedure.last?_eq_some {procedures : List Procedure} {name : String}
    {procedure : Procedure} (h : Procedure.last? procedures name = some procedure) :
    procedure ∈ procedures ∧ procedure.name = name := by
  refine ⟨List.mem_reverse.1 (List.mem_of_find?_eq_some h), ?_⟩
  simpa using List.find?_some h

/-- Every name that occurs has a last procedure. -/
theorem Procedure.exists_last? {procedures : List Procedure} {procedure : Procedure}
    (h : procedure ∈ procedures) :
    ∃ last, Procedure.last? procedures procedure.name = some last := by
  rw [← Option.isSome_iff_exists, Procedure.last?, List.find?_isSome]
  exact ⟨procedure, List.mem_reverse.2 h, BEq.rfl⟩

/-- The check of the name is the last thing done to a header. -/
theorem Sql.isPageName_of_header {cut : Sql.HeaderCut} {header : Sql.Header}
    (h : cut.header = .ok header) : isPageName header.name = true := by
  unfold Sql.HeaderCut.header at h
  split at h
  · cases h
  · split at h
    · cases h
    · next hname =>
      obtain rfl := Except.ok.inj h
      simpa using hname

/-- A document that can be read has a name that can name a page. -/
theorem Procedure.isPageName_of_ofSource {options : SourceOptions} {source : String}
    {procedure : Procedure} (h : Procedure.ofSource options source = .ok procedure) :
    isPageName procedure.name = true := by
  obtain ⟨cut, header, docs, -, hheader, -, rfl⟩ := Sql.readDocument_eq_ok h
  exact Sql.isPageName_of_header hheader

theorem Procedure.isPageName_of_ofBytes {options : SourceOptions} {bytes : ByteArray}
    {procedure : Procedure} (h : Procedure.ofBytes options bytes = .ok procedure) :
    isPageName procedure.name = true := by
  unfold Procedure.ofBytes at h
  split at h
  · cases h
  · split at h
    · cases h
    · next procedure' hsource =>
      obtain rfl := Except.ok.inj h
      exact Procedure.isPageName_of_ofSource hsource

namespace Format

/-- Pages of different names are different files. -/
theorem fileName_injective (format : Format) {a b : String}
    (h : format.fileName a = format.fileName b) : a = b := by
  have := congrArg String.toList h
  simp only [fileName, String.toList_append, List.append_assoc] at this
  exact String.toList_inj.1 (List.append_cancel_right this)

/-- The file of a page is an entry of a directory, and no special one. -/
theorem isName_fileName (format : Format) {name : String} (h : isPageName name = true) :
    Path.IsName (format.fileName name) := by
  have hlist : (format.fileName name).toList =
      name.toList ++ '.' :: format.extension.toList := by
    simp [fileName]
  have hextension : 2 ≤ format.extension.toList.length ∧ '/' ∉ format.extension.toList := by
    have hall : ∀ extension ∈ ["md", "html", "json"],
        2 ≤ extension.toList.length ∧ '/' ∉ extension.toList := by decide
    apply hall
    cases format <;> simp [Format.extension]
  have hlength : 2 < (format.fileName name).toList.length := by
    rw [hlist, List.length_append, List.length_cons]
    omega
  have hslash : '/' ∉ name.toList := not_mem_of_isPageName h (by decide)
  -- The special names are too short to end with a dot and an extension.
  have hne : ∀ special ∈ ["", ".", ".."], format.fileName name ≠ special := by
    intro special hspecial he
    have hshort : ∀ special ∈ ["", ".", ".."], special.toList.length ≤ 2 := by decide
    have := hshort special hspecial
    rw [← he] at this
    omega
  refine ⟨hne "" (by simp), hne "." (by simp), hne ".." (by simp), ?_⟩
  rw [hlist]
  simp [hslash, hextension.2]

end Format

namespace Plan

variable {plan : Plan}

/-- A page stands in the output directory under the file name of its format. -/
theorem location_page (tree : Tree) {name : String} (h : isPageName name = true) :
    tree.location (plan.page name) = tree.location plan.output ++ [plan.format.fileName name] :=
  Path.location_join tree plan.output (plan.format.isName_fileName h)

/-- Pages of different names stand at different places. -/
theorem location_page_inj {tree : Tree} {a b : String} (ha : isPageName a = true)
    (hb : isPageName b = true) :
    tree.location (plan.page a) = tree.location (plan.page b) ↔ a = b := by
  rw [location_page tree ha, location_page tree hb]
  constructor
  · intro h
    apply plan.format.fileName_injective
    simpa using h
  · rintro rfl
    rfl

theorem page_inj {a b : String} (ha : isPageName a = true) (hb : isPageName b = true) :
    plan.page a = plan.page b ↔ a = b := by
  constructor
  · intro h
    exact (location_page_inj ha hb).1 (congrArg (Tree.location {}) h)
  · rintro rfl
    rfl

theorem procedure?_of_read {tree : Tree} {source : Path} {bytes : ByteArray}
    (h : tree.read source = .ok bytes) :
    plan.procedure? tree source = (Procedure.ofBytes plan.options bytes).toOption := by
  rw [procedure?, h]

/-- A procedure that a source holds has a name for a page. -/
theorem isPageName_of_mem {tree : Tree} {sources : List Path} {procedure : Procedure}
    (h : procedure ∈ plan.procedures tree sources) : isPageName procedure.name = true := by
  obtain ⟨source, -, hsource⟩ := List.mem_filterMap.1 h
  unfold procedure? at hsource
  split at hsource
  · cases hsource
  · next bytes _ =>
    cases hb : Procedure.ofBytes plan.options bytes with
    | error rejection => simp [hb, Except.toOption] at hsource
    | ok procedure' =>
      obtain rfl : procedure' = procedure := by simpa [hb, Except.toOption] using hsource
      exact Procedure.isPageName_of_ofBytes hb

/-- A further source without a procedure adds none. -/
theorem procedures_append_none {tree : Tree} {sources : List Path} {source : Path}
    (h : plan.procedure? tree source = none) :
    plan.procedures tree (sources ++ [source]) = plan.procedures tree sources := by
  simp [procedures, List.filterMap_append, h]

/-- A further source with a procedure adds it behind the others. -/
theorem procedures_append_some {tree : Tree} {sources : List Path} {source : Path}
    {procedure : Procedure} (h : plan.procedure? tree source = some procedure) :
    plan.procedures tree (sources ++ [source]) = plan.procedures tree sources ++ [procedure] := by
  simp [procedures, List.filterMap_append, h]

/-- A further procedure decides the page at its place. -/
theorem pageAt?_append (tree : Tree) (procedures : List Procedure) (procedure : Procedure)
    (location : Location) : plan.pageAt? tree (procedures ++ [procedure]) location =
      if location = tree.location (plan.page procedure.name) then
        some (.file (plan.format.render procedure).toUTF8)
      else plan.pageAt? tree procedures location := by
  rw [pageAt?, List.reverse_append]
  by_cases hl : location = tree.location (plan.page procedure.name)
  · simp [hl]
  · have hne : (tree.location (plan.page procedure.name) == location) = false := by
      simpa using fun he => hl he.symm
    rw [if_neg hl, pageAt?]
    simp [hne]

end Plan

/-! ### One step -/

namespace Progress

/-- What a step without a failure does: the source is passed over, or its page is written. -/
inductive Treats (plan : Plan) (progress : Progress) (source : Path) (next : Progress) : Prop
  | passed {bytes : ByteArray} {rejection : Rejection} :
      progress.tree.read source = .ok bytes →
      Procedure.ofBytes plan.options bytes = .error rejection → plan.policy = .skip →
      next.tree = progress.tree → next.written = progress.written →
      next.skipped = progress.skipped ++ [source] → next.sources = progress.sources →
      next.events.countP Event.isRepetition = progress.events.countP Event.isRepetition →
      Treats plan progress source next
  | documented {bytes : ByteArray} {procedure : Procedure} :
      progress.tree.read source = .ok bytes →
      Procedure.ofBytes plan.options bytes = .ok procedure →
      progress.tree.writeText (plan.page procedure.name) (plan.format.render procedure) =
        .ok next.tree →
      (next.written = if plan.page procedure.name ∈ progress.written then progress.written
        else progress.written ++ [plan.page procedure.name]) →
      next.skipped = progress.skipped →
      next.sources = (procedure.name, source) :: progress.sources.filter (·.1 != procedure.name) →
      next.events.countP Event.isRepetition = progress.events.countP Event.isRepetition +
        (if (progress.sources.lookup procedure.name).isSome then 1 else 0) →
      Treats plan progress source next

/-- Claiming a name changes the sources of names, and reports a name that was claimed before. -/
theorem claim_fields (progress : Progress) (name : String) (source : Path) :
    (progress.claim name source).tree = progress.tree ∧
    (progress.claim name source).written = progress.written ∧
    (progress.claim name source).skipped = progress.skipped ∧
    (progress.claim name source).sources =
      (name, source) :: progress.sources.filter (·.1 != name) ∧
    (progress.claim name source).events.countP Event.isRepetition =
      progress.events.countP Event.isRepetition +
        (if (progress.sources.lookup name).isSome then 1 else 0) := by
  unfold claim
  split
  · next hnone => simp [hnone]
  · next previous hsome =>
    refine ⟨rfl, rfl, rfl, rfl, ?_⟩
    simp [note, hsome, List.countP_append, Event.isRepetition]

/-- A source that can be read but holds no procedure is left to the policy. -/
theorem step_of_error {plan : Plan} {progress : Progress} {source : Path} {bytes : ByteArray}
    {rejection : Rejection} (hread : progress.tree.read source = .ok bytes)
    (hbytes : Procedure.ofBytes plan.options bytes = .error rejection) :
    progress.step plan source = progress.reject plan.policy source rejection := by
  rw [step, hread]
  simp only [hbytes]

/-- A source with a procedure is documented under either policy. -/
theorem step_of_ok {plan : Plan} {progress : Progress} {source : Path} {bytes : ByteArray}
    {procedure : Procedure} (hread : progress.tree.read source = .ok bytes)
    (hbytes : Procedure.ofBytes plan.options bytes = .ok procedure) :
    progress.step plan source = progress.document plan source procedure := by
  rw [step, hread]
  simp only [hbytes]

/-- There is nothing that a step without a failure can do but what `Treats` lists. -/
theorem treats_of_step {plan : Plan} {progress next : Progress} {source : Path}
    (h : progress.step plan source = (next, none)) : Treats plan progress source next := by
  unfold step at h
  split at h
  · -- A source that cannot be read is a failure under either policy.
    cases (Prod.mk.inj h).2
  · next bytes hread =>
    split at h
    · next rejection hbytes =>
      unfold reject at h
      split at h
      · cases (Prod.mk.inj h).2
      · next hpolicy =>
        obtain ⟨rfl, -⟩ := Prod.mk.inj h
        refine .passed hread hbytes hpolicy rfl rfl rfl rfl ?_
        simp [note, List.countP_append, Event.isRepetition]
    · next procedure hbytes =>
      -- The name is claimed before the page is written, which leaves the tree as it is.
      obtain ⟨htree, hwritten, hskipped, hsources, hevents⟩ :=
        progress.claim_fields procedure.name source
      unfold document at h
      simp only at h
      split at h
      · cases (Prod.mk.inj h).2
      · next tree hwrite =>
        obtain ⟨rfl, -⟩ := Prod.mk.inj h
        rw [htree] at hwrite
        refine .documented hread hbytes hwrite ?_ hskipped hsources ?_
        · show (if (progress.claim procedure.name source).written.contains
            (plan.page procedure.name) = true then _ else _) = _
          rw [hwritten]
          simp only [List.contains_iff_mem]
          rfl
        · simp only [note, List.countP_append, hevents]
          simp [Event.isRepetition]

/-! ### The invariant of a run -/

/-- How far a run has come after the sources in `done`, where `start` is the tree that it began with.
The last source of a name decides its page.  Directories are neither lost nor made. -/
structure Follows (plan : Plan) (start : Tree) (done : List Path) (progress : Progress) : Prop where
  skipped : progress.skipped = done.filter fun source => (plan.procedure? start source).isNone
  written : progress.written =
    ((plan.procedures start done).map Procedure.name).eraseDups.map plan.page
  sources : ∀ name, name ∈ progress.sources.map Prod.fst ↔
    name ∈ (plan.procedures start done).map Procedure.name
  count : done.length = progress.skipped.length + progress.written.length +
    progress.events.countP Event.isRepetition
  pages : ∀ procedure ∈ plan.procedures start done, progress.tree.Reaches (plan.page procedure.name) ∧
    Path.endsWithSlash (plan.page procedure.name) = false
  none_lost : start.Keeps progress.tree
  none_made : progress.tree.Keeps start
  places : ∀ location, progress.tree.find? location =
    (plan.pageAt? start (plan.procedures start done) location).or (start.find? location)

/-- The invariant holds before the first source. -/
theorem follows_nil (plan : Plan) (start : Tree) : Follows plan start [] { tree := start } where
  skipped := rfl
  written := rfl
  sources := by simp [Plan.procedures]
  count := rfl
  pages := by simp [Plan.procedures]
  none_lost := .refl start
  none_made := .refl start
  places := fun _ => rfl

section

variable {plan : Plan} {start : Tree} {done : List Path} {progress next : Progress} {source : Path}

/-- The pages that have been written are those of the procedures met so far. -/
theorem Follows.mem_written (h : Follows plan start done progress) {page : Path} :
    page ∈ progress.written ↔
      ∃ procedure ∈ plan.procedures start done, page = plan.page procedure.name := by
  rw [h.written]
  simp only [List.mem_map, List.mem_eraseDups]
  constructor
  · rintro ⟨name, ⟨procedure, hmem, rfl⟩, rfl⟩
    exact ⟨procedure, hmem, rfl⟩
  · rintro ⟨procedure, hmem, rfl⟩
    exact ⟨procedure.name, ⟨procedure, hmem, rfl⟩, rfl⟩

/-- At a place that no page stands on everything is as it was. -/
theorem Follows.find? (h : Follows plan start done progress) {location : Location}
    (hlocation : ∀ page ∈ progress.written, location ≠ start.location page) :
    progress.tree.find? location = start.find? location := by
  have hnone : plan.pageAt? start (plan.procedures start done) location = none := by
    rw [Plan.pageAt?, Option.map_eq_none_iff, List.find?_eq_none]
    intro procedure hmem heq
    apply hlocation (plan.page procedure.name)
    · exact h.mem_written.2 ⟨procedure, List.mem_reverse.1 hmem, rfl⟩
    · exact (beq_iff_eq.1 heq).symm
  rw [h.places, hnone]
  rfl

/-- A source that no page stands on is still as it was. -/
theorem Follows.read (h : Follows plan start done progress) {bytes : ByteArray}
    (hsource : ∀ page ∈ progress.written, start.location source ≠ start.location page)
    (hread : progress.tree.read source = .ok bytes) : start.read source = .ok bytes := by
  obtain ⟨hreaches, hfind, hslash⟩ := Tree.read_eq_ok_iff.1 hread
  refine Tree.read_eq_ok_iff.2 ⟨h.none_made.reaches hreaches, ?_, hslash⟩
  rw [← h.find? hsource, ← h.none_lost.location]
  exact hfind

/-- The last procedure of a name is the one on the name's page. -/
theorem Follows.read_page (h : Follows plan start done progress) {name : String}
    {procedure : Procedure}
    (hlast : Procedure.last? (plan.procedures start done) name = some procedure) :
    progress.tree.read (plan.page name) = .ok (plan.format.render procedure).toUTF8 := by
  obtain ⟨hmem, rfl⟩ := Procedure.last?_eq_some hlast
  have hname := Plan.isPageName_of_mem hmem
  obtain ⟨hreaches, hslash⟩ := h.pages procedure hmem
  refine Tree.read_eq_ok_iff.2 ⟨hreaches, ?_, hslash⟩
  -- Pages at the same place are pages of the same name.
  have hpage : (plan.procedures start done).reverse.find? (fun other =>
      start.location (plan.page other.name) == start.location (plan.page procedure.name)) =
        some procedure := by
    rw [← hlast]
    apply List.find?_congr
    intro other hother
    have hother := Plan.isPageName_of_mem (List.mem_reverse.1 hother)
    rw [Bool.eq_iff_iff, beq_iff_eq, beq_iff_eq]
    exact Plan.location_page_inj hother hname
  rw [h.none_lost.location, h.places, Plan.pageAt?, hpage]
  rfl

/-- What a source held when it was read is what it held at the start. -/
theorem Follows.procedure? (h : Follows plan start done progress) {bytes : ByteArray}
    (hsource : ∀ page ∈ progress.written, start.location source ≠ start.location page)
    (hread : progress.tree.read source = .ok bytes) :
    plan.procedure? start source = (Procedure.ofBytes plan.options bytes).toOption :=
  Plan.procedure?_of_read (h.read hsource hread)

/-! ### One more source -/

/-- A source without a procedure only adds to the sources passed over. -/
theorem Follows.pass (h : Follows plan start done progress)
    (hnone : plan.procedure? start source = none) (htree : next.tree = progress.tree)
    (hwritten : next.written = progress.written)
    (hskipped : next.skipped = progress.skipped ++ [source])
    (hsources : next.sources = progress.sources)
    (hevents : next.events.countP Event.isRepetition = progress.events.countP Event.isRepetition) :
    Follows plan start (done ++ [source]) next where
  skipped := by
    rw [hskipped, h.skipped, List.filter_append]
    simp [hnone]
  written := by rw [hwritten, h.written, Plan.procedures_append_none hnone]
  sources := by
    rw [hsources, Plan.procedures_append_none hnone]
    exact h.sources
  count := by
    have := h.count
    rw [hskipped, hwritten, hevents, List.length_append, List.length_append]
    simp only [List.length_singleton]
    omega
  pages := by
    rw [htree, Plan.procedures_append_none hnone]
    exact h.pages
  none_lost := htree ▸ h.none_lost
  none_made := htree ▸ h.none_made
  places := by
    rw [htree, Plan.procedures_append_none hnone]
    exact h.places

/-- A page has been written exactly if its name has been met. -/
theorem Follows.page_mem_written (h : Follows plan start done progress) {name : String}
    (hname : isPageName name = true) : plan.page name ∈ progress.written ↔
      name ∈ (plan.procedures start done).map Procedure.name := by
  rw [h.mem_written, List.mem_map]
  constructor
  · rintro ⟨other, hother, hpage⟩
    have heq := (Plan.page_inj hname (Plan.isPageName_of_mem hother)).1 hpage
    exact ⟨other, hother, heq.symm⟩
  · rintro ⟨other, hother, heq⟩
    exact ⟨other, hother, by rw [heq]⟩

/-- The pages in order, after one more procedure. -/
theorem Follows.written_document (h : Follows plan start done progress) {procedure : Procedure}
    (hname : isPageName procedure.name = true)
    (hwritten : next.written = if plan.page procedure.name ∈ progress.written then progress.written
      else progress.written ++ [plan.page procedure.name]) :
    next.written = ((plan.procedures start done ++ [procedure]).map
      Procedure.name).eraseDups.map plan.page := by
  rw [hwritten, List.map_append, List.map_singleton, eraseDups_append_singleton]
  by_cases hmem : procedure.name ∈ (plan.procedures start done).map Procedure.name
  · rw [if_pos ((h.page_mem_written hname).2 hmem), if_pos hmem, h.written]
  · rw [if_neg fun hp => hmem ((h.page_mem_written hname).1 hp), if_neg hmem, h.written,
      List.map_append, List.map_singleton]

/-- A documented source is counted by its page if the name is new, and by a warning if it is not. -/
theorem Follows.count_document (h : Follows plan start done progress) {procedure : Procedure}
    (hname : isPageName procedure.name = true)
    (hwritten : next.written = if plan.page procedure.name ∈ progress.written then progress.written
      else progress.written ++ [plan.page procedure.name])
    (hevents : next.events.countP Event.isRepetition = progress.events.countP Event.isRepetition +
      (if (progress.sources.lookup procedure.name).isSome then 1 else 0)) :
    done.length + 1 = progress.skipped.length + next.written.length +
      next.events.countP Event.isRepetition := by
  have hcount := h.count
  rw [hwritten, hevents]
  by_cases hmem : procedure.name ∈ (plan.procedures start done).map Procedure.name
  · rw [if_pos ((h.page_mem_written hname).2 hmem),
      if_pos (isSome_lookup_iff.2 ((h.sources _).2 hmem))]
    omega
  · rw [if_neg fun hp => hmem ((h.page_mem_written hname).1 hp),
      if_neg fun hp => hmem ((h.sources _).1 (isSome_lookup_iff.1 hp)), List.length_append,
      List.length_singleton]
    omega

/-- Writing a page keeps the directories, so the earlier pages can still be reached. -/
theorem Follows.pages_document (h : Follows plan start done progress) {procedure : Procedure}
    {bytes : ByteArray}
    (hwrite : progress.tree.write (plan.page procedure.name) bytes = .ok next.tree) :
    ∀ other ∈ plan.procedures start done ++ [procedure],
      next.tree.Reaches (plan.page other.name) ∧ Path.endsWithSlash (plan.page other.name) = false := by
  intro other hother
  obtain ⟨hreaches, hslash, -, hkeeps, -⟩ := Tree.write_eq_ok hwrite
  rcases List.mem_append.1 hother with hother | hother
  · obtain ⟨hreaches, hslash⟩ := h.pages other hother
    exact ⟨hkeeps.reaches hreaches, hslash⟩
  · obtain rfl := List.mem_singleton.1 hother
    exact ⟨hkeeps.reaches hreaches, hslash⟩

/-- A source with a procedure adds its page, in place of the one that the name may have had. -/
theorem Follows.document (h : Follows plan start done progress) {procedure : Procedure}
    (hsome : plan.procedure? start source = some procedure)
    (hname : isPageName procedure.name = true)
    (hwrite : progress.tree.writeText (plan.page procedure.name) (plan.format.render procedure) =
      .ok next.tree)
    (hwritten : next.written = if plan.page procedure.name ∈ progress.written then progress.written
      else progress.written ++ [plan.page procedure.name])
    (hskipped : next.skipped = progress.skipped)
    (hsources : next.sources =
      (procedure.name, source) :: progress.sources.filter (·.1 != procedure.name))
    (hevents : next.events.countP Event.isRepetition = progress.events.countP Event.isRepetition +
      (if (progress.sources.lookup procedure.name).isSome then 1 else 0)) :
    Follows plan start (done ++ [source]) next where
  skipped := by
    rw [hskipped, h.skipped, List.filter_append]
    simp [hsome]
  written := by
    rw [Plan.procedures_append_some hsome]
    exact h.written_document hname hwritten
  sources := by
    intro name
    rw [hsources, Plan.procedures_append_some hsome, List.map_append, List.mem_append, ← h.sources]
    by_cases hn : name = procedure.name
    · simp [hn]
    · simp [hn]
  count := by
    rw [List.length_append, List.length_singleton, hskipped]
    exact h.count_document hname hwritten hevents
  pages := by
    rw [Plan.procedures_append_some hsome]
    exact h.pages_document hwrite
  none_lost := h.none_lost.trans (Tree.keeps_of_write hwrite)
  none_made := (Tree.kept_of_write hwrite).trans h.none_made
  places := by
    intro location
    rw [Tree.find?_write hwrite, h.none_lost.location, Plan.procedures_append_some hsome,
      Plan.pageAt?_append, h.places]
    split <;> rfl

/-- A further source is passed over or documented. -/
theorem Follows.step (h : Follows plan start done progress)
    (hsource : ∀ page ∈ progress.written, start.location source ≠ start.location page)
    (hstep : Treats plan progress source next) : Follows plan start (done ++ [source]) next := by
  cases hstep with
  | passed hread hbytes hpolicy htree hwritten hskipped hsources hevents =>
    have hnone : plan.procedure? start source = none := by
      rw [h.procedure? hsource hread, hbytes]
      rfl
    exact h.pass hnone htree hwritten hskipped hsources hevents
  | @documented bytes procedure hread hbytes hwrite hwritten hskipped hsources hevents =>
    have hsome : plan.procedure? start source = some procedure := by
      rw [h.procedure? hsource hread, hbytes]
      rfl
    exact h.document hsome (Procedure.isPageName_of_ofBytes hbytes) hwrite hwritten hskipped hsources
      hevents

end

/-! ### Whole runs -/

/-- Without a failure the first step succeeds, and so do the others from where it has led. -/
theorem steps_cons_eq_none {plan : Plan} {progress last : Progress} {source : Path}
    {sources : List Path} : progress.steps plan (source :: sources) = (last, none) ↔
      ∃ next, progress.step plan source = (next, none) ∧
        next.steps plan sources = (last, none) := by
  rw [steps]
  rcases progress.step plan source with ⟨next, - | failure⟩
  · simp
  · simp

theorem Treats.written_subset {plan : Plan} {progress next : Progress} {source : Path}
    (h : Treats plan progress source next) : progress.written ⊆ next.written := by
  cases h with
  | passed _ _ _ _ hwritten _ _ _ => exact hwritten ▸ List.Subset.refl _
  | documented _ _ _ hwritten _ _ _ =>
    rw [hwritten]
    split
    · exact List.Subset.refl _
    · exact List.subset_append_left _ _

/-- No page is taken off the list of those written. -/
theorem written_subset_of_steps {plan : Plan} {progress last : Progress} {sources : List Path}
    (h : progress.steps plan sources = (last, none)) : progress.written ⊆ last.written := by
  induction sources generalizing progress with
  | nil =>
    obtain ⟨rfl, -⟩ := Prod.mk.inj h
    exact List.Subset.refl _
  | cons source sources ih =>
    obtain ⟨next, hstep, hrest⟩ := steps_cons_eq_none.1 h
    exact List.Subset.trans (treats_of_step hstep).written_subset (ih hrest)

/-- Whatever a run writes is the page of some name. -/
theorem exists_page_of_steps {plan : Plan} {progress last : Progress} {sources : List Path}
    (h : progress.steps plan sources = (last, none))
    (hwritten : ∀ page ∈ progress.written, ∃ name, isPageName name = true ∧ page = plan.page name) :
    ∀ page ∈ last.written, ∃ name, isPageName name = true ∧ page = plan.page name := by
  induction sources generalizing progress with
  | nil =>
    obtain ⟨rfl, -⟩ := Prod.mk.inj h
    exact hwritten
  | cons source sources ih =>
    obtain ⟨next, hstep, hrest⟩ := steps_cons_eq_none.1 h
    apply ih hrest
    intro page hpage
    cases treats_of_step hstep with
    | passed _ _ _ _ hnext _ _ _ => exact hwritten page (hnext ▸ hpage)
    | @documented bytes procedure _ hbytes _ hnext _ _ _ =>
      rw [hnext] at hpage
      split at hpage
      · exact hwritten page hpage
      · rcases List.mem_append.1 hpage with hpage | hpage
        · exact hwritten page hpage
        · exact ⟨procedure.name, Procedure.isPageName_of_ofBytes hbytes,
            List.mem_singleton.1 hpage⟩

/-- The invariant holds as far as the run has come. -/
theorem Follows.steps {plan : Plan} {start : Tree} {done : List Path} {progress last : Progress}
    (h : Follows plan start done progress) {sources : List Path}
    (hsteps : progress.steps plan sources = (last, none))
    (hsources : ∀ source ∈ sources, ∀ page ∈ last.written,
      start.location source ≠ start.location page) :
    Follows plan start (done ++ sources) last := by
  induction sources generalizing progress done with
  | nil =>
    obtain ⟨rfl, -⟩ := Prod.mk.inj hsteps
    rwa [List.append_nil]
  | cons source sources ih =>
    obtain ⟨next, hstep, hrest⟩ := steps_cons_eq_none.1 hsteps
    -- No page is taken off the list, so a source that is apart from all is apart from those so far.
    have hsubset := written_subset_of_steps hsteps
    have hnext : Follows plan start (done ++ [source]) next := by
      apply h.step _ (treats_of_step hstep)
      intro page hpage
      exact hsources source List.mem_cons_self page (hsubset hpage)
    have := ih hnext hrest (fun s hs => hsources s (List.mem_cons_of_mem _ hs))
    rwa [List.append_assoc, List.singleton_append] at this

end Progress

/-- The outcome of a run from its last progress. -/
def RunOutcome.ofSteps : Progress × Option Failure → RunOutcome
  | (progress, some failure) => ⟨progress.tree, progress.events, .error failure⟩
  | (progress, none) =>
    let finished := ⟨.batch, .info, "generation finished",
      [("written", .count progress.written.length), ("skipped", .count progress.skipped.length)]⟩
    ⟨progress.tree, (progress.note finished).events, .ok progress.summary⟩

/-- Behind the making of its output directory a run is its steps. -/
theorem generate_eq_ofSteps {plan : Plan} {tree start : Tree}
    (h : tree.makeDirectories plan.output = (start, .ok ())) (sources : List Path) :
    generate plan tree sources =
      .ofSteps (({ tree := start } : Progress).steps plan sources) := by
  unfold generate
  rw [h]
  simp only
  rcases ({ tree := start } : Progress).steps plan sources with ⟨last, - | failure⟩
  · rfl
  · rfl

/-- A run that succeeds has made its output directory and treated all of its sources. -/
theorem generate_eq_ok {plan : Plan} {tree : Tree} {sources : List Path} {summary : Summary}
    (h : (generate plan tree sources).result = .ok summary) :
    ∃ start last, tree.makeDirectories plan.output = (start, .ok ()) ∧
      ({ tree := start } : Progress).steps plan sources = (last, none) ∧
      summary = last.summary := by
  rcases hmake : tree.makeDirectories plan.output with ⟨start, error | ⟨⟩⟩
  · rw [generate, hmake] at h
    cases h
  · rw [generate_eq_ofSteps hmake] at h
    rcases hsteps : ({ tree := start } : Progress).steps plan sources with ⟨last, - | failure⟩
    · rw [hsteps] at h
      exact ⟨start, last, rfl, hsteps, (Except.ok.inj h).symm⟩
    · rw [hsteps] at h
      cases h

/-- **What a run that succeeds has done.**  The sources that hold no procedure are skipped, each of the
others has its page, the last source of a name decides what stands there, and besides the pages only
the output directory and those above it are new.  Sources are judged by what they are once the output
directory has been made, which for those that could be read before is the same.  File trees have no
links, so what is written at one place is seen at no other. -/
theorem generate_outcome (plan : Plan) (tree : Tree) (sources : List Path) (summary : Summary)
    (hresult : (generate plan tree sources).result = .ok summary)
    (hsources : ∀ source ∈ sources, ∀ page ∈ summary.written,
      tree.location source ≠ tree.location page) :
    let outcome := generate plan tree sources
    let start := (tree.makeDirectories plan.output).1
    let procedures := plan.procedures start sources
    (∀ source bytes, tree.read source = .ok bytes → start.read source = .ok bytes) ∧
    summary.skipped = sources.filter (fun source => (plan.procedure? start source).isNone) ∧
    summary.written = (procedures.map Procedure.name).eraseDups.map plan.page ∧
    sources.length = summary.skipped.length + summary.written.length +
      outcome.events.countP Event.isRepetition ∧
    (∀ name procedure, Procedure.last? procedures name = some procedure →
      outcome.tree.read (plan.page name) = .ok (plan.format.render procedure).toUTF8) ∧
    tree.Keeps outcome.tree ∧
    (∀ location, (∀ page ∈ summary.written, location ≠ tree.location page) →
      outcome.tree.find? location = (tree.find? location).or
        (if location ∈ plan.output.ancestors.map tree.location then some .directory else none)) := by
  obtain ⟨start, last, hmake, hsteps, rfl⟩ := generate_eq_ok hresult
  have hkeeps := Tree.keeps_of_makeDirectories hmake
  -- Making directories moves no path, so the places are those of the tree that it began with.
  have hlocation : start.location = tree.location := funext hkeeps.location
  have h := (Progress.follows_nil plan start).steps hsteps (by rwa [hlocation])
  rw [List.nil_append] at h
  rw [generate_eq_ofSteps hmake, hsteps, hmake]
  refine ⟨?_, h.skipped, h.written, ?_, ?_, hkeeps.trans h.none_lost, ?_⟩
  · intro source bytes hread
    exact Tree.read_makeDirectories hmake hread
  · have hevents : (RunOutcome.ofSteps (last, none)).events.countP Event.isRepetition =
        last.events.countP Event.isRepetition := by
      simp [RunOutcome.ofSteps, Progress.note, List.countP_append, Event.isRepetition]
    rw [hevents]
    exact h.count
  · intro name procedure hlast
    exact h.read_page hlast
  · intro location hplace
    rw [← hlocation] at hplace
    exact (h.find? hplace).trans (Tree.find?_makeDirectories hmake location)

/-- A tree with a source and a file that is none. -/
def sampleTree : Tree where
  entries := [(["a"], .file "procedure p as @ start docs [\"\", []] end docs".toUTF8),
    (["b"], .file "".toUTF8)]

/-- A run that writes records. -/
def samplePlan : Plan := ⟨"out", .json, { skipBanner := false }, .skip⟩

theorem generate_sampleTree :
    (generate samplePlan sampleTree ["a", "b", "a"]).result = .ok ⟨["out/p.json"], ["b"]⟩ := by
  decide +kernel

theorem generate_outcome_sampleTree :
    ["a", "b", "a"].length = ["b"].length + ["out/p.json"].length +
      (generate samplePlan sampleTree ["a", "b", "a"]).events.countP Event.isRepetition := by
  have hsources : ∀ source ∈ ["a", "b", "a"], ∀ page ∈ ["out/p.json"],
      sampleTree.location source ≠ sampleTree.location page := by decide
  exact (generate_outcome samplePlan sampleTree _ _ generate_sampleTree hsources).2.2.2.1

end ProcBook
