/-
ProcBook/Proofs/Confinement.lean

What a run and a site may change in a file tree.

`ConfinedTo` compares a tree with an earlier one place by place.  Where they differ, a directory was made
that is the output directory or stands above it, or a file directly inside the output directory was
written; nothing is ever removed.  The relation is reflexive and transitive, so it holds of any number
of changes as soon as it holds of each one, and no matter whether a failure comes after them:

    makeDirectories    write    step, steps    writePages

Names of pages come from sources and from catalogs, where they can be any text.  All that is used of
them is that they were checked before their file was written.
-/
import ProcBook.Proofs.Site

namespace ProcBook

namespace Tree

/-- The first components of a path lead to a place: it is that of the path or of a directory above
it. -/
def Visits (tree : Tree) (path : Path) (location : Location) : Prop :=
  ∃ front, front <+: path.components ∧ location = front.foldl Component.move (tree.start path)

/-- What may become of a place if `directory` is the only output. -/
inductive Change (directory : Path) (before after : Tree) (location : Location) : Prop
  /-- It is as it was. -/
  | same : after.find? location = before.find? location → Change directory before after location
  /-- It is the directory or one above it, which was missing. -/
  | made : before.Visits directory location → before.find? location = none →
      after.find? location = some .directory → Change directory before after location
  /-- It is a file directly inside the directory; a file may have been there before. -/
  | written {name : String} {bytes : ByteArray} : Path.IsName name →
      location = before.location directory ++ [name] → before.find? location ≠ some .directory →
      after.find? location = some (.file bytes) → Change directory before after location

/-- A tree has been changed by output to a directory only. -/
structure ConfinedTo (directory : Path) (before after : Tree) : Prop where
  home : after.home = before.home
  unlisted : after.unlisted = before.unlisted
  change : ∀ location, Change directory before after location

variable {directory : Path}

theorem ConfinedTo.refl (tree : Tree) : ConfinedTo directory tree tree :=
  ⟨rfl, rfl, fun _ => .same rfl⟩

/-- What may become of a place in two changes, one after the other. -/
theorem Change.trans {before between after : Tree} {location : Location}
    (hhome : between.home = before.home) (h : Change directory before between location)
    (h' : Change directory between after location) : Change directory before after location := by
  -- Paths lead to the same places before and after the first change.
  have hplace := location_eq_of_home hhome directory
  have hstart := start_eq_of_home hhome directory
  cases h with
  | same hsame =>
    cases h' with
    | same hsame' => exact .same (hsame'.trans hsame)
    | made hvisits hnone hdir =>
      rw [Visits, hstart] at hvisits
      exact .made hvisits (hsame ▸ hnone) hdir
    | written hname hlocation hne hfile =>
      exact .written hname (hplace ▸ hlocation) (hsame ▸ hne) hfile
  | made hvisits hnone hdir =>
    -- A directory that has been made is neither made again nor written over.
    cases h' with
    | same hsame' => exact .made hvisits hnone (hsame'.trans hdir)
    | made _ hnone' _ =>
      rw [hdir] at hnone'
      cases hnone'
    | written _ _ hne _ => exact absurd hdir hne
  | written hname hlocation hne hfile =>
    cases h' with
    | same hsame' => exact .written hname hlocation hne (hsame'.trans hfile)
    | made _ hnone' _ =>
      rw [hfile] at hnone'
      cases hnone'
    | written _ _ _ hfile' => exact .written hname hlocation hne hfile'

/-- Confinement is carried from step to step.  The places a second step may touch are judged in the tree
it starts from, which the first step has only extended. -/
theorem ConfinedTo.trans {before between after : Tree} (h : ConfinedTo directory before between)
    (h' : ConfinedTo directory between after) : ConfinedTo directory before after where
  home := h'.home.trans h.home
  unlisted := h'.unlisted.trans h.unlisted
  change location := (h.change location).trans h.home (h'.change location)

/-! ### Making directories -/

/-- The paths above a path are on its way. -/
theorem visits_of_mem_ancestors (tree : Tree) {path above : Path} (h : above ∈ path.ancestors) :
    tree.Visits path (tree.location above) := by
  rcases Path.mem_ancestors_iff.1 h with rfl | ⟨n, -, rfl⟩
  · exact ⟨_, List.prefix_refl _, Path.location_eq_components tree above⟩
  · exact ⟨_, List.take_prefix _ _, Path.location_take tree⟩

/-- Making one of the ancestors of `directory` adds at most one entry, a directory. -/
theorem confinedTo_makeDirectory {tree later : Tree} {path : Path}
    (hpath : path ∈ directory.ancestors) (h : tree.makeDirectory path = .ok later) :
    ConfinedTo directory tree later := by
  obtain ⟨-, hnone, hkeeps, hfind⟩ := makeDirectory_eq_ok h
  refine ⟨hkeeps.home, hkeeps.unlisted, ?_⟩
  intro location
  by_cases hl : location = tree.location path
  · subst hl
    refine .made (tree.visits_of_mem_ancestors hpath) hnone ?_
    rw [hfind, if_pos rfl]
  · refine .same ?_
    rw [hfind, if_neg hl]

/-- Directories that were made before a failure are among those above the last one too. -/
theorem confinedTo_makeAlong {paths : List Path} (hpaths : ∀ path ∈ paths, path ∈ directory.ancestors)
    (tree : Tree) : ConfinedTo directory tree (tree.makeAlong paths).1 := by
  induction paths with
  | nil => exact .refl tree
  | cons path above ih =>
    have hpath := hpaths path List.mem_cons_self
    have habove := ih (fun a ha => hpaths a (List.mem_cons_of_mem _ ha))
    rw [makeAlong]
    split
    · next later hmade => exact confinedTo_makeDirectory hpath hmade
    · split
      · next between error hbetween =>
        rw [hbetween] at habove
        exact habove
      · next between hbetween =>
        rw [hbetween] at habove
        split
        · next later hmade => exact habove.trans (confinedTo_makeDirectory hpath hmade)
        · exact habove
    · exact .refl tree

/-- Making a directory with all that is missing above it touches only ancestors of its path. -/
theorem confinedTo_makeDirectories (directory : Path) (tree : Tree) :
    ConfinedTo directory tree (tree.makeDirectories directory).1 := by
  rw [makeDirectories]
  split
  · exact .refl tree
  · exact confinedTo_makeAlong (fun _ hpath => hpath) tree

/-! ### Writing files -/

/-- Writing an entry of a directory changes that entry at most. -/
theorem confinedTo_write {tree later : Tree} {name : String} {bytes : ByteArray}
    (hname : Path.IsName name) (h : tree.write (directory.join name) bytes = .ok later) :
    ConfinedTo directory tree later := by
  obtain ⟨-, -, hne, hkeeps, hfind⟩ := write_eq_ok h
  refine ⟨hkeeps.home, hkeeps.unlisted, ?_⟩
  intro location
  by_cases hl : location = tree.location (directory.join name)
  · subst hl
    have hfile : later.find? (tree.location (directory.join name)) = some (.file bytes) := by
      rw [hfind, if_pos rfl]
    exact .written hname (Path.location_join tree directory hname) hne hfile
  · refine .same ?_
    rw [hfind, if_neg hl]

end Tree

/-! ### Runs -/

open ProcBook.Tree (ConfinedTo confinedTo_write confinedTo_makeDirectories)

namespace Progress

/-- A step changes at most the page of its source, also if it fails. -/
theorem confinedTo_step (plan : Plan) (progress : Progress) (source : Path) :
    ConfinedTo plan.output progress.tree (progress.step plan source).1.tree := by
  unfold step
  split
  · exact .refl _
  · next bytes _ =>
    split
    · -- A rejected source leaves no page under either policy.
      unfold reject
      split
      · exact .refl _
      · exact .refl _
    · next procedure hprocedure =>
      have hname := Procedure.isPageName_of_ofBytes hprocedure
      have hclaim := (progress.claim_fields procedure.name source).1
      unfold document
      simp only
      split
      · show ConfinedTo plan.output progress.tree (progress.claim procedure.name source).tree
        rw [hclaim]
        exact .refl _
      · next tree hwrite =>
        rw [hclaim] at hwrite
        exact confinedTo_write (plan.format.isName_fileName hname) hwrite

/-- Any number of steps changes pages at most. -/
theorem confinedTo_steps (plan : Plan) (progress : Progress) (sources : List Path) :
    ConfinedTo plan.output progress.tree (progress.steps plan sources).1.tree := by
  induction sources generalizing progress with
  | nil => exact .refl _
  | cons source sources ih =>
    have hfirst := progress.confinedTo_step plan source
    rw [steps]
    rcases hstep : progress.step plan source with ⟨next, - | failure⟩
    · rw [hstep] at hfirst
      exact hfirst.trans (ih next)
    · rw [hstep] at hfirst
      exact hfirst

end Progress

/-- A run first makes its output directory and then writes into it, as far as it comes. -/
theorem confinedTo_generate (plan : Plan) (tree : Tree) (sources : List Path) :
    ConfinedTo plan.output tree (generate plan tree sources).tree := by
  have hmade := confinedTo_makeDirectories plan.output tree
  rcases hmake : tree.makeDirectories plan.output with ⟨start, error | ⟨⟩⟩
  · rw [hmake] at hmade
    rw [generate, hmake]
    exact hmade
  · rw [hmake] at hmade
    have hsteps := ({ tree := start } : Progress).confinedTo_steps plan sources
    rw [generate_eq_ofSteps hmake]
    rcases hlast : ({ tree := start } : Progress).steps plan sources with ⟨last, - | failure⟩
    · rw [hlast] at hsteps
      exact hmade.trans hsteps
    · rw [hlast] at hsteps
      exact hmade.trans hsteps

/-! ### Sites -/

namespace ViewCommand

variable {directory : Path}

/-- The pages of a site are written into its directory, as far as they come. -/
theorem confinedTo_writePages {pages : List SitePage}
    (hnames : ∀ page ∈ pages, Path.IsName page.file) (tree : Tree) :
    ConfinedTo directory tree (writePages directory tree pages).1 := by
  induction pages generalizing tree with
  | nil => exact .refl tree
  | cons page pages ih =>
    rw [writePages]
    split
    · exact .refl tree
    · next later hwrite =>
      have hfirst := confinedTo_write (hnames page List.mem_cons_self) hwrite
      exact hfirst.trans (ih (fun p hp => hnames p (List.mem_cons_of_mem _ hp)) later)

/-- A site touches its directory, the directories above it and one file for each page, whose name is a
single component. -/
theorem confinedTo_runSite (catalog : Catalog) (directory : Path) (tree : Tree) :
    ConfinedTo directory tree (runSite catalog directory tree).tree := by
  have hmade := confinedTo_makeDirectories directory tree
  unfold runSite
  rcases hmake : tree.makeDirectories directory with ⟨start, error | ⟨⟩⟩
  · rw [hmake] at hmade
    exact hmade
  · rw [hmake] at hmade
    have hpages : ConfinedTo directory start (writePages directory start catalog.sitePages).1 :=
      confinedTo_writePages (fun _ => Catalog.isName_of_mem_sitePages) start
    rcases hlast : writePages directory start catalog.sitePages with ⟨later, - | failure⟩
    · rw [hlast] at hpages
      simp only [hlast]
      exact hmade.trans hpages
    · rw [hlast] at hpages
      simp only [hlast]
      exact hmade.trans hpages

end ViewCommand

/-- **All output stays in its directory.**  Whatever the sources hold and whatever records a catalog
has, and whether or not there is a failure, a run and a site change no place but the output directory,
the missing ones above it, and files directly inside it. -/
theorem output_confined (tree : Tree) :
    (∀ (plan : Plan) (sources : List Path),
      ConfinedTo plan.output tree (generate plan tree sources).tree) ∧
    (∀ (catalog : Catalog) (directory : Path),
      ConfinedTo directory tree (ViewCommand.runSite catalog directory tree).tree) ∧
    ∀ (config catalog : Option Path) (verbosity : Nat) (directory : Path) (input : ByteArray),
      ConfinedTo directory tree (Invocation.run
        ⟨config, verbosity, .view { catalog, site := some directory }⟩ input tree).tree := by
  refine ⟨fun plan => confinedTo_generate plan tree,
    fun catalog directory => ViewCommand.confinedTo_runSite catalog directory tree, ?_⟩
  intro config catalog verbosity directory input
  unfold Invocation.run
  split
  · exact .refl tree
  · -- The settings are only read, and so is the catalog.
    exact ViewCommand.confinedTo_runSite _ directory tree

end ProcBook
