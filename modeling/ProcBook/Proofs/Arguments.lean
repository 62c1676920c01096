/-
ProcBook/Proofs/Arguments.lean

Which files the arguments of a run stand for.

`Provides` says of one argument and a path that the argument stands for it: as a file, as the directory
around it or as a pattern.  An argument is faulty (`IsFaulty`) if it is none of these or a directory whose
names cannot be read.  Neither depends on the order in which a tree lists its entries.

`Collects` describes the sources of a run by what their arguments provide, so the sources depend on which
arguments there are and on nothing else, but for their spelling.  Main result: `collectInputs_canonical`.
-/
import ProcBook.Generation.Inputs
import ProcBook.Proofs.Matching
import ProcBook.Proofs.PathOrder

namespace ProcBook

/-! ### One argument -/

/-- An argument stands for a file. -/
inductive Provides (tree : Tree) (argument : Path) : Path → Prop
  | file (hfile : tree.isFile argument = true) : Provides tree argument argument
  | inside {names : List String} {name : String} (hnames : tree.list argument = .ok names)
      (hname : name ∈ names) (hfile : tree.isFile (argument.join name) = true) :
      Provides tree argument (argument.join name)
  | matched {path : Path} (hnofile : tree.isFile argument = false)
      (hnodirectory : tree.isDirectory argument = false)
      (hmatches : Pattern.Matches tree argument path) (hfile : tree.isFile path = true) :
      Provides tree argument path

/-- An argument stands for no files, not even for none. -/
inductive IsFaulty (tree : Tree) (argument : Path) : Prop
  /-- It is no file, no directory and no pattern. -/
  | pattern {error : PatternError} (hnofile : tree.isFile argument = false)
      (hnodirectory : tree.isDirectory argument = false)
      (herror : Pattern.read argument = .error error)
  /-- It is a directory whose names cannot be read. -/
  | directory {error : FileError} (hdirectory : tree.isDirectory argument = true)
      (herror : tree.list argument = .error error)

section

variable {tree other : Tree} {argument path : Path}

/-- An argument stands for files only. -/
theorem Provides.isFile (h : Provides tree argument path) : tree.isFile path = true := by
  cases h with
  | file hfile => exact hfile
  | inside _ _ hfile => exact hfile
  | matched _ _ _ hfile => exact hfile

/-- What an argument stands for does not depend on the order of entries. -/
theorem Provides.agrees (h : Provides tree argument path) (hagrees : tree.Agrees other) :
    Provides other argument path := by
  cases h with
  | file hfile => exact .file (hagrees.isFile _ ▸ hfile)
  | inside hnames hname hfile =>
    obtain ⟨names', hnames', hsame⟩ := hagrees.list hnames
    exact .inside hnames' ((hsame _).1 hname) (hagrees.isFile _ ▸ hfile)
  | matched hnofile hnodirectory hmatches hfile =>
    exact .matched (hagrees.isFile _ ▸ hnofile) (hagrees.isDirectory _ ▸ hnodirectory)
      (hmatches.agrees hagrees) (hagrees.isFile _ ▸ hfile)

theorem IsFaulty.agrees (h : IsFaulty tree argument) (hagrees : tree.Agrees other) :
    IsFaulty other argument := by
  cases h with
  | pattern hnofile hnodirectory herror =>
    exact .pattern (hagrees.isFile _ ▸ hnofile) (hagrees.isDirectory _ ▸ hnodirectory) herror
  | directory hdirectory herror =>
    exact .directory (hagrees.isDirectory _ ▸ hdirectory) (hagrees.list_eq_error_iff.1 herror)

/-- An argument that is a file stands for nothing else: it cannot be a directory at once, and it is
not read as a pattern. -/
theorem provides_file_iff (hfile : tree.isFile argument = true) :
    Provides tree argument path ↔ path = argument := by
  constructor
  · intro h
    cases h with
    | file => rfl
    | inside hnames =>
      have hdirectory := (Tree.list_eq_ok hnames).1
      rw [Tree.not_isDirectory_of_isFile hfile] at hdirectory
      cases hdirectory
    | matched hnofile =>
      rw [hfile] at hnofile
      cases hnofile
  · rintro rfl
    exact .file hfile

/-- An argument that is a directory stands for the files directly inside it. -/
theorem provides_directory_iff (hnofile : tree.isFile argument = false) {names : List String}
    (hnames : tree.list argument = .ok names) : Provides tree argument path ↔
      (∃ name ∈ names, argument.join name = path) ∧ tree.isFile path = true := by
  constructor
  · intro h
    refine ⟨?_, h.isFile⟩
    cases h with
    | file hfile =>
      rw [hfile] at hnofile
      cases hnofile
    | inside hnames' hname =>
      obtain rfl := Except.ok.inj (hnames.symm.trans hnames')
      exact ⟨_, hname, rfl⟩
    | matched _ hnodirectory =>
      rw [(Tree.list_eq_ok hnames).1] at hnodirectory
      cases hnodirectory
  · rintro ⟨⟨name, hname, rfl⟩, hfile⟩
    exact .inside hnames hname hfile

/-- Any other argument stands for the files that it matches as a pattern. -/
theorem provides_pattern_iff (hnofile : tree.isFile argument = false)
    (hnodirectory : tree.isDirectory argument = false) : Provides tree argument path ↔
      Pattern.Matches tree argument path ∧ tree.isFile path = true := by
  constructor
  · intro h
    refine ⟨?_, h.isFile⟩
    cases h with
    | file hfile =>
      rw [hfile] at hnofile
      cases hnofile
    | inside hnames =>
      rw [(Tree.list_eq_ok hnames).1] at hnodirectory
      cases hnodirectory
    | matched _ _ hmatches => exact hmatches
  · rintro ⟨hmatches, hfile⟩
    exact .matched hnofile hnodirectory hmatches hfile

/-- The files of an argument are those that it stands for. -/
theorem mem_expandArgument_iff {files : List Path} (h : expandArgument tree argument = .ok files) :
    path ∈ files ↔ Provides tree argument path := by
  unfold expandArgument at h
  split at h
  · next hfile =>
    obtain rfl := Except.ok.inj h
    rw [List.mem_singleton, provides_file_iff hfile]
  · next hnofile =>
    rw [Bool.not_eq_true] at hnofile
    split at h
    · split at h
      · cases h
      · next names hnames =>
        obtain rfl := Except.ok.inj h
        rw [List.mem_filter, List.mem_map, provides_directory_iff hnofile hnames]
    · next hnodirectory =>
      rw [Bool.not_eq_true] at hnodirectory
      split at h
      · cases h
      · next paths hexpand =>
        obtain rfl := Except.ok.inj h
        rw [List.mem_filter, provides_pattern_iff hnofile hnodirectory, Pattern.mem_expand_iff hexpand]

/-- Only a faulty argument fails. -/
theorem expandArgument_fails_iff :
    (∃ failure, expandArgument tree argument = .error failure) ↔ IsFaulty tree argument := by
  -- A file cannot fail, a directory fails to be listed, and anything else is a pattern.
  unfold expandArgument
  constructor
  · rintro ⟨failure, h⟩
    split at h
    · cases h
    · next hnofile =>
      split at h
      · next hdirectory =>
        split at h
        · next herror => exact .directory hdirectory herror
        · cases h
      · next hnodirectory =>
        split at h
        · next herror =>
          exact .pattern (by simpa using hnofile) (by simpa using hnodirectory)
            (Pattern.expand_eq_error_iff.1 herror)
        · cases h
  · intro h
    cases h with
    | pattern hnofile hnodirectory herror =>
      rw [hnofile, hnodirectory, Pattern.expand_eq_error_iff.2 herror]
      exact ⟨_, rfl⟩
    | directory hdirectory herror =>
      -- No place is both, so the directory is reached.
      have hnofile : tree.isFile argument = false := by
        cases hfile : tree.isFile argument with
        | false => rfl
        | true =>
          rw [Tree.not_isDirectory_of_isFile hfile] at hdirectory
          cases hdirectory
      rw [hnofile, hdirectory, herror]
      exact ⟨_, rfl⟩

end

/-! ### All arguments -/

section

variable {tree other : Tree} {arguments arguments' : List Path}

theorem expandArguments_cons (argument : Path) (arguments : List Path) :
    (expandArguments tree (argument :: arguments)).2 =
      match expandArgument tree argument with
      | .error failure => .error failure
      | .ok files => (expandArguments tree arguments).2.map (files ++ ·) := by
  rw [expandArguments]
  cases expandArgument tree argument <;> rfl

/-- The files of all arguments are those that some argument stands for. -/
theorem mem_expandArguments_iff {files : List Path} {path : Path}
    (h : (expandArguments tree arguments).2 = .ok files) :
    path ∈ files ↔ ∃ argument ∈ arguments, Provides tree argument path := by
  induction arguments generalizing files with
  | nil =>
    obtain rfl := Except.ok.inj h
    simp
  | cons argument arguments ih =>
    rw [expandArguments_cons] at h
    cases hfirst : expandArgument tree argument with
    | error failure =>
      rw [hfirst] at h
      cases h
    | ok first =>
      rw [hfirst] at h
      cases hrest : (expandArguments tree arguments).2 with
      | error failure =>
        rw [hrest] at h
        cases h
      | ok rest =>
        rw [hrest] at h
        obtain rfl := Except.ok.inj h
        rw [List.mem_append, mem_expandArgument_iff hfirst, ih hrest, List.exists_mem_cons_iff]

/-- The arguments fail as soon as one of them is faulty. -/
theorem expandArguments_fails_iff :
    (∃ failure, (expandArguments tree arguments).2 = .error failure) ↔
      ∃ argument ∈ arguments, IsFaulty tree argument := by
  induction arguments with
  | nil =>
    constructor
    · rintro ⟨failure, h⟩
      cases h
    · rintro ⟨argument, h, -⟩
      cases h
  | cons argument arguments ih =>
    rw [List.exists_mem_cons_iff, ← ih, ← expandArgument_fails_iff, expandArguments_cons]
    cases expandArgument tree argument with
    | error failure => simp
    | ok files => cases (expandArguments tree arguments).2 <;> simp [Except.map]

theorem collectInputs_eq (tree : Tree) (arguments : List Path) :
    (collectInputs tree arguments).2 = (expandArguments tree arguments).2.map Path.sortedOnce :=
  rfl

/-- The files that arguments stand for, in order and each once. -/
structure Collects (tree : Tree) (arguments files : List Path) : Prop where
  ascending : files.Pairwise Path.Before
  provided : ∀ file ∈ files, ∃ argument ∈ arguments, Provides tree argument file
  complete : ∀ argument ∈ arguments, ∀ path, Provides tree argument path →
    ∃ file ∈ files, file.components = path.components

/-- The sources of a run are what its arguments stand for, in order and each once. -/
theorem Collects.of_collectInputs {files : List Path}
    (h : (collectInputs tree arguments).2 = .ok files) : Collects tree arguments files := by
  rw [collectInputs_eq] at h
  cases hexpand : (expandArguments tree arguments).2 with
  | error failure =>
    rw [hexpand] at h
    cases h
  | ok paths =>
    rw [hexpand] at h
    obtain rfl := Except.ok.inj h
    constructor
    · exact Path.pairwise_sortedOnce paths
    · intro file hfile
      exact (mem_expandArguments_iff hexpand).1 (Path.mem_of_mem_sortedOnce hfile)
    · intro argument hargument path hprovides
      exact Path.exists_mem_sortedOnce
        ((mem_expandArguments_iff hexpand).2 ⟨argument, hargument, hprovides⟩)

/-- Up to spelling, membership among the sources is a matter of the arguments alone. -/
theorem Collects.mem_components_iff {files : List Path} (h : Collects tree arguments files)
    {components : List Component} : components ∈ files.map Path.components ↔
      ∃ argument ∈ arguments, ∃ path, Provides tree argument path ∧ path.components = components := by
  rw [List.mem_map]
  constructor
  · rintro ⟨file, hfile, rfl⟩
    obtain ⟨argument, hargument, hprovides⟩ := h.provided file hfile
    exact ⟨argument, hargument, file, hprovides, rfl⟩
  · rintro ⟨argument, hargument, path, hprovides, rfl⟩
    exact h.complete argument hargument path hprovides

/-- The sources of a run are settled by which arguments there are and what the tree has where. -/
theorem Collects.components_eq {files files' : List Path} (h : Collects tree arguments files)
    (h' : Collects other arguments' files') (hagrees : tree.Agrees other)
    (hsame : ∀ argument, argument ∈ arguments ↔ argument ∈ arguments') :
    files.map Path.components = files'.map Path.components := by
  apply Path.components_eq_of_ascending h.ascending h'.ascending
  intro components
  rw [h.mem_components_iff, h'.mem_components_iff]
  constructor
  · rintro ⟨argument, hargument, path, hprovides, hpath⟩
    exact ⟨argument, (hsame argument).1 hargument, path, hprovides.agrees hagrees, hpath⟩
  · rintro ⟨argument, hargument, path, hprovides, hpath⟩
    exact ⟨argument, (hsame argument).2 hargument, path, hprovides.agrees hagrees.symm, hpath⟩

/-- Putting files in order adds no failure. -/
theorem collectInputs_fails_iff :
    (∃ failure, (collectInputs tree arguments).2 = .error failure) ↔
      ∃ argument ∈ arguments, IsFaulty tree argument := by
  rw [collectInputs_eq, ← expandArguments_fails_iff]
  cases (expandArguments tree arguments).2 <;> simp [Except.map]

end

/-- **The sources of a run are a set in order.**  They are refused only for a faulty argument.  They are
files in ascending order, among them every file that an argument stands for, in some spelling, and no
others.  Arguments in another order or repeated, in a tree that lists its entries in another order, are
refused as well or give the same sources, but for the spelling. -/
theorem collectInputs_canonical (tree : Tree) (arguments : List Path) :
    ((∃ failure, (collectInputs tree arguments).2 = .error failure) ↔
      ∃ argument ∈ arguments, IsFaulty tree argument) ∧
    (∀ files, (collectInputs tree arguments).2 = .ok files →
      files.Pairwise Path.Before ∧
      (∀ file ∈ files, tree.isFile file = true ∧ ∃ argument ∈ arguments, Provides tree argument file) ∧
      ∀ argument ∈ arguments, ∀ path, Provides tree argument path →
        ∃ file ∈ files, file.components = path.components) ∧
    ∀ (other : Tree) (arguments' : List Path), tree.Agrees other →
      (∀ argument, argument ∈ arguments ↔ argument ∈ arguments') →
      (∃ failure failure', (collectInputs tree arguments).2 = .error failure ∧
        (collectInputs other arguments').2 = .error failure') ∨
      ∃ files files', (collectInputs tree arguments).2 = .ok files ∧
        (collectInputs other arguments').2 = .ok files' ∧
        files.map Path.components = files'.map Path.components := by
  refine ⟨collectInputs_fails_iff, ?_, ?_⟩
  · intro files hfiles
    have hcollects := Collects.of_collectInputs hfiles
    refine ⟨hcollects.ascending, ?_, hcollects.complete⟩
    intro file hfile
    obtain ⟨argument, hargument, hprovides⟩ := hcollects.provided file hfile
    exact ⟨hprovides.isFile, argument, hargument, hprovides⟩
  · intro other arguments' hagrees hsame
    cases hfiles : (collectInputs tree arguments).2 with
    | error failure =>
      obtain ⟨argument, hargument, hfaulty⟩ := collectInputs_fails_iff.1 ⟨failure, hfiles⟩
      obtain ⟨failure', hfailure'⟩ := collectInputs_fails_iff.2
        ⟨argument, (hsame argument).1 hargument, hfaulty.agrees hagrees⟩
      exact .inl ⟨failure, failure', rfl, hfailure'⟩
    | ok files =>
      cases hfiles' : (collectInputs other arguments').2 with
      | error failure' =>
        obtain ⟨argument, hargument, hfaulty⟩ := collectInputs_fails_iff.1 ⟨failure', hfiles'⟩
        obtain ⟨failure, hfailure⟩ := collectInputs_fails_iff.2
          ⟨argument, (hsame argument).2 hargument, hfaulty.agrees hagrees.symm⟩
        cases hfiles.symm.trans hfailure
      | ok files' =>
        exact .inr ⟨files, files', rfl, rfl, (Collects.of_collectInputs hfiles).components_eq
          (Collects.of_collectInputs hfiles') hagrees hsame⟩

/-- Directories whose names come in another order by their characters than their files do as paths. -/
def twoDirectories : Tree where
  entries := [
    (["work", "sql-x"], .directory),
    (["work", "sql-x", "q"], .file "".toUTF8),
    (["work", "sql", "b"], .file "".toUTF8),
    (["work"], .directory),
    (["work", "sql"], .directory)]
  home := ["work"]

theorem collectInputs_canonical_twoDirectories :
    let arguments := ["/work/sql", "../work/sq?/b", "sql//b", "sql", "*/q"]
    let sources := ["/work/sql/b", "../work/sql/b", "sql//b", "sql-x/q"]
    let other : Tree := { entries := twoDirectories.entries.reverse, home := ["work"] }
    let unlisted : Tree := {
      entries := twoDirectories.entries
      home := ["work"]
      unlisted := [(["work", "sql"], .denied)] }
    (collectInputs twoDirectories arguments).2 = .ok sources ∧
    (∃ files, (collectInputs other ("sql" :: arguments.reverse)).2 = .ok files ∧
      files.Pairwise Path.Before ∧ files.map Path.components = sources.map Path.components) ∧
    ∃ failure, (collectInputs unlisted arguments).2 = .error failure := by
  intro arguments sources other unlisted
  -- Four arguments reach one file under three spellings, and the first in order stands for each.
  have hexpand : (expandArguments twoDirectories arguments).2 =
      .ok ["/work/sql/b", "../work/sql/b", "sql//b", "sql/b", "sql-x/q"] := by
    decide +kernel
  have hfirst : (collectInputs twoDirectories arguments).2 = .ok sources := by
    rw [collectInputs_eq, hexpand, Except.map, Path.sortedOnce,
      List.mergeSort_of_pairwise (by decide +kernel)]
    decide +kernel
  refine ⟨hfirst, ?_, ?_⟩
  · have hagrees : twoDirectories.Agrees other :=
      Tree.agrees_of_perm (List.reverse_perm _).symm rfl rfl
    have hsame : ∀ argument, argument ∈ arguments ↔ argument ∈ "sql" :: arguments.reverse := by
      intro argument
      have hsql : "sql" ∈ arguments := by decide
      constructor
      · exact fun h => List.mem_cons_of_mem _ (List.mem_reverse.2 h)
      · exact fun h => (List.mem_cons.1 h).elim (· ▸ hsql) List.mem_reverse.1
    obtain ⟨failure, failure', herror, -⟩ | ⟨files, files', hfiles, hfiles', heq⟩ :=
      (collectInputs_canonical twoDirectories _).2.2 other _ hagrees hsame
    · cases hfirst.symm.trans herror
    · obtain rfl := Except.ok.inj (hfirst.symm.trans hfiles)
      exact ⟨files', hfiles', ((collectInputs_canonical other _).2.1 files' hfiles').1, heq.symm⟩
  · have hdirectory : unlisted.isDirectory "sql" = true := by decide +kernel
    have hlist : unlisted.list "sql" = .error .denied := by decide +kernel
    exact (collectInputs_canonical unlisted arguments).1.2
      ⟨"sql", by decide, .directory hdirectory hlist⟩

end ProcBook
