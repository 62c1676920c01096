/-
ProcBook/Proofs/Matching.lean

What a pattern matches.

The matching of a name (`MatchesName`) cuts the name into parts, one for each token.  The matching of a
path is said step by step: `LeadsNext` tells where a single component leads from a directory, `Below`
what is in a directory and further down, and `Leads` puts them together.  None of them looks at the
functions that search a tree.  The search finds just what is said so (`mem_expandFrom_iff`), and nothing
of it depends on the order of entries (`Matches.agrees`).
-/
import ProcBook.Disk.Pattern
import ProcBook.Proofs.Components
import ProcBook.Proofs.Listing

namespace ProcBook

/-! ### Names -/

/-- A character lies in a range. -/
def CharRange.Holds (c : Char) : CharRange → Prop
  | single d => c = d
  | range first last => first ≤ c ∧ c ≤ last

/-- A token stands for a text. -/
inductive Token.Stands : Token → List Char → Prop
  | char (c : Char) : Stands (.char c) [c]
  | anyChar (c : Char) : Stands .anyChar [c]
  | anySequence (text : List Char) : Stands .anySequence text
  | anyDirectories (text : List Char) : Stands .anyDirectories text
  | within {ranges : List CharRange} {c : Char} :
      (∃ range ∈ ranges, range.Holds c) → Stands (.within ranges) [c]
  | except {ranges : List CharRange} {c : Char} :
      (¬ ∃ range ∈ ranges, range.Holds c) → Stands (.except ranges) [c]

namespace Pattern

/-- A name consists of parts that the tokens stand for, in their order. -/
def MatchesName (tokens : List Token) (name : List Char) : Prop :=
  ∃ parts, List.Forall₂ Token.Stands tokens parts ∧ parts.flatten = name

theorem contains_iff {c : Char} {range : CharRange} : range.contains c = true ↔ range.Holds c := by
  cases range with
  | single d => exact beq_iff_eq
  | range first last => simp [CharRange.contains, CharRange.Holds]

theorem any_contains_iff {c : Char} {ranges : List CharRange} :
    ranges.any (·.contains c) = true ↔ ∃ range ∈ ranges, range.Holds c := by
  simp only [List.any_eq_true, contains_iff]

/-- Some tail of a text passes a test: the text can be cut so that its back does. -/
theorem anyTail_iff {test : List Char → Bool} {text : List Char} :
    Text.anyTail test text = true ↔ ∃ front back, front ++ back = text ∧ test back = true := by
  induction text with
  | nil => simp [Text.anyTail]
  | cons c text ih =>
    rw [Text.anyTail, Bool.or_eq_true, ih]
    constructor
    · rintro (h | ⟨front, back, rfl, h⟩)
      · exact ⟨[], c :: text, rfl, h⟩
      · exact ⟨c :: front, back, rfl, h⟩
    · rintro ⟨- | ⟨d, front⟩, back, heq, h⟩
      · exact .inl (heq ▸ h)
      · exact .inr ⟨front, back, (List.cons.inj heq).2, h⟩

theorem matchesName_nil_iff {name : List Char} : MatchesName [] name ↔ name = [] := by
  simp [MatchesName, eq_comm]

/-- The first token stands for the front of the name, and the others match what is left. -/
theorem matchesName_cons_iff {token : Token} {tokens : List Token} {name : List Char} :
    MatchesName (token :: tokens) name ↔
      ∃ front back, front ++ back = name ∧ token.Stands front ∧ MatchesName tokens back := by
  constructor
  · rintro ⟨parts, hparts, rfl⟩
    obtain ⟨front, others, hfront, hothers, rfl⟩ := List.forall₂_cons_left_iff.1 hparts
    exact ⟨front, others.flatten, rfl, hfront, others, hothers, rfl⟩
  · rintro ⟨front, back, rfl, hfront, others, hothers, rfl⟩
    exact ⟨front :: others, .cons hfront hothers, rfl⟩

theorem accepts_except_iff {ranges : List CharRange} {c : Char} :
    (Token.except ranges).accepts c = true ↔ ¬ ∃ range ∈ ranges, range.Holds c := by
  rw [Token.accepts, Bool.not_eq_true', ← Bool.not_eq_true, any_contains_iff]

/-- A token for single characters stands for those that it accepts. -/
theorem stands_iff {token : Token} {text : List Char} (hsequence : token ≠ .anySequence)
    (hdirectories : token ≠ .anyDirectories) :
    token.Stands text ↔ ∃ c, text = [c] ∧ token.accepts c = true := by
  constructor
  · intro h
    cases h with
    | char c => exact ⟨c, rfl, beq_self_eq_true c⟩
    | anyChar c => exact ⟨c, rfl, rfl⟩
    | anySequence => exact absurd rfl hsequence
    | anyDirectories => exact absurd rfl hdirectories
    | within h => exact ⟨_, rfl, any_contains_iff.2 h⟩
    | except h => exact ⟨_, rfl, accepts_except_iff.2 h⟩
  · rintro ⟨c, rfl, h⟩
    cases token with
    | char d =>
      rw [beq_iff_eq.1 h]
      exact .char d
    | anyChar => exact .anyChar c
    | anySequence => exact absurd rfl hsequence
    | anyDirectories => exact absurd rfl hdirectories
    | within ranges => exact .within (any_contains_iff.1 h)
    | except ranges => exact .except (accepts_except_iff.1 h)

/-- A token for single characters takes the first one of a name. -/
theorem matchesName_single {token : Token} (hsequence : token ≠ .anySequence)
    (hdirectories : token ≠ .anyDirectories) (tokens : List Token) (c : Char) (name : List Char) :
    matchesName (token :: tokens) [] = false ∧
      matchesName (token :: tokens) (c :: name) = (token.accepts c && matchesName tokens name) := by
  cases token with
  | anySequence => exact absurd rfl hsequence
  | anyDirectories => exact absurd rfl hdirectories
  | _ => exact ⟨rfl, rfl⟩

/-- **Names are matched as it is said.** -/
theorem matchesName_iff {tokens : List Token} {name : List Char} :
    matchesName tokens name = true ↔ MatchesName tokens name := by
  -- The induction is on the tokens, as the search takes them one by one.
  induction tokens generalizing name with
  | nil => rw [matchesName, List.isEmpty_iff, matchesName_nil_iff]
  | cons token tokens ih =>
    rw [matchesName_cons_iff]
    by_cases hsequence : token = .anySequence ∨ token = .anyDirectories
    · -- Any front of the name will do.
      have hstands : ∀ front, token.Stands front := by
        rcases hsequence with rfl | rfl
        · exact .anySequence
        · exact .anyDirectories
      have htail : matchesName (token :: tokens) name = Text.anyTail (matchesName tokens) name := by
        rcases hsequence with rfl | rfl
        · rw [matchesName]
        · rw [matchesName]
      simp only [htail, anyTail_iff, ih, hstands, true_and]
    · rw [not_or] at hsequence
      simp only [stands_iff hsequence.1 hsequence.2, ← ih]
      cases name with
      | nil =>
        rw [(matchesName_single hsequence.1 hsequence.2 tokens ' ' []).1]
        simp
      | cons c name =>
        rw [(matchesName_single hsequence.1 hsequence.2 tokens c name).2, Bool.and_eq_true]
        constructor
        · rintro ⟨hc, hname⟩
          exact ⟨[c], name, rfl, ⟨c, rfl, hc⟩, hname⟩
        · rintro ⟨_, back, heq, ⟨d, rfl, hd⟩, hback⟩
          obtain ⟨rfl, rfl⟩ := List.cons.inj heq
          exact ⟨hd, hback⟩

/-- A component spells a name exactly if it consists of the characters of that name. -/
theorem literal?_eq_some_iff {tokens : List Token} {text : List Char} :
    literal? tokens = some text ↔ tokens = text.map Token.char := by
  induction tokens generalizing text with
  | nil => simp [literal?, eq_comm]
  | cons token tokens ih =>
    cases token with
    | char c =>
      rw [literal?, Option.map_eq_some_iff]
      simp only [ih]
      constructor
      · rintro ⟨rest, rfl, rfl⟩
        rfl
      · intro h
        cases text with
        | nil => cases h
        | cons d rest =>
          obtain ⟨hc, hrest⟩ := List.cons.inj h
          exact ⟨rest, hrest, by rw [Token.char.inj hc]⟩
    | _ =>
      show none = some text ↔ _
      constructor
      · nofun
      · intro h
        cases text <;> cases h

/-! ### Below a directory -/

/-- Something is in a directory or further down, as far as names can be read; with its last name. -/
inductive Below (tree : Tree) : Path → Path → String → Prop
  | entry {path : Path} {names : List String} {name : String} : tree.list path = .ok names →
      name ∈ names → Below tree path (childPath path name) name
  | deeper {path : Path} {names : List String} {name : String} {below : Path} {last : String} :
      tree.list path = .ok names → name ∈ names →
      Below tree (childPath path name) below last → Below tree path below last

variable {tree other : Tree}

theorem mem_names_iff {path : Path} {name : String} :
    name ∈ names tree path ↔ ∃ names, tree.list path = .ok names ∧ name ∈ names := by
  unfold names
  cases tree.list path <;> simp

/-- Below a directory are its entries, and what is below these on the levels that are left. -/
theorem mem_descendants_succ_iff {levels : Nat} {path below : Path} {last : String} :
    (below, last) ∈ descendants tree (levels + 1) path ↔ ∃ name ∈ names tree path,
      childPath path name = below ∧ name = last ∨
        (below, last) ∈ descendants tree levels (childPath path name) := by
  rw [descendants, List.mem_flatMap]
  simp only [List.mem_cons, Prod.mk.injEq, eq_comm]

/-- Whatever the search finds is below the directory, however many levels it goes down. -/
theorem below_of_mem_descendants {levels : Nat} {path below : Path} {last : String}
    (h : (below, last) ∈ descendants tree levels path) : Below tree path below last := by
  induction levels generalizing path with
  | zero => cases h
  | succ levels ih =>
    obtain ⟨name, hname, hentry⟩ := mem_descendants_succ_iff.1 h
    obtain ⟨names, hnames, hmem⟩ := mem_names_iff.1 hname
    rcases hentry with ⟨rfl, rfl⟩ | hdeeper
    · exact .entry hnames hmem
    · exact .deeper hnames hmem (ih hdeeper)

theorem le_foldr_max {n : Nat} {numbers : List Nat} (h : n ∈ numbers) : n ≤ numbers.foldr max 0 := by
  induction numbers with
  | nil => cases h
  | cons m numbers ih =>
    rw [List.foldr_cons]
    rcases List.mem_cons.1 h with rfl | h
    · exact Nat.le_max_left _ _
    · exact Nat.le_trans (ih h) (Nat.le_max_right _ _)

/-- A directory with an entry is not as deep as a tree can be. -/
theorem length_lt_depth {path : Path} {names : List String} {name : String}
    (hnames : tree.list path = .ok names) (hname : name ∈ names) :
    (tree.location path).length < tree.depth := by
  obtain ⟨-, rfl⟩ := Tree.list_eq_ok hnames
  have hfind := Tree.mem_children_iff.1 hname
  rw [Tree.find?, nodeAt?, if_neg (by simp), isSome_lookup_iff] at hfind
  obtain ⟨entry, hentry, hplace⟩ := List.mem_map.1 hfind
  have hle : entry.1.length ≤ tree.depth :=
    le_foldr_max (List.mem_map_of_mem (f := fun e : Location × Node => e.1.length) hentry)
  rw [hplace, List.length_append, List.length_singleton] at hle
  exact hle

/-- The path of an entry denotes the place of the entry, also where the name stands alone. -/
theorem location_childPath (tree : Tree) (path : Path) {name : String} (h : Path.IsName name) :
    tree.location (childPath path name) = tree.location path ++ [name] := by
  unfold childPath
  split
  · next hsame =>
    -- Below the working directory the name alone denotes the same place.
    have hcomponents : path.components = [.current] := beq_iff_eq.1 hsame
    have hstart : tree.start path = tree.home := by
      rw [Tree.start, Path.isAbsolute_eq, hcomponents]
      rfl
    rw [Path.location_eq_components, Path.location_eq_components, h.components, hcomponents, hstart,
      Tree.start, h.isAbsolute]
    rfl
  · exact Path.location_join tree path h

/-- Every level that is searched is one less to search, so a search as deep as the tree misses
nothing. -/
theorem mem_descendants_of_below {path below : Path} {last : String}
    (h : Below tree path below last) {levels : Nat}
    (hlevels : tree.depth ≤ levels + (tree.location path).length) :
    (below, last) ∈ descendants tree levels path := by
  induction h generalizing levels with
  | entry hnames hname =>
    have hdepth := length_lt_depth hnames hname
    obtain ⟨levels, rfl⟩ : ∃ n, levels = n + 1 := ⟨levels - 1, by omega⟩
    exact mem_descendants_succ_iff.2 ⟨_, mem_names_iff.2 ⟨_, hnames, hname⟩, .inl ⟨rfl, rfl⟩⟩
  | @deeper path names name below last hnames hname _ ih =>
    have hdepth := length_lt_depth hnames hname
    obtain ⟨levels, rfl⟩ : ∃ n, levels = n + 1 := ⟨levels - 1, by omega⟩
    refine mem_descendants_succ_iff.2 ⟨_, mem_names_iff.2 ⟨_, hnames, hname⟩, .inr (ih ?_)⟩
    rw [location_childPath tree path ((Tree.names_of_list hnames).2 name hname), List.length_append,
      List.length_singleton]
    omega

/-- A search as deep as the tree finds all that is below a directory and nothing else. -/
theorem mem_descendants_iff {path below : Path} {last : String} :
    (below, last) ∈ descendants tree tree.depth path ↔ Below tree path below last :=
  ⟨below_of_mem_descendants, fun h => mem_descendants_of_below h (Nat.le_add_right _ _)⟩

/-! ### Paths -/

/-- A component that is not just spelled out. -/
def HasSpecial (tokens : List Token) : Prop := ∀ text : List Char, tokens ≠ text.map .char

/-- Where a component other than `**` leads from a path. -/
inductive LeadsNext (tree : Tree) (path : Path) : List Token → Path → Prop
  /-- A name without special characters need only exist. -/
  | spelled {text : List Char} {place : Location × Node} :
      String.ofList text ≠ "." → String.ofList text ≠ ".." →
      tree.node (childPath path (String.ofList text)) = .ok place →
      LeadsNext tree path (text.map .char) (childPath path (String.ofList text))
  | special {text : List Char} : String.ofList text = "." ∨ String.ofList text = ".." →
      tree.isDirectory path = true →
      LeadsNext tree path (text.map .char) (childPath path (String.ofList text))
  /-- Special characters match the names in a directory. -/
  | entry {tokens : List Token} {names : List String} {name : String} :
      HasSpecial tokens → tree.list path = .ok names → name ∈ names →
      MatchesName tokens name.toList → LeadsNext tree path tokens (childPath path name)
  /-- They match `.` and `..` too, but only behind a dot that is spelled out. -/
  | dots {tokens : List Token} {names : List String} {name : String} :
      HasSpecial tokens → tree.list path = .ok names → name = "." ∨ name = ".." →
      tokens.head? = some (.char '.') → MatchesName tokens name.toList →
      LeadsNext tree path tokens (path.join name)

/-- Components lead from a path to another one. -/
inductive Leads (tree : Tree) (directoriesOnly : Bool) : List (List Token) → Path → Path → Prop
  | done {path : Path} : (directoriesOnly = true → tree.isDirectory path = true) →
      Leads tree directoriesOnly [] path path
  | component {tokens : List Token} {pieces : List (List Token)} {path next found : Path} :
      tokens ≠ [.anyDirectories] → LeadsNext tree path tokens next →
      Leads tree directoriesOnly pieces next found →
      Leads tree directoriesOnly (tokens :: pieces) path found
  /-- At the end `**` stands for every directory further down. -/
  | directory {path below : Path} {name : String} : Below tree path below name →
      tree.isDirectory below = true → Leads tree directoriesOnly [[.anyDirectories]] path below
  /-- Before a further component it stands for any number of directories. -/
  | anywhere {tokens : List Token} {pieces : List (List Token)} {path below found : Path}
      {name : String} : tokens ≠ [.anyDirectories] → Below tree path below name →
      MatchesName tokens name.toList → Leads tree directoriesOnly pieces below found →
      Leads tree directoriesOnly ([.anyDirectories] :: tokens :: pieces) path found
  /-- A second `**` behind the first one adds nothing. -/
  | again {pieces : List (List Token)} {path found : Path} :
      Leads tree directoriesOnly ([.anyDirectories] :: pieces) path found →
      Leads tree directoriesOnly ([.anyDirectories] :: [.anyDirectories] :: pieces) path found

/-- A pattern matches a path of a tree. -/
def Matches (tree : Tree) (pattern found : Path) : Prop :=
  ∃ pieces, read pattern = .ok pieces ∧ Leads tree pattern.endsWithSlash pieces (scope pattern) found

theorem startsWithDot_iff {tokens : List Token} :
    startsWithDot tokens = true ↔ tokens.head? = some (.char '.') := by
  rcases tokens with - | ⟨token, tokens⟩
  · simp [startsWithDot]
  · cases token <;> simp [startsWithDot]

/-- A component without special characters leads to the name that it spells. -/
theorem mem_nextPaths_of_literal {text : List Char} {path next : Path} :
    next ∈ nextPaths tree (text.map .char) path ↔
      LeadsNext tree path (text.map .char) next := by
  rw [nextPaths, literal?_eq_some_iff.2 rfl]
  simp only [List.mem_ite_nil_right, List.mem_singleton]
  constructor
  · rintro ⟨hreached, rfl⟩
    -- The names `.` and `..` ask for a directory, any other for something of that name.
    split at hreached
    · next hspecial => exact .special (by simpa using hspecial) hreached
    · next hspecial =>
      simp only [Bool.or_eq_true, beq_iff_eq, not_or] at hspecial
      cases hnode : tree.node (childPath path (String.ofList text)) with
      | error error =>
        rw [hnode] at hreached
        cases hreached
      | ok place => exact .spelled hspecial.1 hspecial.2 hnode
  · intro h
    -- The tokens are generalized, for they are an index of the relation.
    generalize htokens : text.map Token.char = tokens at h
    cases h with
    | @spelled other place hdot hdots hnode =>
      obtain rfl := List.map_injective_iff.2 (fun _ _ => Token.char.inj) htokens
      refine ⟨?_, rfl⟩
      rw [if_neg (by simp [hdot, hdots]), hnode]
      rfl
    | @special other hspecial hdirectory =>
      obtain rfl := List.map_injective_iff.2 (fun _ _ => Token.char.inj) htokens
      refine ⟨?_, rfl⟩
      rw [if_pos (by simpa using hspecial)]
      exact hdirectory
    | entry hspecial => exact absurd htokens.symm (hspecial text)
    | dots hspecial => exact absurd htokens.symm (hspecial text)

/-- A component with special characters leads to the entries whose names it matches. -/
theorem mem_nextPaths_of_hasSpecial {tokens : List Token} (hspecial : HasSpecial tokens)
    {path next : Path} : next ∈ nextPaths tree tokens path ↔ LeadsNext tree path tokens next := by
  have hnone : literal? tokens = none := by
    cases hliteral : literal? tokens with
    | none => rfl
    | some text => exact absurd (literal?_eq_some_iff.1 hliteral) (hspecial text)
  -- The directory is listed, and the two dots are asked for apart.
  rw [nextPaths, hnone]
  dsimp only
  constructor
  · intro h
    split at h
    · cases h
    · next names hnames =>
      simp only [List.mem_append, List.mem_map, List.mem_filter, Bool.and_eq_true, matchesName_iff,
        startsWithDot_iff, List.mem_cons, List.not_mem_nil, or_false] at h
      rcases h with ⟨name, ⟨hname, hmatches⟩, rfl⟩ | ⟨name, ⟨hname, hdot, hmatches⟩, rfl⟩
      · exact .entry hspecial hnames hname hmatches
      · exact .dots hspecial hnames hname hdot hmatches
  · intro h
    cases h with
    | @spelled text => exact absurd rfl (hspecial text)
    | @special text => exact absurd rfl (hspecial text)
    | entry _ hnames hname hmatches =>
      rw [hnames]
      refine List.mem_append_left _ (List.mem_map_of_mem (List.mem_filter.2 ⟨hname, ?_⟩))
      exact matchesName_iff.2 hmatches
    | dots _ hnames hname hdot hmatches =>
      rw [hnames]
      refine List.mem_append_right _ (List.mem_map_of_mem (List.mem_filter.2 ⟨?_, ?_⟩))
      · simpa using hname
      · rw [Bool.and_eq_true, startsWithDot_iff, matchesName_iff]
        exact ⟨hdot, hmatches⟩

/-- A single component leads where it is said to lead. -/
theorem mem_nextPaths_iff {tokens : List Token} {path next : Path} :
    next ∈ nextPaths tree tokens path ↔ LeadsNext tree path tokens next := by
  by_cases hliteral : ∃ text : List Char, tokens = text.map .char
  · obtain ⟨text, rfl⟩ := hliteral
    exact mem_nextPaths_of_literal
  · exact mem_nextPaths_of_hasSpecial fun text htext => hliteral ⟨text, htext⟩

section

variable {directoriesOnly : Bool} {tokens : List Token} {pieces : List (List Token)}
  {path found : Path}

theorem leads_nil_iff : Leads tree directoriesOnly [] path found ↔
    found = path ∧ (directoriesOnly = true → tree.isDirectory path = true) := by
  constructor
  · rintro ⟨hdirectory⟩
    exact ⟨rfl, hdirectory⟩
  · rintro ⟨rfl, hdirectory⟩
    exact .done hdirectory

/-- A component other than `**` leads on step by step. -/
theorem leads_component_iff (hplain : tokens ≠ [.anyDirectories]) :
    Leads tree directoriesOnly (tokens :: pieces) path found ↔
      ∃ next, LeadsNext tree path tokens next ∧ Leads tree directoriesOnly pieces next found := by
  constructor
  · intro h
    cases h with
    | component _ hnext hfound => exact ⟨_, hnext, hfound⟩
    | directory => exact absurd rfl hplain
    | anywhere => exact absurd rfl hplain
    | again => exact absurd rfl hplain
  · rintro ⟨next, hnext, hfound⟩
    exact .component hplain hnext hfound

/-- A last `**` leads to the directories further down. -/
theorem leads_directory_iff : Leads tree directoriesOnly [[.anyDirectories]] path found ↔
    (∃ name, Below tree path found name) ∧ tree.isDirectory found = true := by
  constructor
  · intro h
    cases h with
    | component hplain => exact absurd rfl hplain
    | directory hbelow hdirectory => exact ⟨⟨_, hbelow⟩, hdirectory⟩
  · rintro ⟨⟨name, hbelow⟩, hdirectory⟩
    exact .directory hbelow hdirectory

/-- A second `**` adds nothing. -/
theorem leads_again_iff :
    Leads tree directoriesOnly ([.anyDirectories] :: [.anyDirectories] :: pieces) path found ↔
      Leads tree directoriesOnly ([.anyDirectories] :: pieces) path found := by
  refine ⟨?_, .again⟩
  intro h
  cases h with
  | component hplain => exact absurd rfl hplain
  | anywhere hplain => exact absurd rfl hplain
  | again h => exact h

/-- A `**` before another component leads to wherever that component matches the last name. -/
theorem leads_anywhere_iff (hplain : tokens ≠ [.anyDirectories]) :
    Leads tree directoriesOnly ([.anyDirectories] :: tokens :: pieces) path found ↔
      ∃ below name, Below tree path below name ∧ MatchesName tokens name.toList ∧
        Leads tree directoriesOnly pieces below found := by
  constructor
  · intro h
    cases h with
    | component hplain => exact absurd rfl hplain
    | anywhere _ hbelow hname hfound => exact ⟨_, _, hbelow, hname, hfound⟩
    | again => exact absurd rfl hplain
  · rintro ⟨below, name, hbelow, hname, hfound⟩
    exact .anywhere hplain hbelow hname hfound

/-- **A tree is searched as it is said.** -/
theorem mem_expandFrom_iff : found ∈ expandFrom tree directoriesOnly pieces path ↔
    Leads tree directoriesOnly pieces path found := by
  fun_induction expandFrom tree directoriesOnly pieces path with
  | case1 path hrefused =>
    rw [Bool.and_eq_true, Bool.not_eq_true'] at hrefused
    simp [leads_nil_iff, hrefused]
  | case2 path hkept =>
    rw [List.mem_singleton, leads_nil_iff, iff_self_and]
    intro _ honly
    simpa [honly] using hkept
  | case3 tokens pieces path hplain ih =>
    rw [List.mem_flatMap, leads_component_iff (bne_iff_ne.1 hplain)]
    simp only [mem_nextPaths_iff, ih]
  | case4 tokens path hany =>
    obtain rfl : tokens = [.anyDirectories] := by simpa using hany
    rw [List.mem_filter, List.mem_map, leads_directory_iff]
    simp [mem_descendants_iff]
  | case5 tokens path hany next rest hagain ih =>
    obtain rfl : tokens = [.anyDirectories] := by simpa using hany
    obtain rfl := beq_iff_eq.1 hagain
    rw [ih, leads_again_iff]
  | case6 tokens path hany next rest hplain ih =>
    obtain rfl : tokens = [.anyDirectories] := by simpa using hany
    rw [List.mem_flatMap, leads_anywhere_iff (by simpa using hplain)]
    simp [ih, matchesName_iff, mem_descendants_iff]

end

/-! ### Whole patterns -/

/-- A pattern fails only because of its form, whatever the tree. -/
theorem expand_eq_error_iff {pattern : Path} {error : PatternError} :
    expand tree pattern = .error error ↔ read pattern = .error error := by
  unfold expand
  cases read pattern <;> simp

/-- **A pattern is expanded to the paths that it matches.** -/
theorem mem_expand_iff {pattern found : Path} {paths : List Path}
    (h : expand tree pattern = .ok paths) : found ∈ paths ↔ Matches tree pattern found := by
  unfold expand at h
  unfold Matches
  cases hread : read pattern with
  | error error =>
    rw [hread] at h
    cases h
  | ok pieces =>
    rw [hread] at h
    obtain rfl := Except.ok.inj h
    rw [mem_expandFrom_iff]
    simp

/-! ### The order of entries -/

/-- Which paths are below a directory does not depend on the order of entries. -/
theorem Below.agrees (hagrees : tree.Agrees other) {path below : Path} {name : String}
    (h : Below tree path below name) : Below other path below name := by
  induction h with
  | entry hnames hname =>
    obtain ⟨names', hnames', hsame⟩ := hagrees.list hnames
    exact .entry hnames' ((hsame _).1 hname)
  | deeper hnames hname _ ih =>
    obtain ⟨names', hnames', hsame⟩ := hagrees.list hnames
    exact .deeper hnames' ((hsame _).1 hname) ih

theorem LeadsNext.agrees (hagrees : tree.Agrees other) {path next : Path} {tokens : List Token}
    (h : LeadsNext tree path tokens next) : LeadsNext other path tokens next := by
  cases h with
  | spelled hdot hdots hnode => exact .spelled hdot hdots (hagrees.node _ ▸ hnode)
  | special hname hdirectory => exact .special hname (hagrees.isDirectory _ ▸ hdirectory)
  | entry hspecial hnames hname hmatches =>
    obtain ⟨names', hnames', hsame⟩ := hagrees.list hnames
    exact .entry hspecial hnames' ((hsame _).1 hname) hmatches
  | dots hspecial hnames hname hdot hmatches =>
    obtain ⟨names', hnames', -⟩ := hagrees.list hnames
    exact .dots hspecial hnames' hname hdot hmatches

theorem Leads.agrees (hagrees : tree.Agrees other) {directoriesOnly : Bool}
    {pieces : List (List Token)} {path found : Path}
    (h : Leads tree directoriesOnly pieces path found) :
    Leads other directoriesOnly pieces path found := by
  induction h with
  | done hdirectory => exact .done fun honly => hagrees.isDirectory _ ▸ hdirectory honly
  | component hplain hnext _ ih => exact .component hplain (hnext.agrees hagrees) ih
  | directory hbelow hdirectory =>
    exact .directory (hbelow.agrees hagrees) (hagrees.isDirectory _ ▸ hdirectory)
  | anywhere hplain hbelow hname _ ih => exact .anywhere hplain (hbelow.agrees hagrees) hname ih
  | again _ ih => exact .again ih

/-- A pattern matches the same paths in trees that list their entries in different orders. -/
theorem Matches.agrees (hagrees : tree.Agrees other) {pattern found : Path}
    (h : Matches tree pattern found) : Matches other pattern found := by
  obtain ⟨pieces, hread, hleads⟩ := h
  exact ⟨pieces, hread, hleads.agrees hagrees⟩

end Pattern

end ProcBook
