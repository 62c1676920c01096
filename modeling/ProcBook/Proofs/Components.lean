/-
ProcBook/Proofs/Components.lean

Paths by their components.

A path is walked along piece by piece, and compared and taken apart by its components.  The components
lead to the same place as the pieces (`location_eq_components`), and the path that is spelled out of some
first components of a path has exactly these again (`components_take`).  So a statement about the paths
above a path comes down to one about lists of components.  An entry of a directory has one component
more than the directory (`components_join`).
-/
import ProcBook.Proofs.Disk

namespace ProcBook

/-! ### Components and pieces -/

namespace Component

/-- Where a component leads. -/
def move (location : Location) : Component → Location
  | root => []
  | current => location
  | parent => location.dropLast
  | name text => location ++ [text]

/-- A component that is read back from its spelling, as a piece between slashes. -/
structure IsPiece (component : Component) : Prop where
  component? : Path.component? component.spell = some component
  no_slash : '/' ∉ component.spell.toList

end Component

namespace Path

variable {path : Path} {piece : String} {component : Component}

/-- No slash is left in the pieces between the slashes. -/
theorem not_mem_of_mem_pieces (h : piece ∈ path.pieces) : '/' ∉ piece.toList := by
  obtain ⟨text, htext, rfl⟩ := List.mem_map.1 h
  rw [String.toList_ofList]
  exact Text.not_mem_of_mem_splitOn htext

theorem pieces_ne_nil (path : Path) : path.pieces ≠ [] := by
  simpa [pieces] using Text.splitOn_ne_nil '/' path.toList

/-- A component of a piece is spelled as that piece and leads where the step of the piece leads. -/
theorem step?_of_component? (hslash : '/' ∉ piece.toList) (h : component? piece = some component) :
    component.spell = piece ∧ ∃ step, Tree.step? piece = some step ∧
      ∀ location, step.move location = component.move location := by
  unfold component? at h
  split at h
  · cases h
  · next hspecial =>
    simp only [Bool.or_eq_true, beq_iff_eq, not_or] at hspecial
    split at h
    · next hparent =>
      obtain rfl := Option.some.inj h
      obtain rfl : piece = ".." := by simpa using hparent
      exact ⟨rfl, .up, rfl, fun _ => rfl⟩
    · next hparent =>
      obtain rfl := Option.some.inj h
      have hname : IsName piece := ⟨hspecial.1, hspecial.2, by simpa using hparent, hslash⟩
      exact ⟨rfl, .down piece hname, by simp [Tree.step?, hname], fun _ => rfl⟩

/-- A piece without component is empty, or a dot, which is a step to the same place. -/
theorem step?_of_no_component? (h : component? piece = none) :
    Tree.step? piece = none ∨ Tree.step? piece = some .stay := by
  unfold component? at h
  split at h
  · next hspecial =>
    rcases Bool.or_eq_true_iff.1 hspecial with hempty | hdot
    · rw [beq_iff_eq.1 hempty]
      exact .inl (by decide)
    · rw [beq_iff_eq.1 hdot]
      exact .inr rfl
  · split at h <;> cases h

/-- The components of some pieces lead where the pieces lead. -/
theorem follow_pieces {pieces : List String} (hslash : ∀ piece ∈ pieces, '/' ∉ piece.toList)
    (location : Location) : Tree.follow location (pieces.filterMap Tree.step?) =
      (pieces.filterMap component?).foldl Component.move location := by
  induction pieces generalizing location with
  | nil => rfl
  | cons piece pieces ih =>
    have hrest := fun p hp => hslash p (List.mem_cons_of_mem _ hp)
    cases hc : component? piece with
    | none =>
      rw [List.filterMap_cons_none hc, ← ih hrest]
      rcases step?_of_no_component? hc with hs | hs
      · rw [List.filterMap_cons_none hs]
      · rw [List.filterMap_cons_some hs]
        rfl
    | some component =>
      obtain ⟨-, step, hs, hmove⟩ := step?_of_component? (hslash piece List.mem_cons_self) hc
      rw [List.filterMap_cons_some hc, List.filterMap_cons_some hs, List.foldl_cons, ← hmove,
        ← ih hrest]
      rfl

/-! ### The place of a path by its components -/

/-- Only two components can stand in front of those that come from pieces. -/
theorem leading_cases (path : Path) :
    path.leading = [] ∨ path.leading = [.root] ∨ path.leading = [.current] := by
  unfold leading
  split
  · exact .inr (.inl rfl)
  · split
    · exact .inr (.inr rfl)
    · exact .inl rfl

theorem length_leading_le (path : Path) : path.leading.length ≤ 1 := by
  rcases path.leading_cases with h | h | h <;> simp [h]

/-- The front of a path leads to where walks along the path start. -/
theorem foldl_leading (tree : Tree) (path : Path) :
    path.leading.foldl Component.move (tree.start path) = tree.start path := by
  unfold leading Tree.start
  split
  · rfl
  · split <;> rfl

/-- A path leads where its components lead, one after the other. -/
theorem location_eq_components (tree : Tree) (path : Path) :
    tree.location path = path.components.foldl Component.move (tree.start path) := by
  rw [components, List.foldl_append, foldl_leading, Tree.location,
    follow_pieces fun _ => not_mem_of_mem_pieces]

/-- The components that come from pieces are read back from their spelling. -/
theorem isPiece_of_mem (h : component ∈ path.pieces.filterMap component?) : component.IsPiece := by
  obtain ⟨piece, hpiece, hc⟩ := List.mem_filterMap.1 h
  have hslash := not_mem_of_mem_pieces hpiece
  obtain ⟨hspell, -⟩ := step?_of_component? hslash hc
  exact ⟨hspell ▸ hc, hspell ▸ hslash⟩

theorem ne_root_of_isPiece (h : component.IsPiece) : component ≠ .root := by
  rintro rfl
  cases h.component?

/-- Only a path that starts at the root has the root among its components, and has it in front. -/
theorem isAbsolute_eq (path : Path) :
    path.isAbsolute = (path.components.head? == some .root) := by
  cases habs : path.isAbsolute with
  | true => rw [components, leading, if_pos habs]; rfl
  | false =>
    rw [Eq.comm, beq_eq_false_iff_ne]
    intro hhead
    have hmem : Component.root ∈ path.components := List.mem_of_mem_head? hhead
    rcases List.mem_append.1 hmem with hmem | hmem
    · rw [leading, habs] at hmem
      split at hmem
      · cases ‹false = true›
      · split at hmem
        · simp at hmem
        · cases hmem
    · exact ne_root_of_isPiece (isPiece_of_mem hmem) rfl

/-- Walks along two paths start from the same place if the paths have the same first component. -/
theorem start_eq_of_head? {path other : Path} (h : path.components.head? = other.components.head?)
    (tree : Tree) : tree.start path = tree.start other := by
  rw [Tree.start, Tree.start, isAbsolute_eq, isAbsolute_eq, h]

/-! ### Paths spelled out of components -/

/-- A path that starts with a slash has an empty piece in front of others. -/
theorem isAbsolute_iff_pieces :
    path.isAbsolute = true ↔ ∃ rest, rest ≠ [] ∧ path.pieces = "" :: rest := by
  rw [isAbsolute, pieces]
  rcases path.toList with - | ⟨c, text⟩
  · simp [Text.splitOn]
  · rw [Text.splitOn]
    by_cases hc : c = '/'
    · subst hc
      simp [Text.splitOn_ne_nil]
    · obtain ⟨piece, rest, hsplit⟩ := List.exists_cons_of_ne_nil (Text.splitOn_ne_nil '/' text)
      simp [hc, hsplit, String.ofList_eq_empty_iff]

theorem ofComponents_eq {components : List Component} (h : components ≠ [.root]) :
    ofComponents components = "/".intercalate (components.map Component.spell) := by
  unfold ofComponents
  split
  · exact absurd rfl h
  · rfl

/-- The spelling of components falls into their own spellings again, as none of them holds a slash. -/
theorem pieces_ofComponents {components : List Component} (hne : components ≠ [])
    (hroot : components ≠ [.root])
    (h : ∀ component ∈ components, '/' ∉ component.spell.toList) :
    (ofComponents components).pieces = components.map Component.spell := by
  have hlist : (ofComponents components).toList =
      ['/'].intercalate (components.map fun component => component.spell.toList) := by
    rw [ofComponents_eq hroot]
    simp [Function.comp_def]
  have hsplit : Text.splitOn '/' (ofComponents components).toList =
      components.map fun component => component.spell.toList := by
    rw [hlist]
    apply Text.splitOn_intercalate (by simpa using hne)
    intro piece hpiece
    obtain ⟨component, hmem, rfl⟩ := List.mem_map.1 hpiece
    exact h component hmem
  rw [pieces, hsplit, List.map_map]
  simp [Function.comp_def]

/-- Components that are read back one by one are read back as a list. -/
theorem filterMap_spell {components : List Component} (h : ∀ component ∈ components, component.IsPiece) :
    (components.map Component.spell).filterMap component? = components := by
  induction components with
  | nil => rfl
  | cons component components ih =>
    rw [List.map_cons, List.filterMap_cons_some (h component List.mem_cons_self).component?,
      ih fun c hc => h c (List.mem_cons_of_mem _ hc)]

/-- Components in the form that they have in paths are those of the path spelled out of them. -/
theorem components_ofComponents {front rest : List Component}
    (hfront : front = [] ∨ front = [.root] ∨ front = [.current])
    (hrest : ∀ component ∈ rest, component.IsPiece) :
    (ofComponents (front ++ rest)).components = front ++ rest := by
  by_cases hne : front ++ rest = []
  · rw [hne]
    rfl
  by_cases hroot : front ++ rest = [.root]
  · rw [hroot]
    decide
  -- The spelling is cut at the slashes between components, and there are no others.
  have hslash : ∀ component ∈ front ++ rest, '/' ∉ component.spell.toList := by
    intro component hmem
    rcases List.mem_append.1 hmem with hmem | hmem
    · rcases hfront with rfl | rfl | rfl
      · cases hmem
      · rw [List.mem_singleton.1 hmem]
        decide
      · rw [List.mem_singleton.1 hmem]
        decide
    · exact (hrest component hmem).no_slash
  have hpieces := pieces_ofComponents hne hroot hslash
  have habs := @isAbsolute_iff_pieces (ofComponents (front ++ rest))
  rw [components, leading]
  rw [hpieces] at habs ⊢
  rcases hfront with rfl | rfl | rfl
  · -- The first piece is neither empty nor a dot, since it has a component.
    obtain ⟨component, others, rfl⟩ := List.exists_cons_of_ne_nil hne
    have hpiece := (hrest component List.mem_cons_self).component?
    have hempty : component.spell ≠ "" := fun he => by rw [he] at hpiece; cases hpiece
    have hdot : component.spell ≠ "." := fun he => by rw [he] at hpiece; cases hpiece
    rw [List.nil_append] at habs ⊢
    rw [if_neg (by simp [habs, hempty]), if_neg (by simp [hdot]), List.nil_append, filterMap_spell hrest]
  · -- The root is spelled as an empty piece in front.
    rw [if_pos (habs.2 ⟨rest.map Component.spell, by simpa using hroot, rfl⟩), List.map_append,
      List.filterMap_append, filterMap_spell hrest]
    rfl
  · -- A leading dot is spelled, so the path is relative.
    have hrelative : ¬ (ofComponents ([.current] ++ rest)).isAbsolute = true := by
      rw [habs]
      rintro ⟨others, -, heq⟩
      exact absurd (List.cons.inj heq).1 (by decide)
    rw [if_neg hrelative, if_pos (by rfl), List.map_append, List.filterMap_append,
      filterMap_spell hrest]
    rfl

/-- The path of the first components of a path has just these. -/
theorem components_take (path : Path) (n : Nat) :
    (ofComponents (path.components.take (n + 1))).components = path.components.take (n + 1) := by
  have hshort : path.leading.take (n + 1) = path.leading := by
    rcases path.leading_cases with h | h | h <;> simp [h]
  have htake : path.components.take (n + 1) = path.leading ++
      (path.pieces.filterMap component?).take (n + 1 - path.leading.length) := by
    rw [components, List.take_append, hshort]
  rw [htake]
  exact components_ofComponents path.leading_cases
    fun component hmem => isPiece_of_mem (List.mem_of_mem_take hmem)

/-! ### Names in a directory -/

theorem IsName.component? {name : String} (h : IsName name) :
    component? name = some (.name name) := by
  simp [Path.component?, h.nonempty, h.no_dot, h.no_dots]

/-- A name holds no slash, so it is a single piece. -/
theorem IsName.pieces {name : String} (h : IsName name) : Path.pieces name = [name] := by
  rw [Path.pieces, Text.splitOn_of_not_mem h.no_slash]
  simp

theorem IsName.isAbsolute {name : String} (h : IsName name) : Path.isAbsolute name = false := by
  rw [Bool.eq_false_iff, ne_eq, isAbsolute_iff_pieces, h.pieces]
  rintro ⟨rest, hne, heq⟩
  exact hne (List.cons.inj heq).2.symm

/-- As a path of its own a name is a single component. -/
theorem IsName.components {name : String} (h : IsName name) : Path.components name = [.name name] := by
  rw [Path.components, leading, h.isAbsolute, h.pieces, List.filterMap_cons_some h.component?]
  simp [h.no_dot]

/-- Joining a name adds it as a last piece.  A slash at the end of the directory has left an empty
piece behind, which the name takes the place of. -/
theorem pieces_join {directory : Path} (hne : directory ≠ "") {name : String}
    (h : IsName name) :
    ∃ front, front ≠ [] ∧ (directory.pieces = front ∨ directory.pieces = front ++ [""]) ∧
      (directory.join name).pieces = front ++ [name] := by
  have hname := h.pieces
  rw [join, h.isAbsolute, if_neg Bool.false_ne_true]
  unfold pieces at hname ⊢
  by_cases hslash : directory.endsWithSlash = true
  · -- The last slash of the directory stands in front of the name.
    obtain ⟨text, htext⟩ := List.getLast?_eq_some_iff.1 (beq_iff_eq.1 hslash)
    refine ⟨(Text.splitOn '/' text).map String.ofList, ?_, .inr ?_, ?_⟩
    · simpa using Text.splitOn_ne_nil '/' text
    · rw [htext, Text.splitOn_append, List.map_append]
      rfl
    · rw [if_pos (by simp [hslash]), String.toList_append, htext, List.append_assoc,
        List.singleton_append, Text.splitOn_append, List.map_append, hname]
  · refine ⟨directory.pieces, directory.pieces_ne_nil, .inl rfl, ?_⟩
    have hlist : (directory ++ "/" ++ name).toList =
        directory.toList ++ '/' :: name.toList := by simp
    rw [if_neg (by simp [hslash, hne]), hlist, Text.splitOn_append, List.map_append, hname]
    rfl

/-- An entry of a directory is reached from where the directory is reached from. -/
theorem isAbsolute_join {directory : Path} (hne : directory ≠ "") {name : String}
    (h : IsName name) : (directory.join name).isAbsolute = directory.isAbsolute := by
  have hnonempty : directory.toList ≠ [] := by
    intro hnil
    exact hne (String.toList_inj.1 hnil)
  rw [join, h.isAbsolute, if_neg Bool.false_ne_true]
  unfold isAbsolute
  split
  · rw [String.toList_append, List.head?_append_of_ne_nil _ hnonempty]
  · rw [String.toList_append, String.toList_append, List.append_assoc,
      List.head?_append_of_ne_nil _ hnonempty]

/-- An entry of a directory has its name for a further component. -/
theorem components_join (directory : Path) {name : String} (h : IsName name) :
    (directory.join name).components = directory.components ++ [.name name] := by
  by_cases hne : directory = ""
  · subst hne
    rw [join, h.isAbsolute, if_neg Bool.false_ne_true, if_pos (by rfl), String.empty_append,
      h.components]
    rfl
  obtain ⟨front, hfront, hpieces, hjoin⟩ := pieces_join hne h
  have hhead : (directory.join name).pieces.head? = directory.pieces.head? := by
    rw [hjoin, List.head?_append_of_ne_nil _ hfront]
    rcases hpieces with hpieces | hpieces
    · rw [hpieces]
    · rw [hpieces, List.head?_append_of_ne_nil _ hfront]
  have hmap : front.filterMap component? = directory.pieces.filterMap component? := by
    rcases hpieces with hpieces | hpieces
    · rw [hpieces]
    · rw [hpieces, List.filterMap_append]
      simp [Path.component?]
  rw [components, components, leading, leading, isAbsolute_join hne h, hhead, hjoin,
    List.filterMap_append, hmap, List.filterMap_cons_some h.component?, List.append_assoc]
  rfl

/-- An entry of a directory stands below the place of the directory. -/
theorem location_join (tree : Tree) (directory : Path) {name : String} (h : IsName name) :
    tree.location (directory.join name) = tree.location directory ++ [name] := by
  have hstart : tree.start (directory.join name) = tree.start directory := by
    rw [Tree.start, Tree.start, isAbsolute_eq, isAbsolute_eq, components_join directory h]
    cases directory.components <;> rfl
  rw [location_eq_components, location_eq_components, hstart, components_join directory h,
    List.foldl_append]
  rfl

end Path

end ProcBook
