/-
ProcBook/Proofs/Bracketed.lean

The references of a body, said without the search for them.

A name stands in brackets behind some text if no bracket is open there and the name runs to the next
closing bracket (`NamedAfter`).  Nothing else is read as a name: a bracket inside the brackets of a name
belongs to it, and brackets with nothing between them name nothing.

Main result: `references_listed`.  The references are just these names, but for the schema, each once and
in the order in which they first stand in the body.
-/
import ProcBook.Proofs.Comment
import ProcBook.Proofs.Repetition

namespace ProcBook.Sql

/-! ### Names in brackets -/

/-- A name stands in brackets in a text, behind `before`. -/
structure NamedAfter (text before name : List Char) : Prop where
  ne_nil : name ≠ []
  /-- The name runs to the next closing bracket. -/
  unclosed : ']' ∉ name
  /-- No bracket is open in front of it. -/
  shut : ∀ behind, '[' :: behind <:+ before → ']' ∈ behind
  exists_after : ∃ after, text = before ++ '[' :: (name ++ ']' :: after)

variable {text before name : List Char}

theorem not_namedAfter_nil : ¬ NamedAfter [] before name := by
  intro h
  obtain ⟨after, hafter⟩ := h.exists_after
  simp at hafter

theorem not_namedAfter_unclosed (h : ']' ∉ text) : ¬ NamedAfter ('[' :: text) before name := by
  intro hname
  obtain ⟨after, hafter⟩ := hname.exists_after
  have hmem : ']' ∈ '[' :: text := by simp [hafter]
  exact h (List.mem_of_ne_of_mem (by decide) hmem)

/-- A character that opens no bracket is skipped. -/
theorem namedAfter_cons_iff {c : Char} (hc : c ≠ '[') :
    NamedAfter (c :: text) before name ↔
      ∃ before', before = c :: before' ∧ NamedAfter text before' name := by
  constructor
  · rintro ⟨hne, hname, hshut, after, hafter⟩
    cases before with
    | nil => exact absurd (List.cons.inj hafter).1 hc
    | cons d before =>
      obtain ⟨rfl, rfl⟩ := List.cons.inj hafter
      refine ⟨before, rfl, hne, hname, fun behind hb => hshut behind ?_, after, rfl⟩
      exact hb.trans (List.suffix_cons c before)
  · rintro ⟨before, rfl, hne, hname, hshut, after, rfl⟩
    refine ⟨hne, hname, fun behind hb => ?_, after, rfl⟩
    rcases List.suffix_cons_iff.1 hb with heq | hb
    · exact absurd (List.cons.inj heq).1.symm hc
    · exact hshut behind hb

/-- Closed brackets hold the first name, if they hold anything, and all others stand behind them. -/
theorem namedAfter_closed_iff {first rest : List Char} (h : ']' ∉ first) :
    NamedAfter ('[' :: (first ++ ']' :: rest)) before name ↔
      (before = [] ∧ name = first ∧ first ≠ []) ∨
        ∃ before', before = '[' :: (first ++ ']' :: before') ∧ NamedAfter rest before' name := by
  constructor
  · rintro ⟨hne, hname, hshut, after, hafter⟩
    cases before with
    | nil =>
      obtain ⟨rfl, -⟩ := Text.append_cons_inj h hname (List.cons.inj hafter).2
      exact .inl ⟨rfl, rfl, hne⟩
    | cons d before =>
      obtain ⟨rfl, -⟩ := List.cons.inj hafter
      -- The bracket at the front is closed again, and the name stands behind that.
      obtain ⟨front, before, rfl, hfront⟩ :=
        List.eq_append_cons_of_mem (hshut before List.suffix_rfl)
      have hrest : first ++ ']' :: rest =
          front ++ ']' :: (before ++ '[' :: (name ++ ']' :: after)) := by simpa using hafter
      obtain ⟨rfl, rfl⟩ := Text.append_cons_inj h hfront hrest
      refine .inr ⟨before, rfl, hne, hname, fun behind hb => hshut behind ?_, after, rfl⟩
      exact hb.trans ⟨'[' :: (first ++ [']']), by simp⟩
  · rintro (⟨rfl, rfl, hne⟩ | ⟨before, rfl, hne, hname, hshut, after, rfl⟩)
    · exact ⟨hne, h, fun behind hb => absurd hb (by simp), rest, rfl⟩
    · refine ⟨hne, hname, fun behind hb => ?_, after, by simp⟩
      have hback : ']' :: before <:+ '[' :: (first ++ ']' :: before) := ⟨'[' :: first, by simp⟩
      rcases List.suffix_or_suffix_of_suffix hb hback with hb | hb
      · rcases List.suffix_cons_iff.1 hb with heq | hb
        · exact absurd (List.cons.inj heq).1 (by decide)
        · exact hshut behind hb
      · rcases List.suffix_cons_iff.1 hb with heq | hb
        · exact absurd (List.cons.inj heq).1 (by decide)
        · exact hb.subset List.mem_cons_self

/-! ### The search -/

/-- The search finds all names in brackets and nothing else. -/
theorem mem_bracketed_iff : name ∈ bracketed text ↔ ∃ before, NamedAfter text before name := by
  -- The induction goes from one pair of brackets to what is behind it.
  induction text using bracketed_induction with
  | nil => simp [bracketed, not_namedAfter_nil]
  | cons c text hc ih =>
    rw [bracketed_cons hc, ih]
    simp only [namedAfter_cons_iff hc]
    constructor
    · rintro ⟨before, h⟩
      exact ⟨_, before, rfl, h⟩
    · rintro ⟨-, before, rfl, h⟩
      exact ⟨before, h⟩
  | unclosed text hclose =>
    rw [bracketed_unclosed hclose]
    simp [not_namedAfter_unclosed hclose]
  | closed first rest hfirst ih =>
    have hmem : name ∈ bracketed ('[' :: (first ++ ']' :: rest)) ↔
        (name = first ∧ first ≠ []) ∨ name ∈ bracketed rest := by
      rw [bracketed_name hfirst]
      by_cases hnil : first = []
      · simp [hnil]
      · simp [hnil]
    rw [hmem, ih]
    simp only [namedAfter_closed_iff hfirst]
    constructor
    · rintro (⟨rfl, hne⟩ | ⟨before, h⟩)
      · exact ⟨[], .inl ⟨rfl, rfl, hne⟩⟩
      · exact ⟨_, .inr ⟨before, rfl, h⟩⟩
    · rintro ⟨-, ⟨-, rfl, hne⟩ | ⟨before, -, h⟩⟩
      · exact .inl ⟨rfl, hne⟩
      · exact .inr ⟨before, h⟩

/-- A name is found where it stands: those that are found in front of it stand in front of it, and no
others. -/
theorem exists_namedAfter_of_bracketed {front back : List (List Char)}
    (h : bracketed text = front ++ name :: back) :
    ∃ before, NamedAfter text before name ∧ ∀ other before', NamedAfter text before' other →
      other ∈ front ∨ other = name ∨ before.length < before'.length := by
  induction text using bracketed_induction generalizing front with
  | nil => simp [bracketed] at h
  | cons c text hc ih =>
    rw [bracketed_cons hc] at h
    obtain ⟨before, hname, hothers⟩ := ih h
    refine ⟨c :: before, (namedAfter_cons_iff hc).2 ⟨before, rfl, hname⟩, ?_⟩
    intro other _ hother
    obtain ⟨before', rfl, hbehind⟩ := (namedAfter_cons_iff hc).1 hother
    simpa using hothers other before' hbehind
  | unclosed text hclose =>
    rw [bracketed_unclosed hclose] at h
    simp at h
  | closed first rest hfirst ih =>
    rw [bracketed_name hfirst] at h
    -- Behind the first brackets everything is as in the rest of the text.
    have hrest : ∀ {front'}, bracketed rest = front' ++ name :: back →
        (first ≠ [] → first ∈ front) → front' ⊆ front →
        ∃ before, NamedAfter ('[' :: (first ++ ']' :: rest)) before name ∧
          ∀ other before', NamedAfter ('[' :: (first ++ ']' :: rest)) before' other →
            other ∈ front ∨ other = name ∨ before.length < before'.length := by
      intro front' hsplit hmem hsubset
      obtain ⟨before, hname, hothers⟩ := ih hsplit
      refine ⟨_, (namedAfter_closed_iff hfirst).2 (.inr ⟨before, rfl, hname⟩), ?_⟩
      intro other _ hother
      rcases (namedAfter_closed_iff hfirst).1 hother with ⟨-, rfl, hne⟩ | ⟨before', rfl, hbehind⟩
      · exact .inl (hmem hne)
      · rcases hothers other before' hbehind with hfront | hsame | hlater
        · exact .inl (hsubset hfront)
        · exact .inr (.inl hsame)
        · exact .inr (.inr (by simpa using hlater))
    -- Empty brackets give no name, so the split lies behind them. Otherwise the first name either is
    -- the one looked for or stands in front.
    by_cases hnil : first = []
    · rw [if_pos hnil] at h
      exact hrest h (fun hne => absurd hnil hne) (List.Subset.refl _)
    · rw [if_neg hnil] at h
      rcases List.cons_eq_append_iff.1 h with ⟨rfl, hname⟩ | ⟨front', rfl, hback⟩
      · obtain ⟨rfl, rfl⟩ := List.cons.inj hname
        refine ⟨[], (namedAfter_closed_iff hfirst).2 (.inl ⟨rfl, rfl, hnil⟩), ?_⟩
        intro other _ hother
        rcases (namedAfter_closed_iff hfirst).1 hother with ⟨-, rfl, -⟩ | ⟨before', rfl, -⟩
        · exact .inr (.inl rfl)
        · exact .inr (.inr (by simp))
      · exact hrest hback (fun _ => List.mem_cons_self) (List.subset_cons_self _ _)

/-! ### The references -/

/-- The references as one filter over the names in brackets, each once. -/
theorem references_eq_filter (schema : String) (body : List Char) : references schema body =
    ((bracketed (stripComments body)).map String.ofList).eraseDups.filter (· != schema) := by
  rw [references, eraseDups_filter]

/-- A name is a reference exactly if it stands in brackets somewhere outside of comments and is not the
schema. -/
theorem mem_references_iff {schema name : String} {body : List Char} :
    name ∈ references schema body ↔
      name ≠ schema ∧ ∃ before, NamedAfter (stripComments body) before name.toList := by
  rw [references_eq_filter, List.mem_filter, List.mem_eraseDups, List.mem_map, ← mem_bracketed_iff,
    bne_iff_ne, and_comm]
  refine and_congr_right fun _ => ⟨?_, fun h => ⟨_, h, String.ofList_toList⟩⟩
  rintro ⟨chars, hmem, rfl⟩
  rwa [String.toList_ofList]

/-- **The references of a body are the names in brackets outside its comments**, without the schema's,
each once.  Of two references the first one stands somewhere in front of all places of the second, and
the schema does nothing but leave out its own name. -/
theorem references_listed (schema : String) (body : List Char) :
    (references schema body).Nodup ∧
      (∀ name, name ∈ references schema body ↔
        name ≠ schema ∧ ∃ before, NamedAfter (stripComments body) before name.toList) ∧
      ((references schema body).Pairwise fun first second =>
        ∃ before, NamedAfter (stripComments body) before first.toList ∧
          ∀ before', NamedAfter (stripComments body) before' second.toList →
            before.length < before'.length) ∧
      references schema body = (references "" body).filter (· != schema) := by
  refine ⟨nodup_eraseDups _, fun name => mem_references_iff, ?_, ?_⟩
  · rw [references_eq_filter]
    refine ((pairwise_eraseDups _).imp ?_).filter _
    rintro first second ⟨front, back, hnames, hfront, hne⟩
    obtain ⟨front, tail, hbracketed, rfl, htail⟩ := List.map_eq_append_iff.1 hnames
    obtain ⟨first, back, rfl, rfl, -⟩ := List.map_eq_cons_iff.1 htail
    obtain ⟨before, hfirst, hothers⟩ := exists_namedAfter_of_bracketed hbracketed
    rw [String.toList_ofList]
    refine ⟨before, hfirst, fun before' hsecond => ?_⟩
    rcases hothers _ before' hsecond with hmem | rfl | hlater
    · exact absurd (List.mem_map.2 ⟨_, hmem, String.ofList_toList⟩) hfront
    · exact absurd String.ofList_toList hne
    · exact hlater
  · rw [references_eq_filter, references_eq_filter "", List.filter_filter]
    apply List.filter_congr
    intro name hname
    -- Nothing that is found is empty.
    obtain ⟨chars, hmem, rfl⟩ := List.mem_map.1 (List.mem_eraseDups.1 hname)
    obtain ⟨before, hnamed⟩ := mem_bracketed_iff.1 hmem
    have hne : String.ofList chars ≠ "" := by
      intro h
      exact hnamed.ne_nil (by rw [← String.toList_ofList (l := chars), h]; rfl)
    simp [hne]

/-- A name that first stands inside the brackets of another one is listed at its own first place. -/
theorem references_listed_nested :
    let body := "/*[x]*/[][a[b] [c]--[d]\n[dbo] [b] [a[b]".toList
    references "dbo" body = ["a[b", "c", "b"] ∧
      ∃ before, NamedAfter (stripComments body) before ['c'] ∧
        ∀ before', NamedAfter (stripComments body) before' ['b'] →
          before.length < before'.length := by
  intro body
  have hlisted : references "dbo" body = ["a[b", "c", "b"] := by decide +kernel
  obtain ⟨-, -, hordered, -⟩ := references_listed "dbo" body
  rw [hlisted] at hordered
  obtain ⟨-, hordered⟩ := List.pairwise_cons.1 hordered
  exact ⟨hlisted, List.rel_of_pairwise_cons hordered List.mem_cons_self⟩

end ProcBook.Sql
