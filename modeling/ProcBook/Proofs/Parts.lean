/-
ProcBook/Proofs/Parts.lean

Pieces of a text and the phrases they hold.

* A cut of a text is harmless if no word goes across it (`CutsNoWord`), and `IsPart` is a piece between
  two such cuts.  A part holds no phrase that the text does not hold (`IsPart.holds`), and trimming,
  splitting and cutting at a character that belongs to no word give parts.
* `IsFirst` says what a search finds without any search: a phrase in whole words, and none before it.
* `InOrder` lists pieces that stand one behind the other.
-/
import ProcBook.Proofs.Phrase

namespace ProcBook.Text

/-! ### Cuts between words -/

/-- No word goes on from the end of `left` to the start of `right`. -/
def CutsNoWord (left right : List Char) : Prop :=
  ∀ c ∈ left.getLast?, ∀ d ∈ right.head?, isWord c = false ∨ isWord d = false

theorem cutsNoWord_of_getLast {left : List Char} (h : left.getLast?.any isWord = false)
    (right : List Char) : CutsNoWord left right := by
  intro c hc d _
  rw [Option.mem_def.1 hc] at h
  exact .inl h

theorem cutsNoWord_of_head {right : List Char} (h : right.head?.any isWord = false)
    (left : List Char) : CutsNoWord left right := by
  intro c _ d hd
  rw [Option.mem_def.1 hd] at h
  exact .inr h

/-- A blank is no character of a word. -/
theorem isWord_of_isBlank {c : Char} (h : isBlank c = true) : isWord c = false := by
  -- There are few blanks, so each of them is looked up.
  have hblanks : ∀ n ∈ [0x09, 0x0a, 0x0b, 0x0c, 0x0d, 0x20, 0x85, 0xa0, 0x1680, 0x2000, 0x2001,
      0x2002, 0x2003, 0x2004, 0x2005, 0x2006, 0x2007, 0x2008, 0x2009, 0x200a, 0x2028, 0x2029,
      0x202f, 0x205f, 0x3000], isWord (Char.ofNat n) = false := by
    decide +kernel
  rw [← Char.ofNat_toNat c]
  apply hblanks
  simp only [isBlank, Bool.or_eq_true, Bool.and_eq_true, decide_eq_true_eq, beq_iff_eq] at h
  simp only [List.mem_cons, List.not_mem_nil, or_false]
  omega

theorem any_isWord_getLast_of_blanks {text : List Char} (h : Blanks text) :
    text.getLast?.any isWord = false := by
  cases hlast : text.getLast? with
  | none => rfl
  | some c => exact isWord_of_isBlank (h c (List.mem_of_getLast? hlast))

theorem any_isWord_head_of_blanks {text : List Char} (h : Blanks text) :
    text.head?.any isWord = false := by
  cases hhead : text.head? with
  | none => rfl
  | some c => exact isWord_of_isBlank (h c (List.mem_of_head? hhead))

/-! ### Parts -/

/-- A piece of a text that cuts no word of it. -/
def IsPart (piece text : List Char) : Prop :=
  ∃ before after, text = before ++ piece ++ after ∧ CutsNoWord before piece ∧
    CutsNoWord piece after

theorem IsPart.refl (text : List Char) : IsPart text text :=
  ⟨[], [], by simp, cutsNoWord_of_getLast rfl _, cutsNoWord_of_head rfl _⟩

/-- A part of a part is a part: a cut inside of the larger piece cuts no word, and one at its edge is a
cut of the text. -/
theorem IsPart.trans {piece part text : List Char} (h : IsPart piece part) (h' : IsPart part text) :
    IsPart piece text := by
  obtain ⟨before, after, rfl, hbefore, hafter⟩ := h
  obtain ⟨before', after', rfl, hbefore', hafter'⟩ := h'
  refine ⟨before' ++ before, after ++ after', by simp, ?_, ?_⟩
  · intro c hc d hd
    rw [List.getLast?_append] at hc
    -- If nothing of the larger piece stands in front, its own edge is the cut.
    cases hlast : before.getLast? with
    | some b =>
      rw [hlast] at hc
      exact hbefore c (by rw [hlast]; exact hc) d hd
    | none =>
      obtain rfl := List.getLast?_eq_none_iff.1 hlast
      refine hbefore' c (by simpa using hc) d ?_
      rw [List.nil_append, List.head?_append, Option.mem_def.1 hd]
      rfl
  · intro c hc d hd
    rw [List.head?_append] at hd
    cases hhead : after.head? with
    | some b =>
      rw [hhead] at hd
      exact hafter c hc d (by rw [hhead]; exact hd)
    | none =>
      obtain rfl := List.head?_eq_none_iff.1 hhead
      refine hafter' c ?_ d (by simpa using hd)
      rw [List.append_nil, List.getLast?_append, Option.mem_def.1 hc]
      rfl

theorem IsPart.isInfix {piece text : List Char} (h : IsPart piece text) : piece <:+: text := by
  obtain ⟨before, after, rfl, -⟩ := h
  exact ⟨before, after, rfl⟩

/-- A written phrase ends with a letter. -/
theorem Written.exists_getLast {phrase : Phrase} {written : List Char} (hp : IsPlain phrase)
    (h : Written phrase written) : ∃ c, written.getLast? = some c ∧ isWord c = true := by
  induction h with
  | @last word written hw =>
    obtain ⟨c, rest, rfl, -⟩ := hw.exists_cons hp.ne_nil hp.letters
    exact ⟨_, List.getLast?_eq_some_getLast (List.cons_ne_nil c rest),
      hw.isWord hp.letters _ (List.getLast_mem _)⟩
  | more _ _ _ _ ih =>
    obtain ⟨c, hlast, hc⟩ := ih hp.tail
    exact ⟨c, by rw [List.getLast?_append, hlast]; rfl, hc⟩

/-- A text holds a phrase exactly if a spelling of it is a part of the text. -/
theorem holds_iff_isPart {phrase : Phrase} {text : List Char} (hp : IsPlain phrase) :
    Holds phrase text ↔ ∃ written, Written phrase written ∧ IsPart written text := by
  constructor
  · rintro ⟨before, written, after, rfl, hw, hleft, hright⟩
    rw [Option.or_none] at hleft
    exact ⟨written, hw, before, after, rfl, cutsNoWord_of_getLast hleft _,
      cutsNoWord_of_head hright _⟩
  · rintro ⟨written, hw, before, after, rfl, hbefore, hafter⟩
    -- A spelling begins and ends with characters of words, so at its ends the text must not go on with
    -- one.
    obtain ⟨c, rest, rfl, hc, -⟩ := hw.exists_cons hp
    obtain ⟨d, hlast, hd⟩ := hw.exists_getLast hp
    refine ⟨before, _, after, rfl, hw, ?_, ?_⟩
    · cases hb : before.getLast? with
      | none => rfl
      | some b =>
        rcases hbefore b hb c rfl with h | h
        · exact h
        · rw [hc] at h; cases h
    · cases ha : after.head? with
      | none => rfl
      | some a =>
        rcases hafter d hlast a ha with h | h
        · rw [hd] at h; cases h
        · exact h

/-- A part holds no phrase that the text does not hold. -/
theorem IsPart.holds {phrase : Phrase} {piece text : List Char} (h : IsPart piece text)
    (hp : IsPlain phrase) (hpiece : Holds phrase piece) : Holds phrase text := by
  rw [holds_iff_isPart hp] at hpiece ⊢
  obtain ⟨written, hw, hpart⟩ := hpiece
  exact ⟨written, hw, hpart.trans h⟩

/-! ### Phrases and the character in front -/

theorem getLast?_or_of_ne_nil {text : List Char} (h : text ≠ []) (previous : Option Char) :
    text.getLast?.or previous = text.getLast? := by
  rw [List.getLast?_eq_some_getLast h, Option.some_or]

theorem HoldsAfter.holds {previous : Option Char} {phrase : Phrase} {text : List Char}
    (h : HoldsAfter previous phrase text) : Holds phrase text := by
  obtain ⟨before, written, after, rfl, hw, hleft, hright⟩ := h
  refine ⟨before, written, after, rfl, hw, ?_, hright⟩
  cases hlast : before.getLast? with
  | none => rfl
  | some c => simpa [hlast] using hleft

/-- In a text that starts with no word, nothing depends on the character in front. -/
theorem Holds.after {phrase : Phrase} {text : List Char} (hp : IsPlain phrase)
    (hhead : text.head?.any isWord = false) (h : Holds phrase text) (previous : Option Char) :
    HoldsAfter previous phrase text := by
  obtain ⟨before, written, after, rfl, hw, hleft, hright⟩ := h
  refine ⟨before, written, after, rfl, hw, ?_, hright⟩
  cases hlast : before.getLast? with
  | none =>
    -- The text would start with the phrase, and a phrase starts with a letter.
    obtain rfl := List.getLast?_eq_none_iff.1 hlast
    obtain ⟨c, rest, rfl, hc, -⟩ := hw.exists_cons hp
    simp [hc] at hhead
  | some c => simpa [hlast] using hleft

theorem not_holds_blanks {phrase : Phrase} {text : List Char} (hp : IsPlain phrase)
    (h : Blanks text) : ¬ Holds phrase text := by
  rintro ⟨before, written, after, rfl, hw, -⟩
  obtain ⟨c, rest, rfl, -, hc⟩ := hw.exists_cons hp
  rw [h c (by simp)] at hc
  cases hc

/-- A single word stands in a text only if it stands in one of the pieces of a cut between words. -/
theorem not_holds_append {phrase : Phrase} {left right : List Char} (hp : IsPlain phrase)
    (hne : phrase ≠ []) (htail : phrase.tail = []) (hcut : CutsNoWord left right)
    (hleft : ¬ Holds phrase left) (hright : ¬ Holds phrase right) :
    ¬ Holds phrase (left ++ right) := by
  intro h
  rcases h.of_append hp hne ⟨hcut, by simp [htail]⟩ with h | h
  · exact hleft h
  · exact hright h.holds

/-! ### What a search finds -/

/-- The phrase stands as whole words where the find says, behind the character `previous`. -/
structure StandsAt (phrase : Phrase) (previous : Option Char) (f : Found) : Prop where
  written : Written phrase f.matched
  left : (f.before.getLast?.or previous).any isWord = false
  right : f.after.head?.any isWord = false

theorem StandsAt.holdsAfter {phrase : Phrase} {previous : Option Char} {f : Found}
    (h : StandsAt phrase previous f) : HoldsAfter previous phrase f.text :=
  ⟨f.before, f.matched, f.after, rfl, h.written, h.left, h.right⟩

/-- The phrase stands nowhere in the text before the find. -/
structure IsFirst (phrase : Phrase) (previous : Option Char) (f : Found) : Prop
    extends StandsAt phrase previous f where
  first : ∀ g : Found, g.text = f.text → StandsAt phrase previous g →
    f.before.length ≤ g.before.length

/-- What the search finds is the first place where the phrase stands. -/
theorem isFirst_of_find? {phrase : Phrase} {previous : Option Char} {text : List Char} {f : Found}
    (hp : IsPlain phrase) (hne : phrase ≠ []) (h : find? phrase previous text = some f) :
    IsFirst phrase previous f := by
  have htext := text_of_find? h
  -- The search goes on behind a character if the phrase is not read in front of it.
  induction text generalizing previous f with
  | nil => simp [find?] at h
  | cons c text ih =>
    rw [find?] at h
    split at h
    · next written rest hread =>
      obtain rfl := Option.some.inj h
      obtain ⟨hw, -, hleft, hright⟩ := (readWhole?_eq_some_iff hp hne).1 hread
      exact ⟨⟨hw, by simpa using hleft, hright⟩, fun _ _ _ => Nat.zero_le _⟩
    · next hnone =>
      obtain ⟨f, hf, rfl⟩ := Option.map_eq_some_iff.1 h
      obtain ⟨⟨hw, hleft, hright⟩, hfirst⟩ := ih hf (text_of_find? hf)
      refine ⟨⟨hw, ?_, hright⟩, ?_⟩
      · rw [Found.shift, getLast?_cons_or]
        exact hleft
      · rintro ⟨before, matched, after⟩ hg ⟨hw', hleft', hright'⟩
        rw [Found.text_shift] at hg
        cases before with
        | nil =>
          -- The phrase was not read at the front of the text.
          have hread : readWhole? phrase previous (matched ++ after) = some (matched, after) :=
            (readWhole?_eq_some_iff hp hne).2 ⟨hw', rfl, by simpa using hleft', hright'⟩
          have hsame : matched ++ after = c :: text := by
            rw [← text_of_find? hf, ← hg]
            simp [Found.text]
          rw [hsame, hnone] at hread
          cases hread
        | cons d before =>
          obtain ⟨rfl, hrest⟩ := List.cons.inj hg
          rw [getLast?_cons_or] at hleft'
          exact Nat.succ_le_succ (hfirst ⟨before, matched, after⟩ hrest ⟨hw', hleft', hright'⟩)

/-- A phrase is found where it stands first, and nowhere else. -/
theorem find?_eq_some_iff {phrase : Phrase} {previous : Option Char} {text : List Char} {f : Found}
    (hp : IsPlain phrase) (hne : phrase ≠ []) :
    find? phrase previous text = some f ↔ f.text = text ∧ IsFirst phrase previous f := by
  constructor
  · intro h
    exact ⟨text_of_find? h, isFirst_of_find? hp hne h⟩
  · rintro ⟨rfl, h⟩
    obtain ⟨g, hg⟩ : ∃ g, find? phrase previous f.text = some g :=
      Option.ne_none_iff_exists'.1 fun hnone => (find?_eq_none_iff hp hne).1 hnone h.holdsAfter
    have hgtext := text_of_find? hg
    have hgfirst := isFirst_of_find? hp hne hg
    have hlength : f.before.length = g.before.length :=
      Nat.le_antisymm (h.first g hgtext hgfirst.toStandsAt) (hgfirst.first f hgtext.symm h.toStandsAt)
    simp only [Found.text, List.append_assoc] at hgtext
    obtain ⟨hbefore, hrest⟩ := List.append_inj hgtext.symm hlength
    -- At one place a phrase is read in one way only.
    have hread := readPhrase?_written hp h.written f.after
    rw [hrest, readPhrase?_written hp hgfirst.written g.after, Option.some.injEq, Prod.mk.injEq] at hread
    rw [hg, Option.some.injEq]
    cases f
    cases g
    simp_all

/-- Nothing before the first place holds the phrase. -/
theorem IsFirst.not_holdsAfter {phrase : Phrase} {previous : Option Char} {f : Found}
    (hp : IsPlain phrase) (h : IsFirst phrase previous f) :
    ¬ HoldsAfter previous phrase f.before := by
  rintro ⟨before, written, after, hbefore, hw, hleft, hright⟩
  obtain ⟨c, rest, hwritten, -⟩ := hw.exists_cons hp
  have hstands : StandsAt phrase previous ⟨before, written, after ++ f.matched ++ f.after⟩ := by
    refine ⟨hw, hleft, ?_⟩
    cases after with
    | cons d after => simpa using hright
    | nil =>
      -- A phrase up to the find would end with a letter, and no letter stands there.
      obtain ⟨d, hlast, hd⟩ := hw.exists_getLast hp
      have hfind := h.left
      rw [hbefore, List.append_nil, List.getLast?_append, hlast] at hfind
      simp [hd] at hfind
  have hlength := h.first _ (by simp [Found.text, hbefore]) hstands
  rw [hbefore, hwritten] at hlength
  simp only [List.length_append, List.length_cons] at hlength
  omega

/-! ### Cutting parts out of a text -/

theorem CutsNoWord.isPart_left {left right : List Char} (h : CutsNoWord left right) :
    IsPart left (left ++ right) :=
  ⟨[], right, rfl, cutsNoWord_of_getLast rfl _, h⟩

theorem CutsNoWord.isPart_right {left right : List Char} (h : CutsNoWord left right) :
    IsPart right (left ++ right) :=
  ⟨left, [], (List.append_nil _).symm, h, cutsNoWord_of_head rfl _⟩

theorem isPart_trimEnd (text : List Char) : IsPart (trimEnd text) text := by
  obtain ⟨right, hr, htext⟩ := exists_trimEnd_append text
  have hpart := (cutsNoWord_of_head (any_isWord_head_of_blanks hr) (trimEnd text)).isPart_left
  rwa [← htext] at hpart

theorem isPart_trimStart (text : List Char) : IsPart (trimStart text) text := by
  have hblanks : Blanks (text.takeWhile isBlank) := fun c hc => List.mem_takeWhile_imp hc
  have hpart := (cutsNoWord_of_getLast (any_isWord_getLast_of_blanks hblanks)
    (trimStart text)).isPart_right
  rwa [trimStart, List.takeWhile_append_dropWhile] at hpart

/-- Trimming cuts no word. -/
theorem isPart_trim (text : List Char) : IsPart (trim text) text :=
  (isPart_trimEnd _).trans (isPart_trimStart text)

theorem head?_dropWhile_ne {c : Char} (hc : isWord c = false) (text : List Char) :
    (text.dropWhile (· != c)).head?.any isWord = false := by
  have hhead := any_head?_dropWhile (· != c) text
  cases hd : (text.dropWhile (· != c)).head? with
  | none => rfl
  | some d =>
    obtain rfl : d = c := by simpa [hd] using hhead
    exact hc

theorem isPart_takeWhile_ne {c : Char} (hc : isWord c = false) (text : List Char) :
    IsPart (text.takeWhile (· != c)) text := by
  have hpart := (cutsNoWord_of_head (head?_dropWhile_ne hc text)
    (text.takeWhile (· != c))).isPart_left
  rwa [List.takeWhile_append_dropWhile] at hpart

theorem isPart_dropWhile_ne {c : Char} (hc : isWord c = false) (text : List Char) :
    IsPart (text.dropWhile (· != c)) text := by
  have hpart := (cutsNoWord_of_head (head?_dropWhile_ne hc text)
    (text.takeWhile (· != c))).isPart_right
  rwa [List.takeWhile_append_dropWhile] at hpart

/-- Joined pieces are parts, if the divider belongs to no word. -/
theorem isPart_of_mem_intercalate {c : Char} (hc : isWord c = false) {pieces : List (List Char)}
    {piece : List Char} (h : piece ∈ pieces) : IsPart piece ([c].intercalate pieces) := by
  induction pieces with
  | nil => cases h
  | cons first others ih =>
    cases others with
    | nil =>
      obtain rfl := List.mem_singleton.1 h
      rw [List.intercalate_singleton]
      exact IsPart.refl piece
    | cons next others =>
      rw [List.intercalate_cons_cons]
      rcases List.mem_cons.1 h with rfl | h
      · rw [List.append_assoc]
        exact (cutsNoWord_of_head (by simpa using hc) piece).isPart_left
      · have hlast : (first ++ [c]).getLast?.any isWord = false := by simpa using hc
        exact (ih h).trans (cutsNoWord_of_getLast hlast _).isPart_right

/-! ### Pieces in order -/

/-- The pieces stand in a text one behind the other, without overlap. -/
inductive InOrder : List (List Char) → List Char → Prop
  | nil (text : List Char) : InOrder [] text
  | cons {pieces : List (List Char)} {after : List Char} (before piece : List Char) :
      InOrder pieces after → InOrder (piece :: pieces) (before ++ piece ++ after)

theorem InOrder.append_left {pieces : List (List Char)} {text : List Char} (h : InOrder pieces text)
    (left : List Char) : InOrder pieces (left ++ text) := by
  cases h with
  | nil => exact .nil _
  | cons before piece h =>
    rw [← List.append_assoc, ← List.append_assoc]
    exact .cons (left ++ before) piece h

theorem InOrder.append_right {pieces : List (List Char)} {text : List Char}
    (h : InOrder pieces text) (right : List Char) : InOrder pieces (text ++ right) := by
  induction h with
  | nil => exact .nil _
  | cons before piece _ ih =>
    rw [List.append_assoc]
    exact .cons before piece ih

theorem InOrder.of_isInfix {pieces : List (List Char)} {part text : List Char}
    (h : InOrder pieces part) (hpart : part <:+: text) : InOrder pieces text := by
  obtain ⟨left, right, rfl⟩ := hpart
  exact (h.append_left left).append_right right

/-- Leaving out pieces keeps the order of the others. -/
theorem InOrder.filter {pieces : List (List Char)} {text : List Char} (h : InOrder pieces text)
    (p : List Char → Bool) : InOrder (pieces.filter p) text := by
  induction h with
  | nil => exact .nil _
  | cons before piece _ ih =>
    by_cases hp : p piece = true
    · rw [List.filter_cons_of_pos hp]
      exact .cons before piece ih
    · rw [List.filter_cons_of_neg hp]
      exact ih.append_left _

/-- So does replacing each piece by one inside of it. -/
theorem InOrder.map {pieces : List (List Char)} {text : List Char} (h : InOrder pieces text)
    {f : List Char → List Char} (hf : ∀ piece, f piece <:+: piece) :
    InOrder (pieces.map f) text := by
  induction h with
  | nil => exact .nil _
  | cons before piece _ ih =>
    obtain ⟨left, right, hpiece⟩ := hf piece
    have hcons := InOrder.cons (before ++ left) (f piece) (ih.append_left right)
    rw [List.map_cons]
    convert hcons using 1
    nth_rewrite 1 [← hpiece]
    simp only [List.append_assoc]

/-- Pieces stand in their order in the text they are joined to. -/
theorem inOrder_intercalate (divider : List Char) (pieces : List (List Char)) :
    InOrder pieces (divider.intercalate pieces) := by
  induction pieces with
  | nil => exact .nil _
  | cons piece pieces ih =>
    cases pieces with
    | nil =>
      rw [List.intercalate_singleton]
      simpa using InOrder.cons [] piece (.nil [])
    | cons next pieces =>
      rw [List.intercalate_cons_cons, List.append_assoc]
      exact .cons [] piece (ih.append_left divider)

end ProcBook.Text
