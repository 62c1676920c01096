/-
ProcBook/Proofs/Stages.lean

Why a document yields no procedure.

A document goes through seven stages.  `Stage.Fails` says of each of them when it fails, from the text
alone: what an earlier stage finds is described, not taken over.  Several stages can fail on one text.
Main result: `Procedure.ofSource_outcome`.  A source yields no procedure exactly if some stage fails on
its text, the fault is that of the first one, and the schema has no part in any of this.
-/
import Mathlib.Order.WellFounded
import ProcBook.Proofs.DocsRecord
import ProcBook.Proofs.Document
import ProcBook.Proofs.Parts

namespace ProcBook.Text

/-! ### Pairs of phrases -/

/-- The first phrase stands first in the text, and the second one first behind it. -/
structure IsPair (opening closing : Phrase) (text : List Char) (first second : Found) : Prop where
  text_eq : first.text = text
  isFirst : IsFirst opening none first
  behind : second.text = first.after
  isSecond : IsFirst closing first.matched.getLast? second

/-- The first phrase stands in the text, and the second one does not stand behind it. -/
def NoneBehind (opening closing : Phrase) (text : List Char) : Prop :=
  ∃ first : Found, first.text = text ∧ IsFirst opening none first ∧
    ¬ HoldsAfter first.matched.getLast? closing first.after

section

variable {opening closing : Phrase} {text : List Char}

theorem IsPair.holds {first second : Found} (h : IsPair opening closing text first second) :
    Holds opening text := by
  rw [← h.text_eq]
  exact h.isFirst.holdsAfter

variable (hopening : IsPlain opening ∧ opening ≠ []) (hclosing : IsPlain closing ∧ closing ≠ [])

include hopening hclosing

/-- The search for two phrases finds exactly a pair. -/
theorem findPair?_eq_some_iff {first second : Found} :
    findPair? opening closing text = some (first, second) ↔
      IsPair opening closing text first second := by
  constructor
  · intro h
    rw [findPair?] at h
    split at h
    · cases h
    · next f hf =>
      obtain ⟨g, hg, heq⟩ := Option.map_eq_some_iff.1 h
      obtain ⟨rfl, rfl⟩ := Prod.mk.inj heq
      obtain ⟨htext, hfirst⟩ := (find?_eq_some_iff hopening.1 hopening.2).1 hf
      obtain ⟨hbehind, hsecond⟩ := (find?_eq_some_iff hclosing.1 hclosing.2).1 hg
      exact ⟨htext, hfirst, hbehind, hsecond⟩
  · rintro ⟨htext, hfirst, hbehind, hsecond⟩
    exact findPair?_eq ((find?_eq_some_iff hopening.1 hopening.2).2 ⟨htext, hfirst⟩)
      ((find?_eq_some_iff hclosing.1 hclosing.2).2 ⟨hbehind, hsecond⟩)

theorem noneBehind_iff : NoneBehind opening closing text ↔ ∃ first,
    find? opening none text = some first ∧
      find? closing first.matched.getLast? first.after = none := by
  simp only [NoneBehind, find?_eq_some_iff hopening.1 hopening.2,
    find?_eq_none_iff hclosing.1 hclosing.2, and_assoc]

/-- It fails for want of the first phrase or of a second one behind it. -/
theorem findPair?_eq_none_iff :
    findPair? opening closing text = none ↔
      ¬ Holds opening text ∨ NoneBehind opening closing text := by
  rw [noneBehind_iff hopening hclosing, Holds, ← find?_eq_none_iff hopening.1 hopening.2, findPair?]
  cases find? opening none text with
  | none => simp
  | some first => simp

theorem exists_isPair (hholds : Holds opening text) (hbehind : ¬ NoneBehind opening closing text) :
    ∃ first second, IsPair opening closing text first second := by
  rcases hpair : findPair? opening closing text with - | ⟨first, second⟩
  · rcases (findPair?_eq_none_iff hopening hclosing).1 hpair with h | h
    · exact absurd hholds h
    · exact absurd h hbehind
  · exact ⟨first, second, (findPair?_eq_some_iff hopening hclosing).1 hpair⟩

/-- A text has one such pair, so what stands between the phrases is determined. -/
theorem IsPair.unique {first second first' second' : Found}
    (h : IsPair opening closing text first second)
    (h' : IsPair opening closing text first' second') : first = first' ∧ second = second' := by
  have hpair := (findPair?_eq_some_iff hopening hclosing).2 h
  rw [(findPair?_eq_some_iff hopening hclosing).2 h', Option.some.injEq, Prod.mk.injEq] at hpair
  exact ⟨hpair.1.symm, hpair.2.symm⟩

end

end ProcBook.Text

namespace ProcBook.Sql

open Text (Found Holds IsPair IsPlain NoneBehind)

/-! ### The stages -/

/-- A stage of reading a document, named for what it needs. -/
inductive Stage where
  /-- The keyword before the name. -/
  | keyword
  /-- The sign of a parameter or a variable. -/
  | sign
  /-- The keyword before the body. -/
  | body
  | name
  /-- A name that can name a page. -/
  | pageName
  /-- The markers of the documentation block. -/
  | markers
  /-- The record in the documentation block. -/
  | record
deriving DecidableEq

namespace Stage

/-- The stages, one after the other. -/
def order : List Stage := [keyword, sign, body, name, pageName, markers, record]

/-- The step to which a stage belongs in reports. -/
def step : Stage → String
  | keyword | name | pageName => "name"
  | sign | body => "parameters"
  | markers | record => "docs block"

/-- The header between two keywords that were found. -/
def cutAt (keyword body : Found) : HeaderCut :=
  ⟨keyword.before ++ keyword.matched, body.before, body.matched ++ body.after⟩

/-- When a stage fails on a text. -/
inductive Fails (text : List Char) : Stage → Prop
  | keyword : ¬ Holds procedureKeyword text → Fails text keyword
  | sign : '@' ∉ text → Fails text sign
  | body : NoneBehind procedureKeyword bodyKeyword text → Fails text body
  | name {first second : Found} : IsPair procedureKeyword bodyKeyword text first second →
      (cutAt first second).name = "" → Fails text name
  | pageName {first second : Found} : IsPair procedureKeyword bodyKeyword text first second →
      isPageName (cutAt first second).name = false → Fails text pageName
  | markers : ¬ Holds startDocs text ∨ NoneBehind startDocs endDocs text → Fails text markers
  | record {first second : Found} : IsPair startDocs endDocs text first second →
      (∀ docs : DocsBlock, ¬ docs.WrittenAs (recordText second.before)) → Fails text record

/-- The stage fails and none before it does. -/
def FirstFails (text : List Char) (stage : Stage) : Prop :=
  Fails text stage ∧ ∀ earlier, order.idxOf earlier < order.idxOf stage → ¬ Fails text earlier

/-- The fault of a stage that fails. -/
inductive Reports (text : List Char) : Stage → Fault → Prop
  | keyword : Reports text keyword (.missingMarker .procedure)
  | sign : Reports text sign (.missingMarker .atSign)
  | body : Reports text body (.missingMarker .body)
  | name : Reports text name (.missingMarker .name)
  | pageName {first second : Found} : IsPair procedureKeyword bodyKeyword text first second →
      Reports text pageName (.invalidName (cutAt first second).name)
  | markers : Reports text markers .missingDocs
  | record {first second : Found} {error : Json.Error} : IsPair startDocs endDocs text first second →
      DocsBlock.ofJson (recordText second.before) = .error error →
      Reports text record (.malformedDocs error)

variable {text : List Char} {stage : Stage} {fault : Fault}

/-- A fault is reported under the step of its stage. -/
theorem Reports.step (h : Reports text stage fault) : fault.step = stage.step := by
  cases h <;> rfl

/-! ### What the stages find -/

theorem plain_header : (IsPlain procedureKeyword ∧ procedureKeyword ≠ []) ∧
    IsPlain bodyKeyword ∧ bodyKeyword ≠ [] := by decide

theorem plain_docs : (IsPlain startDocs ∧ startDocs ≠ []) ∧ IsPlain endDocs ∧ endDocs ≠ [] := by decide

/-- A text has one fault at most at each stage. -/
theorem Reports.unique {fault' : Fault} (h : Reports text stage fault)
    (h' : Reports text stage fault') : fault = fault' := by
  cases h with
  | keyword | sign | body | name | markers =>
    cases h'
    rfl
  | pageName hpair =>
    cases h' with
    | pageName hpair' =>
      obtain ⟨rfl, rfl⟩ := hpair.unique plain_header.1 plain_header.2 hpair'
      rfl
  | record hpair herror =>
    cases h' with
    | record hpair' herror' =>
      obtain ⟨rfl, rfl⟩ := hpair.unique plain_docs.1 plain_docs.2 hpair'
      rw [herror] at herror'
      cases herror'
      rfl

/-- Past the first two stages there is a pair of keywords. -/
theorem exists_keywords (hkeyword : ¬ Fails text keyword) (hbody : ¬ Fails text body) :
    ∃ first second, IsPair procedureKeyword bodyKeyword text first second :=
  Text.exists_isPair plain_header.1 plain_header.2 (not_not.1 fun h => hkeyword (.keyword h))
    fun h => hbody (.body h)

/-- Past the stage of the markers there is a pair of them. -/
theorem exists_markers (hmarkers : ¬ Fails text markers) :
    ∃ first second, IsPair startDocs endDocs text first second :=
  Text.exists_isPair plain_docs.1 plain_docs.2 (not_not.1 fun h => hmarkers (.markers (.inl h)))
    fun h => hmarkers (.markers (.inr h))

/-! ### What is made of a text -/

/-- With both keywords and a sign, a text is cut at the keywords. -/
theorem headerCut_ofText {first second : Found}
    (hpair : IsPair procedureKeyword bodyKeyword text first second) (hsign : ¬ Fails text sign) :
    HeaderCut.ofText text = .ok (cutAt first second) := by
  obtain ⟨htext, hfirst, hbehind, hsecond⟩ := hpair
  exact HeaderCut.ofText_eq
    ((Text.find?_eq_some_iff plain_header.1.1 plain_header.1.2).2 ⟨htext, hfirst⟩)
    (not_not.1 fun h => hsign (.sign h))
    ((Text.find?_eq_some_iff plain_header.2.1 plain_header.2.2).2 ⟨hbehind, hsecond⟩)

/-- If the stages of the header do not fail, there is a header. -/
theorem exists_header (hkeyword : ¬ Fails text keyword) (hsign : ¬ Fails text sign)
    (hbody : ¬ Fails text body) (hname : ¬ Fails text name) (hpage : ¬ Fails text pageName) :
    ∃ cut header, HeaderCut.ofText text = .ok cut ∧ cut.header = .ok header := by
  obtain ⟨first, second, hpair⟩ := exists_keywords hkeyword hbody
  have hne : (cutAt first second).name ≠ "" := fun h => hname (.name hpair h)
  have hvalid : isPageName (cutAt first second).name = true := by
    rw [← Bool.not_eq_false]
    exact fun h => hpage (.pageName hpair h)
  exact ⟨_, _, headerCut_ofText hpair hsign, HeaderCut.header_eq_ok_iff.2 ⟨hne, hvalid, rfl⟩⟩

/-- Without a cut the document fails as the cut does. -/
theorem readDocument_of_no_cut (hcut : HeaderCut.ofText text = .error fault) (schema : String) :
    readDocument schema text = .error fault := by
  rw [readDocument, hcut]

/-- Without a header the document fails as the header does. -/
theorem readDocument_of_no_header {cut : HeaderCut} (hcut : HeaderCut.ofText text = .ok cut)
    (hheader : cut.header = .error fault) (schema : String) :
    readDocument schema text = .error fault := by
  rw [readDocument, hcut]
  simp only [hheader]

/-- Behind a header the documentation block decides. -/
theorem readDocument_of_header {cut : HeaderCut} {header : Header}
    (hcut : HeaderCut.ofText text = .ok cut) (hheader : cut.header = .ok header) (schema : String) :
    (∀ fault, DocsBlock.ofText text = .error fault → readDocument schema text = .error fault) ∧
      ∀ docs, DocsBlock.ofText text = .ok docs →
        ∃ procedure, readDocument schema text = .ok procedure := by
  rw [readDocument, hcut]
  simp only [hheader]
  refine ⟨fun fault h => ?_, fun docs h => ?_⟩
  · simp only [h]
  · simp only [h]
    exact ⟨_, rfl⟩

theorem docsBlock_ofText {first second : Found} (hpair : IsPair startDocs endDocs text first second) :
    DocsBlock.ofText text =
      (DocsBlock.ofJson (recordText second.before)).mapError .malformedDocs :=
  DocsBlock.ofText_eq ((Text.findPair?_eq_some_iff plain_docs.1 plain_docs.2).2 hpair)

/-! ### The fault of the first stage that fails -/

/-- A text in which a stage up to the second keyword is the first to fail is not cut. -/
theorem FirstFails.ofText_headerCut (h : FirstFails text stage) (hstage : stage ∈ [keyword, sign, body]) :
    ∃ fault, Reports text stage fault ∧ HeaderCut.ofText text = .error fault := by
  obtain ⟨hfails, hearlier⟩ := h
  -- Each stage is reached because the ones before it did not fail: `hearlier` rules them out.
  cases hfails with
  | keyword hholds =>
    refine ⟨_, .keyword, ?_⟩
    rw [HeaderCut.ofText, (Text.find?_eq_none_iff plain_header.1.1 plain_header.1.2).2 hholds]
  | sign hsign =>
    have hkeyword : ¬ Fails text keyword := hearlier _ (by decide)
    obtain ⟨first, hfirst⟩ : ∃ first, Text.find? procedureKeyword none text = some first :=
      Option.ne_none_iff_exists'.1 fun hnone => hkeyword
        (.keyword ((Text.find?_eq_none_iff plain_header.1.1 plain_header.1.2).1 hnone))
    refine ⟨_, .sign, ?_⟩
    rw [HeaderCut.ofText, hfirst]
    simp [hsign]
  | body hbehind =>
    have hsign : '@' ∈ text := not_not.1 fun hsign => hearlier .sign (by decide) (.sign hsign)
    obtain ⟨first, hfirst, hsecond⟩ :=
      (Text.noneBehind_iff plain_header.1 plain_header.2).1 hbehind
    refine ⟨_, .body, ?_⟩
    rw [HeaderCut.ofText, hfirst]
    simp [hsign, hsecond]
  | name | pageName | markers | record => simp at hstage

/-- A text in which a stage of the name is the first to fail is cut, but has no header. -/
theorem FirstFails.header (h : FirstFails text stage) (hstage : stage ∈ [name, pageName]) :
    ∃ cut fault, Reports text stage fault ∧ HeaderCut.ofText text = .ok cut ∧
      cut.header = .error fault := by
  obtain ⟨hfails, hearlier⟩ := h
  cases hfails with
  | name hpair hempty =>
    refine ⟨_, _, .name, headerCut_ofText hpair (hearlier _ (by decide)), ?_⟩
    rw [HeaderCut.header, hempty]
    rfl
  | pageName hpair hinvalid =>
    have hne : (cutAt _ _).name ≠ "" := fun hempty => hearlier .name (by decide) (.name hpair hempty)
    refine ⟨_, _, .pageName hpair, headerCut_ofText hpair (hearlier _ (by decide)), ?_⟩
    rw [HeaderCut.header, hinvalid]
    simp [hne]
  | keyword | sign | body | markers | record => simp at hstage

/-- A text in which a stage of the documentation fails has no documentation block. -/
theorem Fails.ofText_docsBlock (h : Fails text stage) (hstage : stage ∈ [.markers, .record]) :
    ∃ fault, Reports text stage fault ∧ DocsBlock.ofText text = .error fault := by
  cases h with
  | markers hmarkers =>
    refine ⟨_, .markers, ?_⟩
    rw [DocsBlock.ofText, (Text.findPair?_eq_none_iff plain_docs.1 plain_docs.2).2 hmarkers]
  | @record first second hpair hjson =>
    cases herror : DocsBlock.ofJson (recordText second.before) with
    | ok docs => exact absurd (DocsBlock.ofJson_iff.1 herror) (hjson docs)
    | error error =>
      refine ⟨_, .record hpair herror, ?_⟩
      rw [docsBlock_ofText hpair, herror]
      rfl
  | keyword | sign | body | name | pageName => simp at hstage

/-- The first stage that fails decides the fault. -/
theorem FirstFails.readDocument (h : FirstFails text stage) (schema : String) :
    ∃ fault, Reports text stage fault ∧ readDocument schema text = .error fault := by
  cases stage with
  | keyword | sign | body =>
    obtain ⟨fault, hreports, hcut⟩ := h.ofText_headerCut (by decide)
    exact ⟨fault, hreports, readDocument_of_no_cut hcut schema⟩
  | name | pageName =>
    obtain ⟨cut, fault, hreports, hcut, hheader⟩ := h.header (by decide)
    exact ⟨fault, hreports, readDocument_of_no_header hcut hheader schema⟩
  | markers | record =>
    -- All stages of the header come earlier, so there is one.
    obtain ⟨cut, header, hcut, hheader⟩ := exists_header (h.2 _ (by decide)) (h.2 _ (by decide))
      (h.2 _ (by decide)) (h.2 _ (by decide)) (h.2 _ (by decide))
    obtain ⟨fault, hreports, hdocs⟩ := h.1.ofText_docsBlock (by decide)
    exact ⟨fault, hreports, (readDocument_of_header hcut hheader schema).1 fault hdocs⟩

/-- If no stage fails, there is a procedure. -/
theorem exists_readDocument (h : ∀ stage, ¬ Fails text stage) (schema : String) :
    ∃ procedure, readDocument schema text = .ok procedure := by
  obtain ⟨cut, header, hcut, hok⟩ := exists_header (h _) (h _) (h _) (h _) (h _)
  obtain ⟨first, second, hpair⟩ := exists_markers (h _)
  cases hjson : DocsBlock.ofJson (recordText second.before) with
  | error error =>
    have hnone : ∀ docs : DocsBlock, ¬ docs.WrittenAs (recordText second.before) := by
      intro docs hdocs
      rw [DocsBlock.ofJson_iff.2 hdocs] at hjson
      cases hjson
    exact absurd (.record hpair hnone) (h record)
  | ok docs =>
    apply (readDocument_of_header hcut hok schema).2 docs
    rw [docsBlock_ofText hpair, hjson]
    rfl

/-- Of the stages that fail, one is the first. -/
theorem exists_firstFails (h : Fails text stage) : ∃ first, FirstFails text first := by
  obtain ⟨first, hfirst, hearlier⟩ :=
    (measure order.idxOf).wf.has_min {stage | Fails text stage} ⟨stage, h⟩
  exact ⟨first, hfirst, fun earlier hlt hfails => hearlier earlier hfails hlt⟩

end Stage

/-- What is read of a text, but for the references, has nothing to do with the schema. -/
theorem readDocument_schema (schema schema' : String) (text : List Char) :
    (readDocument schema text).map (fun procedure => { procedure with references := [] }) =
      (readDocument schema' text).map (fun procedure => { procedure with references := [] }) := by
  rw [readDocument, readDocument]
  cases HeaderCut.ofText text with
  | error fault => rfl
  | ok cut =>
    cases hheader : cut.header with
    | error fault => simp only [hheader]
    | ok header =>
      cases hdocs : DocsBlock.ofText text with
      | error fault => simp only [hheader]
      | ok docs =>
        simp only [hheader]
        rfl

end ProcBook.Sql

namespace ProcBook

open Sql (Stage documentText)

/-- **A source yields no procedure exactly if a stage fails on its text, and the first such stage is
reported.**  With another schema the outcome is the same, but for the references. -/
theorem Procedure.ofSource_outcome (options : SourceOptions) (source : String) :
    let text := documentText options.skipBanner source.toList
    ((∃ fault, Procedure.ofSource options source = .error fault) ↔ ∃ stage, Stage.Fails text stage) ∧
      (∀ fault, Procedure.ofSource options source = .error fault ↔
        ∃ stage, Stage.FirstFails text stage ∧ Stage.Reports text stage fault ∧
          fault.step = stage.step) ∧
      ∀ schema,
        (Procedure.ofSource { options with schema := schema } source).map
            (fun procedure => { procedure with references := [] }) =
          (Procedure.ofSource options source).map
            (fun procedure => { procedure with references := [] }) := by
  intro text
  -- If no stage fails the text is read, whatever the schema.
  have hfails : ∀ {fault}, Procedure.ofSource options source = .error fault →
      ∃ stage, Stage.Fails text stage := by
    intro fault hfault
    by_contra hnone
    obtain ⟨procedure, hok⟩ :=
      Stage.exists_readDocument (fun stage h => hnone ⟨stage, h⟩) options.schema
    rw [Procedure.ofSource, hok] at hfault
    cases hfault
  refine ⟨⟨?_, ?_⟩, fun fault => ⟨?_, ?_⟩, fun schema => ?_⟩
  · rintro ⟨fault, hfault⟩
    exact hfails hfault
  · rintro ⟨stage, hstage⟩
    obtain ⟨first, hfirst⟩ := Stage.exists_firstFails hstage
    obtain ⟨fault, -, hfault⟩ := hfirst.readDocument options.schema
    exact ⟨fault, hfault⟩
  · intro hfault
    obtain ⟨stage, hstage⟩ := hfails hfault
    obtain ⟨first, hfirst⟩ := Stage.exists_firstFails hstage
    obtain ⟨fault', hreports, hfault'⟩ := hfirst.readDocument options.schema
    -- The first failing stage is read as one fault only.
    have hsame : fault' = fault := by
      rw [Procedure.ofSource, hfault'] at hfault
      exact Except.error.inj hfault
    rw [← hsame]
    exact ⟨first, hfirst, hreports, hreports.step⟩
  · rintro ⟨stage, hfirst, hreports, -⟩
    obtain ⟨fault', hreports', hfault'⟩ := hfirst.readDocument options.schema
    rw [hreports.unique hreports']
    exact hfault'
  · exact Sql.readDocument_schema _ _ _

/-- Of three stages that fail, the first is reported. -/
theorem Procedure.ofSource_outcome_bareKeywords :
    let text := documentText false "procedure as".toList
    (Stage.Fails text .sign ∧ Stage.Fails text .name ∧ Stage.Fails text .markers) ∧
      ∀ schema, Procedure.ofSource ⟨schema, false⟩ "procedure as" =
        .error (.missingMarker .atSign) := by
  intro text
  have htext : text = "procedure as".toList := by decide
  have hpair : Text.IsPair Sql.procedureKeyword Sql.bodyKeyword text
      ⟨[], "procedure".toList, " as".toList⟩ ⟨[' '], "as".toList, []⟩ := by
    rw [htext]
    exact (Text.findPair?_eq_some_iff Stage.plain_header.1 Stage.plain_header.2).1 (by decide)
  have hsign : Stage.Fails text .sign := .sign (by rw [htext]; decide)
  have hname : Stage.Fails text .name := .name hpair (by decide +kernel)
  have hmarkers : Stage.Fails text .markers := by
    apply Stage.Fails.markers
    rw [← Text.findPair?_eq_none_iff Stage.plain_docs.1 Stage.plain_docs.2, htext]
    decide
  refine ⟨⟨hsign, hname, hmarkers⟩, fun schema => ?_⟩
  apply ((Procedure.ofSource_outcome ⟨schema, false⟩ "procedure as").2.1 _).2
  refine ⟨.sign, ⟨hsign, ?_⟩, .sign, rfl⟩
  intro earlier hearlier hfails
  cases hfails with
  | keyword hholds => exact hholds hpair.holds
  | sign | body | name | pageName | markers | record => exact absurd hearlier (by decide)

end ProcBook
