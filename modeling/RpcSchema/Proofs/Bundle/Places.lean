import RpcSchema.Proofs.Bundle.Loaded
import RpcSchema.Proofs.Bundle.Termination
import RpcSchema.Proofs.Check.Edited
import RpcSchema.Proofs.Check.Reordering
import RpcSchema.Proofs.Grammar.Layout
import RpcSchema.Proofs.Token.Places

/-!
# Findings point at what a reader sees

Every finding starts at a visible place, so that its excerpt shows the line with the caret below the
right character (`Workspace.places_exact`).

**The edit that settles.**  `Edit.settling` moves every span that does not start at a visible place.  A
statement is settled if that changes nothing in it.  What is read from a source is settled, since a
reader sees no more of it than its significant tokens and these are visible: on a supply and itself, with
the spans on one side settled, the same is read (`Schema.settled_of_ofSource`).  What is found in a
settled schema is found in it with its places settled, so all of it is at visible places
(`isVisible_findings`).

**Loading** finds more on the way: what is wrong with a file is reported at a place in the file, at
what imports it, or, if nothing does, in front of an empty text.  The induction is along the recursion
that loading is (`FileStore.Loads.isVisible`).
-/

namespace RpcSchema

open Classical in
/-- The span itself if it is visible, or else the front of an empty text, which is. -/
noncomputable def Span.settled (s : Span) : Span := if s.IsVisible then s else .startOf ⟨"", ""⟩

lemma Span.isVisible_settled (s : Span) : s.settled.IsVisible := by
  rw [settled]
  split
  · assumption
  · exact isVisible_startOf ""

lemma Span.IsVisible.settled_eq {s : Span} (h : s.IsVisible) : s.settled = s := if_pos h

/-- Stretched spans start where they started. -/
lemma Span.IsVisible.through {s : Span} (h : s.IsVisible) (t : Span) : (s.through t).IsVisible := h

/-- Moves what is not at a visible place. -/
noncomputable def Edit.settling : Edit := { span := Span.settled }

/-- Whether a statement and all in it are at visible places. -/
def Statement.IsSettled (s : Statement) : Prop := Edit.settling.statement s = s

variable {source : Source} {settings : Settings}

/-! ## Reading -/

/-- A visible place on both sides. -/
noncomputable def Correspondence.visible : Correspondence where
  Place a b := a = b ∧ a.IsVisible
  left := id
  right := Span.settled
  span := by
    rintro a _ ⟨rfl, hvisible⟩
    exact hvisible.settled_eq.symm
  through := by
    rintro a _ c _ ⟨rfl, hvisible⟩ ⟨rfl, -⟩
    exact (hvisible.through c).settled_eq.symm

lemma Source.isVisible_wordAt (source : Source) (n : Nat) : (source.wordAt n).span.IsVisible := by
  have hmem : (source.wordAt n).token ∈ source.significantTokens :=
    List.mem_of_getElem? (source.token_wordAt n)
  rw [significantTokens, List.mem_filter] at hmem
  exact source.isVisible_tokens _ hmem.1 (by simpa using hmem.2)

/-- A source is read as on a supply whose places are settled. -/
lemma Schema.alike_ofSource (source : Source) :
    ((Source.SameWords.refl source).resumes.simulation (C := .visible) fun n => by
        rw [Nat.zero_add]
        exact ⟨rfl, source.isVisible_wordAt n⟩).Alike
      (fun a b => Correspondence.visible.editLeft.schema a = Correspondence.visible.editRight.schema b)
      (Reader.schema (Lookahead.ofSource source)) (Reader.schema (Lookahead.ofSource source)) :=
  Simulation.schema_alike ⟨0, rfl, rfl⟩

lemma Schema.settled_of_ofSource {schema : Schema} (h : Schema.ofSource source = .ok schema) :
    ∀ s ∈ schema.statements, s.IsSettled := by
  have halike := Schema.alike_ofSource source
  rw [Schema.ofSource] at h
  split at h
  · next read _ hread =>
      cases h
      rw [hread] at halike
      have hedit : Edit.schema {} schema = Edit.settling.schema schema := halike.1
      intro s hs
      have hstatement := List.map_inj_left.1 (congrArg Schema.statements hedit) s hs
      exact hstatement.symm.trans (Edit.statement_unchanged s)
  · cases h

lemma Schema.isVisible_error {e : SyntaxError} (h : Schema.ofSource source = .error e) :
    e.span.IsVisible := by
  have halike := Schema.alike_ofSource source
  rw [Schema.ofSource] at h
  split at h
  · cases h
  · next hread =>
      cases h
      rw [hread] at halike
      exact halike.2.2

/-! ## What is found in settled statements -/

section

variable {statements : List Statement} (hsettled : ∀ s ∈ statements, s.IsSettled)

include hsettled

lemma schema_settling : Edit.settling.schema ⟨statements⟩ = ⟨statements⟩ := by
  rw [Edit.schema, List.map_congr_left hsettled, List.map_id']

lemma isVisible_docstrings : ∀ d ∈ Schema.docstrings ⟨statements⟩, d.span.IsVisible := by
  intro d hd
  rw [← schema_settling hsettled, Edit.docstrings_schema] at hd
  obtain ⟨d, -, rfl⟩ := List.mem_map.1 hd
  exact d.span.isVisible_settled

lemma isVisible_findings (settings : Settings) :
    ∀ f ∈ (Bundle.ofSchema ⟨statements⟩).findings settings, f.span.IsVisible := by
  intro f hf
  rw [← schema_settling hsettled, Edit.findings_schema] at hf
  obtain ⟨f, -, rfl⟩ := List.mem_map.1 hf
  exact f.span.isVisible_settled

lemma isVisible_versionFinding {supported : Int} {f : Finding}
    (hf : Schema.versionFinding? ⟨statements⟩ supported = some f) : f.span.IsVisible := by
  rw [← schema_settling hsettled, Edit.versionFinding?_schema] at hf
  obtain ⟨f, -, rfl⟩ := Option.map_eq_some_iff.1 hf
  exact f.span.isVisible_settled

end

lemma Statement.IsSettled.isVisible_span {s : Statement} (h : s.IsSettled) : s.span.IsVisible := by
  rw [← show Edit.settling.statement s = s from h, Edit.span_statement]
  exact s.span.isVisible_settled

/-- What breaks the grammar or the version rule is at a visible place. -/
lemma Source.isVisible_rejected {f : Finding} (h : source.accepted settings = .error f) :
    f.span.IsVisible := by
  rw [accepted] at h
  split at h
  · next hread =>
      cases h
      exact Schema.isVisible_error hread
  · next schema hread =>
      split at h
      · next hfound =>
          cases h
          exact isVisible_versionFinding (Schema.settled_of_ofSource hread) hfound
      · cases h

/-! ## Loading -/

/-- Whether a request is from outside, or by an import at a visible place. -/
def Request.IsVisible (r : Request) : Prop := ∀ i ∈ r.importer, i.span.IsVisible

/-- Whether all that was found while loading is at visible places. -/
def Loading.IsVisible (l : Loading) : Prop := ∀ f ∈ l.findings, f.span.IsVisible

lemma Loading.IsVisible.report {l : Loading} (h : l.IsVisible) {f : Finding} (hf : f.span.IsVisible) :
    (l.report f).IsVisible := by
  intro g hg
  rcases List.mem_append.1 hg with hg | hg
  · exact h g hg
  · rwa [List.mem_singleton.1 hg]

lemma Request.isVisible_import (path : String) {i : ImportStatement} (h : i.span.IsVisible) :
    Request.IsVisible ⟨path, some i⟩ := by
  intro j hj
  obtain rfl := Option.some.inj hj
  exact h

lemma Request.IsVisible.span {r : Request} (h : r.IsVisible) :
    (requestSpan r.path r.importer).IsVisible := by
  cases himporter : r.importer with
  | none => exact Span.isVisible_startOf r.path
  | some i => exact h i himporter

namespace FileStore

variable {store : FileStore}

lemma settled_of_answer? {r : Request} {statements : List Statement}
    (h : store.answer? settings r = some statements) : ∀ s ∈ statements, s.IsSettled := by
  rw [answer?] at h
  split at h
  · cases h
  · split at h
    · cases h
    · next haccepted =>
        cases h
        exact Schema.settled_of_ofSource (Source.accepted_eq_ok_iff.1 haccepted).1

lemma isVisible_answered {r : Request} {l : Loading} (hr : r.IsVisible) (hl : l.IsVisible) :
    (store.answered settings l r).IsVisible := by
  rw [answered]
  split
  · exact Loading.IsVisible.report hl hr.span
  · split
    · next hrejected => exact Loading.IsVisible.report hl (Source.isVisible_rejected hrejected)
    · exact hl

mutual

/-- **Loading** from a visible place adds settled statements, and findings at visible places. -/
lemma Loads.isVisible : ∀ {r l block requests l'}, Loads store settings r l block requests l' →
    r.IsVisible → l.IsVisible → (∀ s ∈ block, s.IsSettled) ∧ l'.IsVisible
  | _, _, _, _, _, .again _ => fun _ hl => ⟨nofun, hl⟩
  | _, _, _, _, _, .failed _ _ => fun hr hl => ⟨nofun, isVisible_answered hr hl⟩
  | _, _, _, _, _, .loaded _ hsome h => fun hr hl =>
      h.isVisible (settled_of_answer? hsome) (isVisible_answered hr hl)

lemma LoadsAll.isVisible : ∀ {file statements l block requests l'},
    LoadsAll store settings file statements l block requests l' →
    (∀ s ∈ statements, s.IsSettled) → l.IsVisible → (∀ s ∈ block, s.IsSettled) ∧ l'.IsVisible
  | _, _, _, _, _, _, .nil => fun _ hl => ⟨nofun, hl⟩
  | _, _, _, _, _, _, .imports h hrest => by
      intro hsettled hl
      rw [List.forall_mem_cons] at hsettled
      obtain ⟨hblock, hl⟩ := h.isVisible (Request.isVisible_import _ hsettled.1.isVisible_span) hl
      obtain ⟨hbehind, hl⟩ := hrest.isVisible hsettled.2 hl
      exact ⟨List.forall_mem_append.2 ⟨hblock, hbehind⟩, hl⟩
  | _, _, _, _, _, _, .other _ hrest => by
      intro hsettled hl
      rw [List.forall_mem_cons] at hsettled ⊢
      obtain ⟨hbehind, hl⟩ := hrest.isVisible hsettled.2 hl
      exact ⟨⟨hsettled.1, hbehind⟩, hl⟩

end

lemma span_of_docstringFailure? {d : Docstring} {f : Finding}
    (h : store.docstringFailure? settings d = some f) : f.span = d.span := by
  rw [docstringFailure?] at h
  split at h
  · cases h
  · split at h
    · cases h
    · exact congrArg Finding.span (Option.some.inj h).symm

/-- The docstrings that are loaded then add findings where they stand. -/
lemma isVisible_loaded {entered : List Statement × Loading} (hblock : ∀ s ∈ entered.1, s.IsSettled)
    (hl : entered.2.IsVisible) : (store.loaded settings entered).IsVisible := by
  have hconsult : ∀ (ds : List Docstring) (l : Loading), (∀ d ∈ ds, d.span.IsVisible) →
      l.IsVisible → (ds.foldl (store.consult settings) l).IsVisible := by
    intro ds
    induction ds with
    | nil => exact fun _ _ hl => hl
    | cons d ds ih =>
        intro l hds hl
        rw [List.forall_mem_cons] at hds
        refine ih _ hds.2 fun f hf => ?_
        rcases List.mem_append.1 hf with hf | hf
        · exact hl f hf
        · rw [span_of_docstringFailure? (Option.mem_toList.1 hf)]
          exact hds.1
  exact hconsult _ _ (isVisible_docstrings hblock) hl

/-- What is found while loading and checking is at visible places. -/
lemma isVisible_check (store : FileStore) (settings : Settings) (entry : String) :
    ∀ f ∈ ((Workspace.mk store settings).check entry).findings, f.span.IsVisible := by
  obtain ⟨hblock, hl⟩ := (store.loads_first settings entry).isVisible nofun nofun
  intro f hf
  rcases List.mem_append.1 hf with hf | hf
  · have hfindings := (store.loaded_resolve settings entry).1
    exact isVisible_loaded hblock hl f (hfindings ▸ hf)
  · -- the texts of docstrings make no difference to what is found, and are in no place
    let bundle := (store.resolve settings entry).bundle
    have hschema : bundle.schema = (Edit.texts (store.textOf settings)).schema ⟨_⟩ :=
      (congrArg Schema.mk (store.statements_resolve settings entry)).trans (Edit.schema_texts _)
    have hfields : bundle.schema = (Bundle.ofSchema bundle.schema).schema := rfl
    have hrules : bundle.rules = (Bundle.ofSchema bundle.schema).rules := rfl
    have htypes : bundle.types = (Bundle.ofSchema bundle.schema).types := rfl
    have hbundle : bundle.findings settings = (Bundle.ofSchema bundle.schema).findings settings :=
      Bundle.findings_congr hfields hrules htypes settings
    rw [show ((Workspace.mk store settings).resolve entry).bundle = bundle from rfl, hbundle, hschema,
      Edit.findings_schema] at hf
    obtain ⟨found, hfound, rfl⟩ := List.mem_map.1 hf
    exact isVisible_findings hblock settings found hfound

end FileStore

/-! ## All together -/

/-- **Places are exact.**  The positions of tokens say how many line feeds stand before them and how many
characters behind the last of these.  A source has a line for every line feed and one more, and each is
what stands between two line feeds, without a carriage return right in front of the one that ends it.

So the caret of a syntax error, and of every finding of a check, is on a line that the source has, below
the character where the span starts, or right behind the last line at the end of the text. -/
theorem Workspace.places_exact (source : Source) (w : Workspace) (entry : String) :
    (∀ t ∈ source.tokens, source.Exact t.span.start ∧ source.Exact t.span.stop)
      ∧ source.lines.length = source.chars.count '\n' + 1
      ∧ (∀ {front piece back}, source.Around front piece back → source.line (front.count '\n')
        = String.ofList (if back = [] then piece else Source.dropReturn piece))
      ∧ (∀ {index}, index < source.lines.length →
        ∃ front piece back, source.Around front piece back ∧ front.count '\n' = index)
      ∧ (∀ {e}, Schema.ofSource source = .error e → e.span.IsMarked)
      ∧ ∀ f ∈ (w.check entry).findings, f.span.IsMarked :=
  ⟨source.tokens_tile.exact, source.length_lines, Source.line_of_around, Source.exists_around,
    fun h => (Schema.isVisible_error h).isMarked,
    fun f hf => (FileStore.isVisible_check w.store w.settings entry f hf).isMarked⟩

end RpcSchema
