import RpcSchema.Proofs.Bundle.Index
import RpcSchema.Proofs.Bundle.Records
import RpcSchema.Proofs.Schema.Editing

/-!
# The files that docstrings name

When the imports of a bundle were followed, its docstrings are loaded.  That is one pass over the merged
schema, and all that it does is what it should (`FileStore.resolve_loads_docstrings`): it changes the texts
of docstrings and nothing else in the schema, it records the files that were had and reports those that
were not, and the declarations are indexed with their new texts.

**Lookups.**  A store answers the same whenever it is asked, so how often it is asked cannot be told from
a bundle.  The pass is therefore written down for any way to look files up (`loadText`).  With the plain
one it is the pass that loads a bundle; with one that notes what it is asked, the notes are the references
of the docstrings, each once and in the order of the text.
-/

namespace RpcSchema

/-! ## References -/

/-- A docstring refers to a path if its text without the blanks around it is the path, and that is one line
that is not empty and ends in the suffix. -/
lemma Docstring.reference?_eq_some_iff {d : Docstring} {suffix path : String} :
    d.reference? suffix = some path ↔ path.toList = Text.trim d.text.toList
      ∧ path ≠ "" ∧ '\n' ∉ path.toList ∧ suffix.toList <:+ path.toList := by
  rw [Docstring.reference?, ← List.isSuffixOf_iff_suffix]
  constructor
  · intro h
    split at h
    · next hpath =>
        cases h
        rw [String.toList_ofList]
        refine ⟨rfl, fun hempty => hpath.1 ?_, hpath.2.1, hpath.2.2⟩
        rw [← String.toList_ofList (l := Text.trim d.text.toList), hempty, String.toList_empty]
    · cases h
  · rintro ⟨htrim, hne, hline, hsuffix⟩
    rw [← htrim, if_pos ⟨fun hnil => hne (String.toList_eq_nil_iff.1 hnil), hline, hsuffix⟩,
      String.ofList_toList]

/-! ## Looking files up -/

section

variable {σ : Type}

/-- The text of a docstring, with files looked up by `lookup`; `change` changes what is known. -/
def loadText (lookup : String → String → StateM σ (Except FileError String))
    (change : (Loading → Loading) → σ → σ) (settings : Settings) (d : Docstring) : StateM σ String :=
  match d.reference? settings.docstringSuffix with
  | none => pure d.text
  | some path => do
    match ← lookup d.span.file path with
    | .ok contents =>
      modify (change (·.record (Path.resolve d.span.file path) contents))
      pure contents
    | .error e =>
      modify (change (·.report ⟨d.span, docstringFault e⟩))
      pure d.text

end

/-- What is known while loading, and what was looked up: from which file, and under which path. -/
structure Noting where
  loading : Loading
  lookups : List (String × String)

namespace FileStore

variable (store : FileStore) (settings : Settings)

/-- Looks a file up and notes that it was. -/
def noted (relativeTo path : String) : StateM Noting (Except FileError String) := do
  modify fun s => { s with lookups := s.lookups ++ [(relativeTo, path)] }
  pure (store.fetch relativeTo path)

/-- The text of a docstring, with lookups noted. -/
def notedText (d : Docstring) : StateM Noting String :=
  loadText store.noted (fun f s => { s with loading := f s.loading }) settings d

/-- Loading a docstring looks files up in the store, and notes nothing. -/
lemma loadText_eq_docstringText :
    loadText (fun relativeTo path => pure (store.fetch relativeTo path)) id settings
      = docstringText store settings := by
  funext d
  rw [loadText, docstringText]
  cases d.reference? settings.docstringSuffix with
  | none => rfl
  | some path => rfl

/-- What a docstring makes the store look up. -/
def lookup? (d : Docstring) : Option (String × String) :=
  (d.reference? settings.docstringSuffix).map (d.span.file, ·)

lemma run_notedText (s : Noting) (d : Docstring) : (store.notedText settings d).run s
    = (store.textOf settings d,
      ⟨store.consult settings s.loading d, s.lookups ++ (lookup? settings d).toList⟩) := by
  rw [notedText, loadText, textOf, consult, lookup?, docstringFailure?]
  cases d.reference? settings.docstringSuffix with
  | none => simp only [Option.toList_none, List.append_nil, Option.map_none]; rfl
  | some path =>
      simp only [noted, bind_assoc, pure_bind]
      cases hfetch : store.fetch d.span.file path with
      | ok contents =>
          simp only [Option.toList_none, List.append_nil]
          rfl
      | error e => rfl

lemma yields_notedText (d : Docstring) :
    Yields (store.notedText settings d) (store.textOf settings d) := by
  intro s
  rw [run_notedText]

lemma foldl_noting (ds : List Docstring) (s : Noting) :
    ds.foldl (fun s d => ((store.notedText settings d).run s).2) s
      = ⟨ds.foldl (store.consult settings) s.loading, s.lookups ++ ds.filterMap (lookup? settings)⟩ := by
  induction ds generalizing s with
  | nil => simp only [List.foldl_nil, List.filterMap_nil, List.append_nil]
  | cons d ds ih =>
      rw [List.foldl_cons, ih, run_notedText, List.foldl_cons, List.append_assoc,
        List.filterMap_eq_flatMap_toList, List.filterMap_eq_flatMap_toList, List.flatMap_cons]

/-! ## Findings and files -/

variable {store settings}

lemma entered_foldl_consult (ds : List Docstring) (l : Loading) :
    (ds.foldl (store.consult settings) l).entered = l.entered := by
  induction ds generalizing l with
  | nil => rfl
  | cons d ds ih => exact ih (store.consult settings l d)

lemma findings_foldl_consult (ds : List Docstring) (l : Loading) :
    (ds.foldl (store.consult settings) l).findings
      = l.findings ++ ds.filterMap (store.docstringFailure? settings) := by
  induction ds generalizing l with
  | nil => simp only [List.foldl_nil, List.filterMap_nil, List.append_nil]
  | cons d ds ih =>
      rw [List.foldl_cons, ih, List.filterMap_eq_flatMap_toList, List.filterMap_eq_flatMap_toList,
        List.flatMap_cons, ← List.append_assoc]
      rfl

/-- What is under a path that no docstring refers to stays. -/
lemma files_foldl_consult_of_ne {ds : List Docstring} {l : Loading} {path : String}
    (h : ∀ d ∈ ds, ∀ p contents, d.reference? settings.docstringSuffix = some p →
      store.fetch d.span.file p = .ok contents → Path.resolve d.span.file p ≠ path) :
    (ds.foldl (store.consult settings) l).files[path]? = l.files[path]? := by
  refine consult_induct (I := fun files => files[path]? = l.files[path]?) ?_ rfl
  intro d hd p contents files hreference hfetch hfiles
  rw [Std.ExtTreeMap.getElem?_insert, if_neg ?_, hfiles]
  rw [Std.LawfulEqCmp.compare_eq_iff_eq]
  exact h d hd p contents hreference hfetch

/-- What a docstring refers to is recorded.  Another docstring may refer to the same path from another
file, and has the same contents then. -/
lemma files_foldl_consult_of_mem {ds : List Docstring} {l : Loading} {d : Docstring} {path contents : String}
    (hd : d ∈ ds) (hreference : d.reference? settings.docstringSuffix = some path)
    (hfetch : store.fetch d.span.file path = .ok contents) :
    (ds.foldl (store.consult settings) l).files[Path.resolve d.span.file path]?
      = some (Sha256.ofText contents) := by
  obtain ⟨front, back, rfl⟩ := List.append_of_mem hd
  rw [List.foldl_append, List.foldl_cons]
  refine consult_induct (I := fun files => files[Path.resolve d.span.file path]? = _) ?_ ?_
  · intro e _ p contents' files _ hfetch' hfiles
    rw [Std.ExtTreeMap.getElem?_insert]
    split
    · next heq =>
        have hsame : store.fetch d.span.file path = .ok contents' := by
          rw [fetch, ← Std.LawfulEqCmp.eq_of_compare heq]
          exact hfetch'
        rw [hfetch] at hsame
        cases hsame
        rfl
    · exact hfiles
  · simp only [consult, hreference, hfetch, Std.ExtTreeMap.getElem?_insert_self]

/-! ## Where docstrings stand -/

/-- Reading a file leads to docstrings that stand in its text. -/
lemma readsWell_docstrings (store : FileStore) (settings : Settings) :
    store.ReadsWell settings (fun _ => True) (fun _ => True) fun _ s =>
      ∀ d ∈ s.docstrings, ∃ importer, store.fetch importer d.span.file = .ok d.span.source.contents where
  record _ _ _ := trivial
  keep hs := hs
  statements {path importer contents schema} _ hfetch haccepted s hs _ d hd := by
    obtain ⟨hschema, _⟩ := Source.accepted_eq_ok_iff.1 haccepted
    have hsource := Schema.source_docstrings_of_ofSource hschema s hs d hd
    refine ⟨importer, ?_⟩
    rw [Span.file, hsource]
    exact hfetch
  imports _ _ _ _ _ := trivial

/-! ## The result -/

/-- What loading the docstrings makes of a merged schema and of what was known when it was merged. -/
structure LoadsDocstrings (store : FileStore) (settings : Settings) (merged : List Statement)
    (known : Loading) (after : Resolved) : Prop where
  /-- Docstrings have new texts, and nothing else in the tree is changed. -/
  schema : after.bundle.schema = (Edit.texts (store.textOf settings)).schema ⟨merged⟩
  docstrings : after.bundle.schema.docstrings
    = (Schema.docstrings ⟨merged⟩).map fun d => { d with text := store.textOf settings d }
  /-- The same pass with lookups noted ends in the same way, and notes one lookup for each docstring that
  refers to a file: from the file of the docstring, and in the order of the text. -/
  lookups : (Schema.mapDocstringsM (store.notedText settings) ⟨merged⟩).run ⟨known, []⟩
    = (after.bundle.schema, ⟨⟨known.entered, after.bundle.files, after.findings⟩,
        (Schema.docstrings ⟨merged⟩).filterMap fun d =>
          (d.reference? settings.docstringSuffix).map (d.span.file, ·)⟩)
  /-- The files that were had are recorded. -/
  recorded : ∀ d ∈ Schema.docstrings ⟨merged⟩, ∀ path contents,
    d.reference? settings.docstringSuffix = some path → store.fetch d.span.file path = .ok contents →
    after.bundle.files[Path.resolve d.span.file path]? = some (Sha256.ofText contents)
  /-- Nothing else is recorded. -/
  kept : ∀ path, (∀ d ∈ Schema.docstrings ⟨merged⟩, ∀ p contents,
      d.reference? settings.docstringSuffix = some p → store.fetch d.span.file p = .ok contents →
      Path.resolve d.span.file p ≠ path) →
    after.bundle.files[path]? = known.files[path]?
  /-- What was found wrong with docstrings comes last, in the order of the text. -/
  findings : after.findings
    = known.findings ++ (Schema.docstrings ⟨merged⟩).filterMap (store.docstringFailure? settings)
  /-- The index holds declarations of the new tree. -/
  rules : ∀ name, after.bundle.rules[name]? = after.bundle.schema.rules.find? (·.name.text = name)
  types : ∀ name, after.bundle.types[name]? = after.bundle.schema.types.find? (·.name.text = name)
  procs : ∀ name, after.bundle.procs[name]? = after.bundle.schema.procs.find? (·.name.text = name)
  streams : ∀ name, after.bundle.streams[name]? = after.bundle.schema.streams.find? (·.name.text = name)

lemma loadsDocstrings_resolve (store : FileStore) (settings : Settings) (entry : String) :
    let before := (enter store settings store.nesting (Path.absolute entry) none).run .start
    store.LoadsDocstrings settings before.1 before.2 (store.resolve settings entry) := by
  intro before
  obtain ⟨hfindings, hfiles⟩ := store.loaded_resolve settings entry
  have hschema : (store.resolve settings entry).bundle.schema
      = (Edit.texts (store.textOf settings)).schema ⟨before.1⟩ :=
    (congrArg Schema.mk (store.statements_resolve settings entry)).trans (Edit.schema_texts _)
  have hyields := Schema.yields_mapDocstringsM (store.yields_notedText settings) ⟨before.1⟩
  have hvisits : Visits (store.notedText settings) _ (Schema.docstrings ⟨before.1⟩) :=
    Schema.visits_mapDocstringsM ⟨before.1⟩
  constructor
  case schema => exact hschema
  case docstrings =>
    rw [hschema, Edit.docstrings_schema]
    rfl
  case lookups =>
    refine Prod.ext ?_ ?_
    · rw [hschema, ← Edit.schema_texts]
      exact hyields _
    · rw [hvisits, foldl_noting, hfindings, hfiles, List.nil_append,
        ← entered_foldl_consult (Schema.docstrings ⟨before.1⟩) before.2]
      rfl
  case recorded =>
    intro d hd path contents hreference hfetch
    rw [hfiles]
    exact files_foldl_consult_of_mem hd hreference hfetch
  case kept =>
    intro path h
    rw [hfiles]
    exact files_foldl_consult_of_ne h
  case findings =>
    rw [hfindings]
    exact findings_foldl_consult _ before.2
  case rules => exact getElem?_firstByName _
  case types => exact getElem?_firstByName _
  case procs => exact getElem?_firstByName _
  case streams => exact getElem?_firstByName _

/-- **Docstrings.**  Loading the docstrings of a merged schema does what `LoadsDocstrings` says; and what is
said there of lookups is said of the same loading, with a lookup that takes notes in place of the plain
one.  Each docstring stands in the file that its reference is looked up from.

A docstring refers to a path if its text without the blanks around it is the path, and that is one line
that is not empty and ends in the suffix.  If it refers to none, then its text stays and nothing is found
wrong.  If the file is had, then its contents are the new text.  Otherwise the text stays, and one finding
says at the docstring that there is no such file, or why it cannot be read. -/
theorem resolve_loads_docstrings (store : FileStore) (settings : Settings) (entry : String) :
    let before := (enter store settings store.nesting (Path.absolute entry) none).run .start
    store.LoadsDocstrings settings before.1 before.2 (store.resolve settings entry)
      ∧ loadText (fun relativeTo path => pure (store.fetch relativeTo path)) id settings
          = docstringText store settings
      ∧ (∀ d ∈ Schema.docstrings ⟨before.1⟩,
          ∃ importer, store.fetch importer d.span.file = .ok d.span.source.contents)
      ∧ (∀ (d : Docstring) path, d.reference? settings.docstringSuffix = some path ↔
          path.toList = Text.trim d.text.toList ∧ path ≠ "" ∧ '\n' ∉ path.toList
            ∧ settings.docstringSuffix.toList <:+ path.toList)
      ∧ (∀ d : Docstring, d.reference? settings.docstringSuffix = none →
          store.textOf settings d = d.text ∧ store.docstringFailure? settings d = none)
      ∧ (∀ (d : Docstring) path contents, d.reference? settings.docstringSuffix = some path →
          store.fetch d.span.file path = .ok contents →
          store.textOf settings d = contents ∧ store.docstringFailure? settings d = none)
      ∧ ∀ (d : Docstring) path e, d.reference? settings.docstringSuffix = some path →
          store.fetch d.span.file path = .error e →
          store.textOf settings d = d.text
            ∧ store.docstringFailure? settings d = some ⟨d.span, docstringFault e⟩
            ∧ ∀ full, docstringFault e = .docstringMissing full ↔ e = .notFound full := by
  intro before
  refine ⟨store.loadsDocstrings_resolve settings entry, store.loadText_eq_docstringText settings, ?_,
    fun d path => d.reference?_eq_some_iff, ?_, ?_, ?_⟩
  · intro d hd
    obtain ⟨s, hs, hd⟩ := List.mem_flatMap.1 hd
    exact ((store.readsWell_docstrings settings).enter store.nesting none trivial trivial).block s hs d hd
  · intro d hnone
    rw [textOf, docstringFailure?, hnone]
    exact ⟨rfl, rfl⟩
  · intro d path contents hreference hfetch
    simp only [textOf, docstringFailure?, hreference, hfetch, and_self]
  · intro d path e hreference hfetch
    simp only [textOf, docstringFailure?, hreference, hfetch, true_and]
    intro full
    cases e <;> simp [docstringFault]

/-- The contents of a file may look like a reference, and are taken as they are. -/
example : ((((empty.insert "/a" "\"\"\" b.md \"\"\"").insert "/b.md" "c.md").insert "/c.md" "none").resolve
    {} "/a").bundle.schema.docstrings.map (·.text) = ["c.md"] := by decide +kernel

end FileStore

end RpcSchema
