import RpcSchema.Proofs.Bundle.Accounting
import RpcSchema.Proofs.Bundle.Consulted
import RpcSchema.Proofs.Bundle.Rearranging
import RpcSchema.Proofs.Check.Edited
import RpcSchema.Proofs.Check.Reordering
import RpcSchema.Workspace

/-!
# The order of imports

If the paths that one file imports are put in another order among its imports, then a check comes to
the same: the merged statements are the same ones in another order, and something is wrong before if
and only if something is wrong after (`Workspace.check_import_order`).  What is found may be
something else, at another place.

There is one way for the text of a schema to get into a bundle: a docstring may stand for any file,
and so for the very file whose imports are put in another order.  Its text is the text of that file,
before and after.
-/

namespace RpcSchema

/-- The two sources have schemas that are rearranged, or both have none. -/
inductive Source.Rearranges (a b : Source) : Prop
  | accepted {s t : Schema} : Schema.ofSource a = .ok s → Schema.ofSource b = .ok t →
      s.Rearranges t → Rearranges a b
  | rejected {e f : SyntaxError} : Schema.ofSource a = .error e → Schema.ofSource b = .error f →
      Rearranges a b

/-- The imports of a source, if it has a schema. -/
def Source.imports (a : Source) : List ImportStatement :=
  match Schema.ofSource a with
  | .ok s => s.imports
  | .error _ => []

/-- Whether a source has a schema with nothing but imports. -/
def Source.onlyImports (a : Source) : Bool :=
  match Schema.ofSource a with
  | .ok s => s.statements.all (·.import?.isSome)
  | .error _ => false

/-- The docstring stands for the file at a path. -/
def Docstring.RefersTo (settings : Settings) (path : String) (d : Docstring) : Prop :=
  ∃ reference, d.reference? settings.docstringSuffix = some reference
    ∧ Path.resolve d.span.file reference = path

/-- Sources with nothing but imports are rearranged if their imports are. -/
lemma Source.rearranges_of_imports {a b : Source} (ha : a.onlyImports = true)
    (hb : b.onlyImports = true)
    (halike : a.imports.map Edit.inFile.pathless.importStatement
      = b.imports.map Edit.inFile.pathless.importStatement)
    (hpaths : (a.imports.map (·.path)).Perm (b.imports.map (·.path))) : a.Rearranges b := by
  have hstatements : ∀ s : Schema, s.statements.all (·.import?.isSome) = true →
      s.statements = s.imports.map .imports := by
    rintro ⟨statements⟩ hall
    induction statements with
    | nil => rfl
    | cons t rest ih =>
        simp only [List.all_cons, Bool.and_eq_true] at hall
        cases t with
        | imports i => exact congrArg (Statement.imports i :: ·) (ih hall.2)
        | _ => exact absurd hall.1 Bool.false_ne_true
  rw [onlyImports] at ha hb
  rw [imports, imports] at halike hpaths
  cases hs : Schema.ofSource a with
  | error e => simp [hs] at ha
  | ok s =>
      cases ht : Schema.ofSource b with
      | error e => simp [ht] at hb
      | ok t =>
          simp only [hs, ht] at ha hb halike hpaths
          refine .accepted hs ht ⟨?_, hpaths⟩
          have hedited := congrArg (List.map Statement.imports) halike
          rw [List.map_map, List.map_map] at hedited
          rw [Edit.schema, Edit.schema, hstatements s ha, hstatements t hb, List.map_map, List.map_map]
          exact congrArg Schema.mk hedited

namespace FileStore

variable {store store' : FileStore} {settings : Settings} {path : String}

/-- The stores have the same files, but for the one at a path, which is rearranged. -/
structure RearrangedAt (path : String) (store store' : FileStore) : Prop where
  elsewhere : ∀ key, key ≠ path → store'.read key = store.read key
  there : ∃ contents contents', store.read path = .ok contents ∧ store'.read path = .ok contents'
    ∧ Source.Rearranges ⟨path, contents⟩ ⟨path, contents'⟩

/-- A text is stored in place of one that it is a rearrangement of. -/
lemma rearrangedAt_insert {contents contents' : String} (hclean : Path.cleanText path = path)
    (hread : store.read path = .ok contents)
    (hread' : (store.insert path contents').read path = .ok contents')
    (h : Source.Rearranges ⟨path, contents⟩ ⟨path, contents'⟩) :
    RearrangedAt path store (store.insert path contents') where
  elsewhere _ hkey := read_insert_of_ne (hclean.symm ▸ hkey)
  there := ⟨contents, contents', hread, hread', h⟩

/-- Nothing is loaded from a text that is rejected. -/
lemma library_of_rejected {contents : String} (hread : store.read path = .ok contents)
    (h : ∀ schema, Schema.ofSource ⟨path, contents⟩ = .ok schema →
      schema.versionFinding? settings.supportedVersion ≠ none) :
    store.library settings path = none := by
  refine Option.eq_none_iff_forall_ne_some.2 fun statements hsome => ?_
  obtain ⟨contents', hread', haccepted⟩ := library_eq_some hsome
  rw [hread] at hread'
  cases hread'
  obtain ⟨hschema, hfinding⟩ := Source.accepted_eq_ok_iff.1 haccepted
  exact h _ hschema hfinding

namespace RearrangedAt

/-- The same files can be read. -/
lemma read_iff (h : RearrangedAt path store store') (key : String) :
    (∃ contents, store'.read key = .ok contents) ↔ ∃ contents, store.read key = .ok contents := by
  by_cases hkey : key = path
  · obtain ⟨contents, contents', hread, hread', -⟩ := h.there
    rw [hkey, hread, hread']
    simp
  · rw [h.elsewhere key hkey]

lemma rootIsFree (h : RearrangedAt path store store') (hroot : store.RootIsFree) :
    store'.RootIsFree := by
  intro contents hread
  obtain ⟨contents', hread'⟩ := (h.read_iff "/").1 ⟨contents, hread⟩
  exact hroot contents' hread'

/-- A rearranged source keeps the version rule if the source does. -/
lemma versionFinding?_eq_none_iff {s t : Schema} (h : s.Rearranges t) (supported : Int) :
    s.versionFinding? supported = none ↔ t.versionFinding? supported = none := by
  have hfinding := congrArg (Schema.versionFinding? · supported) h.alike
  simp only [Edit.versionFinding?_schema] at hfinding
  rw [← Option.map_eq_none_iff, hfinding, Option.map_eq_none_iff]

/-- The libraries are rearranged. -/
lemma library (h : RearrangedAt path store store') (settings : Settings) :
    (store.library settings).Rearranges (store'.library settings) := by
  intro file
  by_cases hfile : file = path
  · subst hfile
    obtain ⟨contents, contents', hread, hread', hsource⟩ := h.there
    cases hsource with
    | rejected he hf =>
        have hnone : store.library settings file = none := library_of_rejected hread fun _ hs => by
          rw [he] at hs
          cases hs
        have hnone' : store'.library settings file = none := library_of_rejected hread' fun _ ht => by
          rw [hf] at ht
          cases ht
        rw [hnone, hnone']
        exact .none
    | @accepted s t hs ht hrearranges =>
        have hversion := versionFinding?_eq_none_iff hrearranges settings.supportedVersion
        by_cases hkept : s.versionFinding? settings.supportedVersion = none
        · rw [library_of_read hread (Source.accepted_eq_ok_iff.2 ⟨hs, hkept⟩),
            library_of_read hread' (Source.accepted_eq_ok_iff.2 ⟨ht, hversion.1 hkept⟩)]
          exact .some hrearranges
        · have hnone := library_of_rejected hread fun schema hs' => by
            rw [hs] at hs'
            cases hs'
            exact hkept
          have hnone' := library_of_rejected hread' fun schema ht' => by
            rw [ht] at ht'
            cases ht'
            exact fun hfinding => hkept (hversion.2 hfinding)
          rw [hnone, hnone']
          exact .none
  · have hsame : store'.library settings file = store.library settings file := by
      rw [FileStore.library, FileStore.library, h.elsewhere file hfile]
    rw [hsame]
    cases store.library settings file with
    | none => exact .none
    | some statements => exact .some (.refl _)

end RearrangedAt

/-! ## Docstrings -/

/-- Nothing is wrong with a docstring if the file that it stands for can be read. -/
lemma docstringFailure?_eq_none_iff {d : Docstring} : store.docstringFailure? settings d = none ↔
    ∀ reference, d.reference? settings.docstringSuffix = some reference →
      ∃ contents, store.read (Path.resolve d.span.file reference) = .ok contents := by
  rw [docstringFailure?]
  cases d.reference? settings.docstringSuffix with
  | none => simp
  | some reference =>
      simp only [fetch, Option.some_inj, forall_eq']
      cases store.read (Path.resolve d.span.file reference) <;> simp

lemma docstringFailure?_inFile {d : Docstring} :
    store.docstringFailure? settings (Edit.inFile.docstring d) = none
      ↔ store.docstringFailure? settings d = none := by
  rw [docstringFailure?_eq_none_iff, docstringFailure?_eq_none_iff]
  rfl

/-- New texts that depend on no place are given before or after the places are forgotten. -/
lemma map_inFile_withTexts (block : List Statement) :
    (block.map (Statement.withTexts (store.textOf settings))).map Edit.inFile.statement
      = (block.map Edit.inFile.statement).map (Edit.texts (store.textOf settings)).statement := by
  have hedit : Edit.inFile.after (Edit.texts (store.textOf settings))
      = (Edit.texts (store.textOf settings)).after Edit.inFile := rfl
  rw [List.map_map, List.map_map]
  refine List.map_congr_left fun t _ => ?_
  rw [Function.comp_apply, Function.comp_apply, Edit.withTexts_eq, ← Edit.statement_after, hedit,
    Edit.statement_after]

namespace RearrangedAt

lemma docstringFailure?_iff (h : RearrangedAt path store store') {d : Docstring} :
    store'.docstringFailure? settings d = none ↔ store.docstringFailure? settings d = none := by
  simp only [docstringFailure?_eq_none_iff, h.read_iff]

/-- A docstring that does not stand for the file has the same text. -/
lemma textOf_eq (h : RearrangedAt path store store') {d : Docstring}
    (hd : ¬ d.RefersTo settings path) : store'.textOf settings d = store.textOf settings d := by
  rw [textOf, textOf]
  cases hreference : d.reference? settings.docstringSuffix with
  | none => rfl
  | some reference =>
      have hne : Path.resolve d.span.file reference ≠ path := fun hc => hd ⟨reference, hreference, hc⟩
      simp only [fetch, h.elsewhere _ hne]

/-- The docstrings of the same statements, in another order, stand for files that can be read if those
do. -/
lemma docstringFailures_iff (h : RearrangedAt path store store') {block block' : List Statement}
    (hblock : (block'.map Edit.inFile.statement).Perm (block.map Edit.inFile.statement)) :
    (∀ d ∈ Schema.docstrings ⟨block'⟩, store'.docstringFailure? settings d = none)
      ↔ ∀ d ∈ Schema.docstrings ⟨block⟩, store.docstringFailure? settings d = none := by
  have hedited : ∀ (store : FileStore) (block : List Statement),
      (∀ d ∈ (block.map Edit.inFile.statement).flatMap Statement.docstrings,
        store.docstringFailure? settings d = none)
        ↔ ∀ d ∈ Schema.docstrings ⟨block⟩, store.docstringFailure? settings d = none := by
    intro store block
    have hdocstrings : (block.map Edit.inFile.statement).flatMap Statement.docstrings
        = (Schema.docstrings ⟨block⟩).map Edit.inFile.docstring := Edit.docstrings_schema ⟨block⟩
    rw [hdocstrings, List.forall_mem_map]
    simp only [docstringFailure?_inFile]
  rw [← hedited, ← hedited]
  simp only [(hblock.flatMap_right Statement.docstrings).mem_iff, h.docstringFailure?_iff]

/-- If no docstring stands for the file, then all have the same texts. -/
lemma map_withTexts_eq (h : RearrangedAt path store store') {block : List Statement}
    (hblock : ∀ d ∈ Schema.docstrings ⟨block⟩, ¬ d.RefersTo settings path) :
    block.map (Statement.withTexts (store'.textOf settings))
      = block.map (Statement.withTexts (store.textOf settings)) := by
  refine List.map_congr_left fun t ht => ?_
  rw [Statement.withTexts, Statement.withTexts]
  refine congrArg Id.run (Statement.mapDocstringsM_congr fun d hd => congrArg pure ?_)
  exact h.textOf_eq (hblock d (List.mem_flatMap.2 ⟨t, ht, hd⟩))

end RearrangedAt

/-! ## What is found -/

/-- Nothing is found wrong while loading if every file that is reached can be loaded, and so can the
files of docstrings. -/
lemma resolve_findings_eq_nil_iff (hroot : store.RootIsFree) (settings : Settings) (entry : String) :
    ∃ block entered, (store.library settings).Enters [] (Path.absolute entry) block entered
      ∧ (store.resolve settings entry).bundle.schema.statements
        = block.map (Statement.withTexts (store.textOf settings))
      ∧ ((store.resolve settings entry).findings = [] ↔
        (∀ file, (store.library settings).Reaches [] (Path.absolute entry) file →
            (store.library settings file).isSome = true)
          ∧ ∀ d ∈ Schema.docstrings ⟨block⟩, store.docstringFailure? settings d = none) := by
  obtain ⟨block, requests, entered, hfollows, hmerged, hfindings⟩ :=
    resolve_follows hroot.leadsFromRoot entry
  have henters : (store.library settings).Enters [] (Path.absolute entry) block entered :=
    hfollows.enters
  have hreached : ∀ file, file ∈ (Request.firsts [] requests).map (·.path) ↔
      (store.library settings).Reaches [] (Path.absolute entry) file := by
    intro file
    rw [← henters.entered_iff, hfollows.entered_eq, List.nil_append]
    simp
  refine ⟨block, entered, henters, hmerged, ?_⟩
  rw [hfindings, List.append_eq_nil_iff, List.filterMap_eq_nil_iff, List.filterMap_eq_nil_iff]
  simp only [failure?_eq_none_iff, ← hreached, List.forall_mem_map]

end FileStore

namespace Workspace

open FileStore

/-- Nothing is found in a check if nothing is found while loading, and nothing in the merged schema. -/
lemma check_findings_eq_nil_iff {store : FileStore} {settings : Settings} {entry : String} :
    ((Workspace.mk store settings).check entry).findings = [] ↔
      (store.resolve settings entry).findings = []
        ∧ (Bundle.ofSchema (store.resolve settings entry).bundle.schema).findings settings = [] := by
  have hbundle : (store.resolve settings entry).bundle.findings settings
      = (Bundle.ofSchema (store.resolve settings entry).bundle.schema).findings settings :=
    Bundle.findings_congr (by rfl) (by rfl) (by rfl) settings
  rw [check, List.append_eq_nil_iff]
  exact and_congr_right fun _ => by rw [← hbundle]; rfl

/-- **The order of imports.**  If there is no file at the root, and the paths that the file at
`path` imports are put in another order among its imports, then

* the merged statements, as they stand in their files, come in another order but are the same, and
  from the same files;
* a docstring that stands for another file than the one at `path`, or for none, has the same text,
  so if none stands for that file then the merged statements are the same when everything is loaded;
* nothing is found after if and only if nothing was found before. -/
theorem check_import_order {store store' : FileStore} {path : String}
    (h : RearrangedAt path store store') (hroot : store.RootIsFree) (settings : Settings)
    (entry : String) :
    let checked := (Workspace.mk store settings).check entry
    let checked' := (Workspace.mk store' settings).check entry
    let merged := checked.bundle.schema.statements
    let merged' := checked'.bundle.schema.statements
    ∃ block entered, (store.library settings).Enters [] (Path.absolute entry) block entered
      ∧ merged = block.map (Statement.withTexts (store.textOf settings))
      ∧ (merged'.map Edit.inFile.statement).Perm
        ((block.map (Statement.withTexts (store'.textOf settings))).map Edit.inFile.statement)
      ∧ (∀ d : Docstring, ¬ d.RefersTo settings path →
        store'.textOf settings d = store.textOf settings d)
      ∧ ((∀ d ∈ Schema.docstrings ⟨block⟩, ¬ d.RefersTo settings path) →
        (merged'.map Edit.inFile.statement).Perm (merged.map Edit.inFile.statement))
      ∧ (checked'.findings = [] ↔ checked.findings = []) := by
  intro checked checked' merged merged'
  obtain ⟨block, entered, henters, hmerged, hfindings⟩ :=
    resolve_findings_eq_nil_iff hroot settings entry
  obtain ⟨block', entered', henters', hmerged', hfindings'⟩ :=
    resolve_findings_eq_nil_iff (h.rootIsFree hroot) settings entry
  have hlibrary := h.library settings
  have hblock : (block'.map Edit.inFile.statement).Perm (block.map Edit.inFile.statement) :=
    hlibrary.block_perm (placed_library store settings) (placed_library store' settings) henters
      henters'
  have hperm : (merged'.map Edit.inFile.statement).Perm
      ((block.map (Statement.withTexts (store'.textOf settings))).map Edit.inFile.statement) := by
    rw [show merged' = _ from hmerged', map_inFile_withTexts, map_inFile_withTexts]
    exact hblock.map _
  refine ⟨block, entered, henters, hmerged, hperm, fun d hd => h.textOf_eq hd, fun hnone => ?_, ?_⟩
  · rw [show merged = _ from hmerged, ← h.map_withTexts_eq hnone]
    exact hperm
  · have hloaded : (store'.resolve settings entry).findings = []
        ↔ (store.resolve settings entry).findings = [] := by
      rw [hfindings', hfindings, h.docstringFailures_iff hblock]
      simp only [hlibrary.reaches_iff, hlibrary.isSome_iff]
    have hsound : (Bundle.ofSchema ⟨merged'⟩).findings settings = []
        ↔ (Bundle.ofSchema ⟨merged⟩).findings settings = [] := by
      let texts := Statement.withTexts (store'.textOf settings)
      have hmerged : merged = _ := hmerged
      calc (Bundle.ofSchema ⟨merged'⟩).findings settings = []
          ↔ (Bundle.ofSchema (Edit.inFile.schema ⟨merged'⟩)).findings settings = [] :=
            Edit.findings_schema_eq_nil_iff.symm
        _ ↔ (Bundle.ofSchema (Edit.inFile.schema ⟨block.map texts⟩)).findings settings = [] :=
            Bundle.findings_eq_nil_iff_of_perm hperm
        _ ↔ (Bundle.ofSchema ⟨block.map texts⟩).findings settings = [] :=
            Edit.findings_schema_eq_nil_iff
        _ ↔ (Bundle.ofSchema ⟨block⟩).findings settings = [] := by
            rw [Edit.schema_texts, Edit.findings_schema_eq_nil_iff]
        _ ↔ (Bundle.ofSchema ⟨merged⟩).findings settings = [] := by
            rw [hmerged, Edit.schema_texts, Edit.findings_schema_eq_nil_iff]
    rw [check_findings_eq_nil_iff, check_findings_eq_nil_iff, hloaded]
    exact and_congr_right fun _ => hsound

/-- A file that imports two others, which both import a fourth. -/
def pair : FileStore :=
  (((FileStore.empty.insert "/a" "import \"b\"\nimport \"c\"").insert "/b"
    "import \"d\"\ntype B \x7b d: D \x7d").insert "/c" "import \"d\"\ntype C \x7b\x7d").insert "/d"
    "type D \x7b\x7d"

/-- The file imports the two the other way round. -/
def pairTurned : FileStore := pair.insert "/a" "import \"c\"\nimport \"b\""

/-- Something is wrong with the files if something is wrong with them when the two are imported the
other way round. -/
theorem pair_check_import_order : RearrangedAt "/a" pair pairTurned ∧ pair.RootIsFree
    ∧ (((Workspace.mk pairTurned {}).check "/a").findings = []
      ↔ ((Workspace.mk pair {}).check "/a").findings = []) := by
  have hsource : Source.Rearranges ⟨"/a", "import \"b\"\nimport \"c\""⟩
      ⟨"/a", "import \"c\"\nimport \"b\""⟩ :=
    Source.rearranges_of_imports (by decide +kernel) (by decide +kernel) (by decide +kernel)
      (by decide +kernel)
  have h : RearrangedAt "/a" pair pairTurned :=
    rearrangedAt_insert (by decide +kernel) (by decide +kernel) (by decide +kernel) hsource
  have hroot : pair.RootIsFree := by decide +kernel
  obtain ⟨_, _, _, _, _, _, _, hfindings⟩ := check_import_order h hroot {} "/a"
  exact ⟨h, hroot, hfindings⟩

example :
    ((Workspace.mk pair {}).check "/a").bundle.schema.types.map (·.name.text) = ["D", "B", "C"]
    ∧ ((Workspace.mk pairTurned {}).check "/a").bundle.schema.types.map (·.name.text)
      = ["D", "C", "B"] := by
  decide +kernel

/-! ## Docstrings that stand for the file -/

/-- A file that imports two others, one of which has it for a docstring. -/
def documented : FileStore :=
  ((FileStore.empty.insert "/a.md" "import \"b\"\nimport \"c\"").insert "/b"
    "\"\"\"a.md\"\"\"").insert "/c" "type C \x7b\x7d"

/-- The file imports the two the other way round. -/
def documentedTurned : FileStore := documented.insert "/a.md" "import \"c\"\nimport \"b\""

/-- The text of the docstring is that of the file, and so it is not the same when the imports are
turned round. -/
theorem documented_differs : RearrangedAt "/a.md" documented documentedTurned ∧ documented.RootIsFree
    ∧ ¬ ((((Workspace.mk documentedTurned {}).check "/a.md").bundle.schema.statements.map
        Edit.withoutPlace.statement).Perm
      (((Workspace.mk documented {}).check "/a.md").bundle.schema.statements.map
        Edit.withoutPlace.statement)) := by
  have hsource : Source.Rearranges ⟨"/a.md", "import \"b\"\nimport \"c\""⟩
      ⟨"/a.md", "import \"c\"\nimport \"b\""⟩ :=
    Source.rearranges_of_imports (by decide +kernel) (by decide +kernel) (by decide +kernel)
      (by decide +kernel)
  have h : RearrangedAt "/a.md" documented documentedTurned :=
    rearrangedAt_insert (by decide +kernel) (by decide +kernel) (by decide +kernel) hsource
  refine ⟨h, by decide +kernel, fun hperm => ?_⟩
  have htexts := (hperm.flatMap_right Statement.docstrings).map (·.text)
  exact absurd htexts (by decide +kernel)

end Workspace

end RpcSchema
