import RpcSchema.Proofs.Bundle.Depth
import RpcSchema.Proofs.Bundle.Merging
import RpcSchema.Proofs.Files.History
import RpcSchema.Workspace

/-!
# What a check depends on

A store may hold any number of files that have nothing to do with a check.  `FileStore.consulted`
lists the keys that the store is asked for: one for every file that is entered, and one for every
docstring of the merged statements that names a file.  Two stores that have the same under these
keys give the same answer in every respect (`Workspace.check_consults`).

Which keys are asked for depends on what was found under those before, so the two runs are followed
in lock-step: as long as the answers agree, so does what is known, and then the next question is the
same (`FileStore.enter_lockstep`).  The two stores may weigh differently, and then the runs go on to
different depths; but both depths are enough.
-/

namespace RpcSchema

namespace FileStore

variable {store store' : FileStore} {settings : Settings}

/-- The keys that the store is asked for in a check of the file at a path, in their order. -/
def consulted (store : FileStore) (settings : Settings) (entry : String) : List String :=
  let first : Request := ⟨Path.absolute entry, none⟩
  let entered := (enter store settings store.nesting first.path first.importer).run .start
  (store.asks settings store.nesting first .start).map Request.key
    ++ (Schema.docstrings ⟨entered.1⟩).filterMap fun d =>
      (d.reference? settings.docstringSuffix).map (Path.resolve d.span.file)

/-! ## Lock-step -/

lemma answer?_congr {r : Request} (h : store'.read r.key = store.read r.key) :
    store'.answer? settings r = store.answer? settings r := by
  rw [answer?, answer?, fetch, fetch, ← Request.key, h]

lemma answered_congr {r : Request} (h : store'.read r.key = store.read r.key) (l : Loading) :
    store'.answered settings l r = store.answered settings l r := by
  rw [answered, answered, fetch, fetch, ← Request.key, h]

/-- Two ways to load that agree on an import where all that is asked for it is agreed on, agree on
statements where that is so. -/
lemma splice_lockstep {load load' : ImportStatement → StateM Loading (List Statement)}
    {asks : ImportStatement → Loading → List Request} {agreed : Request → Prop}
    (h : ∀ i l, (∀ q ∈ asks i l, agreed q) → (load' i).run l = (load i).run l)
    (statements : List Statement) (l : Loading)
    (hall : ∀ q ∈ asksOfImports load asks statements l, agreed q) :
    (splice load' statements).run l = (splice load statements).run l := by
  induction statements generalizing l with
  | nil => rfl
  | cons s rest ih =>
      cases himport : s.import? with
      | some i =>
          obtain rfl := Statement.eq_imports_of_import? himport
          rw [asksOfImports] at hall
          have hrun := h i l fun q hq => hall q (List.mem_append_left _ hq)
          have hrest := ih _ fun q hq => hall q (List.mem_append_right _ hq)
          rw [run_splice_imports, run_splice_imports, hrun, hrest]
      | none =>
          rw [asksOfImports_other himport] at hall
          rw [run_splice_other load himport, run_splice_other load' himport, ih l hall]

/-- **Lock-step.**  A store that has the same under the keys that are asked for gives the same. -/
lemma enter_lockstep {depth : Nat} {r : Request} {l : Loading}
    (h : ∀ q ∈ store.asks settings depth r l, store'.read q.key = store.read q.key) :
    (enter store' settings depth r.path r.importer).run l
      = (enter store settings depth r.path r.importer).run l := by
  induction depth generalizing r l with
  | zero => rfl
  | succ depth ih =>
      by_cases hmem : r.path ∈ l.entered
      · rw [enter_of_mem depth r.importer hmem, enter_of_mem depth r.importer hmem]
      · rw [asks_of_not_mem depth hmem] at h
        have hkey := h r List.mem_cons_self
        rw [enter_of_answer? depth r hmem, enter_of_answer? depth r hmem, answer?_congr hkey,
          answered_congr hkey]
        cases hanswer : store.answer? settings r with
        | none => rfl
        | some statements =>
            rw [hanswer] at h
            exact splice_lockstep (fun i l => ih (r := ⟨Path.resolve r.path i.path, some i⟩))
              statements _ fun q hq => h q (List.mem_cons_of_mem r hq)

lemma docstringText_congr {d : Docstring}
    (h : ∀ path, d.reference? settings.docstringSuffix = some path →
      store'.read (Path.resolve d.span.file path) = store.read (Path.resolve d.span.file path)) :
    docstringText store' settings d = docstringText store settings d := by
  rw [docstringText, docstringText]
  cases hreference : d.reference? settings.docstringSuffix with
  | none => rfl
  | some path =>
      simp only [fetch, h path hreference]

/-- Where two stores agree on what the first is asked for, the first file is entered alike, although
the depths to which imports are followed may differ. -/
lemma enter_first_congr (settings : Settings) {path : String} (hrooted : Path.IsRooted path)
    (h : ∀ q ∈ store.asks settings store.nesting ⟨path, none⟩ .start,
      store'.read q.key = store.read q.key) :
    (enter store' settings store'.nesting path none).run .start
      = (enter store settings store.nesting path none).run .start := by
  let first : Request := ⟨path, none⟩
  have hless := store.unspelled_lt_nesting .start
  have hless' := store'.unspelled_lt_nesting .start
  obtain ⟨hrun, hasks⟩ := enter_depth settings (r := first) (.rooted hrooted) hless
    (Nat.lt_of_lt_of_le hless (Nat.le_max_left _ store'.nesting))
  obtain ⟨hrun', -⟩ := enter_depth settings (r := first) (.rooted hrooted) hless'
    (Nat.lt_of_lt_of_le hless' (Nat.le_max_right store.nesting _))
  rw [hasks] at h
  calc (enter store' settings store'.nesting path none).run .start
      = (enter store' settings (max store.nesting store'.nesting) path none).run .start := hrun'
    _ = (enter store settings (max store.nesting store'.nesting) path none).run .start :=
        enter_lockstep (r := first) h
    _ = (enter store settings store.nesting path none).run .start := hrun.symm

/-- A store that has the same under the keys that are consulted loads the same. -/
lemma loadSchema_congr {entry : String}
    (h : ∀ key ∈ store.consulted settings entry, store'.read key = store.read key) :
    (loadSchema store' settings (Path.absolute entry)).run .start
      = (loadSchema store settings (Path.absolute entry)).run .start := by
  have hentered := enter_first_congr settings (Path.isRooted_absolute entry)
    fun q hq => h q.key (List.mem_append_left _ (List.mem_map_of_mem hq))
  have hdocstrings : ∀ d ∈ Schema.docstrings
      ⟨((enter store settings store.nesting (Path.absolute entry) none).run .start).1⟩,
      docstringText store' settings d = docstringText store settings d := by
    intro d hd
    refine docstringText_congr fun path hpath => h _ (List.mem_append_right _ ?_)
    exact List.mem_filterMap.2 ⟨d, hd, by rw [hpath]; rfl⟩
  show (Schema.mapDocstringsM (docstringText store' settings)
      ⟨((enter store' settings store'.nesting (Path.absolute entry) none).run .start).1⟩).run
        ((enter store' settings store'.nesting (Path.absolute entry) none).run .start).2 = _
  rw [hentered, Schema.mapDocstringsM_congr hdocstrings]
  rfl

/-! ## The keys of files -/

lemma exists_of_mem_asksOfImports {load : ImportStatement → StateM Loading (List Statement)}
    {asks : ImportStatement → Loading → List Request} {statements : List Statement} {l : Loading}
    {q : Request} (h : q ∈ asksOfImports load asks statements l) :
    ∃ i l', .imports i ∈ statements ∧ q ∈ asks i l' := by
  induction statements generalizing l with
  | nil => cases h
  | cons s rest ih =>
      cases himport : s.import? with
      | some i =>
          obtain rfl := Statement.eq_imports_of_import? himport
          rcases List.mem_append.1 h with h | h
          · exact ⟨i, l, List.mem_cons_self, h⟩
          · obtain ⟨j, l', hj, hq⟩ := ih h
            exact ⟨j, l', List.mem_cons_of_mem _ hj, hq⟩
      | none =>
          rw [asksOfImports_other himport] at h
          obtain ⟨j, l', hj, hq⟩ := ih h
          exact ⟨j, l', List.mem_cons_of_mem _ hj, hq⟩

/-- Where all paths are rooted, each file is asked for under its own path. -/
lemma isRooted_of_mem_asks (hroot : store.LeadsFromRoot settings) {depth : Nat} {r q : Request}
    {l : Loading} (hrooted : Path.IsRooted r.path) (h : q ∈ store.asks settings depth r l) :
    Path.IsRooted q.path := by
  induction depth generalizing r l with
  | zero => cases h
  | succ depth ih =>
      rw [asks] at h
      split at h
      · cases h
      · rcases List.mem_cons.1 h with rfl | h
        · exact hrooted
        · split at h
          · cases h
          · next statements hanswer =>
              obtain ⟨i, l', hi, hq⟩ := exists_of_mem_asksOfImports h
              have hlibrary : store.library settings r.path = some statements := by
                rw [answer?, store.fetch_eq_read _ hrooted] at hanswer
                exact hanswer
              exact ih (hroot.isRooted_resolve hrooted hlibrary hi) hq

/-! ## Stores that differ elsewhere -/

lemma read_insert_of_ne {path contents key : String} (h : key ≠ Path.cleanText path) :
    (store.insert path contents).read key = store.read key :=
  read_change_of_ne (c := .insert path contents) h store

lemma read_remove_of_ne {path key : String} (h : key ≠ Path.cleanText path) :
    (store.remove path).read key = store.read key :=
  read_change_of_ne (c := .remove path) h store

end FileStore

namespace Workspace

open FileStore

/-- **What a check depends on.**  The keys that a store is asked for are those of the files that are
entered, in their order, and then those of the docstrings that name a file.  Two stores with the
same under the keys that the first one is asked for have the same merged statements, declarations by
name, files and findings.  So a file makes no difference if it is put, changed or taken away under
another key.

The key of a file that is entered is its path, unless a file at the root imports by relative paths. -/
theorem check_consults (store : FileStore) (settings : Settings) (entry : String) :
    (∀ store' : FileStore, (∀ key ∈ store.consulted settings entry, store'.read key = store.read key) →
        (Workspace.mk store' settings).check entry = (Workspace.mk store settings).check entry)
      ∧ (∀ path contents, Path.cleanText path ∉ store.consulted settings entry →
        (Workspace.mk (store.insert path contents) settings).check entry
          = (Workspace.mk store settings).check entry)
      ∧ (∀ path, Path.cleanText path ∉ store.consulted settings entry →
        (Workspace.mk (store.remove path) settings).check entry
          = (Workspace.mk store settings).check entry)
      ∧ (store.asks settings store.nesting ⟨Path.absolute entry, none⟩ .start).map (·.path)
        = ((enter store settings store.nesting (Path.absolute entry) none).run .start).2.entered
      ∧ (store.LeadsFromRoot settings →
        ∀ q ∈ store.asks settings store.nesting ⟨Path.absolute entry, none⟩ .start, q.key = q.path) := by
  have hcheck : ∀ store' : FileStore,
      (∀ key ∈ store.consulted settings entry, store'.read key = store.read key) →
        (Workspace.mk store' settings).check entry = (Workspace.mk store settings).check entry := by
    intro store' h
    simp only [check, Workspace.resolve, FileStore.resolve, loadSchema_congr h]
  refine ⟨hcheck, fun path contents h => hcheck _ fun key hkey => ?_,
    fun path h => hcheck _ fun key hkey => ?_, ?_, fun hroot q hq => ?_⟩
  · exact read_insert_of_ne fun hc => h (hc ▸ hkey)
  · exact read_remove_of_ne fun hc => h (hc ▸ hkey)
  · exact (store.entered_enter settings store.nesting ⟨Path.absolute entry, none⟩ .start).symm
  · exact (isRooted_of_mem_asks hroot (Path.isRooted_absolute entry) hq).resolve_eq q.asker

/-- Of two files that import each other both are asked for, and so a third file makes no difference to
them, however its path is spelled. -/
theorem circle_consults : circle.consulted {} "/a" = ["/a", "/b"]
    ∧ Path.cleanText "x/../c" ∉ circle.consulted {} "/a"
    ∧ (Workspace.mk (circle.insert "x/../c" "type C \x7b\x7d") {}).check "/a"
      = (Workspace.mk circle {}).check "/a" := by
  have hkeys : circle.consulted {} "/a" = ["/a", "/b"] := by decide +kernel
  have hother : Path.cleanText "x/../c" ∉ circle.consulted {} "/a" := by
    rw [hkeys]
    decide +kernel
  exact ⟨hkeys, hother, (check_consults circle {} "/a").2.1 _ _ hother⟩

end Workspace

end RpcSchema
