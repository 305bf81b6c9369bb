import RpcSchema.Proofs.Bundle.Loaded
import RpcSchema.Proofs.Bundle.Version
import Mathlib.Data.List.Forall2

/-!
# What loading finds wrong

Loading goes on after a failure, and every failure is accounted for: there is one finding for each file
that is asked for and fails, in the order in which the files are entered, and then one for each docstring
whose file could not be had, in the order of the merged text (`FileStore.resolve_accounts_failures`).
Nothing else is found wrong.  In particular a path that is asked for again is passed over, whether the
file was loaded, had failed, or is still being read.

**Which files fail, and how.**  A file is `Loadable` if it can be read, follows the grammar and keeps the
version rule.  If it is not, then `Failure` says what is reported of it and where: a file that cannot be
read at the request for it, any other in the file itself.

**Which request counts.**  A path may be asked for many times.  The finding is for the first request, in
the order in which a traversal makes its requests.
-/

namespace RpcSchema

namespace FileStore

variable {store : FileStore} {settings : Settings}

/-! ## Single files -/

/-- The file at a path can be read, follows the grammar, and keeps the version rule. -/
def Loadable (store : FileStore) (settings : Settings) (path : String) : Prop :=
  ∃ contents schema, store.read path = .ok contents ∧ Schema.ofSource ⟨path, contents⟩ = .ok schema
    ∧ ∀ before v behind, schema.statements = before ++ .version v :: behind →
      ¬ v.Breaks settings.supportedVersion before

/-- What is reported of a request for a file that is not loadable. -/
inductive Failure (store : FileStore) (settings : Settings) (r : Request) : Finding → Prop where
  /-- At the import that asks for the file, or at the start of the file if none does. -/
  | unreadable {e : FileError} : store.read r.path = .error e →
      Failure store settings r ⟨requestSpan r.path r.importer, .file e⟩
  /-- Where the text breaks the grammar. -/
  | ungrammatical {contents : String} {e : SyntaxError} : store.read r.path = .ok contents →
      Schema.ofSource ⟨r.path, contents⟩ = .error e →
      Failure store settings r ⟨e.span, .grammar e.problem⟩
  /-- At the first version statement that breaks the rule. -/
  | misversioned {contents : String} {schema : Schema} {before : List Statement}
      {v : VersionStatement} {f : Finding} : store.read r.path = .ok contents →
      Schema.ofSource ⟨r.path, contents⟩ = .ok schema →
      FirstBreach settings.supportedVersion schema.statements before v → f.span = v.span →
      Failure store settings r f

lemma failure_of_failure? {r : Request} {f : Finding} (h : store.failure? settings r = some f) :
    Failure store settings r f := by
  rw [failure?] at h
  split at h
  · next e hread =>
      cases h
      exact .unreadable hread
  · next contents hread =>
      split at h
      · next g haccepted =>
          cases h
          rw [Source.accepted] at haccepted
          split at haccepted
          · next e hschema =>
              cases haccepted
              exact .ungrammatical hread hschema
          · next schema hschema =>
              split at haccepted
              · next hfinding =>
                  cases haccepted
                  obtain ⟨before, v, hbreach, -, hspan⟩ :=
                    Schema.firstBreach_of_versionFinding? hfinding
                  exact .misversioned hread hschema hbreach hspan
              · cases haccepted
      · cases h

/-- What is reported of a request is reported because the file is not loadable. -/
lemma Failure.not_loadable {r : Request} {f : Finding} (h : Failure store settings r f) :
    ¬ store.Loadable settings r.path := by
  rintro ⟨contents, schema, hread, hschema, hkeeps⟩
  cases h with
  | unreadable hread' =>
      rw [hread] at hread'
      cases hread'
  | ungrammatical hread' hschema' =>
      rw [hread] at hread'
      cases hread'
      rw [hschema] at hschema'
      cases hschema'
  | misversioned hread' hschema' hbreach =>
      rw [hread] at hread'
      cases hread'
      rw [hschema] at hschema'
      cases hschema'
      obtain ⟨behind, hsplit⟩ := hbreach.split
      exact hkeeps _ _ behind hsplit hbreach.breaks

lemma failure?_eq_none_iff {r : Request} :
    store.failure? settings r = none ↔ (store.library settings r.path).isSome = true := by
  rw [failure?, library]
  cases store.read r.path with
  | error e => simp
  | ok contents =>
      cases haccepted : Source.accepted ⟨r.path, contents⟩ settings <;> simp [haccepted]

lemma isSome_failure?_iff {r : Request} :
    (store.failure? settings r).isSome = true ↔ store.library settings r.path = none := by
  rw [← Option.not_isSome_iff_eq_none, ← failure?_eq_none_iff, Option.isSome_iff_ne_none]

/-- The files that statements are loaded from are the loadable ones. -/
lemma library_eq_none_iff {path : String} :
    store.library settings path = none ↔ ¬ store.Loadable settings path := by
  constructor
  · intro hnone
    have hsome := isSome_failure?_iff.2 (show store.library settings (Request.mk path none).path = none
      from hnone)
    obtain ⟨f, hf⟩ := Option.isSome_iff_exists.1 hsome
    exact (failure_of_failure? hf).not_loadable
  · intro hnot
    cases hlibrary : store.library settings path with
    | none => rfl
    | some statements =>
        obtain ⟨contents, hread, haccepted⟩ := library_eq_some hlibrary
        obtain ⟨hschema, hfinding⟩ := Source.accepted_eq_ok_iff.1 haccepted
        exact absurd ⟨contents, _, hread, hschema, fun before v behind hsplit =>
          Schema.not_breaks_of_versionFinding? hfinding hsplit⟩ hnot

/-! ## Runs -/

/-- A step that adds what it finds wrong at most once adds the findings of a list in their order. -/
lemma findings_foldl {α : Type} (step : Loading → α → Loading) {fault? : α → Option Finding}
    (hstep : ∀ l a, (step l a).findings = l.findings ++ (fault? a).toList) (as : List α)
    (l : Loading) : (as.foldl step l).findings = l.findings ++ as.filterMap fault? := by
  induction as generalizing l with
  | nil => rw [List.foldl_nil, List.filterMap_nil, List.append_nil]
  | cons a as ih =>
      rw [List.foldl_cons, ih, hstep, List.append_assoc]
      cases hfault : fault? a with
      | none => rw [List.filterMap_cons_none hfault]; rfl
      | some f => rw [List.filterMap_cons_some hfault]; rfl

/-- The findings of some requests are one for each that fails, in their order. -/
lemma forall₂_failure (rs : List Request) :
    List.Forall₂ (Failure store settings)
      (rs.filter fun r => (store.library settings r.path).isNone)
      (rs.filterMap (store.failure? settings)) := by
  induction rs with
  | nil => exact .nil
  | cons r rs ih =>
      cases hfailure : store.failure? settings r with
      | none =>
          have hsome := failure?_eq_none_iff.1 hfailure
          rw [List.filterMap_cons_none hfailure,
            List.filter_cons_of_neg (by simpa [Option.isSome_iff_ne_none] using hsome)]
          exact ih
      | some f =>
          have hnone := isSome_failure?_iff.1 (by rw [hfailure]; rfl)
          rw [List.filterMap_cons_some hfailure, List.filter_cons_of_pos (by simp [hnone])]
          exact .cons (failure_of_failure? hfailure) ih

/-- What loading leaves, in terms of a traversal and its requests. -/
lemma resolve_follows (hroot : store.LeadsFromRoot settings) (entry : String) :
    ∃ block requests entered,
      (store.library settings).Follows [] ⟨Path.absolute entry, none⟩ block requests entered
      ∧ (store.resolve settings entry).bundle.schema.statements
        = block.map (Statement.withTexts (store.textOf settings))
      ∧ (store.resolve settings entry).findings
        = (Request.firsts [] requests).filterMap (store.failure? settings)
          ++ (Schema.docstrings ⟨block⟩).filterMap (store.docstringFailure? settings) := by
  obtain ⟨requests, hfollows, hstate⟩ := follows_of_enter hroot none (l := .start)
    (Path.isRooted_absolute entry) (store.unentered_lt_nesting [])
  refine ⟨_, requests, _, hfollows, store.statements_resolve settings entry, ?_⟩
  have hserved := findings_foldl (store.serve settings) (fun _ _ => rfl)
  have hconsulted := findings_foldl (store.consult settings) (fun _ _ => rfl)
  rw [(store.loaded_resolve settings entry).1, loaded, hconsulted, hstate, hserved]
  rfl

/-- **The accounting.**  If there is no file at the root, then there is one traversal of the imports,
with its requests in order and the paths that it enters, such that the following holds.

* The paths that are entered are those that are reached from the first file through loadable files, each
  once.
* All requests are made by imports of loadable files, but for the one that loading begins with.
* The files that fail are, in the order in which they are entered, those of `failing`, each with the
  first request for it; what is found wrong is one `Failure` for each of them in that order, and behind
  them one finding for each docstring whose file could not be had, in the order of the merged text.
* A file that fails contributes no statements, and every other file that is reached contributes its
  own. -/
theorem resolve_accounts_failures (hroot : store.RootIsFree) (entry : String) :
    let library := store.library settings
    let first := Path.absolute entry
    let resolved := store.resolve settings entry
    let merged := resolved.bundle.schema.statements
    let text := Statement.withTexts (store.textOf settings)
    ∃ (block : List Statement) (requests : List Request) (entered : List String)
        (failing : List Request) (found : List Finding),
      (∀ block' requests' entered', library.Follows [] ⟨first, none⟩ block' requests' entered' ↔
        block' = block ∧ requests' = requests ∧ entered' = entered)
      ∧ entered.Nodup ∧ (∀ file, file ∈ entered ↔ library.Reaches [] first file)
      ∧ (∀ r ∈ requests, r = ⟨first, none⟩ ∨ library.Asks r)
      ∧ (∀ file, library file = none ↔ ¬ store.Loadable settings file)
      ∧ failing.map (·.path) = entered.filter (fun file => (library file).isNone)
      ∧ (∀ r ∈ failing, requests.find? (·.path = r.path) = some r)
      ∧ List.Forall₂ (Failure store settings) failing found
      ∧ resolved.findings
        = found ++ (Schema.docstrings ⟨block⟩).filterMap (store.docstringFailure? settings)
      ∧ merged = block.map text
      ∧ (∀ file, library file = none → Library.ofFile file merged = [])
      ∧ (∀ file, library.Reaches [] first file →
          Library.ofFile file merged = (library.own file).map text) := by
  intro library first resolved merged text
  obtain ⟨block, requests, entered, hfollows, hmerged, hfindings⟩ :=
    resolve_follows hroot.leadsFromRoot entry
  replace hmerged : merged = block.map text := hmerged
  have hentered : entered = (Request.firsts [] requests).map (·.path) := hfollows.entered_eq
  have hspec := hfollows.enters.block_spec (placed_library store settings)
  refine ⟨block, requests, entered,
    (Request.firsts [] requests).filter fun r => (library r.path).isNone,
    (Request.firsts [] requests).filterMap (store.failure? settings), ?_, ?_, ?_, hfollows.of_mem,
    fun file => library_eq_none_iff, ?_, ?_, forall₂_failure _, hfindings, hmerged, ?_, ?_⟩
  · -- there is one traversal
    intro block' requests' entered'
    constructor
    · intro h
      obtain ⟨hblock, hpaths⟩ := h.enters.unique hfollows.enters
      exact ⟨hblock, h.unique hfollows, hpaths⟩
    · rintro ⟨rfl, rfl, rfl⟩
      exact hfollows
  · rw [hentered]
    exact (Request.nodup_firsts [] requests).1
  · intro file
    rw [← hfollows.enters.entered_iff]
    exact ⟨fun h => ⟨h, List.not_mem_nil⟩, fun h => h.1⟩
  · rw [hentered, List.filter_map]
    rfl
  · intro r hr
    exact Request.find?_of_mem_firsts (List.mem_filter.1 hr).1
  · intro file hnone
    by_cases hreached : library.Reaches [] first file
    · rw [hmerged, ofFile_map_withTexts, (hspec file).1 hreached, Library.own_of_none hnone,
        List.map_nil]
    · rw [hmerged, ofFile_map_withTexts, (hspec file).2 hreached, List.map_nil]
  · intro file hreached
    rw [hmerged, ofFile_map_withTexts, (hspec file).1 hreached]

/-- Two files that import a missing one, the first of them twice.  The second file also imports the first
one again, and breaks the grammar at its end. -/
def patchy : FileStore :=
  (empty.insert "/a" "import \"gone\"\nimport \"b\"\nimport \"gone\"\ntype A \x7b\x7d").insert "/b"
    "import \"a\"\nimport \"gone\"\ntype"

/-- The missing file is reported, and so is the one that breaks the grammar. -/
theorem patchy_accounted : patchy.RootIsFree
    ∧ ∀ path ∈ ["/gone", "/b"], ∃ r f, r.path = path ∧ Failure patchy {} r f
      ∧ f ∈ (patchy.resolve {} "/a").findings := by
  have hroot : patchy.RootIsFree := by decide +kernel
  refine ⟨hroot, ?_⟩
  intro path hpath
  have himports : ∀ path ∈ ["/gone", "/b"], (patchy.library {}).Imports "/a" path
      ∧ (patchy.library {} path).isNone = true := by decide +kernel
  obtain ⟨_, _, entered, failing, found, _, _, hreached, _, _, hfailing, _, hfound, hfindings, _⟩ :=
    resolve_accounts_failures hroot "/a"
  have hentered : path ∈ entered :=
    (hreached path).2 (.step (.start List.not_mem_nil) (himports path hpath).1 List.not_mem_nil)
  have hmem : path ∈ failing.map (·.path) := by
    rw [hfailing]
    exact List.mem_filter.2 ⟨hentered, (himports path hpath).2⟩
  obtain ⟨r, hr, hpath⟩ := List.mem_map.1 hmem
  obtain ⟨n, hn, rfl⟩ := List.getElem_of_mem hr
  have hn' : n < found.length := hfound.length_eq ▸ hn
  exact ⟨_, found[n], hpath, hfound.get hn hn',
    hfindings ▸ List.mem_append_left _ (List.getElem_mem hn')⟩

example : (patchy.resolve {} "/a").findings.map (·.message)
    = ["/a:1:1: file \"/gone\" not found",
      "/b:3:5: unexpected end of file, expecting identifier as type name"] := by decide +kernel

end FileStore

end RpcSchema
