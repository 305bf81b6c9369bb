import RpcSchema.Bundle.Import
import RpcSchema.Proofs.Bundle.Requests
import RpcSchema.Proofs.Files.Path
import RpcSchema.Proofs.Grammar.Spans

/-!
# Following imports is a traversal

`enter` reads files from a store, keeps records, and stops at a depth.  What it answers is a traversal of
the library that the store is, with nothing cut off by the depth, and what it leaves is what comes of
serving the first request for each path, one after the other (`FileStore.follows_of_enter`).

**The depth.**  Every file on the way to an import has a path of its own under which the store has a text.
So along the way the number of texts that were not entered yet falls, and a depth that exceeds it is
never used up.  `FileStore.nesting` exceeds the number of all texts.

**The paths.**  Loading begins at a rooted path, and stays at rooted paths if a file at the root, where
there is one, imports by paths from the root only (`LeadsFromRoot`); then it does not matter for a look-up
who asks.
-/

namespace RpcSchema

/-- A source is accepted if it follows the grammar and nothing is found that breaks the version rule. -/
lemma Source.accepted_eq_ok_iff {source : Source} {settings : Settings} {schema : Schema} :
    source.accepted settings = .ok schema ↔ Schema.ofSource source = .ok schema
      ∧ schema.versionFinding? settings.supportedVersion = none := by
  rw [accepted]
  cases hschema : Schema.ofSource source with
  | error e => simp
  | ok read =>
      cases hfinding : read.versionFinding? settings.supportedVersion with
      | none =>
          simp only [hfinding, Except.ok.injEq, iff_self_and]
          rintro rfl
          exact hfinding
      | some f =>
          simp only [hfinding, reduceCtorEq, Except.ok.injEq, false_iff, not_and]
          rintro rfl
          simp [hfinding]

namespace FileStore

variable {store : FileStore} {settings : Settings}

/-! ## The library that a store is -/

/-- The statements that are loaded from the file at a path. -/
def library (store : FileStore) (settings : Settings) : Library := fun path =>
  match store.read path with
  | .error _ => none
  | .ok contents =>
    match Source.accepted ⟨path, contents⟩ settings with
    | .error _ => none
    | .ok schema => some schema.statements

/-- There is no file at the root. -/
def RootIsFree (store : FileStore) : Prop := ∀ contents, store.read "/" ≠ .ok contents

instance (store : FileStore) : Decidable store.RootIsFree :=
  decidable_of_iff ((store.read "/").toOption = none) <| by
    rw [RootIsFree]
    cases store.read "/" <;> simp [Except.toOption]

lemma library_eq_some {path : String} {statements : List Statement}
    (h : store.library settings path = some statements) : ∃ contents, store.read path = .ok contents
      ∧ Source.accepted ⟨path, contents⟩ settings = .ok ⟨statements⟩ := by
  rw [library] at h
  split at h
  · cases h
  · next contents hread =>
      split at h
      · cases h
      · next schema haccepted =>
          cases h
          exact ⟨contents, hread, haccepted⟩

lemma library_of_read {path contents : String} {schema : Schema}
    (hread : store.read path = .ok contents)
    (haccepted : Source.accepted ⟨path, contents⟩ settings = .ok schema) :
    store.library settings path = some schema.statements := by
  rw [library, hread]
  simp only [haccepted]

lemma placed_library (store : FileStore) (settings : Settings) :
    (store.library settings).Placed := by
  intro file statements h s hs
  obtain ⟨contents, _, haccepted⟩ := library_eq_some h
  have hsource := Schema.source_of_ofSource (Source.accepted_eq_ok_iff.1 haccepted).1 s hs
  rw [Span.file, hsource]

/-- What a file at the root imports, it imports by a path from the root. -/
def LeadsFromRoot (store : FileStore) (settings : Settings) : Prop :=
  ∀ {statements i}, store.library settings "/" = some statements → .imports i ∈ statements →
    (Path.parse i.path).isAbsolute = true

lemma RootIsFree.leadsFromRoot (h : store.RootIsFree) : store.LeadsFromRoot settings := by
  intro statements i hsome _
  obtain ⟨contents, hread, _⟩ := library_eq_some hsome
  exact absurd hread (h contents)

/-- What a rooted file imports is rooted. -/
lemma LeadsFromRoot.isRooted_resolve (h : store.LeadsFromRoot settings) {file : String}
    {statements : List Statement} {i : ImportStatement} (hrooted : Path.IsRooted file)
    (hsome : store.library settings file = some statements) (hi : .imports i ∈ statements) :
    Path.IsRooted (Path.resolve file i.path) := by
  by_cases hfile : file = "/"
  · exact Path.isRooted_resolve_of_isAbsolute (h (hfile ▸ hsome) hi)
  · exact hrooted.resolve hfile i.path

/-! ## The depth -/

/-- The number of texts whose paths were not entered. -/
def unentered (store : FileStore) (entered : List String) : Nat :=
  store.texts.keys.countP (· ∉ entered)

lemma countP_unentered_mono {entered entered' : List String} (h : entered ⊆ entered')
    (paths : List String) : paths.countP (· ∉ entered') ≤ paths.countP (· ∉ entered) := by
  refine List.countP_mono_left ?_
  intro path _ hpath
  rw [decide_eq_true_eq] at hpath ⊢
  exact fun hc => hpath (h hc)

lemma unentered_mono {entered entered' : List String} (h : entered ⊆ entered') :
    store.unentered entered' ≤ store.unentered entered :=
  countP_unentered_mono h store.texts.keys

lemma getElem?_of_read {path contents : String} (h : store.read path = .ok contents) :
    store.texts[path]? = some contents := by
  rw [read] at h
  split at h
  · cases h
  · split at h
    · next hsome =>
        cases h
        exact hsome
    · cases h

lemma mem_keys_of_read {path contents : String} (h : store.read path = .ok contents) :
    path ∈ store.texts.keys := by
  rw [Std.ExtTreeMap.mem_keys, Std.ExtTreeMap.mem_iff_isSome_getElem?, getElem?_of_read h]
  rfl

/-- A path that is entered counts no more. -/
lemma countP_unentered_lt {paths entered : List String} {path : String} (hmem : path ∈ paths)
    (hnew : path ∉ entered) :
    paths.countP (· ∉ entered ++ [path]) < paths.countP (· ∉ entered) := by
  obtain ⟨before, behind, rfl⟩ := List.append_of_mem hmem
  have hsub : entered ⊆ entered ++ [path] := List.subset_append_left _ _
  have hbefore := countP_unentered_mono hsub before
  have hbehind := countP_unentered_mono hsub behind
  rw [List.countP_append, List.countP_append, List.countP_cons_of_neg (by simp),
    List.countP_cons_of_pos (by simpa using hnew)]
  omega

lemma unentered_lt {entered : List String} {path contents : String}
    (h : store.read path = .ok contents) (hnew : path ∉ entered) :
    store.unentered (entered ++ [path]) < store.unentered entered :=
  countP_unentered_lt (mem_keys_of_read h) hnew

/-- The number of characters of paths, and one for each path. -/
def spread : List String → Nat
  | [] => 0
  | path :: paths => path.length + 1 + spread paths

/-- The weight counts every character of a path of the store, and every such path once more. -/
lemma spread_keys_le_weight (store : FileStore) : spread store.texts.keys ≤ store.weight := by
  have key : ∀ (entries : List (String × String)) (n : Nat), n + spread (entries.map Prod.fst)
      ≤ entries.foldl (fun n e => n + e.1.length + e.2.length + 1) n := by
    intro entries
    induction entries with
    | nil => intro n; exact Nat.le_refl _
    | cons e entries ih =>
        intro n
        have hstep := ih (n + e.1.length + e.2.length + 1)
        rw [List.map_cons, spread, List.foldl_cons]
        omega
  have hweight := key store.texts.toList 0
  rw [Std.ExtTreeMap.map_fst_toList_eq_keys] at hweight
  rw [weight, Std.ExtTreeMap.foldl_eq_foldl_toList]
  omega

lemma length_keys_le_weight (store : FileStore) : store.texts.keys.length ≤ store.weight := by
  refine Nat.le_trans ?_ store.spread_keys_le_weight
  induction store.texts.keys with
  | nil => exact Nat.le_refl _
  | cons key keys ih =>
      rw [List.length_cons, spread]
      omega

lemma unentered_lt_nesting (store : FileStore) (entered : List String) :
    store.unentered entered < store.nesting := by
  have hcount : store.unentered entered ≤ store.texts.keys.length := List.countP_le_length
  have hweight := store.length_keys_le_weight
  rw [nesting, Nat.mul_add]
  omega

/-! ## Serving requests -/

/-- What is wrong with the file that a request is for. -/
def failure? (store : FileStore) (settings : Settings) (r : Request) : Option Finding :=
  match store.read r.path with
  | .error e => some ⟨requestSpan r.path r.importer, .file e⟩
  | .ok contents =>
    match Source.accepted ⟨r.path, contents⟩ settings with
    | .error f => some f
    | .ok _ => none

/-- What is known when a request was served: its path is entered, the file is recorded if it can be read,
and what is wrong with it is reported. -/
def serve (store : FileStore) (settings : Settings) (l : Loading) (r : Request) : Loading where
  entered := l.entered ++ [r.path]
  files :=
    match store.read r.path with
    | .ok contents => l.files.insert r.path (Sha256.ofText contents)
    | .error _ => l.files
  findings := l.findings ++ (store.failure? settings r).toList

/-! ## Running -/

section

variable (depth : Nat) (importer : Option ImportStatement) {path : String} {l : Loading}

lemma enter_of_mem (h : path ∈ l.entered) :
    (enter store settings (depth + 1) path importer).run l = ([], l) := by
  have hcontains : l.entered.contains path = true := by simpa using h
  rw [enter]
  show (if l.entered.contains path = true then _ else _ : StateM Loading _).run l = _
  rw [if_pos hcontains]
  rfl

/-- A new path is entered, fetched, and gone through. -/
lemma enter_of_not_mem (h : path ∉ l.entered) :
    (enter store settings (depth + 1) path importer).run l
      = match store.fetch ((importer.map (·.span.file)).getD "") path with
      | .error e => ([], (l.enter path).report ⟨requestSpan path importer, .file e⟩)
      | .ok contents =>
        match Source.accepted ⟨path, contents⟩ settings with
        | .error f => ([], ((l.enter path).record path contents).report f)
        | .ok schema =>
          (splice (fun i => enter store settings depth (Path.resolve path i.path) (some i))
            schema.statements).run ((l.enter path).record path contents) := by
  have hcontains : ¬ l.entered.contains path = true := by simpa using h
  rw [enter]
  show (if l.entered.contains path = true then _ else _ : StateM Loading _).run l = _
  rw [if_neg hcontains]
  show StateT.run (match store.fetch _ path with
    | .error e => _
    | .ok contents => _ : StateM Loading _) (l.enter path) = _
  cases store.fetch ((importer.map (·.span.file)).getD "") path with
  | error e => rfl
  | ok contents =>
      show StateT.run (match Source.accepted ⟨path, contents⟩ settings with
        | .error f => _
        | .ok schema => _ : StateM Loading _) ((l.enter path).record path contents)
          = match Source.accepted ⟨path, contents⟩ settings with
            | .error f => _
            | .ok schema => _
      cases Source.accepted ⟨path, contents⟩ settings <;> rfl

/-- A path that cannot be loaded adds no statements. -/
lemma enter_of_library_eq_none (hrooted : Path.IsRooted path) (h : path ∉ l.entered)
    (hnone : store.library settings path = none) :
    (enter store settings (depth + 1) path importer).run l
      = ([], store.serve settings l ⟨path, importer⟩) := by
  rw [enter_of_not_mem depth importer h, store.fetch_eq_read _ hrooted, serve, failure?]
  cases hread : store.read path with
  | error e => rfl
  | ok contents =>
      cases haccepted : Source.accepted ⟨path, contents⟩ settings with
      | error f =>
          simp only [haccepted]
          rfl
      | ok schema =>
          simp only [library, hread, haccepted] at hnone
          cases hnone

/-- The statements of a path that can be loaded are gone through. -/
lemma enter_of_library_eq_some {statements : List Statement} (hrooted : Path.IsRooted path)
    (h : path ∉ l.entered) (hsome : store.library settings path = some statements) :
    (enter store settings (depth + 1) path importer).run l
      = (splice (fun i => enter store settings depth (Path.resolve path i.path) (some i))
          statements).run (store.serve settings l ⟨path, importer⟩) := by
  obtain ⟨contents, hread, haccepted⟩ := library_eq_some hsome
  have hserve : store.serve settings l ⟨path, importer⟩ = (l.enter path).record path contents := by
    simp only [serve, failure?, hread, haccepted, Option.toList_none, List.append_nil]
    rfl
  rw [enter_of_not_mem depth importer h, store.fetch_eq_read _ hrooted, hread, hserve]
  simp only [haccepted]

end

/-! ## Traversing -/

/-- Gone through with traversals at its imports, a file is traversed, and each first request is served. -/
lemma passes_of_splice {file : String} {load : ImportStatement → StateM Loading (List Statement)}
    {bound : Nat} {statements : List Statement}
    (hload : ∀ i, .imports i ∈ statements → ∀ l : Loading, store.unentered l.entered < bound →
      ∃ requests, (store.library settings).Follows l.entered ⟨Path.resolve file i.path, some i⟩
          ((load i).run l).1 requests ((load i).run l).2.entered
        ∧ ((load i).run l).2 = (Request.firsts l.entered requests).foldl (store.serve settings) l)
    (l : Loading) (hbound : store.unentered l.entered < bound) :
    ∃ requests, (store.library settings).Passes l.entered file statements
        ((splice load statements).run l).1 requests ((splice load statements).run l).2.entered
      ∧ ((splice load statements).run l).2
        = (Request.firsts l.entered requests).foldl (store.serve settings) l := by
  induction statements generalizing l with
  | nil => exact ⟨[], .nil, rfl⟩
  | cons s rest ih =>
      replace ih := ih fun i hi => hload i (List.mem_cons_of_mem s hi)
      cases s with
      | imports i =>
          obtain ⟨requests, hblock, hstate⟩ := hload i List.mem_cons_self l hbound
          have hmono := store.unentered_mono hblock.enters.subset
          obtain ⟨further, hrest, hend⟩ := ih _ (Nat.lt_of_le_of_lt hmono hbound)
          refine ⟨requests ++ further, .imports hblock hrest, ?_⟩
          rw [Request.firsts_append, ← hblock.entered_eq, List.foldl_append, ← hstate]
          exact hend
      | _ =>
          obtain ⟨requests, hrest, hend⟩ := ih l hbound
          exact ⟨requests, .other rfl hrest, hend⟩

/-- **What `enter` does** is a traversal in which each first request is served, if the depth exceeds the
number of texts that were not entered before. -/
lemma follows_of_enter (hroot : store.LeadsFromRoot settings) {depth : Nat} {path : String}
    (importer : Option ImportStatement) {l : Loading} (hrooted : Path.IsRooted path)
    (hdepth : store.unentered l.entered < depth) :
    ∃ requests, (store.library settings).Follows l.entered ⟨path, importer⟩
        ((enter store settings depth path importer).run l).1 requests
        ((enter store settings depth path importer).run l).2.entered
      ∧ ((enter store settings depth path importer).run l).2
        = (Request.firsts l.entered requests).foldl (store.serve settings) l := by
  induction depth generalizing path importer l with
  | zero => exact absurd hdepth (Nat.not_lt_zero _)
  | succ depth ih =>
      by_cases hmem : path ∈ l.entered
      · rw [enter_of_mem depth importer hmem]
        exact ⟨[⟨path, importer⟩], .again hmem, by rw [Request.firsts, if_pos hmem]; rfl⟩
      · cases hlibrary : store.library settings path with
        | none =>
            rw [enter_of_library_eq_none depth importer hrooted hmem hlibrary]
            exact ⟨[⟨path, importer⟩], .failed hmem hlibrary, by
              rw [Request.firsts, if_neg hmem]; rfl⟩
        | some statements =>
            obtain ⟨contents, hread, _⟩ := library_eq_some hlibrary
            have hless := unentered_lt hread hmem
            have hless' : store.unentered (l.entered ++ [path]) < depth := by omega
            have hload := fun i (hi : .imports i ∈ statements) l =>
              ih (some i) (hroot.isRooted_resolve hrooted hlibrary hi) (l := l)
            obtain ⟨requests, hpasses, hstate⟩ := passes_of_splice hload
              (store.serve settings l ⟨path, importer⟩) hless'
            rw [enter_of_library_eq_some depth importer hrooted hmem hlibrary]
            refine ⟨⟨path, importer⟩ :: requests, .loaded hmem hlibrary hpasses, ?_⟩
            rw [Request.firsts, if_neg hmem]
            exact hstate

/-- What `enter` answers is a traversal. -/
lemma enters_of_enter (hroot : store.RootIsFree) {depth : Nat} {path : String}
    (importer : Option ImportStatement) {l : Loading} (hrooted : Path.IsRooted path)
    (hdepth : store.unentered l.entered < depth) :
    (store.library settings).Enters l.entered path
      ((enter store settings depth path importer).run l).1
      ((enter store settings depth path importer).run l).2.entered := by
  obtain ⟨_, hfollows, _⟩ := follows_of_enter hroot.leadsFromRoot importer hrooted hdepth
  exact hfollows.enters

end FileStore

end RpcSchema
