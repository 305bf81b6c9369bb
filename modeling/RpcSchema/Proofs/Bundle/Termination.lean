import Mathlib.Data.List.Dedup
import Mathlib.Data.List.Perm.Subperm
import RpcSchema.Proofs.Bundle.Consulted

/-!
# Loading ends

Imports are followed to paths that are read out of the files, so nothing gets smaller on the way from a
file to one that it imports.  `FileStore.Loads` is this recursion without a depth at which it is cut
off.  It is a relation, since a recursion need not come to an end: it holds of a request and an outcome
where the recursion ends in that outcome, and there is at most one (`Loads.unique`).

**There is an outcome.**  `enter` has one for every depth, and if the depth exceeds the number of
spellings that were not entered yet, it is an outcome of the recursion (`FileStore.loads_enter`): every
file that is found has its path entered, which is one of the spellings, and along nested imports that
number falls.  A path that nothing is found under is entered as well, but nothing nests below it.

**What is asked for.**  A path is entered before the store is asked for it, so the requests are for
distinct paths (`Loads.entered_eq`, `Loads.nodup_entered`).  These are the path that loading begins
with and what the files that were reached import (`Loads.of_mem`, `Loads.closed`).
-/

namespace RpcSchema

namespace FileStore

variable {store : FileStore} {settings : Settings}

/-! ## The recursion -/

mutual

/-- Following a request ends in a block of statements; with the requests that the store was asked, and
what was known before and is known then. -/
inductive Loads (store : FileStore) (settings : Settings) :
    Request → Loading → List Statement → List Request → Loading → Prop where
  | again {r : Request} {l : Loading} : r.path ∈ l.entered → Loads store settings r l [] [] l
  | failed {r : Request} {l : Loading} : r.path ∉ l.entered → store.answer? settings r = none →
      Loads store settings r l [] [r] (store.answered settings l r)
  | loaded {r : Request} {l l' : Loading} {statements block : List Statement}
      {requests : List Request} :
      r.path ∉ l.entered → store.answer? settings r = some statements →
      LoadsAll store settings r.path statements (store.answered settings l r) block requests l' →
      Loads store settings r l block (r :: requests) l'

/-- The same for the statements of a file, each import in its place. -/
inductive LoadsAll (store : FileStore) (settings : Settings) :
    String → List Statement → Loading → List Statement → List Request → Loading → Prop where
  | nil {file : String} {l : Loading} : LoadsAll store settings file [] l [] [] l
  | imports {file : String} {i : ImportStatement} {rest block behind : List Statement}
      {l between l' : Loading} {requests further : List Request} :
      Loads store settings ⟨Path.resolve file i.path, some i⟩ l block requests between →
      LoadsAll store settings file rest between behind further l' →
      LoadsAll store settings file (.imports i :: rest) l (block ++ behind) (requests ++ further) l'
  | other {file : String} {s : Statement} {rest behind : List Statement} {l l' : Loading}
      {requests : List Request} :
      s.import? = none → LoadsAll store settings file rest l behind requests l' →
      LoadsAll store settings file (s :: rest) l (s :: behind) requests l'

end

mutual

/-- The recursion ends in one outcome at most. -/
lemma Loads.unique : ∀ {r l block requests l'}, Loads store settings r l block requests l' →
    ∀ {block₂ requests₂ l₂}, Loads store settings r l block₂ requests₂ l₂ →
      block = block₂ ∧ requests = requests₂ ∧ l' = l₂
  | _, _, _, _, _, .again hmem => by
      intro h₂
      cases h₂ with
      | again => exact ⟨rfl, rfl, rfl⟩
      | failed hnew => exact absurd hmem hnew
      | loaded hnew => exact absurd hmem hnew
  | _, _, _, _, _, .failed hnew hnone => by
      intro h₂
      cases h₂ with
      | again hmem => exact absurd hmem hnew
      | failed => exact ⟨rfl, rfl, rfl⟩
      | loaded _ hsome =>
          rw [hnone] at hsome
          cases hsome
  | _, _, _, _, _, .loaded hnew hsome h => by
      intro h₂
      cases h₂ with
      | again hmem => exact absurd hmem hnew
      | failed _ hnone =>
          rw [hnone] at hsome
          cases hsome
      | loaded _ hsome₂ h₂ =>
          rw [hsome] at hsome₂
          cases hsome₂
          obtain ⟨rfl, rfl, rfl⟩ := h.unique h₂
          exact ⟨rfl, rfl, rfl⟩

lemma LoadsAll.unique : ∀ {file statements l block requests l'},
    LoadsAll store settings file statements l block requests l' →
    ∀ {block₂ requests₂ l₂}, LoadsAll store settings file statements l block₂ requests₂ l₂ →
      block = block₂ ∧ requests = requests₂ ∧ l' = l₂
  | _, _, _, _, _, _, .nil => by
      intro h₂
      cases h₂
      exact ⟨rfl, rfl, rfl⟩
  | _, _, _, _, _, _, .imports h hrest => by
      intro h₂
      cases h₂ with
      | imports h₂ hrest₂ =>
          obtain ⟨rfl, rfl, rfl⟩ := h.unique h₂
          obtain ⟨rfl, rfl, rfl⟩ := hrest.unique hrest₂
          exact ⟨rfl, rfl, rfl⟩
      | other hnone => cases hnone
  | _, _, _, _, _, _, .other hnone hrest => by
      intro h₂
      cases h₂ with
      | imports => cases hnone
      | other _ hrest₂ =>
          obtain ⟨rfl, rfl, rfl⟩ := hrest.unique hrest₂
          exact ⟨rfl, rfl, rfl⟩

end

/-! ## The requests -/

mutual

/-- The paths that are asked for are entered, in their order. -/
lemma Loads.entered_eq : ∀ {r l block requests l'}, Loads store settings r l block requests l' →
    l'.entered = l.entered ++ requests.map (·.path)
  | _, _, _, _, _, .again _ => (List.append_nil _).symm
  | r, l, _, _, _, .failed _ _ => store.entered_answered settings l r
  | r, l, _, _, _, .loaded _ _ h => by
      have hentered := h.entered_eq
      rwa [entered_answered, List.append_assoc] at hentered

lemma LoadsAll.entered_eq : ∀ {file statements l block requests l'},
    LoadsAll store settings file statements l block requests l' →
    l'.entered = l.entered ++ requests.map (·.path)
  | _, _, _, _, _, _, .nil => (List.append_nil _).symm
  | _, _, _, _, _, _, .imports h hrest => by
      rw [hrest.entered_eq, h.entered_eq, List.append_assoc, List.map_append]
  | _, _, _, _, _, _, .other _ hrest => hrest.entered_eq

end

/-- What was entered stays entered. -/
lemma LoadsAll.subset {file : String} {statements block : List Statement} {requests : List Request}
    {l l' : Loading} (h : LoadsAll store settings file statements l block requests l') :
    l.entered ⊆ l'.entered := by
  rw [h.entered_eq]
  exact List.subset_append_left _ _

lemma nodup_entered_answered {r : Request} {l : Loading} (hnew : r.path ∉ l.entered)
    (h : l.entered.Nodup) : (store.answered settings l r).entered.Nodup := by
  rw [entered_answered, ← List.concat_eq_append]
  exact h.concat hnew

mutual

/-- No path is entered twice. -/
lemma Loads.nodup_entered : ∀ {r l block requests l'}, Loads store settings r l block requests l' →
    l.entered.Nodup → l'.entered.Nodup
  | _, _, _, _, _, .again _ => id
  | _, _, _, _, _, .failed hnew _ => nodup_entered_answered hnew
  | _, _, _, _, _, .loaded hnew _ h => fun hl => h.nodup_entered (nodup_entered_answered hnew hl)

lemma LoadsAll.nodup_entered : ∀ {file statements l block requests l'},
    LoadsAll store settings file statements l block requests l' →
    l.entered.Nodup → l'.entered.Nodup
  | _, _, _, _, _, _, .nil => id
  | _, _, _, _, _, _, .imports h hrest => fun hl => hrest.nodup_entered (h.nodup_entered hl)
  | _, _, _, _, _, _, .other _ hrest => hrest.nodup_entered

end

/-- An import of a file that a request was answered with is the reason for another. -/
def Causes (store : FileStore) (settings : Settings) (q q' : Request) : Prop :=
  ∃ statements i, store.answer? settings q = some statements ∧ .imports i ∈ statements
    ∧ q' = ⟨Path.resolve q.path i.path, some i⟩

mutual

/-- A request is the one that was followed, or another request is the reason for it. -/
lemma Loads.of_mem : ∀ {r l block requests l'}, Loads store settings r l block requests l' →
    ∀ q ∈ requests, q = r ∨ ∃ q' ∈ requests, store.Causes settings q' q
  | _, _, _, _, _, .again _ => nofun
  | _, _, _, _, _, .failed _ _ => fun _ hq => Or.inl (List.mem_singleton.1 hq)
  | r, _, _, _, _, .loaded _ hsome h => by
      intro q hq
      rcases List.mem_cons.1 hq with rfl | hq
      · exact Or.inl rfl
      · rcases h.of_mem q hq with ⟨i, hi, rfl⟩ | ⟨q', hq', hcauses⟩
        · exact Or.inr ⟨r, List.mem_cons_self, _, i, hsome, hi, rfl⟩
        · exact Or.inr ⟨q', List.mem_cons_of_mem r hq', hcauses⟩

lemma LoadsAll.of_mem : ∀ {file statements l block requests l'},
    LoadsAll store settings file statements l block requests l' →
    ∀ q ∈ requests, (∃ i, .imports i ∈ statements ∧ q = ⟨Path.resolve file i.path, some i⟩)
      ∨ ∃ q' ∈ requests, store.Causes settings q' q
  | _, _, _, _, _, _, .nil => nofun
  | _, _, _, _, _, _, .imports (i := i) h hrest => by
      intro q hq
      rcases List.mem_append.1 hq with hq | hq
      · rcases h.of_mem q hq with rfl | ⟨q', hq', hcauses⟩
        · exact Or.inl ⟨i, List.mem_cons_self, rfl⟩
        · exact Or.inr ⟨q', List.mem_append_left _ hq', hcauses⟩
      · rcases hrest.of_mem q hq with ⟨j, hj, rfl⟩ | ⟨q', hq', hcauses⟩
        · exact Or.inl ⟨j, List.mem_cons_of_mem _ hj, rfl⟩
        · exact Or.inr ⟨q', List.mem_append_right _ hq', hcauses⟩
  | _, _, _, _, _, _, .other (s := s) _ hrest => by
      intro q hq
      rcases hrest.of_mem q hq with ⟨i, hi, rfl⟩ | hcaused
      · exact Or.inl ⟨i, List.mem_cons_of_mem s hi, rfl⟩
      · exact Or.inr hcaused

end

mutual

/-- The path that was followed is entered then, and so is all that the files import that were reached. -/
lemma Loads.closed : ∀ {r l block requests l'}, Loads store settings r l block requests l' →
    r.path ∈ l'.entered ∧ ∀ q ∈ requests, ∀ q', store.Causes settings q q' → q'.path ∈ l'.entered
  | _, _, _, _, _, .again hmem => ⟨hmem, nofun⟩
  | r, l, _, _, _, .failed _ hnone => by
      refine ⟨by simp [entered_answered], fun q hq q' hcauses => ?_⟩
      obtain ⟨statements, i, hsome, -, -⟩ := hcauses
      rw [List.mem_singleton.1 hq, hnone] at hsome
      cases hsome
  | r, l, _, _, _, .loaded _ hsome h => by
      obtain ⟨htargets, hclosed⟩ := h.closed
      refine ⟨by simp [h.entered_eq, entered_answered], fun q hq q' hcauses => ?_⟩
      rcases List.mem_cons.1 hq with rfl | hq
      · obtain ⟨statements, i, hsome₂, hi, rfl⟩ := hcauses
        rw [hsome] at hsome₂
        cases hsome₂
        exact htargets i hi
      · exact hclosed q hq q' hcauses

lemma LoadsAll.closed : ∀ {file statements l block requests l'},
    LoadsAll store settings file statements l block requests l' →
    (∀ i, .imports i ∈ statements → Path.resolve file i.path ∈ l'.entered)
      ∧ ∀ q ∈ requests, ∀ q', store.Causes settings q q' → q'.path ∈ l'.entered
  | _, _, _, _, _, _, .nil => ⟨nofun, nofun⟩
  | _, _, _, _, _, _, .imports h hrest => by
      obtain ⟨hmem, hclosed⟩ := h.closed
      obtain ⟨htargets, hclosed'⟩ := hrest.closed
      -- what is entered by the first import stays entered
      have hkeep := hrest.subset
      refine ⟨fun i hi => ?_, fun q hq q' hcauses => ?_⟩
      · rcases List.mem_cons.1 hi with hi | hi
        · cases hi
          exact hkeep hmem
        · exact htargets i hi
      · rcases List.mem_append.1 hq with hq | hq
        · exact hkeep (hclosed q hq q' hcauses)
        · exact hclosed' q hq q' hcauses
  | _, _, _, _, _, _, .other hnone hrest => by
      obtain ⟨htargets, hclosed⟩ := hrest.closed
      refine ⟨fun i hi => ?_, hclosed⟩
      rcases List.mem_cons.1 hi with rfl | hi
      · cases hnone
      · exact htargets i hi

end

/-! ## There is an outcome -/

/-- Where every import ends in what `load` does, as long as what is known stays `good`, statements end in
what `splice` does. -/
lemma loadsAll_splice {file : String} {load : ImportStatement → StateM Loading (List Statement)}
    {asks : ImportStatement → Loading → List Request} (good : Loading → Prop)
    {statements : List Statement}
    (h : ∀ i, .imports i ∈ statements → ∀ l, good l →
      store.Loads settings ⟨Path.resolve file i.path, some i⟩ l ((load i).run l).1 (asks i l)
        ((load i).run l).2 ∧ good ((load i).run l).2)
    (l : Loading) (hl : good l) :
    store.LoadsAll settings file statements l ((splice load statements).run l).1
      (asksOfImports load asks statements l) ((splice load statements).run l).2 := by
  induction statements generalizing l with
  | nil => exact .nil
  | cons s rest ih =>
      replace ih := ih fun i hi => h i (List.mem_cons_of_mem s hi)
      cases himport : s.import? with
      | some i =>
          obtain rfl := Statement.eq_imports_of_import? himport
          obtain ⟨hloads, hgood⟩ := h i List.mem_cons_self l hl
          rw [run_splice_imports, asksOfImports]
          exact .imports hloads (ih _ hgood)
      | none =>
          rw [run_splice_other load himport, asksOfImports_other himport]
          exact .other himport (ih l hl)

/-- **There is an outcome**: what `enter` does to any depth that exceeds the number of spellings that were
not entered. -/
lemma loads_enter {depth : Nat} {r : Request} {l : Loading} (harises : r.Arises store)
    (hdepth : store.unspelled l < depth) :
    store.Loads settings r l ((enter store settings depth r.path r.importer).run l).1
      (store.asks settings depth r l) ((enter store settings depth r.path r.importer).run l).2 := by
  induction depth generalizing r l with
  | zero => exact absurd hdepth (Nat.not_lt_zero _)
  | succ depth ih =>
      by_cases hmem : r.path ∈ l.entered
      · rw [enter_of_mem depth r.importer hmem, asks_of_mem depth hmem]
        exact .again hmem
      · rw [enter_of_answer? depth r hmem, asks_of_not_mem depth hmem]
        cases hanswer : store.answer? settings r with
        | none => exact .failed hmem hanswer
        | some statements =>
            obtain ⟨⟨contents, hfetch⟩, hplace⟩ := of_answer?_eq_some hanswer
            have hless : store.unspelled (store.answered settings l r) < store.unspelled l := by
              rw [unspelled, entered_answered]
              exact countP_unentered_lt (harises.mem_spellings hfetch) hmem
            refine .loaded hmem hanswer (loadsAll_splice (store.unspelled · < depth)
              (fun i hi l hl => ⟨ih (harises.imports hfetch (hplace i hi)) hl, ?_⟩) _ (by omega))
            have hentered := store.entered_enter settings depth ⟨Path.resolve r.path i.path, some i⟩ l
            exact Nat.lt_of_le_of_lt
              (countP_unentered_mono (hentered ▸ List.subset_append_left _ _) store.spellings) hl

/-- What comes of loading from a file is an outcome. -/
lemma loads_first (store : FileStore) (settings : Settings) (entry : String) :
    let entered := (enter store settings store.nesting (Path.absolute entry) none).run .start
    let first : Request := ⟨Path.absolute entry, none⟩
    store.Loads settings first .start entered.1 (store.asks settings store.nesting first .start)
      entered.2 :=
  loads_enter (.rooted (Path.isRooted_absolute entry)) (store.unspelled_lt_nesting .start)

/-! ## Loading from a file -/

variable {r : Request} {block : List Statement} {requests : List Request} {l' : Loading}

/-- The paths that are imported by the files that requests were answered with. -/
def targets (store : FileStore) (settings : Settings) (requests : List Request) : List String :=
  requests.flatMap fun q => ((store.answer? settings q).getD []).filterMap fun s =>
    s.import?.map fun i => Path.resolve q.path i.path

lemma mem_targets_iff {path : String} :
    path ∈ store.targets settings requests
      ↔ ∃ q ∈ requests, ∃ q', store.Causes settings q q' ∧ q'.path = path := by
  rw [targets, List.mem_flatMap]
  refine exists_congr fun q => and_congr_right fun _ => ?_
  rw [List.mem_filterMap]
  constructor
  · rintro ⟨s, hs, htarget⟩
    obtain ⟨i, himport, rfl⟩ := Option.map_eq_some_iff.1 htarget
    obtain rfl := Statement.eq_imports_of_import? himport
    cases hanswer : store.answer? settings q with
    | none => simp [hanswer] at hs
    | some statements =>
        rw [hanswer] at hs
        exact ⟨_, ⟨statements, i, hanswer, hs, rfl⟩, rfl⟩
  · rintro ⟨_, ⟨statements, i, hanswer, hi, rfl⟩, rfl⟩
    exact ⟨.imports i, by rwa [hanswer], rfl⟩

/-- From the start, distinct paths are asked for. -/
lemma Loads.nodup_paths (h : store.Loads settings r .start block requests l') :
    (requests.map (·.path)).Nodup := by
  have hentered : l'.entered = requests.map (·.path) := h.entered_eq
  rw [← hentered]
  exact h.nodup_entered List.nodup_nil

/-- From the start, what is asked for is the path that was followed and what the files import that were
reached. -/
lemma Loads.mem_paths_iff (h : store.Loads settings r .start block requests l') (path : String) :
    path ∈ requests.map (·.path) ↔ path = r.path ∨ path ∈ store.targets settings requests := by
  have hentered : l'.entered = requests.map (·.path) := h.entered_eq
  constructor
  · intro hpath
    obtain ⟨q, hq, rfl⟩ := List.mem_map.1 hpath
    rcases h.of_mem q hq with rfl | ⟨q', hq', hcauses⟩
    · exact Or.inl rfl
    · exact Or.inr (mem_targets_iff.2 ⟨q', hq', q, hcauses, rfl⟩)
  · obtain ⟨hfirst, hclosed⟩ := h.closed
    rw [← hentered]
    rintro (rfl | htarget)
    · exact hfirst
    · obtain ⟨q, hq, q', hcauses, rfl⟩ := mem_targets_iff.1 htarget
      exact hclosed q hq q' hcauses

/-- Every request but the first has a target of its own. -/
lemma Loads.length_le (h : store.Loads settings r .start block requests l') :
    requests.length ≤ 1 + (store.targets settings requests).dedup.length := by
  have hsub : requests.map (·.path) ⊆ r.path :: (store.targets settings requests).dedup := by
    intro path hpath
    rw [List.mem_cons, List.mem_dedup]
    exact (h.mem_paths_iff path).1 hpath
  have hlength := (List.subperm_of_subset h.nodup_paths hsub).length_le
  rwa [List.length_map, List.length_cons, Nat.add_comm] at hlength

/-- **Loading ends**, for every store and every file that it begins with.  Followed without a bound, the
imports end in one outcome, which is what the loaded bundle is made from.  On the way the store is asked
for every path once at most, in normal form, however often it is imported and however it is spelled,
whether or not a file can be loaded from there; what it is asked for is the file that loading begins with
and what the files that were reached import, so that the distinct targets of these bound the number of
requests.

Where all that a file at the root imports is imported by paths from the root, a path is the key that the
store looks up whoever asks, and so no key is looked up twice. -/
theorem resolve_ends (store : FileStore) (settings : Settings) (entry : String) :
    ∃ block requests loaded,
      store.Loads settings ⟨Path.absolute entry, none⟩ .start block requests loaded
      ∧ (∀ {block₂ requests₂ loaded₂},
        store.Loads settings ⟨Path.absolute entry, none⟩ .start block₂ requests₂ loaded₂ →
          block = block₂ ∧ requests = requests₂ ∧ loaded = loaded₂)
      ∧ (let (schema, l) := (Schema.mapDocstringsM (docstringText store settings) ⟨block⟩).run loaded
        store.resolve settings entry
          = ⟨{ Bundle.ofSchema schema with files := l.files }, l.findings⟩)
      ∧ (requests.map (·.path)).Nodup ∧ (∀ q ∈ requests, Path.cleanText q.path = q.path)
      ∧ (∀ path, path ∈ requests.map (·.path)
        ↔ path = Path.absolute entry ∨ path ∈ store.targets settings requests)
      ∧ requests.length ≤ 1 + (store.targets settings requests).dedup.length
      ∧ (store.LeadsFromRoot settings → requests.map Request.key = requests.map (·.path)) := by
  let first : Request := ⟨Path.absolute entry, none⟩
  have hrooted : Path.IsRooted first.path := Path.isRooted_absolute entry
  have hloads := store.loads_first settings entry
  refine ⟨_, _, _, hloads, hloads.unique, rfl, hloads.nodup_paths, fun q hq => ?_,
    hloads.mem_paths_iff, hloads.length_le, fun hroot => ?_⟩
  · rcases hloads.of_mem q hq with rfl | ⟨q', _, _, i, _, _, rfl⟩
    · exact hrooted.cleanText_eq
    · exact Path.cleanText_resolve q'.path i.path
  · refine List.map_congr_left fun q hq => ?_
    exact (isRooted_of_mem_asks hroot hrooted hq).resolve_eq q.asker

end FileStore

end RpcSchema
