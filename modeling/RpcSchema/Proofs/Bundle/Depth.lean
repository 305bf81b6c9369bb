import RpcSchema.Proofs.Bundle.Following

/-!
# The depth is no bound

Imports are followed to a depth, and the depth is never reached: two runs of `enter` to any depths
that exceed what is left to enter are the same run (`FileStore.enter_depth`).  That holds for every
store, also where a file at the root makes paths stay relative.

**Spellings.**  A file that is found is asked for by a path out of a finite list,
`FileStore.spellings`.  A rooted path is a key of the store itself.  A relative path is looked up
behind the directory of the file that asks, so what it ends in behind its steps up is the end of a
key; and each of its steps up takes back a name of that directory, or is still there in the key
(`Request.Arises.mem_spellings`).  So along nested imports the number of spellings that were not
entered yet falls.
-/

namespace RpcSchema

/-! ## Steps of a text -/

namespace Path

/-- A text has no more steps than characters. -/
lemma length_segments_parse_le (s : String) : (parse s).segments.length ≤ s.length := by
  have key : ∀ cs : List Char, ((cs.splitOn '/').filterMap segment?).length ≤ cs.length := by
    intro cs
    induction cs with
    | nil => exact Nat.le_refl _
    | cons c cs ih =>
        obtain ⟨first, rest, hsplit⟩ := List.exists_cons_of_ne_nil (List.splitOn_ne_nil '/' cs)
        rw [List.splitOn_cons_eq_if_modifyHead, hsplit, List.length_cons]
        rw [hsplit] at ih
        split
        · rw [List.filterMap_cons_none rfl]
          omega
        · have hrest : (rest.filterMap segment?).length
              ≤ ((first :: rest).filterMap segment?).length := by
            rw [List.filterMap_cons]
            split <;> simp
          rw [List.modifyHead_cons, List.filterMap_cons]
          split
          · omega
          · rw [List.length_cons]
            omega
  rw [← String.length_toList]
  exact key s.toList

end Path

namespace FileStore

variable {store : FileStore} {settings : Settings}

/-- The relative paths that are an end of a key behind fewer than `bound` steps up. -/
def relatives (bound : Nat) (key : String) : List String :=
  (List.range ((Path.parse key).segments.length + 1)).flatMap fun skipped =>
    (List.range bound).map fun ups =>
      Path.toText ⟨false, List.replicate ups .up ++ (Path.parse key).segments.drop skipped⟩

/-- The paths by which a file of the store may be asked for with success. -/
def spellings (store : FileStore) : List String :=
  store.texts.keys ++ store.texts.keys.flatMap (relatives (2 * store.weight + 1))

lemma length_relatives_le (bound : Nat) (key : String) :
    (relatives bound key).length ≤ (key.length + 1) * bound := by
  have hlength : (relatives bound key).length
      = ((Path.parse key).segments.length + 1) * bound := by
    simp [relatives, List.length_flatMap, List.map_const']
  rw [hlength]
  exact Nat.mul_le_mul_right bound (Nat.succ_le_succ (Path.length_segments_parse_le key))

lemma length_flatMap_relatives_le (bound : Nat) (keys : List String) :
    (keys.flatMap (relatives bound)).length ≤ spread keys * bound := by
  induction keys with
  | nil => exact Nat.zero_le _
  | cons key keys ih =>
      have hkey := length_relatives_le bound key
      rw [List.flatMap_cons, List.length_append, spread, Nat.add_mul]
      omega

lemma length_spellings_lt (store : FileStore) : store.spellings.length < store.nesting := by
  have hkeys := store.length_keys_le_weight
  have hrelatives := length_flatMap_relatives_le (2 * store.weight + 1) store.texts.keys
  have hweight := Nat.mul_le_mul_right (2 * store.weight + 1) store.spread_keys_le_weight
  have hproduct : store.weight + store.weight * (2 * store.weight + 1)
      = 2 * store.weight * (store.weight + 1) := by
    rw [Nat.mul_add, Nat.mul_add, Nat.mul_left_comm, ← Nat.mul_assoc]
    omega
  rw [spellings, List.length_append, nesting, ← hproduct]
  omega

/-- A key of the store has no more steps than the store weighs. -/
lemma length_segments_le_weight {key : String} (h : key ∈ store.texts.keys) :
    (Path.parse key).segments.length ≤ store.weight := by
  have hkey := Path.length_segments_parse_le key
  have hspread : ∀ keys : List String, key ∈ keys → key.length < spread keys := by
    intro keys hmem
    induction keys with
    | nil => cases hmem
    | cons first keys ih =>
        rw [spread]
        rcases List.mem_cons.1 hmem with rfl | hmem
        · omega
        · have := ih hmem
          omega
  have hlength := hspread _ h
  have hweight := store.spread_keys_le_weight
  omega

/-- What a relative path ends in is the end of the key under which it is found, and its steps up are
no more than those of the directory down and of the key. -/
lemma segments_of_fetch {asker contents : String} {ups : Nat} {names : List String}
    (hnames : ∀ n ∈ names, IsName n) (hrelative : (Path.parse asker).parent.isAbsolute = false)
    (hfetch : store.fetch asker (Path.relative ups names).toText = .ok contents) :
    ∃ key ∈ store.texts.keys, ∃ before,
      (Path.parse key).segments = before ++ names.map .name
        ∧ ups ≤ (Path.parse asker).parent.segments.countP Segment.isName + before.length := by
  have hparse := Path.parse_toText (Path.named_relative ups hnames)
  have hfront := Path.named_parent (Path.named_parse asker)
  obtain ⟨before, hsegments, hups⟩ := Path.clean_append hfront ups names
  have hkey := mem_keys_of_read hfetch
  rw [Path.resolve_relative (by rw [hparse]; rfl), hparse, hrelative] at hkey
  refine ⟨_, hkey, before, ?_, hups⟩
  rw [Path.parse_toText (hfront.append (Path.named_relative ups hnames) false).clean, hsegments]

end FileStore

/-- A request that may come up while loading: for a rooted path, or for a relative one by a file whose
directory is relative and no deeper than the store weighs. -/
inductive Request.Arises (store : FileStore) (r : Request) : Prop where
  | rooted : Path.IsRooted r.path → Arises store r
  | relative (ups : Nat) (names : List String) : (∀ n ∈ names, IsName n) →
      r.path = (Path.relative ups names).toText → (Path.parse r.asker).parent.isAbsolute = false →
      (Path.parse r.asker).parent.segments.countP Segment.isName ≤ store.weight → Arises store r

namespace Request.Arises

open FileStore

variable {store : FileStore} {r : Request} {contents : String}

/-- What is found was asked for by one of the spellings. -/
lemma mem_spellings (h : r.Arises store) (hfetch : store.fetch r.asker r.path = .ok contents) :
    r.path ∈ store.spellings := by
  cases h with
  | rooted hrooted =>
      rw [store.fetch_eq_read _ hrooted] at hfetch
      exact List.mem_append_left _ (mem_keys_of_read hfetch)
  | relative ups names hnames hpath hrelative hdepth =>
      rw [hpath] at hfetch ⊢
      obtain ⟨key, hkey, before, hsegments, hups⟩ := segments_of_fetch hnames hrelative hfetch
      have hweight := length_segments_le_weight hkey
      rw [hsegments, List.length_append] at hweight
      refine List.mem_append_right _ (List.mem_flatMap.2 ⟨key, hkey, List.mem_flatMap.2
        ⟨before.length, ?_, List.mem_map.2 ⟨ups, ?_, ?_⟩⟩⟩)
      · rw [List.mem_range, hsegments, List.length_append]
        omega
      · rw [List.mem_range]
        omega
      · rw [hsegments, List.drop_left]
        rfl

/-- The imports of a file that was found may come up. -/
lemma imports (h : r.Arises store) (hfetch : store.fetch r.asker r.path = .ok contents)
    {i : ImportStatement} (hplace : i.span.file = r.path) :
    Request.Arises store ⟨Path.resolve r.path i.path, some i⟩ := by
  by_cases habsolute : (Path.parse i.path).isAbsolute = true
  · exact .rooted (Path.isRooted_resolve_of_isAbsolute habsolute)
  · have hasker : Request.asker ⟨Path.resolve r.path i.path, some i⟩ = r.path := hplace
    rw [Bool.not_eq_true] at habsolute
    -- Whatever stands in front, what comes out is relative.
    have hkeep : (Path.parse r.path).parent.isAbsolute = false →
        (Path.parse r.path).parent.segments.countP Segment.isName ≤ store.weight →
        Request.Arises store ⟨Path.resolve r.path i.path, some i⟩ := by
      intro hrelative hdepth
      have hnamed := (Path.named_parent (Path.named_parse r.path)).append (Path.named_parse i.path)
        (Path.parse r.path).parent.isAbsolute
      obtain ⟨ups, names, hnames, hclean⟩ := Path.clean_eq_relative hnamed hrelative
      refine .relative ups names hnames ?_ (hasker ▸ hrelative) (hasker ▸ hdepth)
      rw [← hclean]
      exact Path.resolve_relative habsolute
    cases h with
    | rooted hrooted =>
        by_cases hroot : r.path = "/"
        · have hparent : (Path.parse r.path).parent = ⟨false, []⟩ := by
            rw [hroot]
            decide
          rw [hparent] at hkeep
          exact hkeep rfl (Nat.zero_le _)
        · exact .rooted (hrooted.resolve hroot i.path)
    | relative ups names hnames hpath hrelative hdepth =>
        have hparse := Path.parse_toText (Path.named_relative ups hnames)
        rw [hpath] at hfetch
        obtain ⟨key, hkey, before, hsegments, -⟩ := segments_of_fetch hnames hrelative hfetch
        have hweight := length_segments_le_weight hkey
        have hparent := (Path.relative ups names).parent_sublist.countP_le (p := Segment.isName)
        have hcount : (Path.relative ups names).segments.countP Segment.isName = names.length := by
          simp [Path.relative, List.countP_replicate, List.countP_map, Segment.isName, Function.comp_def]
        rw [hsegments, List.length_append, List.length_map] at hweight
        rw [hpath, hparse] at hkeep
        rw [hpath]
        exact hkeep (Path.isAbsolute_parent rfl) (by omega)

end Request.Arises

/-! ## Answering a request -/

namespace FileStore

variable {store : FileStore} {settings : Settings}

/-- The statements that are gone through for a request, if its file can be loaded. -/
def answer? (store : FileStore) (settings : Settings) (r : Request) : Option (List Statement) :=
  match store.fetch r.asker r.path with
  | .error _ => none
  | .ok contents =>
    match Source.accepted ⟨r.path, contents⟩ settings with
    | .error _ => none
    | .ok schema => some schema.statements

/-- What is known then. -/
def answered (store : FileStore) (settings : Settings) (l : Loading) (r : Request) : Loading :=
  match store.fetch r.asker r.path with
  | .error e => (l.enter r.path).report ⟨requestSpan r.path r.importer, .file e⟩
  | .ok contents =>
    match Source.accepted ⟨r.path, contents⟩ settings with
    | .error f => ((l.enter r.path).record r.path contents).report f
    | .ok _ => (l.enter r.path).record r.path contents

lemma entered_answered (settings : Settings) (l : Loading) (r : Request) :
    (store.answered settings l r).entered = l.entered ++ [r.path] := by
  rw [answered]
  split
  · rfl
  · split <;> rfl

/-- A request is answered from a file that was found, and all that it imports it imports from there. -/
lemma of_answer?_eq_some {r : Request} {statements : List Statement}
    (h : store.answer? settings r = some statements) :
    (∃ contents, store.fetch r.asker r.path = .ok contents)
      ∧ ∀ i, .imports i ∈ statements → i.span.file = r.path := by
  rw [answer?] at h
  split at h
  · cases h
  · next contents hfetch =>
      split at h
      · cases h
      · next schema haccepted =>
          cases h
          refine ⟨⟨contents, hfetch⟩, fun i hi => ?_⟩
          have hsource := Schema.source_of_ofSource (Source.accepted_eq_ok_iff.1 haccepted).1 _ hi
          exact congrArg Source.file hsource

/-- A new path is answered, and the statements that it is answered with are gone through. -/
lemma enter_of_answer? (depth : Nat) (r : Request) {l : Loading} (h : r.path ∉ l.entered) :
    (enter store settings (depth + 1) r.path r.importer).run l
      = match store.answer? settings r with
        | none => ([], store.answered settings l r)
        | some statements =>
          (splice (fun i => enter store settings depth (Path.resolve r.path i.path) (some i))
            statements).run (store.answered settings l r) := by
  rw [enter_of_not_mem depth r.importer h, answer?, answered]
  show (match store.fetch r.asker r.path with
    | .error _ => _
    | .ok _ => _) = _
  cases store.fetch r.asker r.path with
  | error e => rfl
  | ok contents => cases haccepted : Source.accepted ⟨r.path, contents⟩ settings <;> simp only [haccepted]

/-! ## What is asked for -/

/-- The requests that are made while the imports among statements are replaced, where `asks` are those
for one of them. -/
def asksOfImports (load : ImportStatement → StateM Loading (List Statement))
    (asks : ImportStatement → Loading → List Request) : List Statement → Loading → List Request
  | [], _ => []
  | .imports i :: rest, l => asks i l ++ asksOfImports load asks rest ((load i).run l).2
  | _ :: rest, l => asksOfImports load asks rest l

/-- The requests that the store is asked while a file is entered to a depth, in their order.  A path
that was entered before is not asked for. -/
def asks (store : FileStore) (settings : Settings) : Nat → Request → Loading → List Request
  | 0, _, _ => []
  | depth + 1, r, l =>
    if r.path ∈ l.entered then []
    else
      r :: match store.answer? settings r with
      | none => []
      | some statements =>
        asksOfImports (fun i => enter store settings depth (Path.resolve r.path i.path) (some i))
          (fun i => asks store settings depth ⟨Path.resolve r.path i.path, some i⟩) statements
          (store.answered settings l r)

lemma asks_of_mem (depth : Nat) {r : Request} {l : Loading} (h : r.path ∈ l.entered) :
    store.asks settings (depth + 1) r l = [] := by
  rw [asks, if_pos h]

lemma asks_of_not_mem (depth : Nat) {r : Request} {l : Loading} (h : r.path ∉ l.entered) :
    store.asks settings (depth + 1) r l
      = r :: match store.answer? settings r with
        | none => []
        | some statements =>
          asksOfImports (fun i => enter store settings depth (Path.resolve r.path i.path) (some i))
            (fun i => store.asks settings depth ⟨Path.resolve r.path i.path, some i⟩) statements
            (store.answered settings l r) := by
  rw [asks, if_neg h]

/-- What was entered stays entered, and the paths that are asked for are entered behind. -/
lemma entered_splice {load : ImportStatement → StateM Loading (List Statement)}
    {asks : ImportStatement → Loading → List Request}
    (hload : ∀ i l, ((load i).run l).2.entered = l.entered ++ (asks i l).map (·.path))
    (statements : List Statement) (l : Loading) :
    ((splice load statements).run l).2.entered
      = l.entered ++ (asksOfImports load asks statements l).map (·.path) := by
  induction statements generalizing l with
  | nil => exact (List.append_nil _).symm
  | cons s rest ih =>
      cases s with
      | imports i =>
          have hrest := ih ((load i).run l).2
          rw [hload, List.append_assoc, ← List.map_append] at hrest
          exact hrest
      | _ => exact ih l

lemma entered_enter (store : FileStore) (settings : Settings) (depth : Nat) (r : Request)
    (l : Loading) :
    ((enter store settings depth r.path r.importer).run l).2.entered
      = l.entered ++ (store.asks settings depth r l).map (·.path) := by
  induction depth generalizing r l with
  | zero => exact (List.append_nil _).symm
  | succ depth ih =>
      by_cases hmem : r.path ∈ l.entered
      · rw [enter_of_mem depth r.importer hmem, asks_of_mem depth hmem]
        exact (List.append_nil _).symm
      · rw [enter_of_answer? depth r hmem, asks_of_not_mem depth hmem, List.map_cons, List.append_cons,
          ← store.entered_answered settings l r]
        cases store.answer? settings r with
        | none => exact (List.append_nil _).symm
        | some statements =>
            exact entered_splice (fun i => ih ⟨Path.resolve r.path i.path, some i⟩) statements _

/-! ## Any depth that is enough -/

lemma run_splice_imports (load : ImportStatement → StateM Loading (List Statement))
    (i : ImportStatement) (rest : List Statement) (l : Loading) :
    (splice load (.imports i :: rest)).run l
      = (((load i).run l).1 ++ ((splice load rest).run ((load i).run l).2).1,
        ((splice load rest).run ((load i).run l).2).2) := rfl

lemma run_splice_other (load : ImportStatement → StateM Loading (List Statement)) {s : Statement}
    (hs : s.import? = none) (rest : List Statement) (l : Loading) :
    (splice load (s :: rest)).run l
      = (s :: ((splice load rest).run l).1, ((splice load rest).run l).2) := by
  cases s <;> cases hs <;> rfl

lemma asksOfImports_other {load : ImportStatement → StateM Loading (List Statement)}
    {asks : ImportStatement → Loading → List Request} {s : Statement} (hs : s.import? = none)
    (rest : List Statement) (l : Loading) :
    asksOfImports load asks (s :: rest) l = asksOfImports load asks rest l := by
  cases s <;> cases hs <;> rfl

/-- Two ways to load, and to ask, that agree as long as what is known stays `good`, agree on all
statements. -/
lemma splice_congr {load load' : ImportStatement → StateM Loading (List Statement)}
    {asks asks' : ImportStatement → Loading → List Request} (good : Loading → Prop)
    {statements : List Statement}
    (h : ∀ i, .imports i ∈ statements → ∀ l, good l → (load i).run l = (load' i).run l
      ∧ asks i l = asks' i l ∧ good ((load i).run l).2)
    (l : Loading) (hl : good l) :
    (splice load statements).run l = (splice load' statements).run l
      ∧ asksOfImports load asks statements l = asksOfImports load' asks' statements l := by
  induction statements generalizing l with
  | nil => exact ⟨rfl, rfl⟩
  | cons s rest ih =>
      replace ih := ih fun i hi => h i (List.mem_cons_of_mem s hi)
      cases himport : s.import? with
      | some i =>
          obtain rfl := Statement.eq_imports_of_import? himport
          obtain ⟨hrun, hasks, hgood⟩ := h i List.mem_cons_self l hl
          obtain ⟨hrest, hmore⟩ := ih _ hgood
          rw [hrun] at hrest hmore
          rw [run_splice_imports, run_splice_imports, asksOfImports, asksOfImports, hrun, hasks, hrest,
            hmore]
          exact ⟨rfl, rfl⟩
      | none =>
          obtain ⟨hrest, hmore⟩ := ih l hl
          rw [run_splice_other load himport, run_splice_other load' himport,
            asksOfImports_other himport, asksOfImports_other himport, hrest, hmore]
          exact ⟨rfl, rfl⟩

/-- The number of spellings that were not entered. -/
def unspelled (store : FileStore) (l : Loading) : Nat := store.spellings.countP (· ∉ l.entered)

lemma unspelled_lt_nesting (store : FileStore) (l : Loading) : store.unspelled l < store.nesting :=
  Nat.lt_of_le_of_lt List.countP_le_length store.length_spellings_lt

/-- **Any depth that is enough.**  Two depths that exceed the number of spellings that were not
entered make no difference for what a file is answered with, for what is known then, and for what is
asked. -/
theorem enter_depth (settings : Settings) {depth depth' : Nat} {r : Request} {l : Loading}
    (harises : r.Arises store) (hdepth : store.unspelled l < depth) (hdepth' : store.unspelled l < depth') :
    (enter store settings depth r.path r.importer).run l
        = (enter store settings depth' r.path r.importer).run l
      ∧ store.asks settings depth r l = store.asks settings depth' r l := by
  induction depth generalizing depth' r l with
  | zero => exact absurd hdepth (Nat.not_lt_zero _)
  | succ depth ih =>
      cases depth' with
      | zero => exact absurd hdepth' (Nat.not_lt_zero _)
      | succ depth' =>
          by_cases hmem : r.path ∈ l.entered
          · rw [enter_of_mem depth r.importer hmem, enter_of_mem depth' r.importer hmem,
              asks_of_mem depth hmem, asks_of_mem depth' hmem]
            exact ⟨rfl, rfl⟩
          · rw [enter_of_answer? depth r hmem, enter_of_answer? depth' r hmem,
              asks_of_not_mem depth hmem, asks_of_not_mem depth' hmem]
            cases hanswer : store.answer? settings r with
            | none => exact ⟨rfl, rfl⟩
            | some statements =>
                obtain ⟨⟨contents, hfetch⟩, hplace⟩ := of_answer?_eq_some hanswer
                have hless : store.unspelled (store.answered settings l r) < store.unspelled l := by
                  rw [unspelled, entered_answered]
                  exact countP_unentered_lt (harises.mem_spellings hfetch) hmem
                let good (l : Loading) : Prop :=
                  store.unspelled l < depth ∧ store.unspelled l < depth'
                have hgood : good (store.answered settings l r) := ⟨by omega, by omega⟩
                refine And.imp_right (congrArg (r :: ·)) (splice_congr good (fun i hi l hl => ?_) _ hgood)
                obtain ⟨hrun, hasks⟩ := ih (harises.imports hfetch (hplace i hi)) hl.1 hl.2
                have hentered := store.entered_enter settings depth ⟨Path.resolve r.path i.path, some i⟩ l
                have hmono := countP_unentered_mono (hentered ▸ List.subset_append_left _ _)
                  store.spellings
                exact ⟨hrun, hasks, Nat.lt_of_le_of_lt hmono hl.1, Nat.lt_of_le_of_lt hmono hl.2⟩

end FileStore

end RpcSchema
