import RpcSchema.Proofs.Bundle.Loaded

/-!
# What a bundle records

A bundle knows the files that it was made from, by path and digest, and each of its statements knows the
file that it is from.  The file of a statement is always recorded, and a recorded path is to be trusted if
it is rooted: then the store has a text under exactly that path, the digest is the digest of that text, and
the statements that say to be from there were read from it (`FileStore.resolve_records`).

**Paths that are not rooted.**  The root leads from no directory, so what a file at the root mentions by a
relative path stays relative.  An import of that kind is looked up once more from the importing file, and
is then recorded under a path that nothing was read from (`FileStore.misled_recorded`).  No other files
are recorded wrongly: if a file at the root, where there is one, mentions files by paths from the root
only, then all paths are rooted (`MentionsFromRoot`).

**The induction.**  What a file contributes depends on its path alone, so properties of records and of
statements follow from what holds when one file is read, if what is said of its path holds of the paths
that it imports as well (`ReadsWell.enter`).
-/

namespace RpcSchema

/-- What is loaded: records that are `I`, and statements that are `S` beside them.  Statements that were
`S` beside the records of before still are. -/
structure Contributes (I : NameMap String → Prop) (S : NameMap String → Statement → Prop) (l : Loading)
    (out : List Statement × Loading) : Prop where
  records : I out.2.files
  keeps : ∀ s, S l.files s → S out.2.files s
  block : ∀ s ∈ out.1, S out.2.files s

namespace FileStore

variable {store : FileStore} {settings : Settings}

/-! ## Reading file by file -/

section

variable {G : String → Prop} {I : NameMap String → Prop} {S : NameMap String → Statement → Prop}

/-- Nothing is loaded, and the records are those of before. -/
lemma contributes_nil {l l' : Loading} (hfiles : l'.files = l.files) (hl : I l.files) :
    Contributes I S l ([], l') :=
  ⟨hfiles ▸ hl, fun _ hs => hfiles ▸ hs, nofun⟩

/-- Imports may be replaced by what is loaded for them. -/
lemma contributes_splice {load : ImportStatement → StateM Loading (List Statement)}
    {statements : List Statement}
    (hload : ∀ i, .imports i ∈ statements → ∀ l : Loading, I l.files →
      Contributes I S l ((load i).run l))
    (l : Loading) (hl : I l.files) (hown : ∀ s ∈ statements, S l.files s) :
    Contributes I S l ((splice load statements).run l) := by
  induction statements generalizing l with
  | nil => exact contributes_nil rfl hl
  | cons s rest ih =>
      replace ih := ih fun i hi => hload i (List.mem_cons_of_mem s hi)
      have hrest := fun t ht => hown t (List.mem_cons_of_mem s ht)
      cases s with
      | imports i =>
          have hblock := hload i List.mem_cons_self l hl
          have hbehind := ih _ hblock.records fun t ht => hblock.keeps t (hrest t ht)
          refine ⟨hbehind.records, fun t ht => hbehind.keeps t (hblock.keeps t ht), ?_⟩
          intro t ht
          rcases List.mem_append.1 ht with ht | ht
          · exact hbehind.keeps t (hblock.block t ht)
          · exact hbehind.block t ht
      | _ =>
          have hbehind := ih l hl hrest
          refine ⟨hbehind.records, hbehind.keeps, ?_⟩
          intro t ht
          rcases List.mem_cons.1 ht with rfl | ht
          · exact hbehind.keeps _ (hown _ List.mem_cons_self)
          · exact hbehind.block t ht

/-- Reading a file whose path is `G` keeps the records `I` and gives statements that are `S`, and the paths
that it imports are `G` again. -/
structure ReadsWell (store : FileStore) (settings : Settings) (G : String → Prop)
    (I : NameMap String → Prop) (S : NameMap String → Statement → Prop) : Prop where
  record : ∀ {path relativeTo contents : String} {files : NameMap String}, G path →
    store.fetch relativeTo path = .ok contents → I files →
    I (files.insert path (Sha256.ofText contents))
  keep : ∀ {path digest : String} {files : NameMap String} {s : Statement}, S files s →
    S (files.insert path digest) s
  statements : ∀ {path relativeTo contents : String} {schema : Schema}, G path →
    store.fetch relativeTo path = .ok contents →
    Source.accepted ⟨path, contents⟩ settings = .ok schema → ∀ s ∈ schema.statements,
    ∀ files : NameMap String, S (files.insert path (Sha256.ofText contents)) s
  imports : ∀ {path relativeTo contents : String} {schema : Schema}, G path →
    store.fetch relativeTo path = .ok contents →
    Source.accepted ⟨path, contents⟩ settings = .ok schema → ∀ i, .imports i ∈ schema.statements →
    G (Path.resolve path i.path)

/-- What holds of reading single files holds of loading a file with all that it imports. -/
lemma ReadsWell.enter (h : store.ReadsWell settings G I S) (depth : Nat) {path : String}
    (importer : Option ImportStatement) (hpath : G path) {l : Loading} (hl : I l.files) :
    Contributes I S l ((RpcSchema.enter store settings depth path importer).run l) := by
  induction depth generalizing path importer l with
  | zero => exact contributes_nil rfl hl
  | succ depth ih =>
      by_cases hmem : path ∈ l.entered
      · rw [enter_of_mem depth importer hmem]
        exact contributes_nil rfl hl
      · rw [enter_of_not_mem depth importer hmem]
        cases hfetch : store.fetch ((importer.map (·.span.file)).getD "") path with
        | error e =>
            show Contributes I S l ([], (l.enter path).report _)
            exact contributes_nil rfl hl
        | ok contents =>
            have hrecorded := h.record hpath hfetch hl
            cases haccepted : Source.accepted ⟨path, contents⟩ settings with
            | error f =>
                simp only [haccepted]
                have hnone : Contributes I S ((l.enter path).record path contents)
                    ([], ((l.enter path).record path contents).report f) :=
                  contributes_nil rfl hrecorded
                exact ⟨hnone.records, fun s hs => hnone.keeps s (h.keep hs), nofun⟩
            | ok schema =>
                simp only [haccepted]
                have hown := fun s hs => h.statements hpath hfetch haccepted s hs l.files
                have hblock := contributes_splice (fun i hi _ hl =>
                  ih (some i) (h.imports hpath hfetch haccepted i hi) hl)
                  ((l.enter path).record path contents) hrecorded hown
                exact ⟨hblock.records, fun s hs => hblock.keeps s (h.keep hs), hblock.block⟩

end

/-- What recording the file of each docstring keeps true of the records. -/
lemma consult_induct {I : NameMap String → Prop} {ds : List Docstring}
    (hrecord : ∀ d ∈ ds, ∀ {path contents files},
      d.reference? settings.docstringSuffix = some path →
      store.fetch d.span.file path = .ok contents → I files →
      I (files.insert (Path.resolve d.span.file path) (Sha256.ofText contents)))
    {l : Loading} (hl : I l.files) : I (ds.foldl (store.consult settings) l).files := by
  induction ds generalizing l with
  | nil => exact hl
  | cons d ds ih =>
      refine ih (fun e he => hrecord e (List.mem_cons_of_mem d he)) ?_
      rw [consult]
      cases hreference : d.reference? settings.docstringSuffix with
      | none => exact hl
      | some path =>
          cases hfetch : store.fetch d.span.file path with
          | error e =>
              simp only [hfetch]
              exact hl
          | ok contents =>
              simp only [hfetch]
              exact hrecord d List.mem_cons_self hreference hfetch hl

/-! ## Records that can be trusted -/

/-- What is recorded under a rooted path is the digest of the text that is stored there. -/
def Faithful (store : FileStore) (files : NameMap String) : Prop :=
  ∀ path digest, files[path]? = some digest → Path.IsRooted path →
    ∃ contents, store.texts[path]? = some contents ∧ digest = Sha256.ofText contents

/-- A statement from a rooted path was read from the text that is stored there. -/
def Sourced (store : FileStore) (s : Statement) : Prop :=
  Path.IsRooted s.span.file → ∃ contents schema, store.texts[s.span.file]? = some contents
    ∧ Schema.ofSource ⟨s.span.file, contents⟩ = .ok schema ∧ s ∈ schema.statements

lemma Faithful.insert {files : NameMap String} (h : store.Faithful files) {path contents : String}
    (hread : Path.IsRooted path → store.read path = .ok contents) :
    store.Faithful (files.insert path (Sha256.ofText contents)) := by
  intro path' digest hdigest hrooted
  rw [Std.ExtTreeMap.getElem?_insert] at hdigest
  split at hdigest
  · next heq =>
      cases Std.LawfulEqCmp.eq_of_compare heq
      cases hdigest
      exact ⟨contents, getElem?_of_read (hread hrooted), rfl⟩
  · exact h path' digest hdigest hrooted

/-- Reading a file records its path, and the record and the statements can be trusted if the path is
rooted. -/
lemma readsWell_trusted (store : FileStore) (settings : Settings) :
    store.ReadsWell settings (fun _ => True) store.Faithful
      fun files s => s.span.file ∈ files ∧ store.Sourced s where
  record {path relativeTo contents files} _ hfetch hfiles := hfiles.insert fun hrooted =>
    (store.fetch_eq_read relativeTo hrooted).symm.trans hfetch
  keep hs := ⟨Std.ExtTreeMap.mem_insert.2 (Or.inr hs.1), hs.2⟩
  statements {path relativeTo contents schema} _ hfetch haccepted s hs files := by
    obtain ⟨hschema, _⟩ := Source.accepted_eq_ok_iff.1 haccepted
    have hfile : s.span.file = path := by rw [Span.file, Schema.source_of_ofSource hschema s hs]
    rw [Sourced, hfile]
    refine ⟨Std.ExtTreeMap.mem_insert_self, fun hrooted => ?_⟩
    rw [store.fetch_eq_read relativeTo hrooted] at hfetch
    exact ⟨contents, schema, getElem?_of_read hfetch, hschema, hs⟩
  imports _ _ _ _ _ := trivial

/-! ## Rooted paths -/

/-- What a file at the root mentions, it mentions by a path from the root. -/
structure MentionsFromRoot (store : FileStore) (settings : Settings) : Prop where
  imports : store.LeadsFromRoot settings
  docstrings : ∀ {statements s d path}, store.library settings "/" = some statements →
    s ∈ statements → d ∈ s.docstrings → d.reference? settings.docstringSuffix = some path →
    (Path.parse path).isAbsolute = true

lemma RootIsFree.mentionsFromRoot (h : store.RootIsFree) : store.MentionsFromRoot settings := by
  refine ⟨h.leadsFromRoot, ?_⟩
  intro statements s d path hlibrary
  obtain ⟨contents, hread, _⟩ := library_eq_some hlibrary
  exact absurd hread (h contents)

/-- All paths are rooted. -/
def AllRooted (files : NameMap String) : Prop := ∀ path ∈ files, Path.IsRooted path

lemma AllRooted.insert {files : NameMap String} (h : AllRooted files) {path digest : String}
    (hpath : Path.IsRooted path) : AllRooted (files.insert path digest) := by
  intro path' hmem
  rcases Std.ExtTreeMap.mem_insert.1 hmem with heq | hmem
  · rwa [← Std.LawfulEqCmp.eq_of_compare heq]
  · exact h path' hmem

/-- Reading a file of a rooted path leads to rooted paths only, by its imports and by its docstrings. -/
lemma readsWell_rooted (h : store.MentionsFromRoot settings) :
    store.ReadsWell settings Path.IsRooted AllRooted fun _ s =>
      ∀ d ∈ s.docstrings, ∀ path, d.reference? settings.docstringSuffix = some path →
        Path.IsRooted (Path.resolve d.span.file path) where
  record hrooted _ hfiles := hfiles.insert hrooted
  keep hs := hs
  statements {file relativeTo contents schema} hrooted hfetch haccepted s hs _ d hd path hreference := by
    rw [store.fetch_eq_read relativeTo hrooted] at hfetch
    obtain ⟨hschema, _⟩ := Source.accepted_eq_ok_iff.1 haccepted
    have hfile : d.span.file = file := by
      rw [Span.file, Schema.source_docstrings_of_ofSource hschema s hs d hd]
    rw [hfile]
    by_cases hroot : file = "/"
    · exact Path.isRooted_resolve_of_isAbsolute
        (h.docstrings (hroot ▸ library_of_read hfetch haccepted) hs hd hreference)
    · exact hrooted.resolve hroot path
  imports {file relativeTo contents schema} hrooted hfetch haccepted i hi := by
    rw [store.fetch_eq_read relativeTo hrooted] at hfetch
    exact LeadsFromRoot.isRooted_resolve h.imports hrooted (library_of_read hfetch haccepted) hi

/-! ## Bundles -/

/-- **The records of a bundle.**

* What is recorded under a rooted path is the digest of the text that the store has there.
* The file of each statement is recorded.  If its path is rooted, then the statement was read from the text
  that the store has there, and only the texts of its docstrings may have changed.
* If a file at the root mentions files by paths from the root only, then all recorded paths are
  rooted. -/
theorem resolve_records (store : FileStore) (settings : Settings) (entry : String) :
    let files := (store.resolve settings entry).bundle.files
    let merged := (store.resolve settings entry).bundle.schema.statements
    (∀ path digest, files[path]? = some digest → Path.IsRooted path →
        ∃ contents, store.texts[path]? = some contents ∧ digest = Sha256.ofText contents)
      ∧ (∀ s ∈ merged, s.span.file ∈ files ∧ (Path.IsRooted s.span.file →
          ∃ contents schema original, store.texts[s.span.file]? = some contents
            ∧ Schema.ofSource ⟨s.span.file, contents⟩ = .ok schema ∧ original ∈ schema.statements
            ∧ s = original.withTexts (store.textOf settings)))
      ∧ (store.MentionsFromRoot settings → ∀ path ∈ files, Path.IsRooted path) := by
  intro files merged
  obtain ⟨_, hloaded⟩ := store.loaded_resolve settings entry
  have hfiles : files = _ := hloaded
  have hmerged : merged = List.map _ _ := store.statements_resolve settings entry
  have hstart : store.Faithful Loading.start.files := by
    intro path digest hdigest
    rw [Loading.start, Std.ExtTreeMap.getElem?_empty] at hdigest
    cases hdigest
  have htrusted : Contributes store.Faithful _ .start
      ((enter store settings store.nesting (Path.absolute entry) none).run .start) :=
    (store.readsWell_trusted settings).enter store.nesting none trivial hstart
  refine ⟨?_, ?_, ?_⟩
  · show store.Faithful files
    rw [hfiles]
    refine consult_induct ?_ htrusted.records
    intro d _ path contents files _ hfetch h
    exact h.insert fun _ => hfetch
  · intro s hs
    rw [hmerged] at hs
    obtain ⟨original, horiginal, rfl⟩ := List.mem_map.1 hs
    rw [Statement.span_withTexts]
    obtain ⟨hrecorded, hsourced⟩ := htrusted.block original horiginal
    constructor
    · rw [hfiles]
      refine consult_induct (I := fun files => original.span.file ∈ files) ?_ hrecorded
      intro d _ path contents files _ _ h
      exact Std.ExtTreeMap.mem_insert.2 (Or.inr h)
    · intro hrooted
      obtain ⟨contents, schema, htext, hschema, hmem⟩ := hsourced hrooted
      exact ⟨contents, schema, original, htext, hschema, hmem, rfl⟩
  · intro hmentions
    have hstart : AllRooted Loading.start.files := fun path hmem =>
      absurd hmem Std.ExtTreeMap.not_mem_empty
    have hrooted := (readsWell_rooted hmentions).enter store.nesting none
      (Path.isRooted_absolute entry) hstart
    show AllRooted files
    rw [hfiles]
    refine consult_induct ?_ hrooted.records
    intro d hd path contents files hreference _ h
    obtain ⟨s, hs, hd⟩ := List.mem_flatMap.1 hd
    exact h.insert (hrooted.block s hs d hd path hreference)

/-- Where there is no file at the root, all paths are rooted. -/
theorem circle_recorded : circle.MentionsFromRoot {}
    ∧ ∀ path ∈ (circle.resolve {} "/a").bundle.files, Path.IsRooted path := by
  have hroot : circle.RootIsFree := by decide +kernel
  exact ⟨hroot.mentionsFromRoot, (resolve_records circle {} "/a").2.2 hroot.mentionsFromRoot⟩

/-- A file at the root whose import stays relative, and is looked up again from where it is read. -/
def misled : FileStore :=
  ((empty.insert "/" "import \"c/d\"\n").insert "c/d" "import \"e\"\n").insert "c/c/e"
    "type E \x7b\x7d\n"

/-- A path is recorded that nothing is stored under. -/
theorem misled_recorded : ¬ ∀ path digest,
    (misled.resolve {} "/").bundle.files[path]? = some digest →
      Path.IsRooted path ∧ ∃ contents, misled.texts[path]? = some contents
        ∧ digest = Sha256.ofText contents := by
  have hrecorded : ((misled.resolve {} "/").bundle.files["c/e"]?).isSome = true := by
    decide +kernel
  have hmissing : misled.texts["c/e"]? = none := by decide +kernel
  obtain ⟨digest, hdigest⟩ := Option.isSome_iff_exists.1 hrecorded
  intro h
  obtain ⟨_, contents, hcontents, _⟩ := h "c/e" digest hdigest
  rw [hmissing] at hcontents
  cases hcontents

end FileStore

end RpcSchema
