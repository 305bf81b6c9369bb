import RpcSchema.Proofs.Bundle.Traversal
import Mathlib.Tactic.SplitIfs

/-!
# What a traversal asks for

A traversal asks for a file at every import that it comes to, whether or not the path was entered
before.  `Library.Follows` is the traversal of `Library.Enters` with all of its requests, in their order.

Only the first request for a path matters: it is the one that enters the path, so the paths of the first
requests are the paths that were entered (`Follows.entered_eq`).  A request is made by an import of a file
that can be loaded, or is the one that the traversal began with (`Follows.of_mem`).
-/

namespace RpcSchema

/-- A file is asked for, by an import or from outside. -/
structure Request where
  path : String
  importer : Option ImportStatement
deriving DecidableEq

namespace Request

/-- The file that asks; a request from outside is from nowhere. -/
def asker (r : Request) : String := (r.importer.map (·.span.file)).getD ""

/-- The key that a store is asked for. -/
def key (r : Request) : String := Path.resolve r.asker r.path

/-- The requests without those for a path that was entered before, or that an earlier one asks for. -/
def firsts (entered : List String) : List Request → List Request
  | [] => []
  | r :: rest =>
    if r.path ∈ entered then firsts entered rest else r :: firsts (entered ++ [r.path]) rest

variable {entered : List String} {r : Request}

lemma firsts_append (entered : List String) (rs more : List Request) :
    firsts entered (rs ++ more)
      = firsts entered rs ++ firsts (entered ++ (firsts entered rs).map (·.path)) more := by
  induction rs generalizing entered with
  | nil => simp [firsts]
  | cons r rest ih =>
      rw [List.cons_append, firsts, firsts]
      split_ifs with hmem
      · exact ih entered
      · rw [ih, List.map_cons, List.cons_append, List.append_assoc, List.singleton_append]

/-- The first requests ask for each path once, and for none that was entered before. -/
lemma nodup_firsts (entered : List String) (rs : List Request) :
    ((firsts entered rs).map (·.path)).Nodup
      ∧ ∀ path ∈ (firsts entered rs).map (·.path), path ∉ entered := by
  induction rs generalizing entered with
  | nil => simp [firsts]
  | cons r rest ih =>
      rw [firsts]
      split_ifs with hmem
      · exact ih entered
      · obtain ⟨hnodup, hnew⟩ := ih (entered ++ [r.path])
        refine ⟨List.nodup_cons.2 ⟨fun hc => hnew _ hc (by simp), hnodup⟩, ?_⟩
        intro path hpath
        rcases List.mem_cons.1 hpath with rfl | hpath
        · exact hmem
        · exact fun hc => hnew path hpath (List.mem_append_left _ hc)

/-- A first request is what is found first among the requests for its path. -/
lemma find?_of_mem_firsts {rs : List Request} (h : r ∈ firsts entered rs) :
    rs.find? (·.path = r.path) = some r := by
  induction rs generalizing entered with
  | nil => cases h
  | cons first rest ih =>
      rw [firsts] at h
      split_ifs at h with hmem
      · have hne : first.path ≠ r.path := by
          intro heq
          exact (nodup_firsts entered rest).2 _ (List.mem_map_of_mem h) (heq ▸ hmem)
        rw [List.find?_cons_of_neg (by simpa using hne)]
        exact ih h
      · rcases List.mem_cons.1 h with rfl | h
        · exact List.find?_cons_of_pos (by simp)
        · have hne : first.path ≠ r.path := by
            intro heq
            exact (nodup_firsts _ rest).2 _ (List.mem_map_of_mem h) (heq ▸ by simp)
          rw [List.find?_cons_of_neg (by simpa using hne)]
          exact ih h

end Request

namespace Library

variable {library : Library}

mutual

/-- The block of statements that stands for a request, all requests that are made for it, and the paths
that were entered before and after. -/
inductive Follows (library : Library) :
    List String → Request → List Statement → List Request → List String → Prop where
  | again {entered : List String} {r : Request} : r.path ∈ entered →
      Follows library entered r [] [r] entered
  | failed {entered : List String} {r : Request} : r.path ∉ entered → library r.path = none →
      Follows library entered r [] [r] (entered ++ [r.path])
  | loaded {entered entered' : List String} {r : Request} {statements block : List Statement}
      {requests : List Request} :
      r.path ∉ entered → library r.path = some statements →
      Passes library (entered ++ [r.path]) r.path statements block requests entered' →
      Follows library entered r block (r :: requests) entered'

/-- The same for the statements of a file, each import in its place. -/
inductive Passes (library : Library) : List String → String → List Statement → List Statement →
    List Request → List String → Prop where
  | nil {entered : List String} {file : String} : Passes library entered file [] [] [] entered
  | imports {entered between entered' : List String} {file : String} {i : ImportStatement}
      {rest block behind : List Statement} {requests further : List Request} :
      Follows library entered ⟨Path.resolve file i.path, some i⟩ block requests between →
      Passes library between file rest behind further entered' →
      Passes library entered file (.imports i :: rest) (block ++ behind) (requests ++ further) entered'
  | other {entered entered' : List String} {file : String} {s : Statement}
      {rest behind : List Statement} {requests : List Request} :
      s.import? = none → Passes library entered file rest behind requests entered' →
      Passes library entered file (s :: rest) (s :: behind) requests entered'

end

mutual

/-- Without its requests, it is the traversal of before. -/
lemma Follows.enters : ∀ {entered r block requests entered'},
    Follows library entered r block requests entered' → Enters library entered r.path block entered'
  | _, _, _, _, _, .again hmem => .again hmem
  | _, _, _, _, _, .failed hnew hnone => .failed hnew hnone
  | _, _, _, _, _, .loaded hnew hsome h => .loaded hnew hsome h.splices

lemma Passes.splices : ∀ {entered file statements block requests entered'},
    Passes library entered file statements block requests entered' →
      Splices library entered file statements block entered'
  | _, _, _, _, _, _, .nil => .nil
  | _, _, _, _, _, _, .imports h hrest => .imports h.enters hrest.splices
  | _, _, _, _, _, _, .other hnone hrest => .other hnone hrest.splices

end

mutual

/-- The first requests enter the paths. -/
lemma Follows.entered_eq : ∀ {entered r block requests entered'},
    Follows library entered r block requests entered' →
      entered' = entered ++ (Request.firsts entered requests).map (·.path)
  | _, _, _, _, _, .again hmem => by simp [Request.firsts, hmem]
  | _, _, _, _, _, .failed hnew _ => by simp [Request.firsts, hnew]
  | _, _, _, _, _, .loaded hnew _ h => by
      rw [Request.firsts, if_neg hnew, List.map_cons, List.append_cons]
      exact h.entered_eq

lemma Passes.entered_eq : ∀ {entered file statements block requests entered'},
    Passes library entered file statements block requests entered' →
      entered' = entered ++ (Request.firsts entered requests).map (·.path)
  | _, _, _, _, _, _, .nil => by simp [Request.firsts]
  | _, _, _, _, _, _, .imports h hrest => by
      have hbetween := h.entered_eq
      have hentered := hrest.entered_eq
      rw [hbetween] at hentered
      rw [hentered, Request.firsts_append, List.map_append, List.append_assoc]
  | _, _, _, _, _, _, .other _ hrest => hrest.entered_eq

end

/-- The requests of the imports of files that can be loaded. -/
def Asks (library : Library) (r : Request) : Prop :=
  ∃ file statements i, library file = some statements ∧ .imports i ∈ statements
    ∧ r = ⟨Path.resolve file i.path, some i⟩

mutual

/-- A request is the one that the traversal began with, or that of an import of a file that can be
loaded. -/
lemma Follows.of_mem : ∀ {entered r block requests entered'},
    Follows library entered r block requests entered' → ∀ q ∈ requests, q = r ∨ library.Asks q
  | _, _, _, _, _, .again _ => fun _ hq => Or.inl (List.mem_singleton.1 hq)
  | _, _, _, _, _, .failed _ _ => fun _ hq => Or.inl (List.mem_singleton.1 hq)
  | _, _, _, _, _, .loaded _ hsome h => by
      intro q hq
      rcases List.mem_cons.1 hq with rfl | hq
      · exact Or.inl rfl
      · exact Or.inr (h.of_mem hsome (fun _ hi => hi) q hq)

lemma Passes.of_mem : ∀ {entered file rest block requests entered'},
    Passes library entered file rest block requests entered' →
      ∀ {statements}, library file = some statements → rest ⊆ statements →
      ∀ q ∈ requests, library.Asks q
  | _, _, _, _, _, _, .nil => nofun
  | _, _, _, _, _, _, .imports h hrest => by
      intro hfile hsub q hq
      rcases List.mem_append.1 hq with hq | hq
      · rcases h.of_mem q hq with rfl | hasks
        · exact ⟨_, _, _, hfile, hsub List.mem_cons_self, rfl⟩
        · exact hasks
      · exact hrest.of_mem hfile (fun _ hi => hsub (List.mem_cons_of_mem _ hi)) q hq
  | _, _, _, _, _, _, .other _ hrest => fun hfile hsub =>
      hrest.of_mem hfile (fun _ hi => hsub (List.mem_cons_of_mem _ hi))

end

mutual

/-- There is one way to follow a request. -/
lemma Follows.unique : ∀ {entered r block requests entered'},
    Follows library entered r block requests entered' → ∀ {block₂ requests₂ entered₂},
      Follows library entered r block₂ requests₂ entered₂ → requests = requests₂
  | _, _, _, _, _, .again hmem => by
      intro h₂
      cases h₂ with
      | again => rfl
      | failed => rfl
      | loaded hnew => exact absurd hmem hnew
  | _, _, _, _, _, .failed hnew hnone => by
      intro h₂
      cases h₂ with
      | again => rfl
      | failed => rfl
      | loaded _ hsome =>
          rw [hnone] at hsome
          cases hsome
  | _, _, _, _, _, .loaded hnew hsome h => by
      intro h₂
      cases h₂ with
      | again hmem => exact absurd hmem hnew
      | failed _ hnone =>
          rw [hnone] at hsome
          cases hsome
      | loaded _ hsome₂ h₂ =>
          rw [hsome] at hsome₂
          cases hsome₂
          rw [h.unique h₂]

lemma Passes.unique : ∀ {entered file statements block requests entered'},
    Passes library entered file statements block requests entered' → ∀ {block₂ requests₂ entered₂},
      Passes library entered file statements block₂ requests₂ entered₂ → requests = requests₂
  | _, _, _, _, _, _, .nil => by
      intro h₂
      cases h₂
      rfl
  | _, _, _, _, _, _, .imports h hrest => by
      intro h₂
      cases h₂ with
      | imports h₂ hrest₂ =>
          -- both go on from the same place
          obtain ⟨_, rfl⟩ := h.enters.unique h₂.enters
          rw [h.unique h₂, hrest.unique hrest₂]
      | other hnone => cases hnone
  | _, _, _, _, _, _, .other hnone hrest => by
      intro h₂
      cases h₂ with
      | imports => cases hnone
      | other _ hrest₂ => exact hrest.unique hrest₂

end

end Library

end RpcSchema
