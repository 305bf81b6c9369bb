import Mathlib.Data.List.Chain
import Mathlib.Data.List.Nodup
import Mathlib.Data.List.Perm.Subperm
import Mathlib.Logic.Relation
import Mathlib.Tactic.Lemma
import RpcSchema.Check.Circularity

/-!
# The search for circles

The search enters every type once and keeps the path that it is on.  Two facts about it are carried
through the recursion, in `Search.Inv`.

**What is reported is a circle.**  The path is a walk without repetition, so when its next step leads
back to a type on it, the part from there on closes to a circle (`Circle`).

**What is not reported is no circle.**  A type is *finished* when the search leaves it.  Each step from
a finished type leads to a type that was finished before, except for the steps that close a reported
chain (`Finished`).  Along any other steps the types were therefore finished earlier and earlier, and
such steps never lead in a circle (`Finished.not_transGen`).

* `explore_inv` is what the search from one type preserves, `foldl_advances` that from several.
-/

namespace RpcSchema

/-! ## Circles and orders -/

/-- A chain that walks along a relation from its first item back to it, and repeats no item between. -/
def Circle (edge : String → String → Prop) (chain : List String) : Prop :=
  ∃ first inner, chain = first :: inner ++ [first] ∧ (first :: inner).Nodup ∧ chain.IsChain edge

/-- A walk of at least one step leads from its first item to its last. -/
lemma transGen_of_isChain {edge : String → String → Prop} {inner : List String} {a b : String}
    (h : (a :: inner ++ [b]).IsChain edge) : Relation.TransGen edge a b := by
  induction inner generalizing a with
  | nil => exact .single (List.isChain_pair.1 h)
  | cons c rest ih =>
      rw [List.cons_append, List.cons_append, List.isChain_cons_cons] at h
      exact .head h.1 (ih h.2)

lemma Circle.transGen {edge : String → String → Prop} {chain : List String} (h : Circle edge chain) :
    ∃ first, Relation.TransGen edge first first := by
  obtain ⟨first, inner, rfl, _, hchain⟩ := h
  exact ⟨first, transGen_of_isChain hchain⟩

/-- An order, the latest first, in which every step of a relation leads to an earlier item. -/
def Finished (edge : String → String → Prop) : List String → Prop
  | [] => True
  | a :: earlier => (∀ b, edge a b → b ∈ earlier) ∧ Finished edge earlier

lemma Finished.mono {edge edge' : String → String → Prop} (h : ∀ a b, edge' a b → edge a b) :
    ∀ {order : List String}, Finished edge order → Finished edge' order
  | [], _ => trivial
  | _ :: _, ⟨hstep, hearlier⟩ => ⟨fun b hb => hstep b (h _ b hb), hearlier.mono h⟩

lemma Finished.mem_of_transGen {edge : String → String → Prop} {order : List String}
    (h : Finished edge order) {a b : String} (ha : a ∈ order) (hab : Relation.TransGen edge a b) :
    b ∈ order := by
  have hstep : ∀ {order : List String}, Finished edge order → ∀ {a b}, a ∈ order → edge a b →
      b ∈ order := by
    intro order
    induction order with
    | nil => intro _ a b ha; exact absurd ha List.not_mem_nil
    | cons c earlier ih =>
        intro h a b ha hab
        rcases List.mem_cons.1 ha with rfl | ha
        · exact List.mem_cons_of_mem _ (h.1 b hab)
        · exact List.mem_cons_of_mem _ (ih h.2 ha hab)
  induction hab with
  | single hab => exact hstep h ha hab
  | tail _ hbc ih => exact hstep h ih hbc

/-- The steps of the relation never lead from a finished item back to it. -/
lemma Finished.not_transGen {edge : String → String → Prop} :
    ∀ {order : List String}, Finished edge order → ∀ a ∈ order, ¬ Relation.TransGen edge a a
  | [], _, a, ha => absurd ha List.not_mem_nil
  | c :: earlier, h, a, ha => by
      intro hcircle
      by_cases hmem : a ∈ earlier
      · exact h.2.not_transGen a hmem hcircle
      · obtain rfl : a = c := (List.mem_cons.1 ha).resolve_right hmem
        -- the first step leads to an earlier item, and from there no step leads back
        obtain ⟨b, hab, hba⟩ := Relation.TransGen.head'_iff.1 hcircle
        have hb := h.1 b hab
        rcases Relation.reflTransGen_iff_eq_or_transGen.1 hba with heq | hba
        · exact hmem (heq ▸ hb)
        · exact hmem (h.2.mem_of_transGen hb hba)

/-! ## What the search preserves -/

section

variable {requires : String → List String} {names : List String}

/-- A step is closing if one of the chains ends with it. -/
def Closes (chains : List (List String)) (a b : String) : Prop := ∃ chain ∈ chains, [a, b] <:+ chain

/-- A step that no chain ends with. -/
def OpenStep (requires : String → List String) (chains : List (List String)) (a b : String) : Prop :=
  b ∈ requires a ∧ ¬ Closes chains a b

lemma OpenStep.of_prefix {chains chains' : List (List String)} (h : chains <+: chains')
    {a b : String} (hab : OpenStep requires chains' a b) : OpenStep requires chains a b := by
  refine ⟨hab.1, ?_⟩
  rintro ⟨chain, hmem, hsuffix⟩
  exact hab.2 ⟨chain, h.subset hmem, hsuffix⟩

/-- What holds while the search is inside of the types of a path: the types that it has entered are
those of the path and the finished ones, and its chains are circles of the named types. -/
structure Search.Inv (requires : String → List String) (names path finished : List String)
    (s : Search) : Prop where
  nodup : path.Nodup
  inside : ∀ a ∈ path, a ∈ names
  entered : ∀ a, a ∈ s.entered ↔ a ∈ path ∨ a ∈ finished
  finished : Finished (OpenStep requires s.chains) finished
  circles : ∀ chain ∈ s.chains, Circle (fun a b => b ∈ requires a) chain
  named : ∀ chain ∈ s.chains, ∀ a ∈ chain, a ∈ names

/-- What the search from `node`, or from several types one after another, leaves behind: it has
finished some more types. -/
structure Search.Advances (requires : String → List String) (names path finished : List String)
    (s s' : Search) (finished' : List String) : Prop where
  inv : s'.Inv requires names path finished'
  later : finished <:+ finished'
  chains : s.chains <+: s'.chains

/-- A type is settled when it is finished, or when the step to it from the end of the path is closing. -/
def Settled (path finished : List String) (chains : List (List String)) (node : String) : Prop :=
  node ∈ finished ∨ ∃ a, path.getLast? = some a ∧ Closes chains a node

lemma Settled.mono {path finished finished' : List String} {chains chains' : List (List String)}
    {node : String} (hfinished : finished <:+ finished') (hchains : chains <+: chains')
    (h : Settled path finished chains node) : Settled path finished' chains' node := by
  rcases h with h | ⟨a, ha, chain, hmem, hsuffix⟩
  · exact Or.inl (hfinished.subset h)
  · exact Or.inr ⟨a, ha, chain, hchains.subset hmem, hsuffix⟩

lemma dropWhile_ne_append {front : List String} {node : String} (h : node ∉ front)
    (back : List String) : (front ++ node :: back).dropWhile (· ≠ node) = node :: back := by
  rw [List.dropWhile_append_of_pos]
  · simp
  · intro a ha
    have hne : a ≠ node := fun heq => h (heq ▸ ha)
    simpa using hne

/-- The chain that is reported when the next step leads back to a type on the path. -/
lemma chain_of_mem {path : List String} {node : String} (hmem : node ∈ path) (hnodup : path.Nodup)
    (hwalk : (path ++ [node]).IsChain fun a b => b ∈ requires a) :
    Circle (fun a b => b ∈ requires a) (path.dropWhile (· ≠ node) ++ [node]) ∧
      ∃ a, path.getLast? = some a ∧ [a, node] <:+ path.dropWhile (· ≠ node) ++ [node] := by
  obtain ⟨front, inner, rfl, hfront⟩ := List.eq_append_cons_of_mem hmem
  rw [dropWhile_ne_append hfront]
  constructor
  · refine ⟨node, inner, rfl, hnodup.of_append_right, ?_⟩
    rw [List.append_assoc] at hwalk
    exact hwalk.right_of_append
  · obtain ⟨init, a, hlast⟩ := List.eq_nil_or_concat (node :: inner) |>.resolve_left (by simp)
    refine ⟨a, by rw [hlast]; simp, ?_⟩
    rw [hlast]
    exact ⟨init, by simp⟩

namespace Search.Inv

variable {path finished : List String} {s : Search} {node : String}

/-- A path without repetition is no longer than the list of all names. -/
lemma length_le (h : s.Inv requires names path finished) : path.length ≤ names.length :=
  (List.subperm_of_subset h.nodup h.inside).length_le

/-- Another circle may be reported. -/
lemma report (h : s.Inv requires names path finished) {chain : List String}
    (hcircle : Circle (fun a b => b ∈ requires a) chain) (hnamed : ∀ a ∈ chain, a ∈ names) :
    { s with chains := s.chains ++ [chain] }.Inv requires names path finished where
  nodup := h.nodup
  inside := h.inside
  entered := h.entered
  finished := h.finished.mono fun _ _ => OpenStep.of_prefix (List.prefix_append _ _)
  circles := by
    intro c hc
    rcases List.mem_append.1 hc with hc | hc
    · exact h.circles c hc
    · rwa [List.mem_singleton.1 hc]
  named := by
    intro c hc
    rcases List.mem_append.1 hc with hc | hc
    · exact h.named c hc
    · rwa [List.mem_singleton.1 hc]

/-- A new type may join the path. -/
lemma push (h : s.Inv requires names path finished) (hnode : node ∈ names) (hnew : node ∉ path) :
    { s with entered := s.entered ++ [node] }.Inv requires names (path ++ [node]) finished where
  nodup := List.nodup_append.2 ⟨h.nodup, List.nodup_singleton _, by
    rintro a ha b hb rfl
    exact hnew (List.mem_singleton.1 hb ▸ ha)⟩
  inside := by
    intro a ha
    rcases List.mem_append.1 ha with ha | ha
    · exact h.inside a ha
    · rwa [List.mem_singleton.1 ha]
  entered := by
    intro a
    rw [List.mem_append, List.mem_append, h.entered a]
    tauto
  finished := h.finished
  circles := h.circles
  named := h.named

/-- The last type of the path is finished when its steps are settled. -/
lemma pop (h : s.Inv requires names (path ++ [node]) finished)
    (hsettled : ∀ next ∈ requires node, Settled (path ++ [node]) finished s.chains next) :
    s.Inv requires names path (node :: finished) where
  nodup := h.nodup.of_append_left
  inside a ha := h.inside a (List.mem_append_left _ ha)
  entered := by
    intro a
    rw [h.entered a, List.mem_append, List.mem_singleton, List.mem_cons]
    tauto
  finished := by
    refine ⟨?_, h.finished⟩
    rintro next ⟨hnext, hopen⟩
    rcases hsettled next hnext with hmem | ⟨a, ha, hcloses⟩
    · exact hmem
    · rw [List.getLast?_concat, Option.some_inj] at ha
      exact absurd (ha ▸ hcloses) hopen
  circles := h.circles
  named := h.named

end Search.Inv

lemma isChain_concat {edge : String → String → Prop} {path : List String} {node next : String}
    (hpath : (path ++ [node]).IsChain edge) (hnext : edge node next) :
    (path ++ [node] ++ [next]).IsChain edge := by
  rw [List.isChain_append]
  refine ⟨hpath, List.isChain_singleton _, ?_⟩
  intro a ha b hb
  rw [List.getLast?_concat, Option.mem_some_iff] at ha
  rw [List.head?_cons, Option.mem_some_iff] at hb
  rwa [← ha, ← hb]

/-- Searching on from several types in turn, if that is known for each of them. -/
lemma foldl_advances (step : Search → String → Search) (path nodes : List String)
    (hstep : ∀ node ∈ nodes, ∀ s finished, s.Inv requires names path finished →
      ∃ finished', s.Advances requires names path finished (step s node) finished' ∧
        Settled path finished' (step s node).chains node) :
    ∀ s finished, s.Inv requires names path finished →
      ∃ finished', s.Advances requires names path finished (nodes.foldl step s) finished' ∧
        ∀ node ∈ nodes, Settled path finished' (nodes.foldl step s).chains node := by
  induction nodes with
  | nil =>
      intro s finished h
      exact ⟨finished, ⟨h, List.suffix_refl _, List.prefix_refl _⟩, by simp⟩
  | cons node rest ih =>
      intro s finished h
      obtain ⟨done, hdone, hnode⟩ := hstep node List.mem_cons_self s finished h
      obtain ⟨done', hdone', hrest⟩ :=
        ih (fun n hn => hstep n (List.mem_cons_of_mem _ hn)) (step s node) done hdone.inv
      refine ⟨done', ⟨hdone'.inv, hdone.later.trans hdone'.later, hdone.chains.trans hdone'.chains⟩, ?_⟩
      intro n hn
      rcases List.mem_cons.1 hn with rfl | hn
      · exact hnode.mono hdone'.later hdone'.chains
      · exact hrest n hn

/-- **What the search from one type preserves.**  The induction is on the depth; a path is never as
long as to use it up. -/
theorem explore_inv (hclosed : ∀ a ∈ names, ∀ b ∈ requires a, b ∈ names) (depth : Nat) :
    ∀ (path finished : List String) (s : Search) (node : String),
      s.Inv requires names path finished → names.length < depth + path.length → node ∈ names →
      (path ++ [node]).IsChain (fun a b => b ∈ requires a) →
      ∃ finished', s.Advances requires names path finished (explore requires depth path s node)
        finished' ∧ Settled path finished' (explore requires depth path s node).chains node := by
  induction depth with
  | zero =>
      intro path finished s node h hdepth
      have := h.length_le
      omega
  | succ depth ih =>
      intro path finished s node h hdepth hnode hwalk
      rw [explore]
      split_ifs with hpath hentered
      · -- the step leads back to the path: a chain is reported, and nothing else changes
        rw [List.contains_iff_mem] at hpath
        obtain ⟨hcircle, a, hlast, hsuffix⟩ := chain_of_mem hpath h.nodup hwalk
        have hnamed : ∀ b ∈ path.dropWhile (· ≠ node) ++ [node], b ∈ names := by
          intro b hb
          rcases List.mem_append.1 hb with hb | hb
          · exact h.inside b ((List.dropWhile_suffix _).subset hb)
          · rwa [List.mem_singleton.1 hb]
        exact ⟨finished, ⟨h.report hcircle hnamed, List.suffix_refl _, List.prefix_append _ _⟩,
          Or.inr ⟨a, hlast, _, List.mem_append_right _ List.mem_cons_self, hsuffix⟩⟩
      · -- the type was finished before
        rw [List.contains_iff_mem] at hpath hentered
        exact ⟨finished, ⟨h, List.suffix_refl _, List.prefix_refl _⟩,
          Or.inl (((h.entered node).1 hentered).resolve_left hpath)⟩
      · -- a new type: it joins the path, and is finished when its steps are settled
        rw [List.contains_iff_mem] at hpath
        have hstep : ∀ next ∈ requires node, ∀ s' finished',
            Search.Inv requires names (path ++ [node]) finished' s' → ∃ done,
              s'.Advances requires names (path ++ [node]) finished'
                (explore requires depth (path ++ [node]) s' next) done
              ∧ Settled (path ++ [node]) done
                (explore requires depth (path ++ [node]) s' next).chains next := by
          intro next hnext s' finished' hs'
          refine ih (path ++ [node]) finished' s' next hs' ?_ (hclosed node hnode next hnext)
            (isChain_concat hwalk hnext)
          rw [List.length_append, List.length_singleton]
          omega
        obtain ⟨done, hdone, hsettled⟩ := foldl_advances
          (explore requires depth (path ++ [node])) (path ++ [node]) (requires node) hstep _ finished
          (h.push hnode hpath)
        exact ⟨node :: done, ⟨hdone.inv.pop hsettled, hdone.later.trans (List.suffix_cons _ _),
          hdone.chains⟩, Or.inl List.mem_cons_self⟩

end

end RpcSchema
