import RpcSchema.Proofs.Check.Search

/-!
# The order of discovery

The search enters the types in an order, and that order settles which chains it reports.

**Where a type is discovered from.**  A type is on the path for as long as what it requires is not
done.  So of the types that were entered before another one and require it, the latest is the one that
the search was at when it came upon it (`discoverer`).  A list of types in which each was discovered from
the one before is a `Trail`; the path is one, and there is only one back from a type to where the search
started.

**Which chains are reported.**  A chain is a trail and one more step, from the end of the trail back to
its start.  Every trail with such a step is reported (`Search.Orderly.found`), nothing else is
(`Search.Orderly.trails`), and no step closes two chains (`Search.Orderly.apart`), because the steps from
a type are taken once.

* `explore_orderly` is what the search from one type preserves, `foldl_orderly` that from several.
-/

namespace RpcSchema

section

variable {requires : String → List String}

/-! ## Trails -/

/-- The type from which another was discovered: of those entered before it, the latest that requires
it. -/
def discoverer (requires : String → List String) (entered : List String) (node : String) :
    Option String :=
  (entered.takeWhile (· ≠ node)).reverse.find? fun a => (requires a).contains node

lemma takeWhile_ne_append {front : List String} {node : String} (h : node ∉ front)
    (back : List String) : (front ++ node :: back).takeWhile (· ≠ node) = front := by
  rw [List.takeWhile_append_of_pos]
  · simp
  · intro a ha
    have hne : a ≠ node := fun heq => h (heq ▸ ha)
    simpa using hne

lemma discoverer_append {entered : List String} {node : String} (hnode : node ∈ entered)
    (later : List String) :
    discoverer requires (entered ++ later) node = discoverer requires entered node := by
  obtain ⟨front, back, rfl, hfront⟩ := List.eq_append_cons_of_mem hnode
  rw [discoverer, discoverer, List.append_assoc, List.cons_append, takeWhile_ne_append hfront,
    takeWhile_ne_append hfront]

lemma discoverer_concat_self {entered : List String} {node : String} (hnew : node ∉ entered) :
    discoverer requires (entered ++ [node]) node
      = entered.reverse.find? fun a => (requires a).contains node := by
  rw [discoverer, takeWhile_ne_append hnew]

lemma mem_of_discoverer {entered : List String} {node a : String}
    (h : discoverer requires entered node = some a) : a ∈ entered :=
  (List.takeWhile_prefix _).subset (List.mem_reverse.1 (List.mem_of_find?_eq_some h))

/-- Each of the types was discovered from the one before. -/
def Trail (requires : String → List String) (entered path : List String) : Prop :=
  path.IsChain fun a b => discoverer requires entered b = some a

instance (entered path : List String) : Decidable (Trail requires entered path) :=
  inferInstanceAs (Decidable (path.IsChain _))

namespace Trail

variable {entered path : List String}

/-- Where types were discovered from does not change when more are entered. -/
lemma append (h : Trail requires entered path) (hpath : ∀ a ∈ path, a ∈ entered)
    (later : List String) : Trail requires (entered ++ later) path := by
  refine List.IsChain.imp_of_mem_imp (fun a b _ hb hab => ?_) h
  rw [discoverer_append (hpath b hb), hab]

/-- A trail to a type that was entered is older than what was entered later. -/
lemma of_append {later : List String} {a : String} (h : Trail requires (entered ++ later) path)
    (hlast : path.getLast? = some a) (ha : a ∈ entered) : Trail requires entered path := by
  induction path using List.reverseRecOn generalizing a with
  | nil => exact .nil
  | append_singleton front b ih =>
      rw [List.getLast?_concat, Option.some_inj] at hlast
      subst hlast
      obtain ⟨hfront, _, hstep⟩ := List.isChain_append.1 h
      refine List.isChain_append.2 ⟨?_, List.isChain_singleton _, ?_⟩
      · cases hend : front.getLast? with
        | none =>
            rw [List.getLast?_eq_none_iff.1 hend]
            exact .nil
        | some c =>
            have hc := hstep c hend b rfl
            rw [discoverer_append ha] at hc
            exact ih hfront hend (mem_of_discoverer hc)
      · intro c hc d hd
        rw [List.head?_cons, Option.mem_some_iff] at hd
        rw [← hd, ← discoverer_append ha later]
        exact hstep c hc b rfl

lemma suffix_of {trail : List String} (h : Trail requires entered path) (hsuffix : trail <:+ path) :
    Trail requires entered trail := List.IsChain.suffix h hsuffix

/-- There is one trail back from a type: two trails to it part only where one of them begins. -/
lemma suffix {trail : List String} {a : String} (h : Trail requires entered trail)
    (hlast : trail.getLast? = some a) (hpath : Trail requires entered path)
    (hend : path.getLast? = some a)
    (hroot : ∀ r, path.head? = some r → discoverer requires entered r = none) : trail <:+ path := by
  induction trail using List.reverseRecOn generalizing a path with
  | nil => exact List.nil_suffix
  | append_singleton front b ih =>
      rw [List.getLast?_concat, Option.some_inj] at hlast
      subst hlast
      obtain ⟨init, rfl⟩ := List.getLast?_eq_some_iff.1 hend
      refine List.suffix_concat_iff.2 (Or.inr ⟨front, rfl, ?_⟩)
      obtain ⟨hfront, _, hstep⟩ := List.isChain_append.1 h
      obtain ⟨hinit, _, hstep'⟩ := List.isChain_append.1 hpath
      cases hc : front.getLast? with
      | none =>
          rw [List.getLast?_eq_none_iff.1 hc]
          exact List.nil_suffix
      | some c =>
          have hfound := hstep c hc b rfl
          cases hd : init.getLast? with
          | none =>
              rw [List.getLast?_eq_none_iff.1 hd] at hroot
              rw [hroot b rfl] at hfound
              cases hfound
          | some d =>
              have hfound' := hstep' d hd b rfl
              rw [hfound, Option.some_inj] at hfound'
              refine ih hfront hc hinit (hfound' ▸ hd) fun r hr => hroot r ?_
              rw [List.head?_append, hr]
              rfl

end Trail

/-! ## What the search preserves -/

/-- The last step of a chain that is reported when the search meets a type on its path. -/
lemma closing_of_suffix {path : List String} {node a b : String}
    (h : [a, b] <:+ path.dropWhile (· ≠ node) ++ [node]) : path.getLast? = some a ∧ b = node := by
  rcases List.suffix_concat_iff.1 h with h | ⟨front, heq, hfront⟩
  · cases h
  · have heq : [a] ++ [b] = front ++ [node] := heq
    obtain ⟨hfirst, hlast⟩ := List.append_inj' heq rfl
    obtain ⟨init, hinit⟩ := hfront.trans (List.dropWhile_suffix _)
    refine ⟨?_, List.head_eq_of_cons_eq hlast⟩
    rw [← hinit, ← hfirst, List.getLast?_concat]

/-- The step from the end of a path to a type closes one of the chains. -/
def ClosesFrom (path : List String) (chains : List (List String)) (node : String) : Prop :=
  ∃ a, path.getLast? = some a ∧ Closes chains a node

/-- What holds of the order while the search is inside of the types of a path. -/
structure Search.Orderly (requires : String → List String) (path : List String) (s : Search) :
    Prop where
  nodup : s.entered.Nodup
  sublist : path.Sublist s.entered
  trail : Trail requires s.entered path
  root : ∀ r, path.head? = some r → discoverer requires s.entered r = none
  /-- Whatever a type requires that the search has left was entered. -/
  left : ∀ a ∈ s.entered, a ∉ path → ∀ b ∈ requires a, b ∈ s.entered
  ordered : ∀ chain ∈ s.chains, chain.dropLast.Sublist s.entered
  trails : ∀ chain ∈ s.chains, Trail requires s.entered chain.dropLast
  apart : s.chains.Pairwise fun c d => ∀ a b, [a, b] <:+ c → ¬ [a, b] <:+ d
  found : ∀ a ∈ s.entered, a ∉ path → ∀ trail first, Trail requires s.entered trail →
    trail.getLast? = some a → trail.head? = some first → first ∈ requires a →
    trail ++ [first] ∈ s.chains

/-- What the search from some types in turn adds. -/
structure Search.Explores (path nodes : List String) (s s' : Search) : Prop where
  entered : s.entered <+: s'.entered
  chains : s.chains <+: s'.chains
  /-- A new chain is closed by a new type, or by the step from the end of the path. -/
  closes : ∀ a b, Closes s'.chains a b →
    Closes s.chains a b ∨ a ∉ s.entered ∨ (path.getLast? = some a ∧ b ∈ nodes)
  discovered : ∀ node ∈ nodes, node ∈ s'.entered
  reported : ∀ node ∈ nodes, node ∈ path →
    path.dropWhile (· ≠ node) ++ [node] ∈ s'.chains

namespace Search.Orderly

variable {path : List String} {s : Search} {node : String}

lemma mem_entered_of_closes (h : s.Orderly requires path) {a b : String}
    (hcloses : Closes s.chains a b) : a ∈ s.entered := by
  obtain ⟨chain, hchain, front, rfl⟩ := hcloses
  refine (h.ordered _ hchain).subset ?_
  rw [show front ++ [a, b] = (front ++ [a]) ++ [b] by simp, List.dropLast_concat]
  simp

lemma path_nodup (h : s.Orderly requires path) : path.Nodup := h.nodup.sublist h.sublist

/-- A chain may be reported whose closing step is new. -/
lemma report (h : s.Orderly requires path) (hmem : node ∈ path)
    (hnew : ¬ ClosesFrom path s.chains node) :
    { s with chains := s.chains ++ [path.dropWhile (· ≠ node) ++ [node]] }.Orderly requires path where
  nodup := h.nodup
  sublist := h.sublist
  trail := h.trail
  root := h.root
  left := h.left
  ordered := by
    intro chain hchain
    rcases List.mem_append.1 hchain with hchain | hchain
    · exact h.ordered chain hchain
    · rw [List.mem_singleton.1 hchain, List.dropLast_concat]
      exact (List.dropWhile_suffix _).sublist.trans h.sublist
  trails := by
    intro chain hchain
    rcases List.mem_append.1 hchain with hchain | hchain
    · exact h.trails chain hchain
    · rw [List.mem_singleton.1 hchain, List.dropLast_concat]
      exact h.trail.suffix_of (List.dropWhile_suffix _)
  apart := by
    refine List.pairwise_append.2 ⟨h.apart, List.pairwise_singleton _ _, ?_⟩
    intro c hc d hd a b hlast hlast'
    rw [List.mem_singleton.1 hd] at hlast'
    obtain ⟨ha, rfl⟩ := closing_of_suffix hlast'
    exact hnew ⟨a, ha, c, hc, hlast⟩
  found a ha hpath trail first htrail hlast hfirst hrequires :=
    List.mem_append_left _ (h.found a ha hpath trail first htrail hlast hfirst hrequires)

/-- A new type that the end of the path requires was discovered from there. -/
lemma discoverer_push (h : s.Orderly requires path) (hnew : node ∉ s.entered) {a : String}
    (hlast : path.getLast? = some a) (hrequires : node ∈ requires a) :
    discoverer requires (s.entered ++ [node]) node = some a := by
  obtain ⟨init, rfl⟩ := List.getLast?_eq_some_iff.1 hlast
  obtain ⟨before, behind, hentered, hinit, hend⟩ := List.append_sublist_iff.1 h.sublist
  obtain ⟨front, back, rfl⟩ := List.append_of_mem (List.singleton_sublist.1 hend)
  rw [discoverer_concat_self hnew, List.find?_eq_some_iff_append]
  refine ⟨by simpa using hrequires, back.reverse, (before ++ front).reverse, ?_, ?_⟩
  · rw [hentered]
    simp
  · intro b hb
    have hb := List.mem_reverse.1 hb
    have hnodup := h.nodup
    rw [hentered] at hnodup
    -- whatever was entered after the end of the path has been left
    have hmem : b ∈ s.entered := by
      rw [hentered]
      simp [hb]
    have hpath : b ∉ init ++ [a] := by
      intro hc
      rcases List.mem_append.1 hc with hc | hc
      · exact (List.nodup_append.1 hnodup).2.2 b (hinit.subset hc) b (by simp [hb]) rfl
      · rw [List.mem_singleton] at hc
        subst hc
        have hback := (List.nodup_append.1 hnodup).2.1
        exact (List.nodup_cons.1 (List.nodup_append.1 hback).2.1).1 hb
    have hnot : node ∉ requires b := fun hc => hnew (h.left b hmem hpath node hc)
    simpa using hnot

/-- Where a search starts, no type that was entered requires the new one. -/
lemma discoverer_start (h : s.Orderly requires []) (hnew : node ∉ s.entered) :
    discoverer requires (s.entered ++ [node]) node = none := by
  rw [discoverer_concat_self hnew, List.find?_eq_none]
  intro a ha
  have ha := List.mem_reverse.1 ha
  have hnot : node ∉ requires a := fun hc => hnew (h.left a ha List.not_mem_nil node hc)
  simpa using hnot

/-- A new type may join the path. -/
lemma push (h : s.Orderly requires path) (hnew : node ∉ s.entered)
    (hstep : ∀ a, path.getLast? = some a → node ∈ requires a) :
    { s with entered := s.entered ++ [node] }.Orderly requires (path ++ [node]) where
  nodup := List.nodup_append.2 ⟨h.nodup, List.nodup_singleton _, by
    rintro a ha b hb rfl
    exact hnew (List.mem_singleton.1 hb ▸ ha)⟩
  sublist := h.sublist.append_right [node]
  trail := by
    refine List.isChain_append.2 ⟨h.trail.append h.sublist.subset [node], List.isChain_singleton _, ?_⟩
    intro a ha b hb
    rw [List.head?_cons, Option.mem_some_iff] at hb
    subst hb
    exact h.discoverer_push hnew ha (hstep a ha)
  root := by
    intro r hr
    cases path with
    | nil =>
        rw [List.nil_append, List.head?_cons, Option.some_inj] at hr
        exact hr ▸ h.discoverer_start hnew
    | cons first rest =>
        have hr' : (first :: rest).head? = some r := hr
        have hmem := h.sublist.subset (List.mem_of_mem_head? hr')
        rw [← h.root r hr']
        exact discoverer_append hmem [node]
  left := by
    intro a ha hpath b hb
    rw [List.mem_append, not_or] at hpath
    have hold := (List.mem_append.1 ha).resolve_right hpath.2
    exact List.mem_append_left _ (h.left a hold hpath.1 b hb)
  ordered chain hchain := (h.ordered chain hchain).trans (List.sublist_append_left _ _)
  trails chain hchain := (h.trails chain hchain).append (h.ordered chain hchain).subset [node]
  apart := h.apart
  found := by
    intro a ha hpath trail first htrail hlast hfirst hrequires
    rw [List.mem_append, not_or] at hpath
    have hold := (List.mem_append.1 ha).resolve_right hpath.2
    exact h.found a hold hpath.1 trail first (htrail.of_append hlast hold) hlast hfirst hrequires

/-- The last type of the path may be left when its steps are done. -/
lemma pop (h : s.Orderly requires (path ++ [node]))
    (hdiscovered : ∀ next ∈ requires node, next ∈ s.entered)
    (hreported : ∀ next ∈ requires node, next ∈ path ++ [node] →
      (path ++ [node]).dropWhile (· ≠ next) ++ [next] ∈ s.chains) :
    s.Orderly requires path where
  nodup := h.nodup
  sublist := (List.sublist_append_left _ _).trans h.sublist
  trail := List.IsChain.left_of_append h.trail
  root r hr := h.root r (by rw [List.head?_append, hr]; rfl)
  left := by
    intro a ha hpath b hb
    by_cases hnode : a = node
    · subst hnode
      exact hdiscovered b hb
    · exact h.left a ha (by simp [hpath, hnode]) b hb
  ordered := h.ordered
  trails := h.trails
  apart := h.apart
  found := by
    intro a ha hpath trail first htrail hlast hfirst hrequires
    by_cases hnode : a = node
    · subst hnode
      -- the trail is the end of the path, and so is what was reported for its first type
      obtain ⟨front, hfront⟩ := htrail.suffix hlast h.trail List.getLast?_concat h.root
      obtain ⟨rest, rfl⟩ := List.head?_eq_some_iff.1 hfirst
      have hmem : first ∈ path ++ [a] := hfront ▸ by simp
      have hnodup := h.path_nodup
      rw [← hfront] at hnodup
      have hnot : first ∉ front := fun hc =>
        (List.nodup_append.1 hnodup).2.2 first hc first List.mem_cons_self rfl
      have hchain := hreported first hrequires hmem
      rwa [← hfront, dropWhile_ne_append hnot] at hchain
    · exact h.found a ha (by simp [hpath, hnode]) trail first htrail hlast hfirst hrequires

end Search.Orderly

lemma Search.Explores.nil (path : List String) (s : Search) : s.Explores path [] s where
  entered := List.prefix_refl _
  chains := List.prefix_refl _
  closes _ _ h := Or.inl h
  discovered := nofun
  reported := nofun

lemma Search.Explores.cons {path rest : List String} {node : String} {s between s' : Search}
    (h : s.Explores path [node] between) (hrest : between.Explores path rest s') :
    s.Explores path (node :: rest) s' where
  entered := h.entered.trans hrest.entered
  chains := h.chains.trans hrest.chains
  closes := by
    intro a b hcloses
    rcases hrest.closes a b hcloses with hcloses | hnew | ⟨hlast, hb⟩
    · rcases h.closes a b hcloses with hcloses | hnew | ⟨hlast, hb⟩
      · exact Or.inl hcloses
      · exact Or.inr (Or.inl hnew)
      · exact Or.inr (Or.inr ⟨hlast, List.mem_singleton.1 hb ▸ List.mem_cons_self⟩)
    · exact Or.inr (Or.inl fun hc => hnew (h.entered.subset hc))
    · exact Or.inr (Or.inr ⟨hlast, List.mem_cons_of_mem _ hb⟩)
  discovered := by
    intro n hn
    rcases List.mem_cons.1 hn with rfl | hn
    · exact hrest.entered.subset (h.discovered n List.mem_cons_self)
    · exact hrest.discovered n hn
  reported := by
    intro n hn hpath
    rcases List.mem_cons.1 hn with rfl | hn
    · exact hrest.chains.subset (h.reported n List.mem_cons_self hpath)
    · exact hrest.reported n hn hpath

/-- A step back to the path adds one chain, which that step closes. -/
lemma Search.Explores.report {path : List String} {node : String} {s : Search}
    (hmem : node ∈ s.entered) : s.Explores path [node]
      { s with chains := s.chains ++ [path.dropWhile (· ≠ node) ++ [node]] } where
  entered := List.prefix_refl _
  chains := List.prefix_append _ _
  closes := by
    rintro a b ⟨chain, hchain, hsuffix⟩
    rcases List.mem_append.1 hchain with hchain | hchain
    · exact Or.inl ⟨chain, hchain, hsuffix⟩
    · rw [List.mem_singleton.1 hchain] at hsuffix
      obtain ⟨hlast, hb⟩ := closing_of_suffix hsuffix
      exact Or.inr (Or.inr ⟨hlast, List.mem_singleton.2 hb⟩)
  discovered _ hn := List.mem_singleton.1 hn ▸ hmem
  reported := by
    intro n hn _
    rw [List.mem_singleton.1 hn]
    exact List.mem_append_right _ List.mem_cons_self

/-- A type that was left before adds nothing. -/
lemma Search.Explores.pass {path : List String} {node : String} {s : Search}
    (hmem : node ∈ s.entered) (hpath : node ∉ path) : s.Explores path [node] s where
  entered := List.prefix_refl _
  chains := List.prefix_refl _
  closes _ _ hcloses := Or.inl hcloses
  discovered _ hn := List.mem_singleton.1 hn ▸ hmem
  reported _ hn hc := absurd (List.mem_singleton.1 hn ▸ hc) hpath

/-- A new type adds itself and what is added from inside of it. -/
lemma Search.Explores.enclose {path nodes : List String} {node : String} {s s' : Search}
    (h : { s with entered := s.entered ++ [node] }.Explores (path ++ [node]) nodes s')
    (hnew : node ∉ s.entered) (hpath : node ∉ path) : s.Explores path [node] s' where
  entered := (List.prefix_append _ _).trans h.entered
  chains := h.chains
  closes := by
    intro a b hcloses
    rcases h.closes a b hcloses with hcloses | hfresh | ⟨ha, _⟩
    · exact Or.inl hcloses
    · exact Or.inr (Or.inl fun hc => hfresh (List.mem_append_left _ hc))
    · rw [List.getLast?_concat, Option.some_inj] at ha
      exact Or.inr (Or.inl (ha ▸ hnew))
  discovered n hn := h.entered.subset (List.mem_append_right _ hn)
  reported _ hn hc := absurd (List.mem_singleton.1 hn ▸ hc) hpath

/-- Searching on from several types in turn, if that is known for each of them.  From inside of a type
each next type is taken once. -/
lemma foldl_orderly (step : Search → String → Search) (path nodes : List String)
    (hnodup : path ≠ [] → nodes.Nodup)
    (hstep : ∀ node ∈ nodes, ∀ s : Search, s.Orderly requires path → ¬ ClosesFrom path s.chains node →
      (step s node).Orderly requires path ∧ s.Explores path [node] (step s node)) :
    ∀ s : Search, s.Orderly requires path → (∀ node ∈ nodes, ¬ ClosesFrom path s.chains node) →
      (nodes.foldl step s).Orderly requires path ∧ s.Explores path nodes (nodes.foldl step s) := by
  induction nodes with
  | nil => exact fun s h _ => ⟨h, .nil path s⟩
  | cons node rest ih =>
      intro s h hnew
      obtain ⟨hfirst, hexplores⟩ := hstep node List.mem_cons_self s h (hnew node List.mem_cons_self)
      have hrest : ∀ next ∈ rest, ¬ ClosesFrom path (step s node).chains next := by
        rintro next hnext ⟨a, hlast, hcloses⟩
        have hpath : path ≠ [] := by
          rintro rfl
          cases hlast
        rcases hexplores.closes a next hcloses with hcloses | hfresh | ⟨_, heq⟩
        · exact hnew next (List.mem_cons_of_mem _ hnext) ⟨a, hlast, hcloses⟩
        · exact hfresh (h.sublist.subset (List.mem_of_getLast? hlast))
        · rw [List.mem_singleton] at heq
          exact (List.nodup_cons.1 (hnodup hpath)).1 (heq ▸ hnext)
      obtain ⟨horderly, hexplores'⟩ :=
        ih (fun hpath => (List.nodup_cons.1 (hnodup hpath)).2)
          (fun n hn => hstep n (List.mem_cons_of_mem _ hn)) (step s node) hfirst hrest
      exact ⟨horderly, hexplores.cons hexplores'⟩

/-- **What the search from one type keeps in order.**  The induction is on the depth; a path is never as
long as to use it up. -/
theorem explore_orderly {names : List String} (hnodup : ∀ a, (requires a).Nodup)
    (hclosed : ∀ a ∈ names, ∀ b ∈ requires a, b ∈ names) (depth : Nat) :
    ∀ (path : List String) (s : Search) (node : String), s.Orderly requires path →
      (∀ a ∈ path, a ∈ names) → names.length < depth + path.length → node ∈ names →
      (∀ a, path.getLast? = some a → node ∈ requires a) → ¬ ClosesFrom path s.chains node →
      (explore requires depth path s node).Orderly requires path ∧
        s.Explores path [node] (explore requires depth path s node) := by
  induction depth with
  | zero =>
      intro path s node h hinside hdepth
      have := (List.subperm_of_subset h.path_nodup hinside).length_le
      omega
  | succ depth ih =>
      intro path s node h hinside hdepth hnode hrequires hnew
      rw [explore]
      split_ifs with hpath hentered
      · -- the step leads back to the path: a chain is reported, and nothing else changes
        rw [List.contains_iff_mem] at hpath
        exact ⟨h.report hpath hnew, .report (h.sublist.subset hpath)⟩
      · -- the type was left before
        rw [List.contains_iff_mem] at hpath hentered
        exact ⟨h, .pass hentered hpath⟩
      · -- a new type: it joins the path, and is left when its steps are done
        rw [List.contains_iff_mem] at hpath hentered
        have hlast : (path ++ [node]).getLast? = some node := List.getLast?_concat
        have hinside' : ∀ a ∈ path ++ [node], a ∈ names := by
          intro a ha
          rcases List.mem_append.1 ha with ha | ha
          · exact hinside a ha
          · rwa [List.mem_singleton.1 ha]
        have hdepth' : names.length < depth + (path ++ [node]).length := by
          rw [List.length_append, List.length_singleton]
          omega
        have hstep : ∀ next ∈ requires node, ∀ s' : Search, s'.Orderly requires (path ++ [node]) →
            ¬ ClosesFrom (path ++ [node]) s'.chains next →
            (explore requires depth (path ++ [node]) s' next).Orderly requires (path ++ [node]) ∧
              s'.Explores (path ++ [node]) [next] (explore requires depth (path ++ [node]) s' next) := by
          intro next hnext s' hs'
          refine ih (path ++ [node]) s' next hs' hinside' hdepth' (hclosed node hnode next hnext) ?_
          intro a ha
          rw [hlast, Option.some_inj] at ha
          exact ha ▸ hnext
        have hfirst : ∀ next ∈ requires node, ¬ ClosesFrom (path ++ [node]) s.chains next := by
          rintro next _ ⟨a, ha, hcloses⟩
          rw [hlast, Option.some_inj] at ha
          exact hentered (h.mem_entered_of_closes (ha ▸ hcloses))
        obtain ⟨horderly, hexplores⟩ := foldl_orderly (explore requires depth (path ++ [node]))
          (path ++ [node]) (requires node) (fun _ => hnodup node) hstep _ (h.push hentered hrequires)
          hfirst
        exact ⟨horderly.pop hexplores.discovered hexplores.reported, hexplores.enclose hentered hpath⟩

end

end RpcSchema
