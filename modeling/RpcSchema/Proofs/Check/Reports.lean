import Mathlib.Data.List.Cycle
import RpcSchema.Proofs.Check.Circularity
import RpcSchema.Proofs.Check.Discovery

/-!
# Which circles are reported

A schema can hold many more circles than the search reports, since circles may share types.

* **`Bundle.circularityFindings_spec`** says what the reports are good for: each is a circle, no circle
  is reported twice, and without the closing steps of the reports no circle is left.
* **`Bundle.circle_shown_iff_discovered`** says which circles are reported: those in which, from one of
  their types on, each type was discovered from the one before.

So a circle through a type that the search has left by then is not reported.  One that shares no step
with another always is (`Bundle.countP_shows_of_apart`).
-/

namespace RpcSchema

/-! ## The graph -/

/-- The first declaration of a name demands another type of the schema. -/
def Schema.FirstRequires (s : Schema) (name other : String) : Prop :=
  (∃ d, s.types.find? (·.name.text = name) = some d ∧ FieldItem.Demands d.items other)
    ∧ s.DeclaresType other

lemma Bundle.mem_requires_iff_firstRequires {s : Schema} {name other : String} :
    other ∈ (Bundle.ofSchema s).requires name ↔ s.FirstRequires name other := by
  have hget : (Bundle.ofSchema s).types[name]? = s.types.find? (·.name.text = name) :=
    getElem?_firstByName s.types name
  rw [mem_requires_iff, Schema.FirstRequires, hget]

lemma nodup_eraseDups : ∀ names : List String, names.eraseDups.Nodup
  | [] => List.nodup_nil
  | a :: rest => by
      rw [List.eraseDups_cons, List.nodup_cons]
      exact ⟨by simp, nodup_eraseDups _⟩
termination_by names => names.length
decreasing_by
  have hle := List.length_filter_le (fun b => !b == a) rest
  rw [List.length_cons]
  omega

lemma Bundle.nodup_requires (b : Bundle) (name : String) : (b.requires name).Nodup := by
  rw [requires]
  split
  · exact List.nodup_nil
  · exact nodup_eraseDups _

/-! ## The whole search -/

/-- The search from every type in turn. -/
def Bundle.search (b : Bundle) : Search :=
  b.schema.typeNames.foldl (explore b.requires (b.schema.typeNames.length + 1) []) ⟨[], []⟩

/-- The types in the order in which the search enters them. -/
def Bundle.discovered (b : Bundle) : List String := b.search.entered

lemma Bundle.search_orderly (s : Schema) :
    (Bundle.ofSchema s).search.Orderly (Bundle.ofSchema s).requires []
      ∧ ∀ name, s.DeclaresType name → name ∈ (Bundle.ofSchema s).discovered := by
  have hstart : (Search.mk [] []).Orderly (Bundle.ofSchema s).requires [] :=
    ⟨List.nodup_nil, List.Sublist.refl _, .nil, by simp, by simp, by simp, by simp, List.Pairwise.nil,
      by simp⟩
  obtain ⟨horderly, hexplores⟩ := foldl_orderly
    (explore (Bundle.ofSchema s).requires (s.typeNames.length + 1) []) [] s.typeNames
    (fun hne => absurd rfl hne)
    (fun name hname search hsearch hnew => explore_orderly (Bundle.ofSchema s).nodup_requires
      (fun _ _ _ h => mem_typeNames_of_mem_requires h) _ [] search name hsearch (by simp)
      (by rw [List.length_nil]; omega) hname (by simp) hnew)
    ⟨[], []⟩ hstart (by rintro _ _ ⟨_, hlast, _⟩; cases hlast)
  exact ⟨horderly, fun name hname => hexplores.discovered name (Schema.mem_typeNames.2 hname)⟩

/-! ## Chains -/

section

variable {s : Schema} {chain : List String}

lemma Circle.eq_concat {edge : String → String → Prop} (h : Circle edge chain) :
    ∃ first inner, chain.dropLast = first :: inner ∧ chain = chain.dropLast ++ [first] := by
  obtain ⟨first, inner, rfl, _, _⟩ := h
  have hdrop : (first :: inner ++ [first]).dropLast = first :: inner := List.dropLast_concat
  exact ⟨first, inner, hdrop, by rw [hdrop]⟩

/-- A chain is a circle of the graph. -/
lemma Bundle.circle_of_mem_circles (h : chain ∈ (Bundle.ofSchema s).circles) :
    Circle s.FirstRequires chain := by
  obtain ⟨_, _, _, hcircles⟩ := circles_inv s
  obtain ⟨first, inner, hchain, hnodup, hwalk⟩ := (hcircles chain h).1
  exact ⟨first, inner, hchain, hnodup, hwalk.imp fun _ _ => mem_requires_iff_firstRequires.1⟩

/-- A chain begins with the type of it that was discovered first. -/
lemma Bundle.find?_discovered (h : chain ∈ (Bundle.ofSchema s).circles) {first : String}
    {inner : List String} (hchain : chain.dropLast = first :: inner) :
    (Bundle.ofSchema s).discovered.find? (· ∈ first :: inner) = some first := by
  obtain ⟨horderly, _⟩ := search_orderly s
  have hsublist := horderly.ordered chain h
  rw [hchain] at hsublist
  obtain ⟨front, back, hentered, hfirst, hinner⟩ := List.cons_sublist_iff.1 hsublist
  obtain ⟨before, between, rfl⟩ := List.append_of_mem hfirst
  have hnodup := horderly.nodup
  rw [discovered, List.find?_eq_some_iff_append]
  refine ⟨by simp, before, between ++ back, by rw [hentered]; simp, ?_⟩
  rw [hentered, List.append_assoc, List.cons_append] at hnodup
  intro a ha
  have hnot : a ∉ first :: inner := by
    intro hc
    refine (List.nodup_append.1 hnodup).2.2 a ha a ?_ rfl
    rcases List.mem_cons.1 hc with rfl | hc
    · exact List.mem_cons_self
    · exact List.mem_cons_of_mem _ (List.mem_append_right _ (hinner.subset hc))
  simpa using hnot

/-- No two chains are the same circle. -/
lemma Bundle.circles_pairwise (s : Schema) :
    (Bundle.ofSchema s).circles.Pairwise fun c d => ¬ c.dropLast ~r d.dropLast := by
  obtain ⟨horderly, _⟩ := search_orderly s
  refine horderly.apart.imp_of_mem fun {c d} hc hd happart hrotated => ?_
  -- rotations of each other that stand in one order are equal, and then so are the last steps
  have heq : c.dropLast = d.dropLast :=
    (horderly.nodup.perm_iff_eq_of_sublist (horderly.ordered c hc) (horderly.ordered d hd)).1
      hrotated.perm
  obtain ⟨first, inner, hdrop, hchain⟩ := (circle_of_mem_circles hc).eq_concat
  obtain ⟨first', inner', hdrop', hchain'⟩ := (circle_of_mem_circles hd).eq_concat
  rw [heq, hdrop'] at hdrop
  obtain ⟨rfl, rfl⟩ := List.cons.inj hdrop
  have hsame : c = d := by rw [hchain, hchain', heq]
  obtain ⟨front, last, hlast⟩ := List.eq_nil_or_concat (first' :: inner') |>.resolve_left (by simp)
  have hsuffix : [last, first'] <:+ d := ⟨front, by rw [hchain', hdrop', hlast]; simp⟩
  exact happart last first' (hsame ▸ hsuffix) hsuffix

/-- A walk back to its start takes the last step of a chain. -/
lemma Bundle.exists_closing {first : String} {inner : List String}
    (hwalk : (first :: inner ++ [first]).IsChain s.FirstRequires) :
    ∃ chain ∈ (Bundle.ofSchema s).circles, ∃ a b, [a, b] <:+ chain
      ∧ [a, b] <:+: first :: inner ++ [first] := by
  obtain ⟨finished, hall, hfinished, _⟩ := circles_inv s
  by_contra hnone
  have hopen : (first :: inner ++ [first]).IsChain
      (OpenStep (Bundle.ofSchema s).requires (Bundle.ofSchema s).circles) := by
    refine List.isChain_iff_forall_rel_of_append_cons_cons.2 fun a b front back heq => ?_
    have hstep := List.isChain_iff_forall_rel_of_append_cons_cons.1 hwalk heq
    refine ⟨mem_requires_iff_firstRequires.2 hstep, ?_⟩
    rintro ⟨chain, hchain, hsuffix⟩
    exact hnone ⟨chain, hchain, a, b, hsuffix, front, back, by rw [heq]; simp⟩
  obtain ⟨_, _, hlast⟩ := Relation.TransGen.tail'_iff.1 (transGen_of_isChain hwalk)
  exact hfinished.not_transGen first (hall first (Schema.mem_typeNames.2 hlast.2))
    (transGen_of_isChain hopen)

end

/-! ## Findings -/

lemma Bundle.circleFinding?_eq_some_iff {b : Bundle} {chain : List String} {f : Finding} :
    b.circleFinding? chain = some f ↔ ∃ first decl, chain.head? = some first
      ∧ b.types[first]? = some decl ∧ f = ⟨decl.name.span, .circular chain⟩ := by
  cases hhead : chain.head? with
  | none => simp [circleFinding?, hhead]
  | some first =>
      cases hget : b.types[first]? with
      | none => simp [circleFinding?, hhead, hget]
      | some decl => simp [circleFinding?, hhead, hget, eq_comm]

/-- Each chain has one finding. -/
lemma Bundle.exists_finding {s : Schema} {chain : List String}
    (h : chain ∈ (Bundle.ofSchema s).circles) :
    ∃ f ∈ (Bundle.ofSchema s).circularityFindings, f.fault = .circular chain := by
  obtain ⟨f, hf⟩ := Option.isSome_iff_exists.1 (circleFinding?_isSome h)
  refine ⟨f, List.mem_filterMap.2 ⟨chain, h, hf⟩, ?_⟩
  obtain ⟨_, _, _, _, rfl⟩ := circleFinding?_eq_some_iff.1 hf
  rfl

/-- **What the reports are good for.**  The search discovers every type.

* Every finding is at the first declaration of a type, and shows a circle from that type back to it that
  repeats no type.  Of the types of the circle, it is the one that was discovered first.
* No two findings show the same circle, whichever of its types they begin with.
* Every walk from a type back to it takes the last step of a circle that is shown.
* Nothing is found if and only if no type requires itself in the end. -/
theorem Bundle.circularityFindings_spec (s : Schema) (files : NameMap String) :
    let b : Bundle := { Bundle.ofSchema s with files }
    (b.discovered.Nodup ∧ ∀ name, s.DeclaresType name → name ∈ b.discovered)
      ∧ (∀ f ∈ b.circularityFindings, ∃ first inner decl,
          f = ⟨decl.name.span, .circular (first :: inner ++ [first])⟩
            ∧ s.types.find? (·.name.text = first) = some decl
            ∧ (first :: inner).Nodup
            ∧ (first :: inner ++ [first]).IsChain s.FirstRequires
            ∧ b.discovered.find? (· ∈ first :: inner) = some first)
      ∧ b.circularityFindings.Pairwise (fun f g => ∀ c d, f.fault = .circular c →
          g.fault = .circular d → ¬ c.dropLast ~r d.dropLast)
      ∧ (∀ first inner, (first :: inner ++ [first]).IsChain s.FirstRequires →
          ∃ f ∈ b.circularityFindings, ∃ chain x y, f.fault = .circular chain
            ∧ [x, y] <:+ chain ∧ [x, y] <:+: first :: inner ++ [first])
      ∧ (b.circularityFindings = [] ↔ ∀ name, ¬ Relation.TransGen s.FirstRequires name name) := by
  intro b
  have hfindings : b.circularityFindings = (Bundle.ofSchema s).circularityFindings := rfl
  have hdiscovered : b.discovered = (Bundle.ofSchema s).discovered := rfl
  obtain ⟨horderly, hall⟩ := search_orderly s
  rw [hfindings, hdiscovered]
  refine ⟨⟨horderly.nodup, hall⟩, ?_, ?_, ?_, ?_⟩
  · intro f hf
    obtain ⟨chain, hchain, hf⟩ := List.mem_filterMap.1 hf
    obtain ⟨first, inner, heq, hnodup, hwalk⟩ := circle_of_mem_circles hchain
    obtain ⟨first', decl, hhead, hget, rfl⟩ := circleFinding?_eq_some_iff.1 hf
    rw [heq] at hhead
    obtain rfl : first = first' := Option.some.inj hhead
    have hdecl : (Bundle.ofSchema s).types[first]? = s.types.find? (·.name.text = first) :=
      getElem?_firstByName s.types first
    have hdrop : chain.dropLast = first :: inner := by
      rw [heq]
      exact List.dropLast_concat
    exact ⟨first, inner, decl, by rw [heq], hdecl ▸ hget, hnodup, heq ▸ hwalk,
      find?_discovered hchain hdrop⟩
  · refine List.pairwise_filterMap.2 ((circles_pairwise s).imp fun {c d} hapart f hf g hg => ?_)
    obtain ⟨_, _, _, _, rfl⟩ := circleFinding?_eq_some_iff.1 hf
    obtain ⟨_, _, _, _, rfl⟩ := circleFinding?_eq_some_iff.1 hg
    intro c' d' hc' hd'
    rw [← Fault.circular.inj hc', ← Fault.circular.inj hd']
    exact hapart
  · intro first inner hwalk
    obtain ⟨chain, hchain, x, y, hsuffix, hinfix⟩ := exists_closing hwalk
    obtain ⟨f, hf, hfault⟩ := exists_finding hchain
    exact ⟨f, hf, chain, x, y, hfault, hsuffix, hinfix⟩
  · have hrelation : (fun a b => b ∈ (Bundle.ofSchema s).requires a) = s.FirstRequires := by
      funext a b
      exact propext mem_requires_iff_firstRequires
    rw [circularityFindings_eq_nil_iff_circles, circles_eq_nil_iff, hrelation]

/-! ## Which circles are found -/

/-- Whether a finding shows a circle, from whichever of its types on. -/
def Finding.shows (circle : List String) (f : Finding) : Bool :=
  match f.fault with
  | .circular chain => chain.dropLast ~r circle.dropLast
  | _ => false

lemma Finding.shows_iff {circle : List String} {f : Finding} : f.shows circle = true ↔
    ∃ chain, f.fault = .circular chain ∧ chain.dropLast ~r circle.dropLast := by
  rw [shows]
  split
  · next chain hfault => simp [hfault]
  · next hfault =>
      refine ⟨nofun, ?_⟩
      rintro ⟨chain, hc, _⟩
      exact absurd hc (hfault chain)

lemma countP_le_one {α : Type} {p : α → Bool} {as : List α}
    (h : as.Pairwise fun a b => ¬ (p a = true ∧ p b = true)) : as.countP p ≤ 1 := by
  induction h with
  | nil => exact Nat.zero_le _
  | @cons a rest hrest _ ih =>
      by_cases ha : p a = true
      · have hnone : rest.countP p = 0 :=
          List.countP_eq_zero.2 fun b hb hpb => hrest b hb ⟨ha, hpb⟩
        rw [List.countP_cons_of_pos ha, hnone]
      · rwa [List.countP_cons_of_neg ha]

section

variable {s : Schema} {circle : List String}

lemma Bundle.countP_shows_le_one (s : Schema) (circle : List String) :
    (Bundle.ofSchema s).circularityFindings.countP (·.shows circle) ≤ 1 := by
  refine countP_le_one (List.pairwise_filterMap.2 ((circles_pairwise s).imp ?_))
  rintro c d hapart f hf g hg ⟨hshows, hshows'⟩
  obtain ⟨_, _, _, _, rfl⟩ := circleFinding?_eq_some_iff.1 hf
  obtain ⟨_, _, _, _, rfl⟩ := circleFinding?_eq_some_iff.1 hg
  obtain ⟨c', hc', hrotated⟩ := Finding.shows_iff.1 hshows
  obtain ⟨d', hd', hrotated'⟩ := Finding.shows_iff.1 hshows'
  rw [← Fault.circular.inj hc'] at hrotated
  rw [← Fault.circular.inj hd'] at hrotated'
  exact hapart (hrotated.trans hrotated'.symm)

lemma Bundle.countP_shows_eq_one_iff :
    (Bundle.ofSchema s).circularityFindings.countP (·.shows circle) = 1 ↔
      ∃ chain ∈ (Bundle.ofSchema s).circles, chain.dropLast ~r circle.dropLast := by
  have hle := countP_shows_le_one s circle
  have hpos : (Bundle.ofSchema s).circularityFindings.countP (·.shows circle) = 1 ↔
      0 < (Bundle.ofSchema s).circularityFindings.countP (·.shows circle) := by omega
  rw [hpos, List.countP_pos_iff]
  constructor
  · rintro ⟨f, hf, hshows⟩
    obtain ⟨chain, hchain, hf⟩ := List.mem_filterMap.1 hf
    obtain ⟨_, _, _, _, rfl⟩ := circleFinding?_eq_some_iff.1 hf
    obtain ⟨chain', hfault, hrotated⟩ := Finding.shows_iff.1 hshows
    exact ⟨chain, hchain, Fault.circular.inj hfault ▸ hrotated⟩
  · rintro ⟨chain, hchain, hrotated⟩
    obtain ⟨f, hf, hfault⟩ := exists_finding hchain
    exact ⟨f, hf, Finding.shows_iff.2 ⟨chain, hfault, hrotated⟩⟩

/-- A rotation of a circle is a walk that the step from its end to its start makes a circle again. -/
lemma Circle.isChain_of_isRotated {edge : String → String → Prop} (h : Circle edge circle)
    {trail : List String} (hrotated : trail ~r circle.dropLast) :
    ∃ first rest, trail = first :: rest ∧ (first :: rest ++ [first]).IsChain edge := by
  obtain ⟨start, inner, rfl, _, hwalk⟩ := h
  have hdrop : (start :: inner ++ [start]).dropLast = start :: inner := List.dropLast_concat
  rw [hdrop] at hrotated
  have hcycle : (trail : Cycle String) = (start :: inner : List String) := Cycle.coe_eq_coe.2 hrotated
  have hchain : Cycle.Chain edge (trail : Cycle String) :=
    hcycle ▸ (Cycle.chain_coe_cons edge start inner).2 hwalk
  cases trail with
  | nil => exact absurd (List.isRotated_nil_iff'.1 hrotated).symm (by simp)
  | cons first rest => exact ⟨first, rest, rfl, (Cycle.chain_coe_cons edge first rest).1 hchain⟩

/-- The type at the end of a walk of at least one step is declared. -/
lemma Schema.declaresType_of_isChain {first a : String} {front back : List String}
    (h : (first :: front ++ a :: back).IsChain s.FirstRequires) : s.DeclaresType a := by
  obtain ⟨_, _, hstep⟩ := List.isChain_append.1 h
  obtain ⟨init, b, hlast⟩ := List.eq_nil_or_concat (first :: front) |>.resolve_left (by simp)
  exact (hstep b (by rw [hlast]; simp) a rfl).2

/-- A chain is reported for every trail whose end requires its start. -/
lemma Bundle.mem_circles_of_trail {first : String} {rest : List String}
    (hwalk : (first :: rest ++ [first]).IsChain s.FirstRequires)
    (htrail : Trail (Bundle.ofSchema s).requires (Bundle.ofSchema s).discovered (first :: rest)) :
    first :: rest ++ [first] ∈ (Bundle.ofSchema s).circles := by
  obtain ⟨horderly, hall⟩ := search_orderly s
  obtain ⟨front, a, hlast⟩ := List.eq_nil_or_concat (first :: rest) |>.resolve_left (by simp)
  rw [List.concat_eq_append] at hlast
  have hrequires : s.FirstRequires a first := by
    have hwalk' := hwalk
    rw [hlast, List.append_assoc, List.singleton_append] at hwalk'
    exact List.isChain_iff_forall_rel_of_append_cons_cons.1 hwalk' rfl
  have hdeclared : s.DeclaresType a := by
    have hmem : a ∈ rest ++ [first] := by
      have hmem : a ∈ first :: rest := by rw [hlast]; simp
      simpa [or_comm] using hmem
    obtain ⟨before, behind, heq⟩ := List.append_of_mem hmem
    rw [List.cons_append, heq] at hwalk
    exact Schema.declaresType_of_isChain hwalk
  refine horderly.found a (hall a hdeclared) List.not_mem_nil (first :: rest) first htrail ?_ rfl
    (mem_requires_iff_firstRequires.2 hrequires)
  rw [hlast, List.getLast?_concat]

/-- **Which circles are reported.**  A circle is reported at most once.  It is reported if and only if,
from one of its types on, each of its types was discovered from the one before. -/
theorem Bundle.circle_shown_iff_discovered (files : NameMap String)
    (hcircle : Circle s.FirstRequires circle) :
    let b : Bundle := { Bundle.ofSchema s with files }
    b.circularityFindings.countP (·.shows circle) ≤ 1
      ∧ (b.circularityFindings.countP (·.shows circle) = 1 ↔
        ∃ trail, trail ~r circle.dropLast ∧ Trail b.requires b.discovered trail) := by
  intro b
  have hfindings : b.circularityFindings = (Bundle.ofSchema s).circularityFindings := rfl
  have hrequires : b.requires = (Bundle.ofSchema s).requires := rfl
  have hdiscovered : b.discovered = (Bundle.ofSchema s).discovered := rfl
  rw [hfindings, hrequires, hdiscovered]
  refine ⟨countP_shows_le_one s circle, countP_shows_eq_one_iff.trans ⟨?_, ?_⟩⟩
  · rintro ⟨chain, hchain, hrotated⟩
    exact ⟨chain.dropLast, hrotated, (search_orderly s).1.trails chain hchain⟩
  · rintro ⟨trail, hrotated, htrail⟩
    obtain ⟨first, rest, rfl, hwalk⟩ := hcircle.isChain_of_isRotated hrotated
    refine ⟨_, mem_circles_of_trail hwalk htrail, ?_⟩
    rwa [List.dropLast_concat]

/-- Types with a mandatory field of each of the types that are listed for them. -/
def typesRequiring (types : List (String × List String)) : Schema :=
  ⟨types.map fun (name, required) => .type ⟨default, ⟨default, name⟩, none, none,
    required.map fun r => .field ⟨default, none, ⟨default, r⟩, false,
      ⟨default, .named ⟨default, r⟩, false⟩, []⟩⟩⟩

/-- Two circles that share their last step, from `D` to `A`. -/
def sharedStep : Schema :=
  typesRequiring [("A", ["B", "C"]), ("B", ["D"]), ("C", ["D"]), ("D", ["A"])]

lemma circle_sharedStep {second : String} (h : second = "B" ∨ second = "C") :
    Circle sharedStep.FirstRequires ["A", second, "D", "A"] := by
  refine ⟨"A", [second, "D"], rfl, ?_, ?_⟩
  · rcases h with rfl | rfl <;> decide
  · have hwalk : ["A", second, "D", "A"].IsChain
        fun a b => b ∈ (Bundle.ofSchema sharedStep).requires a := by
      rcases h with rfl | rfl <;> decide +kernel
    exact hwalk.imp fun _ _ => Bundle.mem_requires_iff_firstRequires.1

/-- The circle through the type that is entered first is reported. -/
theorem sharedStep_shown : Circle sharedStep.FirstRequires ["A", "B", "D", "A"]
    ∧ (Bundle.ofSchema sharedStep).circularityFindings.countP (·.shows ["A", "B", "D", "A"]) = 1 := by
  refine ⟨circle_sharedStep (Or.inl rfl), ?_⟩
  refine (Bundle.circle_shown_iff_discovered ∅ (circle_sharedStep (Or.inl rfl))).2.2 ?_
  exact ⟨["A", "B", "D"], List.IsRotated.refl _, by decide +kernel⟩

/-- The other circle is not: when the search comes to `C`, it has left `D`. -/
theorem sharedStep_not_shown : Circle sharedStep.FirstRequires ["A", "C", "D", "A"]
    ∧ (Bundle.ofSchema sharedStep).circularityFindings.countP (·.shows ["A", "C", "D", "A"]) = 0 :=
  ⟨circle_sharedStep (Or.inr rfl), by decide +kernel⟩

/-- A circle is reported if every circle that takes one of its steps is the same. -/
theorem Bundle.countP_shows_of_apart (hcircle : Circle s.FirstRequires circle)
    (hapart : ∀ other x y, Circle s.FirstRequires other → [x, y] <:+: circle → [x, y] <:+: other →
      other.dropLast ~r circle.dropLast) :
    (Bundle.ofSchema s).circularityFindings.countP (·.shows circle) = 1 := by
  obtain ⟨first, inner, rfl, _, hwalk⟩ := hcircle
  obtain ⟨chain, hchain, x, y, hsuffix, hinfix⟩ := exists_closing hwalk
  exact countP_shows_eq_one_iff.2 ⟨chain, hchain,
    hapart chain x y (circle_of_mem_circles hchain) hinfix hsuffix.isInfix⟩

end

end RpcSchema
