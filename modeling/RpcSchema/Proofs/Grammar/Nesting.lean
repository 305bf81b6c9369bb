import Mathlib.Data.List.NodupEquivFin
import RpcSchema.Proofs.Grammar.Excerpt
import RpcSchema.Proofs.Schema.Outline

/-!
# Spans are nested

The spans of a schema that was read form a tree, as its nodes do: every node is written in a stretch of
the source from one token to another, its parts lie inside that stretch and one behind the other, and a
docstring lies before what it belongs to (`Schema.ofSource_nested`).

A derivation tells which words make up a node, and the node's span is stretched over them.  So the outlines
of what is derived *lie* in the words: each is stretched over some words that follow each other, its parts
lie in these, and what comes behind lies in the words behind (`Lies`).  That holds of every rule of the
grammar.  As the words of a source are in order, it is all that is needed (`Lies.nested`).
-/

namespace RpcSchema

open Word (stretch)

/-! ## Outlines in words -/

/-- Outlines lie in words: they are stretched over pieces of them, one piece behind the other, and the parts
of each lie in its piece. -/
inductive Lies : List Word → List Outline → Prop where
  | nil : Lies [] []
  | skip {w : Word} {ws : List Word} {os : List Outline} : Lies ws os → Lies (w :: ws) os
  | node {us ws : List Word} {parts os : List Outline} : us ≠ [] → Lies us parts → Lies ws os →
      Lies (us ++ ws) (.node (stretch us) parts :: os)

namespace Lies

variable {us vs ws : List Word} {os ps parts : List Outline}

/-- Words may hold nothing. -/
lemma none (ws : List Word) : Lies ws [] := by
  induction ws with
  | nil => exact .nil
  | cons w ws ih => exact .skip ih

lemma append (h : Lies us os) (h' : Lies vs ps) : Lies (us ++ vs) (os ++ ps) := by
  induction h with
  | nil => exact h'
  | skip _ ih => exact .skip ih
  | node hne hparts _ _ ih =>
      rw [List.append_assoc]
      exact .node hne hparts ih

/-- One node that is stretched over all of the words. -/
lemma whole (hne : us ≠ []) (h : Lies us parts) : Lies us [.node (stretch us) parts] := by
  have hnode := Lies.node hne h .nil
  rwa [List.append_nil] at hnode

lemma word (w : Word) : Lies [w] [.leaf w.span] := .whole (List.cons_ne_nil w []) (.none [w])

/-- Words behind that hold nothing. -/
lemma append_none (h : Lies us os) (vs : List Word) : Lies (us ++ vs) os := by
  have hboth := h.append (.none vs)
  rwa [List.append_nil] at hboth

lemma none_append (us : List Word) (h : Lies vs os) : Lies (us ++ vs) os := (Lies.none us).append h

/-- Every outline is stretched over some of the words. -/
lemma exists_stretch (h : Lies ws os) :
    ∀ o ∈ os, ∃ us, us ≠ [] ∧ us.Sublist ws ∧ o.span = stretch us := by
  induction h with
  | nil => exact nofun
  | @skip w _ _ _ ih =>
      intro o ho
      obtain ⟨us, hne, hsub, hspan⟩ := ih o ho
      exact ⟨us, hne, hsub.cons w, hspan⟩
  | @node us ws _ _ hne _ _ _ ih =>
      intro o ho
      rcases List.mem_cons.1 ho with rfl | ho
      · exact ⟨us, hne, List.sublist_append_left us ws, rfl⟩
      · obtain ⟨vs, hvs, hsub, hspan⟩ := ih o ho
        exact ⟨vs, hvs, hsub.trans (List.sublist_append_right us ws), hspan⟩

end Lies

/-! ## Stretches of words -/

namespace Source

variable {source : Source} {us vs ws : List Word}

/-- Words of a source are among its tokens, from the first of them to the last. -/
lemma exists_tokens_of_sublist (hsub : us.Sublist source.words) (hne : us ≠ []) :
    ∃ i j : Nat, i ≤ j ∧ source.tokens[i]? = some (us.head hne).token
      ∧ source.tokens[j]? = some (us.getLast hne).token := by
  have htokens : (us.map (·.token)).Sublist source.tokens := by
    have hwords := hsub.map (·.token)
    rw [source.map_token_words] at hwords
    exact hwords.trans List.filter_sublist
  obtain ⟨f, hf⟩ := List.sublist_iff_exists_orderEmbedding_getElem?_eq.1 htokens
  refine ⟨f 0, f (us.length - 1), f.monotone (Nat.zero_le _), ?_, ?_⟩
  · rw [← hf, List.getElem?_map, ← List.head?_eq_getElem?, List.head?_eq_some_head hne]
    rfl
  · rw [← hf, List.getElem?_map, ← List.getLast?_eq_getElem?, List.getLast?_eq_some_getLast hne]
    rfl

/-- Words of a source make up a stretch of it, from where the first starts to where the last ends. -/
lemma isStretch_stretch (hsub : us.Sublist source.words) (hne : us ≠ []) :
    (stretch us).IsStretch source
      ∧ (stretch us).range = ((us.head hne).span.range.1, (us.getLast hne).span.range.2) := by
  have hstretch : stretch us = (us.head hne).span.through (us.getLast hne).span := by
    rw [stretch, List.headD_eq_head?_getD, List.head?_eq_some_head hne, List.getLastD_eq_getLast?,
      List.getLast?_eq_some_getLast hne]
    rfl
  obtain ⟨i, j, hij, hfirst, hlast⟩ := exists_tokens_of_sublist hsub hne
  rw [hstretch]
  exact source.isStretch_through hij hfirst hlast
    (token_of_mem_words (hsub.subset (List.head_mem hne))).2
    (token_of_mem_words (hsub.subset (List.getLast_mem hne))).2

/-- What is stretched over words lies before what is stretched over words behind them. -/
lemma range_stretch_le {us' vs' : List Word} (hwords : (us ++ vs).Sublist source.words)
    (hus : us'.Sublist us) (hvs : vs'.Sublist vs) (hune : us' ≠ []) (hvne : vs' ≠ []) :
    (stretch us').range.2 ≤ (stretch vs').range.1 := by
  have hordered := source.ordered_words.sublist hwords
  have hucover := isStretch_stretch (hus.trans ((List.sublist_append_left us vs).trans hwords)) hune
  have hvcover := isStretch_stretch (hvs.trans ((List.sublist_append_right us vs).trans hwords)) hvne
  rw [hucover.2, hvcover.2]
  exact (List.pairwise_append.1 hordered).2.2 _ (hus.subset (List.getLast_mem hune))
    _ (hvs.subset (List.head_mem hvne))

/-- What is stretched over some of the words lies inside of what is stretched over all of them. -/
lemma range_stretch_mem (hws : ws.Sublist source.words) (hus : us.Sublist ws) (hne : us ≠ []) :
    (stretch ws).range.1 ≤ (stretch us).range.1 ∧ (stretch us).range.2 ≤ (stretch ws).range.2 := by
  have hordered := source.ordered_words.sublist hws
  have hwne : ws ≠ [] := fun hnil => hne (List.sublist_nil.1 (hnil ▸ hus))
  have htaken : ∀ w ∈ ws, w.span.range.1 ≤ w.span.range.2 := by
    intro w hw
    obtain ⟨htoken, hkind⟩ := token_of_mem_words (hws.subset hw)
    exact (source.tokens_tile.taken w.token htoken hkind).1.le
  rw [(isStretch_stretch hws hwne).2, (isStretch_stretch (hus.trans hws) hne).2]
  constructor
  · have hfirst := hus.subset (List.head_mem hne)
    obtain ⟨w, rest, rfl⟩ := List.exists_cons_of_ne_nil hwne
    rcases List.mem_cons.1 hfirst with heq | hmem
    · rw [heq]
      exact Nat.le_refl _
    · exact (htaken w List.mem_cons_self).trans (List.rel_of_pairwise_cons hordered hmem)
  · have hlast := hus.subset (List.getLast_mem hne)
    obtain ⟨init, w, rfl⟩ := (List.eq_nil_or_concat' ws).resolve_left hwne
    rw [List.getLast_append_singleton]
    rcases List.mem_append.1 hlast with hmem | hmem
    · exact ((List.pairwise_append.1 hordered).2.2 _ hmem w List.mem_cons_self).trans
        (htaken w (List.mem_append_right _ List.mem_cons_self))
    · rw [List.mem_singleton.1 hmem]

end Source

/-- **Words in order, nodes in order.**  Outlines that lie in words of a source are nested, and stand one
before the other. -/
lemma Lies.nested {source : Source} {ws : List Word} {os : List Outline} (h : Lies ws os)
    (hws : ws.Sublist source.words) :
    os.Pairwise Outline.Before ∧ ∀ o ∈ os, o.Nested source := by
  induction h with
  | nil => exact ⟨.nil, nofun⟩
  | skip _ ih => exact ih ((List.sublist_cons_self _ _).trans hws)
  | @node us ws parts os hne hparts hrest ihparts ihrest =>
      have hus := (List.sublist_append_left us ws).trans hws
      obtain ⟨hordered, hnested⟩ := ihparts hus
      obtain ⟨hrestordered, hrestnested⟩ := ihrest ((List.sublist_append_right us ws).trans hws)
      refine ⟨List.pairwise_cons.2 ⟨fun o ho => ?_, hrestordered⟩, fun o ho => ?_⟩
      · obtain ⟨vs, hvne, hvs, hspan⟩ := hrest.exists_stretch o ho
        rw [Outline.Before, hspan]
        exact Source.range_stretch_le hws (List.Sublist.refl us) hvs hne hvne
      · rcases List.mem_cons.1 ho with rfl | ho
        · refine .node (Source.isStretch_stretch hus hne).1 (fun p hp => ?_) hordered hnested
          obtain ⟨vs, hvne, hvs, hspan⟩ := hparts.exists_stretch p hp
          rw [hspan]
          exact Source.range_stretch_mem hus hvs hvne
        · exact hrestnested o ho

/-! ## What is derived lies in its words -/

namespace Grammar

variable {us ws behind bs : List Word} {w : Word}

/-- The parts of a sequence lie in its words if each lies in its own. -/
lemma Sequence.lies {α : Type} {part : List Word → List Word → α → Prop} {outlines : α → List Outline}
    {as : List α} (h : Sequence part ws as)
    (hpart : ∀ behind us a, part behind us a → Lies us (outlines a)) : Lies ws (as.flatMap outlines) := by
  induction h with
  | nil => exact .nil
  | cons ha _ ih => exact (hpart _ _ _ ha).append ih

lemma Star.lies {α : Type} {part : List Word → α → Prop} {outline : α → Outline} {as : List α}
    (h : Star part ws as) (hpart : ∀ us a, part us a → Lies us [outline a]) :
    Lies ws (as.map outline) := by
  rw [← List.flatMap_pure_eq_map]
  exact Sequence.lies h fun _ => hpart

lemma Braced.lies {α : Type} {inner : List Word → α → Prop} {outlines : α → List Outline} {a : α}
    (h : Braced inner ws a) (hinner : ∀ us a, inner us a → Lies us (outlines a)) :
    Lies ws (outlines a) := by
  cases h with
  | mk _ ha _ => exact .skip ((hinner _ _ ha).append_none _)

/-! ### Uses of rules -/

lemma LiteralOf.lies {l : Literal} (h : LiteralOf w l) : Lies [w] [l.outline] := by
  cases h with
  | string _ => exact .word w
  | integer _ _ => exact .word w
  | float _ => exact .word w
  | boolean _ => exact .word w

lemma ErrorOf.lies {e : ErrorClause} (h : ErrorOf ws e) : Lies ws [e.outline] := by
  cases h with
  | mk _ _ _ => exact .whole (List.cons_ne_nil _ _) (.none _)

lemma NextItem.lies {first : ValueKind} {l : Literal} (h : NextItem first ws l) : Lies ws [l.outline] := by
  cases h with
  | mk _ hl _ => exact .skip hl.lies

lemma Items.lies {ls : List Literal} (h : Items ws ls) : Lies ws (ls.map Literal.outline) := by
  cases h with
  | none => exact .nil
  | some hl hls _ => exact hl.lies.append ((Star.lies hls fun _ _ => NextItem.lies).append_none _)

lemma ArgumentOf.lies {a : Argument} (h : ArgumentOf ws a) : Lies ws [a.outline] := by
  cases h with
  | single hl => exact hl.lies
  | array _ hitems _ => exact .whole (List.cons_ne_nil _ _) (.skip (hitems.lies.append_none _))

lemma Arguments.lies {a : Option Argument} {e : Option ErrorClause} (h : Arguments ws (a, e)) :
    Lies ws (a.toList.map Argument.outline ++ e.toList.map ErrorClause.outline) := by
  cases h with
  | empty => exact .nil
  | error he => exact he.lies
  | argument ha => exact ha.lies
  | both ha _ he => exact ha.lies.append (.skip he.lies)

lemma UseOf.lies {u : RuleUse} (h : UseOf ws u) : Lies ws [u.outline] := by
  cases h with
  | bare _ _ => exact .whole (List.cons_ne_nil _ _) (.skip (.word _))
  | given _ _ _ hgiven _ =>
      exact .whole (List.cons_ne_nil _ _)
        (.skip ((Lies.word _).append (.skip (hgiven.lies.append_none _))))

/-! ### Fields -/

lemma BaseOf.ne_nil {base : FieldBase} (h : BaseOf ws base) : ws ≠ [] := by
  cases h with
  | named _ => exact List.cons_ne_nil _ _
  | object _ _ _ => exact List.cons_ne_nil _ _

/-- A field lies in its words if its type does; its docstring stands before them. -/
lemma FieldOf.lies {base : FieldBase} {docstring : Option Docstring} {f : Field}
    (h : FieldOf bs base docstring ws f) (hbase : Lies bs base.outlines) (hne : bs ≠ []) :
    ∃ o, FieldItem.outlines [.field f] = docstring.toList.map Docstring.outline ++ [o] ∧ Lies ws [o] := by
  cases h with
  | @mk n c ms ns ks us _ _ _ rules _ _ _ _ _ hrules =>
      have htype : Lies (bs ++ ks) [.node (stretch (bs ++ ks)) base.outlines] :=
        .whole (fun hnil => hne (List.append_eq_nil_iff.1 hnil).1) (hbase.append_none ks)
      have hbody := (htype.append_none ns).append (Star.lies hrules fun _ _ => UseOf.lies)
      exact ⟨_, rfl, .whole (List.cons_ne_nil _ _)
        ((Lies.word n).append (.none_append ms (.skip hbody)))⟩

mutual

lemma BaseOf.lies : ∀ {ws : List Word} {base : FieldBase}, BaseOf ws base → Lies ws base.outlines
  | _, _, .named _ => .word _
  | _, _, .object _ hitems _ => .skip (hitems.lies.append_none _)

lemma EntryOf.lies : ∀ {behind ws : List Word} {item : FieldItem}, EntryOf behind ws item →
    Lies ws (FieldItem.outlines [item])
  | _, _, _, .comment _ => .word _
  | _, _, _, .docstring _ _ => .word _
  | _, _, _, .field hbase hf => by
      obtain ⟨o, houtlines, hlies⟩ := hf.lies hbase.lies hbase.ne_nil
      rw [houtlines]
      exact hlies
  | _, _, _, .documented _ _ hbase hf => by
      obtain ⟨o, houtlines, hlies⟩ := hf.lies hbase.lies hbase.ne_nil
      rw [houtlines]
      exact (Lies.word _).append hlies

lemma Fields.lies : ∀ {ws : List Word} {items : List FieldItem}, Fields ws items →
    Lies ws (FieldItem.outlines items)
  | _, _, .nil => .nil
  | _, _, .cons hitem hitems => by
      rw [FieldItem.outlines_cons]
      exact hitem.lies.append hitems.lies

end

/-! ### Declarations -/

lemma ClauseOf.lies {keyword : Keyword} {c : TypeClause} (h : ClauseOf keyword ws c) :
    Lies ws [c.outline] := by
  cases h with
  | mk _ _ _ _ =>
      exact .whole (List.cons_ne_nil _ _) (.skip (.skip ((Lies.word _).append_none _)))

lemma RuleItemOf.lies {item : RuleItem} (h : RuleItemOf ws item) : Lies ws [item.outline] := by
  cases h with
  | comment _ => exact .word _
  | target hc => exact hc.lies
  | param hc => exact hc.lies
  | error he => exact he.lies

lemma MetaItemOf.lies {item : MetaItem} (h : MetaItemOf ws item) : Lies ws [item.outline] := by
  cases h with
  | comment _ => exact .word _
  | entry _ _ hl =>
      exact .whole (List.cons_ne_nil _ _) ((Lies.word _).append (.skip hl.lies))

lemma BlockOf.lies {ι : Type} {keyword : Keyword} {items : List Word → List ι → Prop}
    {outlines : List ι → List Outline} {block : Span × List ι}
    (h : BlockOf keyword items ws block) (hitems : ∀ us is, items us is → Lies us (outlines is)) :
    Lies ws [.node block.1 (outlines block.2)] := by
  cases h with
  | mk _ hbody => exact .whole (List.cons_ne_nil _ _) (.skip (hbody.lies hitems))

lemma ProcItemOf.lies {item : ProcItem} (h : ProcItemOf ws item) : Lies ws [item.outline] := by
  cases h with
  | comment _ => exact .word _
  | input hb => exact hb.lies fun _ _ => Fields.lies
  | output hb => exact hb.lies fun _ _ => Fields.lies
  | metadata hb => exact hb.lies fun _ _ hitems => Star.lies hitems fun _ _ => MetaItemOf.lies

lemma DeprecationOf.lies {d : Option Deprecation} (h : DeprecationOf ws d) :
    Lies ws (d.toList.map Deprecation.outline) := by
  cases h with
  | absent => exact .nil
  | bare _ => exact .whole (List.cons_ne_nil _ _) (.none _)
  | reason _ _ _ _ => exact .whole (List.cons_ne_nil _ _) (.none _)

/-- A declaration lies in its words if its body does; its docstring stands before them. -/
lemma DeclOf.lies {ι : Type} {ks : List Word} {docstring : Option Docstring}
    {body : List Word → List ι → Prop} {outlines : List ι → List Outline} {d : Declaration ι}
    (h : DeclOf ks docstring body ws d) (hbody : ∀ us items, body us items → Lies us (outlines items)) :
    ∃ o, d.outlines outlines = docstring.toList.map Docstring.outline ++ [o] ∧ Lies ws [o] := by
  have hne := h.ne_nil
  cases h with
  | mk hdeprecation _ hitems =>
      exact ⟨_, rfl, .whole hne ((hdeprecation.lies.append_none ks).append
        ((Lies.word _).append (hitems.lies hbody)))⟩

lemma DeclarationOf.lies {docstring : Option Docstring} {s : Statement}
    (h : DeclarationOf docstring ws s) :
    ∃ o, s.outlines = docstring.toList.map Docstring.outline ++ [o] ∧ Lies ws [o] := by
  cases h with
  | rule _ _ hd => exact hd.lies fun _ _ hitems => Star.lies hitems fun _ _ => RuleItemOf.lies
  | type _ hd => exact hd.lies fun _ _ => Fields.lies
  | proc _ hd => exact hd.lies fun _ _ hitems => Star.lies hitems fun _ _ => ProcItemOf.lies
  | stream _ hd => exact hd.lies fun _ _ hitems => Star.lies hitems fun _ _ => ProcItemOf.lies

lemma StatementOf.lies {s : Statement} (h : StatementOf behind ws s) : Lies ws s.outlines := by
  cases h with
  | version _ _ _ => exact .whole (List.cons_ne_nil _ _) (.none _)
  | imports _ _ => exact .whole (List.cons_ne_nil _ _) (.none _)
  | comment _ => exact .word _
  | docstring _ _ => exact .word _
  | declaration hd =>
      obtain ⟨o, houtlines, hlies⟩ := hd.lies
      rw [houtlines]
      exact hlies
  | documented _ _ hd =>
      obtain ⟨o, houtlines, hlies⟩ := hd.lies
      rw [houtlines]
      exact (Lies.word _).append hlies

end Grammar

/-! ## The result -/

/-- **Nesting.**  The nodes of a schema that was read stand one before the other; each is written in a
stretch of the source, with its parts in order inside, at every depth; and a docstring stands before what it
belongs to, behind what is before that.  A span from one token of a source to the same or a later one covers
what is between the start of the first and the end of the last, and nothing else. -/
theorem Schema.ofSource_nested (source : Source) :
    (∀ schema, Schema.ofSource source = .ok schema →
        schema.outlines.Pairwise Outline.Before ∧ ∀ o ∈ schema.outlines, o.Nested source)
      ∧ ∀ (i j : Nat) (t u : Token), i ≤ j → source.tokens[i]? = some t → source.tokens[j]? = some u →
          ∃ front text back, source.chars = front ++ (text ++ back)
            ∧ t.span.range.1 = Text.utf8Length front
            ∧ u.span.range.2 = Text.utf8Length (front ++ text)
            ∧ (t.span.through u.span).range = (t.span.range.1, u.span.range.2)
            ∧ (t.span.through u.span).chars = text := by
  constructor
  · intro schema h
    have hlies : Lies source.words schema.outlines :=
      ((Schema.ofSource_eq_ok_iff source schema).1 h).lies fun _ _ _ => Grammar.StatementOf.lies
    exact hlies.nested (List.Sublist.refl _)
  · intro i j t u hij ht hu
    obtain ⟨front, text, back, hcovers, hstart, hstop⟩ := source.through_tokens hij ht hu
    refine ⟨front, text, back, hcovers.chars, hstart, hstop, ?_, hcovers.text⟩
    rw [hcovers.range, hstart, hstop]

/-- A docstring and what it belongs to stand side by side. -/
example : ((Schema.ofSource ⟨"a", "\"\"\"of A\"\"\"\ntype A \x7b b: string[] @email \x7d"⟩).toOption.map
    fun s => s.outlines.map (·.span.range)) = some [(0, 10), (11, 40)] := by decide +kernel

end RpcSchema
