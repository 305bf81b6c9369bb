import Mathlib.Data.List.Basic
import Mathlib.Logic.Relation
import RpcSchema.Proofs.Files.NormalForm

/-!
# When two paths have one normal form

`Path.clean` reads a path from the left and keeps a stack.  What it comes to is told here without one.

**Shortening.**  A step that stays can be dropped, so can a step down with the step up behind it, and a
step up from the root (`Path.Shortens`).

* A path can be shortened to its normal form (`Path.Named.reduces_clean`), and shortening a path does not
  change its normal form (`Path.Shortens.clean_eq`).
* What is in normal form is told from the steps alone (`Path.IsNormal`), and these are the paths that
  cannot be shortened (`Path.Named.clean_eq_self_iff`).
* What is shortened in front of other steps is shortened with them behind (`Path.Shortens.join`).

**Texts.**  One path has many texts, since slashes may be repeated and may stand at the end.
`Path.Rewrites` goes from text to text and takes those for the same.  `Path.cleanText_canonical` is the
result.
-/

namespace RpcSchema.Path

/-! ## What is in normal form -/

/-- No step stays, and steps up stand only at the front, and not there if the path is absolute. -/
structure IsNormal (p : Path) : Prop where
  moves : .here ∉ p.segments
  ups : ∀ front behind, p.segments = front ++ .up :: behind →
    p.isAbsolute = false ∧ ∀ s ∈ front, s = .up

lemma up_not_mem_names (names : List String) : Segment.up ∉ names.map Segment.name := by simp

lemma isNormal_down (names : List String) : (down names).IsNormal where
  moves := by simp [down]
  ups := by
    intro front behind hsplit
    have hmem : Segment.up ∈ (down names).segments := by
      rw [hsplit]
      exact List.mem_append_right front List.mem_cons_self
    exact absurd hmem (up_not_mem_names names)

lemma isNormal_relative (ups : Nat) (names : List String) : (relative ups names).IsNormal where
  moves := by simp [relative]
  ups := by
    intro front behind hsplit
    refine ⟨rfl, fun s hs => ?_⟩
    rcases List.append_eq_append_iff.1 hsplit with ⟨more, rfl, hnames⟩ | ⟨more, hups, -⟩
    · have hmem : Segment.up ∈ names.map Segment.name := by
        rw [hnames]
        exact List.mem_append_right more List.mem_cons_self
      exact absurd hmem (up_not_mem_names names)
    · have hmem : s ∈ List.replicate ups Segment.up := by
        rw [hups]
        exact List.mem_append_left more hs
      exact List.eq_of_mem_replicate hmem

variable {p q : Path}

lemma Named.isNormal_clean (h : p.Named) : p.clean.IsNormal := by
  cases habsolute : p.isAbsolute with
  | true =>
      obtain ⟨names, -, hclean⟩ := clean_eq_down h habsolute
      rw [hclean]
      exact isNormal_down names
  | false =>
      obtain ⟨ups, names, -, hclean⟩ := clean_eq_relative h habsolute
      rw [hclean]
      exact isNormal_relative ups names

/-! ## Shortening -/

/-- A path is made shorter, and still leads where it led. -/
inductive Shortens : Path → Path → Prop
  /-- A step that stays is dropped. -/
  | here (isAbsolute : Bool) (front behind : List Segment) :
      Shortens ⟨isAbsolute, front ++ .here :: behind⟩ ⟨isAbsolute, front ++ behind⟩
  /-- A step down is taken back by the step up behind it. -/
  | back (isAbsolute : Bool) (front behind : List Segment) {n : String} (hn : IsName n) :
      Shortens ⟨isAbsolute, front ++ .name n :: .up :: behind⟩ ⟨isAbsolute, front ++ behind⟩
  /-- Above the root there is nothing. -/
  | root (behind : List Segment) : Shortens ⟨true, .up :: behind⟩ ⟨true, behind⟩

namespace Shortens

/-- Shortening does not change the normal form. -/
lemma clean_eq (h : Shortens p q) : p.clean = q.clean := by
  cases h with
  | here isAbsolute front behind =>
      simp only [clean, List.foldl_append, List.foldl_cons, cleanStep_here]
  | back isAbsolute front behind hn =>
      simp only [clean, List.foldl_append, List.foldl_cons, cleanStep_name]
      rfl
  | root behind => rfl

/-- Shortening adds no names. -/
lemma named (h : Shortens p q) (hp : p.Named) : q.Named := by
  intro n hmem
  refine hp n ?_
  cases h with
  | here | back =>
      rcases List.mem_append.1 hmem with hmem | hmem
      · exact List.mem_append_left _ hmem
      · exact List.mem_append_right _ (by simp [hmem])
  | root => exact List.mem_cons_of_mem _ hmem

/-- What is behind stays. -/
lemma join (h : Shortens p q) {r : Path} (hr : r.isAbsolute = false) :
    Shortens (p.join r) (q.join r) := by
  rw [Path.join, Path.join, hr]
  cases h with
  | here isAbsolute front behind => simpa using here isAbsolute front (behind ++ r.segments)
  | back isAbsolute front behind hn => simpa using back isAbsolute front (behind ++ r.segments) hn
  | root behind => exact root (behind ++ r.segments)

end Shortens

/-- What is in normal form cannot be shortened. -/
lemma IsNormal.not_shortens (h : p.IsNormal) : ¬ Shortens p q := by
  intro hstep
  cases hstep with
  | here isAbsolute front behind => exact h.moves (List.mem_append_right front List.mem_cons_self)
  | @back isAbsolute front behind n hn =>
      have hname := (h.ups (front ++ [.name n]) behind (by simp)).2 (.name n) (by simp)
      cases hname
  | root behind => cases (h.ups [] behind rfl).1

/-- What a step does to the stack is to shorten the path, or nothing. -/
lemma reduces_cleanStep (isAbsolute : Bool) {done : List Segment}
    (hdone : ∀ n, .name n ∈ done → IsName n) (s : Segment) (behind : List Segment) :
    Relation.ReflTransGen Shortens ⟨isAbsolute, done.reverse ++ s :: behind⟩
      ⟨isAbsolute, (cleanStep isAbsolute done s).reverse ++ behind⟩ := by
  fun_cases cleanStep isAbsolute done s with
  | case1 => exact .single (.here isAbsolute done.reverse behind)
  | case2 n done =>
      rw [List.reverse_cons, List.append_assoc]
      exact .single (.back isAbsolute done.reverse behind (hdone n List.mem_cons_self))
  | case3 habsolute =>
      rw [habsolute]
      exact .single (.root behind)
  | case4 => exact .refl
  | case5 =>
      rw [List.reverse_cons, List.append_assoc]
      exact .refl

/-- A path can be shortened to its normal form. -/
lemma Named.reduces_clean (h : p.Named) : Relation.ReflTransGen Shortens p p.clean := by
  obtain ⟨isAbsolute, segments⟩ := p
  have hstack : ∀ done : List Segment, (∀ n, .name n ∈ done → IsName n) →
      Relation.ReflTransGen Shortens ⟨isAbsolute, done.reverse ++ segments⟩
        ⟨isAbsolute, (segments.foldl (cleanStep isAbsolute) done).reverse⟩ := by
    induction segments with
    | nil =>
        intro done _
        rw [List.append_nil]
        exact .refl
    | cons s segments ih =>
        intro done hdone
        refine (reduces_cleanStep isAbsolute hdone s segments).trans (ih ?_ _ ?_)
        · exact fun n hn => h n (List.mem_cons_of_mem s hn)
        · intro n hn
          rcases mem_cleanStep hn with hn | hn
          · exact hdone n hn
          · exact h n (hn ▸ List.mem_cons_self)
  exact hstack [] nofun

lemma clean_eq_of_reduces (h : Relation.ReflTransGen Shortens p q) : p.clean = q.clean := by
  induction h with
  | refl => rfl
  | tail _ hstep ih => rw [ih, hstep.clean_eq]

/-- The paths in normal form are their own normal forms. -/
lemma Named.clean_eq_self_iff (h : p.Named) : p.clean = p ↔ p.IsNormal := by
  constructor
  · intro hclean
    rw [← hclean]
    exact h.isNormal_clean
  · intro hnormal
    rcases Relation.ReflTransGen.cases_head h.reduces_clean with hclean | ⟨_, hstep, -⟩
    · exact hclean.symm
    · exact absurd hstep hnormal.not_shortens

/-- A path leads from the normal form of a directory to where it leads from the directory. -/
lemma Named.clean_join (h : p.Named) (q : Path) : (p.clean.join q).clean = (p.join q).clean := by
  cases hq : q.isAbsolute with
  | true => rw [join, join, if_pos hq, if_pos hq]
  | false =>
      have hreduces : Relation.ReflTransGen Shortens (p.join q) (p.clean.join q) :=
        Relation.ReflTransGen.lift (fun r => r.join q) (fun _ _ hstep => hstep.join hq) _ _
          h.reduces_clean
      exact (clean_eq_of_reduces hreduces).symm

/-! ## Texts -/

lemma parse_cleanText (a : String) : parse (cleanText a) = (parse a).clean :=
  parse_toText (named_parse a).clean

/-- The text of the path `b` taken from the directory `a`.  A slash is put between the two unless one is
there. -/
def joinText (a b : String) : String :=
  if b.toList.head? = some '/' then b
  else if a.toList = [] ∨ a.toList.getLast? = some '/' then a ++ b
  else a ++ "/" ++ b

/-- What is behind a slash adds its steps to those of what is before. -/
lemma parse_eq_of_slash {a b joined : String} {front : List Char}
    (hfirst : joined.toList.head? = a.toList.head?)
    (ha : (a.toList.splitOn '/').filterMap segment? = (front.splitOn '/').filterMap segment?)
    (hjoined : joined.toList = front ++ '/' :: b.toList) :
    parse joined = ⟨(parse a).isAbsolute, (parse a).segments ++ (parse b).segments⟩ := by
  rw [parse, parse, parse, hfirst, ha, hjoined, List.splitOn_append_cons_self,
    List.filterMap_append]

lemma parse_joinText (a b : String) : parse (joinText a b) = (parse a).join (parse b) := by
  by_cases hb : b.toList.head? = some '/'
  · have habsolute : (parse b).isAbsolute = true := decide_eq_true hb
    rw [joinText, if_pos hb, join, if_pos habsolute]
  have hrelative : (parse b).isAbsolute ≠ true := by simpa [parse] using hb
  rw [join, if_neg hrelative]
  by_cases hnil : a.toList = []
  · rw [joinText, if_neg hb, if_pos (Or.inl hnil)]
    simp [parse, segment?, hnil, hb]
  by_cases hslash : a.toList.getLast? = some '/'
  · obtain ⟨front, hfront⟩ := List.getLast?_eq_some_iff.1 hslash
    have hjoined : (joinText a b).toList = a.toList ++ b.toList := by
      rw [joinText, if_neg hb, if_pos (Or.inr hslash), String.toList_append]
    refine @parse_eq_of_slash a b _ front ?_ ?_ ?_
    · rw [hjoined, List.head?_append_of_ne_nil _ hnil]
    · rw [hfront, List.splitOn_append_cons_self, List.filterMap_append]
      exact List.append_nil _
    · rw [hjoined, hfront, List.append_assoc]
      rfl
  · have hjoined : (joinText a b).toList = a.toList ++ '/' :: b.toList := by
      rw [joinText, if_neg hb, if_neg (not_or.2 ⟨hnil, hslash⟩), String.toList_append,
        String.toList_append, List.append_assoc]
      rfl
    refine @parse_eq_of_slash a b _ a.toList ?_ rfl hjoined
    rw [hjoined, List.head?_append_of_ne_nil _ hnil]

/-! ## Rewriting texts -/

/-- The texts name one path, or the second names the path of the first made shorter. -/
def Rewrites (a b : String) : Prop := parse a = parse b ∨ Shortens (parse a) (parse b)

lemma Rewrites.cleanText_eq {a b : String} (h : Rewrites a b) : cleanText a = cleanText b := by
  rcases h with h | h
  · rw [cleanText, cleanText, h]
  · rw [cleanText, cleanText, h.clean_eq]

/-- A text can be rewritten to that of the normal form. -/
lemma reduces_cleanText (a : String) : Relation.ReflTransGen Rewrites a (cleanText a) := by
  have hpath : ∀ p, Relation.ReflTransGen Shortens (parse a) p →
      p.Named ∧ Relation.ReflTransGen Rewrites a p.toText := by
    intro p h
    induction h with
    | refl => exact ⟨named_parse a, .single (Or.inl (parse_toText (named_parse a)).symm)⟩
    | @tail q r _ hstep ih =>
        obtain ⟨hq, hreduces⟩ := ih
        have hr := hstep.named hq
        refine ⟨hr, hreduces.tail (Or.inr ?_)⟩
        rwa [parse_toText hq, parse_toText hr]
  exact (hpath _ (named_parse a).reduces_clean).2

/-- Two texts have one normal form if they can be rewritten to each other, there and back. -/
lemma cleanText_eq_iff {a b : String} :
    cleanText a = cleanText b ↔ Relation.EqvGen Rewrites a b := by
  constructor
  · intro h
    have ha := Relation.EqvGen.reflTransGen_le_eqvGen Rewrites _ _ (reduces_cleanText a)
    have hb := Relation.EqvGen.reflTransGen_le_eqvGen Rewrites _ _ (reduces_cleanText b)
    rw [← h] at hb
    exact ha.trans _ _ _ (hb.symm _ _)
  · intro h
    induction h with
    | rel _ _ hstep => exact hstep.cleanText_eq
    | refl _ => rfl
    | symm _ _ _ ih => exact ih.symm
    | trans _ _ _ _ _ ih ih' => exact ih.trans ih'

/-- **The normal form is canonical.**  What is read back from the text of a normal form is in normal form,
absolute as before, and its own normal form.  A directory can be replaced by its normal form before a path
is taken from it.  And two texts have one normal form exactly if they are joined by dropping steps that
stay, steps down with the steps up behind them, and steps up from the root. -/
theorem cleanText_canonical :
    (∀ a : String, (parse (cleanText a)).IsNormal
      ∧ (parse (cleanText a)).isAbsolute = (parse a).isAbsolute
      ∧ parse (cleanText a) = (parse a).clean
      ∧ cleanText (cleanText a) = cleanText a)
    ∧ (∀ a b : String, cleanText (joinText (cleanText a) b) = cleanText (joinText a b))
    ∧ ∀ a b : String, cleanText a = cleanText b ↔ Relation.EqvGen Rewrites a b := by
  refine ⟨fun a => ?_, fun a b => ?_, fun a b => cleanText_eq_iff⟩
  · rw [parse_cleanText]
    exact ⟨(named_parse a).isNormal_clean, rfl, rfl, (named_parse a).cleanText_clean⟩
  · have hclean : (parse (joinText (cleanText a) b)).clean = (parse (joinText a b)).clean := by
      rw [parse_joinText, parse_joinText, parse_cleanText]
      exact (named_parse a).clean_join (parse b)
    exact congrArg toText hclean

example : cleanText "../x//./../../a/." = "../../a" := by decide

end RpcSchema.Path
