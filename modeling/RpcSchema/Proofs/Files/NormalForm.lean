import Mathlib.Tactic.Lemma
import RpcSchema.Files.Path

/-!
# The normal form of a path

A path in normal form is steps up and then steps down, and without steps up if it is absolute.  It is
built on a stack, the latest step on top, that always looks like this: names, and below them steps up
(`stack`).

* A path whose names can be read back is read back from its text (`Path.parse_toText`).
* The normal form of an absolute path is steps down from the root, `Path.down`, that of a relative path
  is a `Path.relative` (`Path.clean_eq_down`, `Path.clean_eq_relative`).
* What stands behind the steps up of the last part of a path is kept, and there are only so many steps up
  as what is in front takes in and what comes out shows (`Path.clean_append`).
-/

namespace RpcSchema

/-- A text that can be the name in a step down. -/
def IsName (s : String) : Prop := '/' ∉ s.toList ∧ Path.segment? s.toList = some (.name s)

namespace Segment

/-- Whether a step goes down. -/
def isName : Segment → Bool
  | .name _ => true
  | _ => false

/-- A step whose text stands for it. -/
def IsReadable (s : Segment) : Prop :=
  '/' ∉ s.toText.toList ∧ Path.segment? s.toText.toList = some s

lemma IsReadable.toText_ne_nil {s : Segment} (h : s.IsReadable) : s.toText.toList ≠ [] := by
  intro hnil
  have hread := h.2
  rw [hnil] at hread
  cases hread

end Segment

namespace Path

/-- The steps down of a path have names. -/
def Named (p : Path) : Prop := ∀ s, .name s ∈ p.segments → IsName s

/-- Steps down from the root. -/
def down (names : List String) : Path := ⟨true, names.map .name⟩

/-- Steps up from somewhere and then steps down. -/
def relative (ups : Nat) (names : List String) : Path :=
  ⟨false, List.replicate ups .up ++ names.map .name⟩

variable {p : Path}

lemma named_down {names : List String} (h : ∀ n ∈ names, IsName n) : (down names).Named := by
  intro n hn
  obtain ⟨m, hm, hname⟩ := List.mem_map.1 hn
  cases hname
  exact h n hm

lemma named_relative (ups : Nat) {names : List String} (h : ∀ n ∈ names, IsName n) :
    (relative ups names).Named := by
  intro n hn
  rcases List.mem_append.1 hn with hn | hn
  · cases List.eq_of_mem_replicate hn
  · exact named_down h n hn

lemma Named.append {q : Path} (hp : p.Named) (hq : q.Named) (isAbsolute : Bool) :
    Named ⟨isAbsolute, p.segments ++ q.segments⟩ := by
  intro n hn
  rcases List.mem_append.1 hn with hn | hn
  · exact hp n hn
  · exact hq n hn

/-! ## Reading back -/

lemma Named.isReadable (h : p.Named) : ∀ s ∈ p.segments, s.IsReadable := by
  intro s hs
  cases s with
  | here => exact ⟨by decide, by decide⟩
  | up => exact ⟨by decide, by decide⟩
  | name n => exact h n hs

lemma filterMap_segment?_texts {segments : List Segment} (h : ∀ s ∈ segments, s.IsReadable) :
    (segments.map (·.toText.toList)).filterMap segment? = segments := by
  induction segments with
  | nil => rfl
  | cons s segments ih =>
      rw [List.map_cons, List.filterMap_cons_some (h s List.mem_cons_self).2,
        ih fun t ht => h t (List.mem_cons_of_mem s ht)]

/-- The steps between slashes are read back. -/
lemma filterMap_splitOn_intercalate {segments : List Segment} (h : ∀ s ∈ segments, s.IsReadable) :
    ((['/'].intercalate (segments.map (·.toText.toList))).splitOn '/').filterMap segment?
      = segments := by
  by_cases hnil : segments = []
  · rw [hnil]
    rfl
  · have hmem : ∀ l ∈ segments.map (·.toText.toList), '/' ∉ l := by
      intro l hl
      obtain ⟨s, hs, rfl⟩ := List.mem_map.1 hl
      exact (h s hs).1
    rw [List.splitOn_intercalate '/' hmem (by simpa using hnil), filterMap_segment?_texts h]

/-- A text of steps does not begin with a slash. -/
lemma head?_intercalate_ne {segments : List Segment} (h : ∀ s ∈ segments, s.IsReadable) :
    (['/'].intercalate (segments.map (·.toText.toList))).head? ≠ some '/' := by
  cases segments with
  | nil => simp
  | cons s segments =>
      obtain ⟨hslash, -⟩ := h s List.mem_cons_self
      obtain ⟨c, cs, htext⟩ := List.exists_cons_of_ne_nil
        (h s List.mem_cons_self).toText_ne_nil
      rw [htext] at hslash
      have hc : c ≠ '/' := fun hc => hslash (hc ▸ List.mem_cons_self)
      cases segments <;> simpa [htext, List.intercalate] using hc

lemma toList_toText (p : Path) : p.toText.toList
    = (if p.isAbsolute then ['/'] else [])
      ++ ['/'].intercalate (p.segments.map (·.toText.toList)) := by
  rw [toText, String.toList_append, String.toList_intercalate, List.map_map]
  split <;> rfl

/-- A path is read back from its text. -/
lemma parse_toText (h : p.Named) : parse p.toText = p := by
  obtain ⟨isAbsolute, segments⟩ := p
  have hread := h.isReadable
  rw [parse, toList_toText]
  cases isAbsolute with
  | true =>
      have hsplit := List.splitOn_append_cons_self_of_not_mem (List.not_mem_nil (a := '/'))
        (['/'].intercalate (segments.map (·.toText.toList)))
      rw [List.nil_append] at hsplit
      simp only [if_true, List.singleton_append, List.head?_cons, hsplit, decide_true]
      rw [List.filterMap_cons_none rfl, filterMap_splitOn_intercalate hread]
  | false =>
      have hhead := head?_intercalate_ne hread
      simp only [Bool.false_eq_true, if_false, List.nil_append, hhead, decide_false]
      rw [filterMap_splitOn_intercalate hread]

lemma not_mem_of_mem_splitOn {cs piece : List Char} (h : piece ∈ cs.splitOn '/') : '/' ∉ piece := by
  induction cs generalizing piece with
  | nil =>
      rw [List.splitOn_nil, List.mem_singleton] at h
      rw [h]
      exact List.not_mem_nil
  | cons c cs ih =>
      obtain ⟨first, rest, hsplit⟩ := List.exists_cons_of_ne_nil (List.splitOn_ne_nil '/' cs)
      rw [List.splitOn_cons_eq_if_modifyHead, hsplit] at h
      rw [hsplit] at ih
      split at h
      · rcases List.mem_cons.1 h with rfl | h
        · exact List.not_mem_nil
        · exact ih h
      · next hc =>
          rcases List.mem_cons.1 h with rfl | h
          · intro hmem
            rcases List.mem_cons.1 hmem with rfl | hmem
            · exact hc (beq_self_eq_true _)
            · exact ih List.mem_cons_self hmem
          · exact ih (List.mem_cons_of_mem first h)

lemma named_parse (s : String) : (parse s).Named := by
  intro n hn
  obtain ⟨piece, hpiece, hsegment⟩ := List.mem_filterMap.1 hn
  have hname : String.ofList piece = n := by
    rw [segment?] at hsegment
    split at hsegment
    · cases hsegment
    · split at hsegment
      · cases hsegment
      · split at hsegment
        · cases hsegment
        · exact Segment.name.inj (Option.some.inj hsegment)
  have hlist : n.toList = piece := by rw [← hname, String.toList_ofList]
  rw [← hlist] at hpiece hsegment
  exact ⟨not_mem_of_mem_splitOn hpiece, hsegment⟩

/-! ## The stack -/

@[simp] lemma cleanStep_here (isAbsolute : Bool) (done : List Segment) :
    cleanStep isAbsolute done .here = done := by
  cases done <;> rfl

@[simp] lemma cleanStep_name (isAbsolute : Bool) (done : List Segment) (n : String) :
    cleanStep isAbsolute done (.name n) = .name n :: done := by
  cases done <;> rfl

lemma mem_cleanStep {isAbsolute : Bool} {done : List Segment} {s t : Segment}
    (h : t ∈ cleanStep isAbsolute done s) : t ∈ done ∨ t = s := by
  fun_cases cleanStep isAbsolute done s <;> simp_all [cleanStep, or_comm]

/-- Names, the latest first, above steps up. -/
def stack (ups : Nat) (names : List String) : List Segment :=
  names.map .name ++ List.replicate ups .up

lemma reverse_stack (ups : Nat) (names : List String) :
    (stack ups names).reverse = (relative ups names.reverse).segments := by
  rw [stack, relative, List.reverse_append, List.reverse_replicate, List.map_reverse]

/-- Steps in normal form stay so when a step is added, and at most that step adds a name. -/
lemma cleanStep_stack {isAbsolute : Bool} {ups : Nat} {names : List String} (s : Segment)
    (hs : ∀ n, s = .name n → IsName n) (hnames : ∀ n ∈ names, IsName n)
    (hups : isAbsolute = true → ups = 0) :
    ∃ ups' names', (∀ n ∈ names', IsName n) ∧ (isAbsolute = true → ups' = 0)
      ∧ cleanStep isAbsolute (stack ups names) s = stack ups' names'
      ∧ names'.length ≤ names.length + [s].countP Segment.isName := by
  cases s with
  | here => exact ⟨ups, names, hnames, hups, cleanStep_here isAbsolute _, by simp⟩
  | up =>
      cases names with
      | cons n names =>
          exact ⟨ups, names, fun m hm => hnames m (List.mem_cons_of_mem n hm), hups, rfl,
            by simp [Segment.isName]⟩
      | nil =>
          cases isAbsolute with
          | true =>
              rw [hups rfl]
              exact ⟨0, [], hnames, fun _ => rfl, rfl, by simp⟩
          | false => exact ⟨ups + 1, [], hnames, nofun, by cases ups <;> rfl, by simp⟩
  | name n =>
      refine ⟨ups, n :: names, ?_, hups, cleanStep_name isAbsolute _ n, by simp [Segment.isName]⟩
      intro m hm
      rcases List.mem_cons.1 hm with rfl | hm
      · exact hs m rfl
      · exact hnames m hm

lemma foldl_cleanStep_stack (isAbsolute : Bool) (ups : Nat) {names : List String}
    {segments : List Segment} (hs : ∀ n, .name n ∈ segments → IsName n)
    (hnames : ∀ n ∈ names, IsName n) (hups : isAbsolute = true → ups = 0) :
    ∃ ups' names', (∀ n ∈ names', IsName n) ∧ (isAbsolute = true → ups' = 0)
      ∧ segments.foldl (cleanStep isAbsolute) (stack ups names) = stack ups' names'
      ∧ names'.length ≤ names.length + segments.countP Segment.isName := by
  induction segments generalizing ups names with
  | nil => exact ⟨ups, names, hnames, hups, rfl, by simp⟩
  | cons s segments ih =>
      obtain ⟨ups₁, names₁, hnames₁, hups₁, hstep, hcount₁⟩ :=
        cleanStep_stack s (fun n hn => hs n (by simp [hn])) hnames hups
      obtain ⟨ups₂, names₂, hnames₂, hups₂, hfold, hcount₂⟩ :=
        ih ups₁ (fun n hn => hs n (List.mem_cons_of_mem s hn)) hnames₁ hups₁
      refine ⟨ups₂, names₂, hnames₂, hups₂, by rw [List.foldl_cons, hstep, hfold], ?_⟩
      have hsplit : (s :: segments).countP Segment.isName
          = [s].countP Segment.isName + segments.countP Segment.isName := by
        rw [← List.singleton_append, List.countP_append]
      omega

/-- Names are kept. -/
lemma foldl_cleanStep_names (isAbsolute : Bool) (ups : Nat) (names more : List String) :
    (more.map Segment.name).foldl (cleanStep isAbsolute) (stack ups names)
      = stack ups (more.reverse ++ names) := by
  induction more generalizing names with
  | nil => rfl
  | cons n more ih =>
      have hstep : cleanStep isAbsolute (stack ups names) (.name n) = stack ups (n :: names) :=
        cleanStep_name isAbsolute _ n
      rw [List.map_cons, List.foldl_cons, hstep, ih, List.reverse_cons, List.append_assoc,
        List.singleton_append]

/-- Steps up take back names, and those that are left over add to the steps up below. -/
lemma foldl_cleanStep_ups (count ups : Nat) (names : List String) :
    ∃ ups' names', (List.replicate count Segment.up).foldl (cleanStep false) (stack ups names)
        = stack ups' names' ∧ count + ups ≤ names.length + ups' := by
  induction count generalizing ups names with
  | zero => exact ⟨ups, names, rfl, by omega⟩
  | succ count ih =>
      cases names with
      | cons n names =>
          obtain ⟨ups', names', hfold, hcount⟩ := ih ups names
          exact ⟨ups', names', hfold, by rw [List.length_cons]; omega⟩
      | nil =>
          obtain ⟨ups', names', hfold, hcount⟩ := ih (ups + 1) []
          have hstep : cleanStep false (stack ups []) .up = stack (ups + 1) [] := by
            cases ups <;> rfl
          refine ⟨ups', names', ?_, by omega⟩
          rw [List.replicate_succ, List.foldl_cons, hstep, hfold]

/-! ## The normal form -/

/-- The normal form of a path from the root is steps down. -/
lemma clean_eq_down (hnamed : p.Named) (habsolute : p.isAbsolute = true) :
    ∃ names, (∀ n ∈ names, IsName n) ∧ p.clean = down names := by
  have hnil : ∀ n ∈ ([] : List String), IsName n := nofun
  obtain ⟨ups, names, hnames, hups, hfold, -⟩ :=
    foldl_cleanStep_stack true 0 hnamed hnil fun _ => rfl
  refine ⟨names.reverse, fun n hn => hnames n (List.mem_reverse.1 hn), ?_⟩
  rw [hups rfl] at hfold
  rw [clean, habsolute, show ([] : List Segment) = stack 0 [] from rfl, hfold, reverse_stack]
  rfl

/-- The normal form of a relative path is steps up and then steps down. -/
lemma clean_eq_relative (hnamed : p.Named) (hrelative : p.isAbsolute = false) :
    ∃ ups names, (∀ n ∈ names, IsName n) ∧ p.clean = relative ups names := by
  have hnil : ∀ n ∈ ([] : List String), IsName n := nofun
  obtain ⟨ups, names, hnames, -, hfold, -⟩ :=
    foldl_cleanStep_stack false 0 hnamed hnil nofun
  refine ⟨ups, names.reverse, fun n hn => hnames n (List.mem_reverse.1 hn), ?_⟩
  rw [clean, hrelative, show ([] : List Segment) = stack 0 [] from rfl, hfold, reverse_stack]
  rfl

lemma Named.clean (h : p.Named) : p.clean.Named := by
  cases habsolute : p.isAbsolute with
  | true =>
      obtain ⟨names, hnames, hclean⟩ := clean_eq_down h habsolute
      rw [hclean]
      exact named_down hnames
  | false =>
      obtain ⟨ups, names, hnames, hclean⟩ := clean_eq_relative h habsolute
      rw [hclean]
      exact named_relative ups hnames

lemma clean_down (names : List String) : (down names).clean = down names := by
  have hfold := foldl_cleanStep_names true 0 [] names
  rw [List.append_nil] at hfold
  rw [clean, show ([] : List Segment) = stack 0 [] from rfl, down, hfold, reverse_stack,
    List.reverse_reverse]
  rfl

lemma clean_relative (ups : Nat) (names : List String) :
    (relative ups names).clean = relative ups names := by
  have hups : ∀ count ups, (List.replicate count Segment.up).foldl (cleanStep false) (stack ups [])
      = stack (ups + count) [] := by
    intro count
    induction count with
    | zero => exact fun _ => rfl
    | succ count ih =>
        intro ups
        have hstep : cleanStep false (stack ups []) .up = stack (ups + 1) [] := by cases ups <;> rfl
        rw [List.replicate_succ, List.foldl_cons, hstep, ih, Nat.add_right_comm, Nat.add_assoc]
  have hfold := foldl_cleanStep_names false ups [] names
  rw [List.append_nil] at hfold
  rw [clean, relative, List.foldl_append, show ([] : List Segment) = stack 0 [] from rfl, hups,
    Nat.zero_add, hfold, reverse_stack, List.reverse_reverse]
  rfl

/-- A normal form is its own. -/
lemma Named.clean_clean (h : p.Named) : p.clean.clean = p.clean := by
  cases habsolute : p.isAbsolute with
  | true =>
      obtain ⟨names, -, hclean⟩ := clean_eq_down h habsolute
      rw [hclean, clean_down]
  | false =>
      obtain ⟨ups, names, -, hclean⟩ := clean_eq_relative h habsolute
      rw [hclean, clean_relative]

/-- The text of a normal form names that normal form. -/
lemma Named.cleanText_clean (h : p.Named) : cleanText p.clean.toText = p.clean.toText := by
  rw [cleanText, parse_toText h.clean, h.clean_clean]

/-- The names behind the steps up stay where they are, and each step up takes back a name in front or is
still there. -/
lemma clean_append {front : List Segment} (hfront : ∀ n, .name n ∈ front → IsName n) (ups : Nat)
    (names : List String) : ∃ before,
      (clean ⟨false, front ++ (relative ups names).segments⟩).segments = before ++ names.map .name
        ∧ ups ≤ front.countP Segment.isName + before.length := by
  have hnil : ∀ n ∈ ([] : List String), IsName n := nofun
  obtain ⟨ups₁, names₁, -, -, hfold₁, hcount₁⟩ :=
    foldl_cleanStep_stack false 0 hfront hnil nofun
  obtain ⟨ups₂, names₂, hfold₂, hcount₂⟩ := foldl_cleanStep_ups ups ups₁ names₁
  refine ⟨(stack ups₂ names₂).reverse, ?_, ?_⟩
  · have hfold : (front ++ (relative ups names).segments).foldl (cleanStep false) []
        = stack ups₂ (names.reverse ++ names₂) := by
      rw [relative, List.foldl_append, List.foldl_append, show ([] : List Segment) = stack 0 [] from rfl,
        hfold₁, hfold₂, foldl_cleanStep_names]
    rw [clean, hfold, stack, stack, List.map_append, List.append_assoc, List.reverse_append,
      List.map_reverse, List.reverse_reverse]
  · rw [List.length_reverse, stack, List.length_append, List.length_map, List.length_replicate]
    rw [List.length_nil] at hcount₁
    omega

end Path

end RpcSchema
