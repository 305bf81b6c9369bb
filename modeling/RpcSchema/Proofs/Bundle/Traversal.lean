import RpcSchema.Bundle.Import
import Mathlib.Tactic.Lemma

/-!
# Traversing imports

Files import each other in any way, in circles too.  `Enters` is how they are traversed, without a
bound for the depth: which block of statements stands for a path, given the paths that were entered
before, and which paths were entered after it.  It is read off three facts: a path that was entered adds
nothing, one that cannot be loaded adds nothing but counts as entered, and one that can be loaded is
entered and then its statements are gone through in order, each import in its place.

**What a traversal enters.**  A path is entered at once, long before what it imports is done, so a
traversal that meets a path again may be inside of it.  Still it enters what one would expect:
`Enters.entered_iff` says that the new paths are exactly those reached from its target through files
that can be loaded without passing through a path that was entered before.  One half is by induction
on the traversal.  For the other half a traversal leaves no gap: whatever a new path imports was
entered in the end (`Enters.closed`).

**What a block consists of.**  Every new path contributes its own statements once, in order, and no other
path contributes anything (`Enters.ofFile_block`).  A block that is put in place of an import stands
between what comes before and behind the import (`Enters.around_import`).
-/

namespace RpcSchema

lemma Statement.eq_imports_of_import? {s : Statement} {i : ImportStatement} (h : s.import? = some i) :
    s = .imports i := by
  cases s <;> cases h
  rfl

/-- What can be loaded: the statements of the file at a path. -/
abbrev Library := String → Option (List Statement)

namespace Library

variable {library : Library}

/-- The statements of a file that are no imports; none, if it cannot be loaded. -/
def own (library : Library) (file : String) : List Statement :=
  ((library file).getD []).filter (·.import?.isNone)

/-- The file at a path imports another path. -/
def Imports (library : Library) (file target : String) : Prop :=
  ∃ statements i, library file = some statements ∧ .imports i ∈ statements
    ∧ target = Path.resolve file i.path

instance (library : Library) (file target : String) : Decidable (library.Imports file target) :=
  decidable_of_iff ((library file).any (·.any fun s =>
      s.import?.any fun i => target = Path.resolve file i.path) = true) <| by
    simp only [Option.any_eq_true, List.any_eq_true, decide_eq_true_eq, Imports]
    constructor
    · rintro ⟨statements, hfile, s, hs, i, himport, htarget⟩
      cases s <;> cases himport
      exact ⟨statements, i, hfile, hs, htarget⟩
    · rintro ⟨statements, i, hfile, hi, htarget⟩
      exact ⟨statements, hfile, .imports i, hi, i, rfl, htarget⟩

/-- A path is reached from another one through files that can be loaded, without passing through any of
the given paths. -/
inductive Reaches (library : Library) (avoided : List String) (start : String) : String → Prop where
  | start : start ∉ avoided → Reaches library avoided start start
  | step {file target : String} : Reaches library avoided start file →
      library.Imports file target → target ∉ avoided → Reaches library avoided start target

mutual

/-- The block of statements that stands for a path, and the paths that were entered before and after. -/
inductive Enters (library : Library) : List String → String → List Statement → List String → Prop where
  | again {entered : List String} {path : String} : path ∈ entered →
      Enters library entered path [] entered
  | failed {entered : List String} {path : String} : path ∉ entered → library path = none →
      Enters library entered path [] (entered ++ [path])
  | loaded {entered entered' : List String} {path : String} {statements block : List Statement} :
      path ∉ entered → library path = some statements →
      Splices library (entered ++ [path]) path statements block entered' →
      Enters library entered path block entered'

/-- The statements of a file with every import replaced by the block that stands for its target. -/
inductive Splices (library : Library) :
    List String → String → List Statement → List Statement → List String → Prop where
  | nil {entered : List String} {file : String} : Splices library entered file [] [] entered
  | imports {entered between entered' : List String} {file : String} {i : ImportStatement}
      {rest block behind : List Statement} :
      Enters library entered (Path.resolve file i.path) block between →
      Splices library between file rest behind entered' →
      Splices library entered file (.imports i :: rest) (block ++ behind) entered'
  | other {entered entered' : List String} {file : String} {s : Statement}
      {rest behind : List Statement} :
      s.import? = none → Splices library entered file rest behind entered' →
      Splices library entered file (s :: rest) (s :: behind) entered'

end

variable {entered entered' : List String} {path file f : String} {statements block : List Statement}

/-! ## What a traversal enters -/

lemma eq_of_mem_entered (hmem : f ∈ entered ++ [path]) (hnew : f ∉ entered) : f = path := by
  rcases List.mem_append.1 hmem with hmem | hmem
  · exact absurd hmem hnew
  · exact List.mem_singleton.1 hmem

mutual

lemma Enters.subset : ∀ {entered path block entered'},
    Enters library entered path block entered' → entered ⊆ entered'
  | _, _, _, _, .again _ => List.Subset.refl _
  | _, _, _, _, .failed _ _ => List.subset_append_left _ _
  | _, _, _, _, .loaded _ _ h => List.Subset.trans (List.subset_append_left _ _) h.subset

lemma Splices.subset : ∀ {entered file statements block entered'},
    Splices library entered file statements block entered' → entered ⊆ entered'
  | _, _, _, _, _, .nil => List.Subset.refl _
  | _, _, _, _, _, .imports h hrest => List.Subset.trans h.subset hrest.subset
  | _, _, _, _, _, .other _ hrest => hrest.subset

end

lemma Enters.mem (h : Enters library entered path block entered') : path ∈ entered' := by
  cases h with
  | again hmem => exact hmem
  | failed => exact List.mem_append_right _ List.mem_cons_self
  | loaded _ _ h => exact h.subset (List.mem_append_right _ List.mem_cons_self)

/-- What a file imports was entered when its statements are done. -/
lemma Splices.target_mem {statements : List Statement}
    (h : Splices library entered file statements block entered') {i : ImportStatement}
    (hi : .imports i ∈ statements) : Path.resolve file i.path ∈ entered' := by
  induction statements generalizing entered block with
  | nil => cases hi
  | cons s rest ih =>
      cases h with
      | imports hblock hrest =>
          rcases List.mem_cons.1 hi with hi | hi
          · cases hi
            exact hrest.subset hblock.mem
          · exact ih hrest hi
      | other hnone hrest =>
          rcases List.mem_cons.1 hi with rfl | hi
          · cases hnone
          · exact ih hrest hi

mutual

/-- No gaps are left: what a new path imports was entered in the end. -/
lemma Enters.closed : ∀ {entered path block entered'},
    Enters library entered path block entered' → ∀ f target, f ∈ entered' → f ∉ entered →
      library.Imports f target → target ∈ entered'
  | _, _, _, _, .again _ => fun _ _ hmem hnew _ => absurd hmem hnew
  | _, _, _, _, .failed _ hnone => by
      intro f target hmem hnew hf
      obtain ⟨statements, i, hsome, _⟩ := hf
      rw [eq_of_mem_entered hmem hnew, hnone] at hsome
      cases hsome
  | entered, path, _, _, .loaded _ hsome h => by
      intro f target hmem hnew hf
      by_cases hpath : f = path
      · subst hpath
        obtain ⟨statements, i, hsome', hi, rfl⟩ := hf
        rw [hsome] at hsome'
        cases hsome'
        exact h.target_mem hi
      · exact h.closed f target hmem (fun hc => hpath (eq_of_mem_entered hc hnew)) hf

lemma Splices.closed : ∀ {entered file statements block entered'},
    Splices library entered file statements block entered' → ∀ f target, f ∈ entered' →
      f ∉ entered → library.Imports f target → target ∈ entered'
  | _, _, _, _, _, .nil => fun _ _ hmem hnew _ => absurd hmem hnew
  | _, _, _, _, _, @Splices.imports _ _ between _ _ _ _ _ _ h hrest => by
      intro f target hmem hnew hf
      by_cases hbetween : f ∈ between
      · exact hrest.subset (h.closed f target hbetween hnew hf)
      · exact hrest.closed f target hmem hbetween hf
  | _, _, _, _, _, .other _ hrest => fun f target hmem hnew hf =>
      hrest.closed f target hmem hnew hf

end

lemma Reaches.mono {avoided avoided' : List String} {start f : String} (hsub : avoided ⊆ avoided')
    (h : Reaches library avoided' start f) : Reaches library avoided start f := by
  induction h with
  | start hnew => exact .start fun hc => hnew (hsub hc)
  | step _ himports hnew ih => exact .step ih himports fun hc => hnew (hsub hc)

/-- A file reaches what a file that it imports reaches. -/
lemma Reaches.head {avoided : List String} {start target f : String} (hstart : start ∉ avoided)
    (himports : library.Imports start target) (h : Reaches library avoided target f) :
    Reaches library avoided start f := by
  induction h with
  | start hnew => exact .step (.start hstart) himports hnew
  | step _ himports hnew ih => exact .step ih himports hnew

mutual

/-- Every new path is reached without passing through a path that was entered before. -/
lemma Enters.reaches : ∀ {entered path block entered'},
    Enters library entered path block entered' → ∀ f, f ∈ entered' → f ∉ entered →
      Reaches library entered path f
  | _, _, _, _, .again _ => fun _ hmem hnew => absurd hmem hnew
  | _, _, _, _, .failed hpath _ => by
      intro f hmem hnew
      rw [eq_of_mem_entered hmem hnew]
      exact .start hpath
  | entered, path, _, _, .loaded hpath hsome h => by
      intro f hmem hnew
      by_cases hf : f = path
      · subst hf
        exact .start hpath
      · have hnew' : f ∉ entered ++ [path] := fun hc => hf (eq_of_mem_entered hc hnew)
        obtain ⟨i, hi, hreaches⟩ := h.reaches f hmem hnew'
        exact .head hpath ⟨_, i, hsome, hi, rfl⟩ (hreaches.mono (List.subset_append_left _ _))

lemma Splices.reaches : ∀ {entered file statements block entered'},
    Splices library entered file statements block entered' → ∀ f, f ∈ entered' → f ∉ entered →
      ∃ i, .imports i ∈ statements ∧ Reaches library entered (Path.resolve file i.path) f
  | _, _, _, _, _, .nil => fun _ hmem hnew => absurd hmem hnew
  | _, _, _, _, _, @Splices.imports _ _ between _ _ i _ _ _ h hrest => by
      intro f hmem hnew
      by_cases hbetween : f ∈ between
      · exact ⟨i, List.mem_cons_self, h.reaches f hbetween hnew⟩
      · obtain ⟨j, hj, hreaches⟩ := hrest.reaches f hmem hbetween
        exact ⟨j, List.mem_cons_of_mem _ hj, hreaches.mono h.subset⟩
  | _, _, _, _, _, .other _ hrest => by
      intro f hmem hnew
      obtain ⟨j, hj, hreaches⟩ := hrest.reaches f hmem hnew
      exact ⟨j, List.mem_cons_of_mem _ hj, hreaches⟩

end

/-- **What is entered.**  The paths that a traversal enters are those that its target reaches without
passing through a path that was entered before. -/
lemma Enters.entered_iff (h : Enters library entered path block entered') :
    (f ∈ entered' ∧ f ∉ entered) ↔ Reaches library entered path f := by
  constructor
  · rintro ⟨hmem, hnew⟩
    exact h.reaches f hmem hnew
  · intro hf
    induction hf with
    | start hnew => exact ⟨h.mem, hnew⟩
    | step _ himports hnew ih => exact ⟨h.closed _ _ ih.1 ih.2 himports, hnew⟩

/-! ## What a block consists of -/

/-- The statements of each file say that they are from it. -/
def Placed (library : Library) : Prop :=
  ∀ {file statements}, library file = some statements → ∀ s ∈ statements, s.span.file = file

/-- The statements of a list that are from a file. -/
def ofFile (file : String) (statements : List Statement) : List Statement :=
  statements.filter (·.span.file = file)

lemma ofFile_append (us vs : List Statement) :
    ofFile f (us ++ vs) = ofFile f us ++ ofFile f vs := List.filter_append ..

lemma own_of_some (h : library path = some statements) :
    library.own path = statements.filter (·.import?.isNone) := by
  rw [own, h, Option.getD_some]

lemma own_of_none (h : library path = none) : library.own path = [] := by
  rw [own, h]
  rfl

mutual

/-- Each new path contributes its own statements to a block, and no other path contributes any. -/
lemma Enters.ofFile_block (hplaced : library.Placed) : ∀ {entered path block entered'},
    Enters library entered path block entered' → ∀ f,
      ofFile f block = if f ∈ entered' ∧ f ∉ entered then library.own f else []
  | _, _, _, _, .again _ => by
      intro f
      rw [if_neg (fun hc => hc.2 hc.1)]
      rfl
  | entered, path, _, _, .failed _ hnone => by
      intro f
      by_cases hf : f = path
      · rw [hf, own_of_none hnone, ite_self]
        rfl
      · have hold : ¬ (f ∈ entered ++ [path] ∧ f ∉ entered) :=
          fun hc => hf (eq_of_mem_entered hc.1 hc.2)
        rw [if_neg hold]
        rfl
  | entered, path, _, entered', .loaded hpath hsome h => by
      intro f
      have hfile : path ∈ entered ++ [path] := List.mem_append_right _ List.mem_cons_self
      rw [h.ofFile_block hplaced hfile (hplaced hsome) f]
      by_cases hf : f = path
      · rw [if_pos hf, hf, if_pos ⟨h.subset hfile, hpath⟩, own_of_some hsome]
      · have hiff : (f ∈ entered' ∧ f ∉ entered ++ [path]) ↔ (f ∈ entered' ∧ f ∉ entered) := by
          simp [hf]
        simp only [if_neg hf, hiff]

lemma Splices.ofFile_block (hplaced : library.Placed) : ∀ {entered file statements block entered'},
    Splices library entered file statements block entered' → file ∈ entered →
      (∀ s ∈ statements, s.span.file = file) → ∀ f,
      ofFile f block = if f = file then statements.filter (·.import?.isNone)
        else if f ∈ entered' ∧ f ∉ entered then library.own f else []
  | entered, file, _, _, _, .nil => by
      intro hfile _ f
      have hold : ¬ (f ∈ entered ∧ f ∉ entered) := fun hc => hc.2 hc.1
      rw [if_neg hold, List.filter_nil, ite_self]
      rfl
  | entered, file, _, _, entered', @Splices.imports _ _ between _ _ i rest _ _ h hrest => by
      intro hfile hspans f
      have hspans' := fun s hs => hspans s (List.mem_cons_of_mem (Statement.imports i) hs)
      rw [ofFile_append, h.ofFile_block hplaced f,
        hrest.ofFile_block hplaced (h.subset hfile) hspans' f]
      by_cases hf : f = file
      · have hold : ¬ (f ∈ between ∧ f ∉ entered) := fun hc => hc.2 (hf ▸ hfile)
        rw [if_neg hold, if_pos hf, if_pos hf, List.nil_append]
        rfl
      · have hsub₁ : f ∈ entered → f ∈ between := fun hc => h.subset hc
        have hsub₂ : f ∈ between → f ∈ entered' := fun hc => hrest.subset hc
        rw [if_neg hf, if_neg hf]
        by_cases hold : f ∈ entered
        · simp [hold, hsub₁ hold]
        · by_cases hbetween : f ∈ between
          · simp [hold, hbetween, hsub₂ hbetween]
          · simp [hold, hbetween]
  | entered, file, _, _, entered', @Splices.other _ _ _ _ s rest _ hnone hrest => by
      intro hfile hspans f
      have hspans' := fun t ht => hspans t (List.mem_cons_of_mem s ht)
      have hs : s.span.file = file := hspans s List.mem_cons_self
      have hrest := hrest.ofFile_block hplaced hfile hspans' f
      by_cases hf : f = file
      · rw [if_pos hf] at hrest ⊢
        rw [ofFile, List.filter_cons_of_pos (by simp [hs, hf]),
          List.filter_cons_of_pos (by simp [hnone]), ← hrest]
        rfl
      · rw [if_neg hf] at hrest ⊢
        rw [ofFile, List.filter_cons_of_neg (by simp [hs, Ne.symm hf]), ← hrest]
        rfl

end

mutual

/-- No import is left in a block. -/
lemma Enters.import?_block : ∀ {entered path block entered'},
    Enters library entered path block entered' → ∀ s ∈ block, s.import? = none
  | _, _, _, _, .again _ => nofun
  | _, _, _, _, .failed _ _ => nofun
  | _, _, _, _, .loaded _ _ h => h.import?_block

lemma Splices.import?_block : ∀ {entered file statements block entered'},
    Splices library entered file statements block entered' → ∀ s ∈ block, s.import? = none
  | _, _, _, _, _, .nil => nofun
  | _, _, _, _, _, .imports h hrest => by
      intro s hs
      rcases List.mem_append.1 hs with hs | hs
      · exact h.import?_block s hs
      · exact hrest.import?_block s hs
  | _, _, _, _, _, .other hnone hrest => by
      intro s hs
      rcases List.mem_cons.1 hs with rfl | hs
      · exact hnone
      · exact hrest.import?_block s hs

end

/-- **What a block consists of.**  The files that are reached without passing through a path that was
entered before contribute their own statements, in order; no other file contributes any. -/
theorem Enters.block_spec (hplaced : library.Placed)
    (h : Enters library entered path block entered') (f : String) :
    (Reaches library entered path f → ofFile f block = library.own f)
      ∧ (¬ Reaches library entered path f → ofFile f block = []) := by
  rw [h.ofFile_block hplaced f, ← h.entered_iff]
  exact ⟨fun hc => if_pos hc, fun hc => if_neg hc⟩

/-! ## The order -/

mutual

/-- There is one way to traverse. -/
lemma Enters.unique : ∀ {entered path block entered'},
    Enters library entered path block entered' → ∀ {block₂ entered₂},
      Enters library entered path block₂ entered₂ → block = block₂ ∧ entered' = entered₂
  | _, _, _, _, .again hmem => by
      intro h₂
      cases h₂ with
      | again => exact ⟨rfl, rfl⟩
      | failed hnew => exact absurd hmem hnew
      | loaded hnew => exact absurd hmem hnew
  | _, _, _, _, .failed hnew hnone => by
      intro h₂
      cases h₂ with
      | again hmem => exact absurd hmem hnew
      | failed => exact ⟨rfl, rfl⟩
      | loaded _ hsome =>
          rw [hnone] at hsome
          cases hsome
  | _, _, _, _, .loaded hnew hsome h => by
      intro h₂
      cases h₂ with
      | again hmem => exact absurd hmem hnew
      | failed _ hnone =>
          rw [hnone] at hsome
          cases hsome
      | loaded _ hsome₂ h₂ =>
          rw [hsome] at hsome₂
          cases hsome₂
          exact h.unique h₂

lemma Splices.unique : ∀ {entered file statements block entered'},
    Splices library entered file statements block entered' → ∀ {block₂ entered₂},
      Splices library entered file statements block₂ entered₂ →
        block = block₂ ∧ entered' = entered₂
  | _, _, _, _, _, .nil => by
      intro h₂
      cases h₂
      exact ⟨rfl, rfl⟩
  | _, _, _, _, _, .imports h hrest => by
      intro h₂
      cases h₂ with
      | imports h₂ hrest₂ =>
          obtain ⟨rfl, rfl⟩ := h.unique h₂
          obtain ⟨rfl, rfl⟩ := hrest.unique hrest₂
          exact ⟨rfl, rfl⟩
      | other hnone => cases hnone
  | _, _, _, _, _, .other hnone hrest => by
      intro h₂
      cases h₂ with
      | imports => cases hnone
      | other _ hrest₂ =>
          obtain ⟨rfl, rfl⟩ := hrest.unique hrest₂
          exact ⟨rfl, rfl⟩

end

/-- Statements that follow each other are gone through one part after the other. -/
lemma Splices.of_append {us vs : List Statement}
    (h : Splices library entered file (us ++ vs) block entered') : ∃ front back between,
      block = front ++ back ∧ Splices library entered file us front between
        ∧ Splices library between file vs back entered' := by
  induction us generalizing entered block with
  | nil => exact ⟨[], block, entered, rfl, .nil, h⟩
  | cons s us ih =>
      cases h with
      | imports hblock hrest =>
          obtain ⟨front, back, between, rfl, hfront, hback⟩ := ih hrest
          exact ⟨_ ++ front, back, between, (List.append_assoc ..).symm, .imports hblock hfront, hback⟩
      | other hnone hrest =>
          obtain ⟨front, back, between, rfl, hfront, hback⟩ := ih hrest
          exact ⟨s :: front, back, between, rfl, .other hnone hfront, hback⟩

/-- **Where a block stands.**  What stands for a file's import is between what stands for the statements
before it and what stands for those behind it, and consists of the files that are new by then. -/
theorem Enters.around_import (hplaced : library.Placed)
    (h : Enters library entered file block entered') (hnew : file ∉ entered)
    {us vs : List Statement} {i : ImportStatement}
    (hfile : library file = some (us ++ .imports i :: vs)) :
    ∃ front middle back before behind, block = front ++ middle ++ back
      ∧ Splices library (entered ++ [file]) file us front before
      ∧ Splices library behind file vs back entered'
      ∧ Enters library before (Path.resolve file i.path) middle behind
      ∧ ofFile file front = us.filter (·.import?.isNone)
      ∧ ofFile file back = vs.filter (·.import?.isNone)
      ∧ ∀ f, (Reaches library before (Path.resolve file i.path) f → ofFile f middle = library.own f)
        ∧ (¬ Reaches library before (Path.resolve file i.path) f → ofFile f middle = []) := by
  have hspans := hplaced hfile
  cases h with
  | again hmem => exact absurd hmem hnew
  | failed _ hnone =>
      rw [hnone] at hfile
      cases hfile
  | loaded _ hsome h =>
      rw [hfile] at hsome
      cases hsome
      obtain ⟨front, _, before, rfl, hfront, hrest⟩ := h.of_append
      cases hrest with
      | other hnone => cases hnone
      | imports hmiddle hback =>
          have hmem : file ∈ entered ++ [file] := List.mem_append_right _ List.mem_cons_self
          have hus := hfront.ofFile_block hplaced hmem
            (fun s hs => hspans s (List.mem_append_left _ hs)) file
          have hvs := hback.ofFile_block hplaced (hmiddle.subset (hfront.subset hmem))
            (fun s hs => hspans s (List.mem_append_right _ (List.mem_cons_of_mem _ hs))) file
          rw [if_pos rfl] at hus hvs
          exact ⟨front, _, _, before, _, (List.append_assoc ..).symm, hfront, hback, hmiddle, hus, hvs,
            hmiddle.block_spec hplaced⟩

end Library

end RpcSchema
