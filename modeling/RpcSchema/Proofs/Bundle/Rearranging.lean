import Mathlib.Data.List.Count
import RpcSchema.Proofs.Bundle.Traversal
import RpcSchema.Proofs.Schema.Editing

/-!
# Imports in another order

The order in which files are entered, and with it the order of the merged statements, follows the
order of the imports.  If the paths that files import are put in another order among their imports,
then a traversal still reaches the same files, and each contributes its own statements in their
order.  So the statements are the same ones, and come in another order only
(`Library.Rearranges.block_perm`).

* `Schema.Rearranges` is a schema with the paths of its imports in another order; the places may
  differ too.
* `Library.Rearranges` is a library whose files are rearranged, each by itself.
-/

namespace RpcSchema

/-! ## Schemas -/

/-- The schemas are the same but for places and for the order of the paths that they import. -/
structure Schema.Rearranges (s t : Schema) : Prop where
  alike : Edit.inFile.pathless.schema s = Edit.inFile.pathless.schema t
  paths : (s.imports.map (·.path)).Perm (t.imports.map (·.path))

namespace Schema

variable {s t : Schema}

lemma Rearranges.refl (s : Schema) : s.Rearranges s := ⟨rfl, .refl _⟩

lemma Rearranges.symm (h : s.Rearranges t) : t.Rearranges s := ⟨h.alike.symm, h.paths.symm⟩

lemma mem_imports {i : ImportStatement} : i ∈ s.imports ↔ .imports i ∈ s.statements := by
  rw [imports, List.mem_filterMap]
  constructor
  · rintro ⟨statement, hmem, himport⟩
    exact Statement.eq_imports_of_import? himport ▸ hmem
  · intro hmem
    exact ⟨_, hmem, rfl⟩

/-- A schema that is rearranged imports the same paths. -/
lemma Rearranges.exists_import (h : s.Rearranges t) {i : ImportStatement}
    (hi : .imports i ∈ s.statements) : ∃ j, .imports j ∈ t.statements ∧ j.path = i.path := by
  obtain ⟨j, hj, hpath⟩ := List.mem_map.1
    (h.paths.mem_iff.1 (List.mem_map_of_mem (mem_imports.2 hi)))
  exact ⟨j, mem_imports.1 hj, hpath⟩

/-- What a schema says beside its imports, whatever edit forgets about it. -/
lemma map_filter_import? (e : Edit) (statements : List Statement) :
    (statements.filter (·.import?.isNone)).map e.statement
      = (statements.map e.pathless.statement).filter (·.import?.isNone) := by
  have hkept : ∀ t : Statement, (e.pathless.statement t).import?.isNone = t.import?.isNone := by
    intro t
    rw [Edit.import?_statement, Option.isNone_map]
  rw [List.filter_map]
  simp only [Function.comp_def, hkept]
  refine List.map_congr_left fun t ht => (Edit.statement_pathless ?_).symm
  simpa using (List.mem_filter.1 ht).2

end Schema

/-! ## Libraries -/

namespace Library

/-- Each file of a library is rearranged, and what cannot be loaded still cannot. -/
def Rearranges (library library' : Library) : Prop :=
  ∀ file, Option.Rel (fun us vs => Schema.Rearranges ⟨us⟩ ⟨vs⟩) (library file) (library' file)

variable {library library' : Library}

lemma Rearranges.symm (h : library.Rearranges library') : library'.Rearranges library := by
  intro file
  have hfile := h file
  revert hfile
  generalize library file = us, library' file = vs
  rintro (hrearranges | _)
  · exact .some hrearranges.symm
  · exact .none

lemma Rearranges.imports (h : library.Rearranges library') {file target : String}
    (himports : library.Imports file target) : library'.Imports file target := by
  obtain ⟨us, i, hfile, hi, rfl⟩ := himports
  have hrel := h file
  rw [hfile] at hrel
  generalize hvs : library' file = vs at hrel
  cases hrel with
  | some hrearranges =>
      obtain ⟨j, hj, hpath⟩ := hrearranges.exists_import hi
      exact ⟨_, j, hvs, hj, by rw [hpath]⟩

lemma Rearranges.reaches (h : library.Rearranges library') {avoided : List String}
    {start file : String} (hreaches : library.Reaches avoided start file) :
    library'.Reaches avoided start file := by
  induction hreaches with
  | start hnew => exact .start hnew
  | step _ himports hnew ih => exact .step ih (h.imports himports) hnew

lemma Rearranges.reaches_iff (h : library.Rearranges library') {avoided : List String}
    {start file : String} :
    library'.Reaches avoided start file ↔ library.Reaches avoided start file :=
  ⟨h.symm.reaches, h.reaches⟩

lemma Rearranges.isSome_iff (h : library.Rearranges library') (file : String) :
    (library' file).isSome = true ↔ (library file).isSome = true := by
  have hrel := h file
  generalize library file = us, library' file = vs at hrel
  cases hrel <;> simp

/-- A file has the same statements of its own. -/
lemma Rearranges.map_own (h : library.Rearranges library') (file : String) :
    (library'.own file).map Edit.inFile.statement = (library.own file).map Edit.inFile.statement := by
  have hrel := h file
  rw [own, own]
  generalize library file = us, library' file = vs at hrel
  cases hrel with
  | none => rfl
  | some hrearranges =>
      have halike := congrArg Schema.statements hrearranges.alike
      rw [Option.getD_some, Option.getD_some, Schema.map_filter_import?, Schema.map_filter_import?]
      exact congrArg _ halike.symm

/-! ## Blocks -/

/-- Statements that are the same from each file are the same up to their order. -/
lemma perm_of_ofFile {us vs : List Statement} (h : ∀ file, ofFile file us = ofFile file vs) :
    us.Perm vs := by
  classical
  refine List.perm_iff_count.2 fun t => ?_
  have hcount := congrArg (List.count t) (h t.span.file)
  rwa [ofFile, ofFile, List.count_filter (by simp), List.count_filter (by simp)] at hcount

lemma ofFile_map_inFile (file : String) (statements : List Statement) :
    ofFile file (statements.map Edit.inFile.statement)
      = (ofFile file statements).map Edit.inFile.statement := by
  rw [ofFile, List.filter_map]
  simp only [Function.comp_def, Edit.span_statement]
  rfl

/-- **A block of rearranged files has the same statements**, from the same files. -/
theorem Rearranges.block_perm (h : library.Rearranges library') (hplaced : library.Placed)
    (hplaced' : library'.Placed) {path : String} {block block' : List Statement}
    {entered entered' : List String} (henters : library.Enters [] path block entered)
    (henters' : library'.Enters [] path block' entered') :
    (block'.map Edit.inFile.statement).Perm (block.map Edit.inFile.statement) := by
  refine perm_of_ofFile fun file => ?_
  rw [ofFile_map_inFile, ofFile_map_inFile]
  have hspec := henters.block_spec hplaced file
  have hspec' := henters'.block_spec hplaced' file
  rw [h.reaches_iff] at hspec'
  by_cases hreached : library.Reaches [] path file
  · rw [hspec.1 hreached, hspec'.1 hreached, h.map_own]
  · rw [hspec.2 hreached, hspec'.2 hreached]

end Library

end RpcSchema
