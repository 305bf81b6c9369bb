import Mathlib.Data.List.Nodup
import Mathlib.Tactic.Lemma
import RpcSchema.Bundle.Basic

/-!
# What the index of a bundle holds

A name means the first declaration of that name.  `getElem?_firstByName` says so for one namespace; what
else is said here about a name that is looked up follows from it.
-/

namespace RpcSchema

variable {ι : Type}

/-- Declarations that are indexed later never replace one that is there. -/
lemma getElem?_foldl_insertIfNew (decls : List (Declaration ι)) (name : String) :
    ∀ index : NameMap (Declaration ι),
      (decls.foldl (fun index d => index.insertIfNew d.name.text d) index)[name]?
        = index[name]?.or (decls.find? (·.name.text = name)) := by
  induction decls with
  | nil => intro index; simp
  | cons d rest ih =>
      intro index
      rw [List.foldl_cons, ih, Std.ExtTreeMap.getElem?_insertIfNew]
      by_cases hd : d.name.text = name
      · subst hd
        by_cases hmem : d.name.text ∈ index
        · simp [hmem]
        · simp [hmem]
      · simp [hd, Std.LawfulEqCmp.compare_eq_iff_eq]

/-- **A name means the first declaration of that name.** -/
theorem getElem?_firstByName (decls : List (Declaration ι)) (name : String) :
    (firstByName decls)[name]? = decls.find? (·.name.text = name) := by
  simp [firstByName, getElem?_foldl_insertIfNew]

/-- A name is in the index if something is declared under it. -/
theorem mem_firstByName {decls : List (Declaration ι)} {name : String} :
    name ∈ firstByName decls ↔ ∃ d ∈ decls, d.name.text = name := by
  rw [← Std.ExtTreeMap.isSome_getElem?_iff_mem, getElem?_firstByName]
  simp [List.find?_isSome]

/-- What a name means is declared under it. -/
theorem mem_of_firstByName {decls : List (Declaration ι)} {name : String} {d : Declaration ι}
    (h : (firstByName decls)[name]? = some d) : d ∈ decls ∧ d.name.text = name := by
  rw [getElem?_firstByName] at h
  exact ⟨List.mem_of_find?_eq_some h, by simpa using List.find?_some h⟩

/-- Where names are unique, a name means whatever is declared under it. -/
theorem firstByName_of_mem {decls : List (Declaration ι)} {d : Declaration ι}
    (unique : (decls.map (·.name.text)).Nodup) (mem : d ∈ decls) :
    (firstByName decls)[d.name.text]? = some d := by
  have hin : d.name.text ∈ firstByName decls := mem_firstByName.2 ⟨d, mem, rfl⟩
  obtain ⟨e, he⟩ := Option.isSome_iff_exists.1 (Std.ExtTreeMap.isSome_getElem?_iff_mem.2 hin)
  obtain ⟨hmem, hname⟩ := mem_of_firstByName he
  rw [he, List.inj_on_of_nodup_map unique hmem mem hname]

end RpcSchema
