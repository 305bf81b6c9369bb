import Mathlib.Data.Set.Card
import RpcSchema.Proofs.Files.Path

/-!
# The history of a store

What a store holds is told here from the changes that were made to it, without the store.

**Two ways to a place.**  A change is made under a path as it is spelled; what is looked up is a path that
some file mentions, taken from the directory of that file.  Both lead to a normal form, and a path that is
mentioned leads to the same one by either way (`Path.cleanText_resolve`).  So the paths that matter to a
place are the spellings of it, and `FileStore.Leaves` compares spellings only.

**One change.**  `texts_change` says what a change does to a place, and `leaves_concat_iff` what it does to
the history.  They agree, so by induction a store holds what its history leaves
(`FileStore.texts_replay_iff`).  `FileStore.replay_history` is the result: what is found, what is taken out
and how much there is are told by the history.
-/

namespace RpcSchema

namespace FileStore

/-- A change to the texts of a store. -/
inductive Change where
  | insert (path contents : String)
  | remove (path : String)
deriving DecidableEq, Repr

namespace Change

/-- The path that a change is made under, as it is spelled. -/
def path : Change → String
  | insert path _ => path
  | remove path => path

/-- The text that a change leaves behind. -/
def contents? : Change → Option String
  | insert _ contents => some contents
  | remove _ => none

end Change

/-- The store behind a change. -/
def change (store : FileStore) : Change → FileStore
  | .insert path contents => store.insert path contents
  | .remove path => (store.extract path).2

/-- The store that some changes make of the empty one, the first of the list first. -/
def replay (changes : List Change) : FileStore := changes.foldl change empty

/-- The latest change under a spelling of the path is an insertion of the text: the text was inserted
under a spelling, and behind that there is no change under any. -/
def Leaves (changes : List Change) (path contents : String) : Prop :=
  ∃ before spelling behind, changes = before ++ .insert spelling contents :: behind
    ∧ Path.cleanText spelling = Path.cleanText path
    ∧ ∀ c ∈ behind, Path.cleanText c.path ≠ Path.cleanText path

variable {changes : List Change} {c : Change} {path contents : String}

/-! ## One change -/

/-- What a change does to a place. -/
lemma texts_change (store : FileStore) (c : Change) (key : String) :
    (store.change c).texts[key]?
      = if Path.cleanText c.path = key then c.contents? else store.texts[key]? := by
  cases c with
  | insert path contents =>
      show (store.texts.insert (Path.cleanText path) contents)[key]? = _
      simp only [Std.ExtTreeMap.getElem?_insert, Std.LawfulEqCmp.compare_eq_iff_eq]
      rfl
  | remove path =>
      show (store.texts.erase (Path.cleanText path))[key]? = _
      simp only [Std.ExtTreeMap.getElem?_erase, Std.LawfulEqCmp.compare_eq_iff_eq]
      rfl

lemma unreadable_change (store : FileStore) (c : Change) :
    (store.change c).unreadable = store.unreadable := by
  cases c <;> rfl

/-- A change makes no difference to what is read at another place. -/
lemma read_change_of_ne {key : String} (h : key ≠ Path.cleanText c.path) (store : FileStore) :
    (store.change c).read key = store.read key := by
  rw [read, read, texts_change, unreadable_change, if_neg h.symm]

/-- What a change does to the history of a place. -/
lemma leaves_concat_iff : Leaves (changes ++ [c]) path contents
    ↔ if Path.cleanText c.path = Path.cleanText path then c.contents? = some contents
      else Leaves changes path contents := by
  constructor
  · rintro ⟨before, spelling, behind, hsplit, hspelling, hbehind⟩
    rcases List.eq_nil_or_concat' behind with rfl | ⟨behind, d, rfl⟩
    · obtain ⟨-, rfl⟩ := List.append_singleton_inj.1 hsplit
      rw [if_pos (show Path.cleanText (Change.insert spelling contents).path = _ from hspelling)]
      rfl
    · rw [← List.cons_append, ← List.append_assoc] at hsplit
      obtain ⟨rfl, rfl⟩ := List.append_singleton_inj.1 hsplit
      rw [if_neg (hbehind c (List.mem_append_right _ (List.mem_singleton_self c)))]
      exact ⟨before, spelling, behind, rfl, hspelling,
        fun d hd => hbehind d (List.mem_append_left _ hd)⟩
  · intro h
    split at h
    · next hplace =>
        cases c with
        | insert spelling text =>
            obtain rfl : text = contents := Option.some.inj h
            exact ⟨changes, spelling, [], rfl, hplace, nofun⟩
        | remove => cases h
    · next hplace =>
        obtain ⟨before, spelling, behind, rfl, hspelling, hbehind⟩ := h
        refine ⟨before, spelling, behind ++ [c], by simp, hspelling, fun d hd => ?_⟩
        rcases List.mem_append.1 hd with hd | hd
        · exact hbehind d hd
        · rwa [List.mem_singleton.1 hd]

/-! ## A whole history -/

lemma replay_concat (changes : List Change) (c : Change) :
    replay (changes ++ [c]) = (replay changes).change c := by
  rw [replay, replay, List.foldl_append, List.foldl_cons, List.foldl_nil]

lemma unreadable_replay (changes : List Change) : (replay changes).unreadable = ∅ := by
  induction changes using List.reverseRecOn with
  | nil => rfl
  | append_singleton changes c ih => rw [replay_concat, unreadable_change, ih]

/-- A store holds under a normal form what its history leaves there. -/
lemma texts_replay_iff :
    (replay changes).texts[Path.cleanText path]? = some contents ↔ Leaves changes path contents := by
  induction changes using List.reverseRecOn with
  | nil =>
      have hempty : (replay []).texts[Path.cleanText path]? = none := Std.ExtTreeMap.getElem?_empty
      rw [hempty]
      refine iff_of_false nofun ?_
      rintro ⟨before, spelling, behind, hsplit, -⟩
      simp at hsplit
  | append_singleton changes c ih =>
      rw [replay_concat, texts_change, leaves_concat_iff]
      split
      · exact Iff.rfl
      · exact ih

/-- What is under a path in normal form is what its history leaves there. -/
lemma read_replay (changes : List Change) (key : String) :
    (replay changes).read key = match (replay changes).texts[key]? with
      | some contents => .ok contents
      | none => .error (.notFound key) := by
  have hreadable : (replay changes).unreadable[key]? = none := by
    rw [unreadable_replay]
    exact Std.ExtTreeMap.getElem?_empty
  cases htext : (replay changes).texts[key]? <;> simp [read, hreadable, htext]

/-- A store holds something only under normal forms. -/
lemma exists_cleanText_eq {key : String} (h : (replay changes).texts[key]? = some contents) :
    ∃ path, Path.cleanText path = key := by
  induction changes using List.reverseRecOn with
  | nil =>
      have hempty : (replay []).texts[key]? = none := Std.ExtTreeMap.getElem?_empty
      rw [hempty] at h
      cases h
  | append_singleton changes c ih =>
      rw [replay_concat, texts_change] at h
      split at h
      · next hkey => exact ⟨c.path, hkey⟩
      · exact ih h

/-- The normal forms under which a history leaves something are the keys of the store. -/
lemma leaves_eq_keys (changes : List Change) :
    {form | ∃ path contents, Path.cleanText path = form ∧ Leaves changes path contents}
      = ((replay changes).texts.keys.toFinset : Set String) := by
  ext key
  rw [List.coe_toFinset, Set.mem_ofPred_eq, Set.mem_ofPred_eq, Std.ExtTreeMap.mem_keys,
    Std.ExtTreeMap.mem_iff_isSome_getElem?, Option.isSome_iff_exists]
  constructor
  · rintro ⟨path, contents, rfl, h⟩
    exact ⟨contents, texts_replay_iff.2 h⟩
  · rintro ⟨contents, h⟩
    obtain ⟨path, rfl⟩ := exists_cleanText_eq h
    exact ⟨path, contents, rfl, texts_replay_iff.1 h⟩

/-- **A store is told by its history.**  After any changes, made under paths in any spelling, a file finds
under a path the text that the latest change at the normal form of that path inserted, with its digest; and
if there was none, or the latest took the text away, it finds that nothing is there.  What is taken out is
that same text.  And there are as many texts as normal forms under which the history leaves one. -/
theorem replay_history (changes : List Change) :
    (∀ relativeTo path contents digest,
      (replay changes).fetchDigested relativeTo path = .ok (contents, digest)
        ↔ Leaves changes (Path.resolve relativeTo path) contents ∧ digest = Sha256.ofText contents)
    ∧ (∀ relativeTo path e, (replay changes).fetchDigested relativeTo path = .error e
        ↔ e = .notFound (Path.resolve relativeTo path)
          ∧ ∀ contents, ¬ Leaves changes (Path.resolve relativeTo path) contents)
    ∧ (∀ path contents,
      ((replay changes).extract path).1 = some contents ↔ Leaves changes path contents)
    ∧ {form | ∃ path contents, Path.cleanText path = form ∧ Leaves changes path contents}.encard
      = (replay changes).size := by
  have hplace : ∀ relativeTo path contents,
      (replay changes).texts[Path.resolve relativeTo path]? = some contents
        ↔ Leaves changes (Path.resolve relativeTo path) contents := by
    intro relativeTo path contents
    rw [← texts_replay_iff, Path.cleanText_resolve]
  refine ⟨fun relativeTo path contents digest => ?_, fun relativeTo path e => ?_, fun path contents => ?_,
    ?_⟩
  · rw [← hplace, fetchDigested, fetch, read_replay]
    cases (replay changes).texts[Path.resolve relativeTo path]? with
    | none => simp [Except.map]
    | some found =>
        simp only [Except.map, Except.ok.injEq, Prod.mk.injEq, Option.some.injEq]
        constructor
        · rintro ⟨rfl, rfl⟩
          exact ⟨rfl, rfl⟩
        · rintro ⟨rfl, rfl⟩
          exact ⟨rfl, rfl⟩
  · simp only [← hplace]
    rw [fetchDigested, fetch, read_replay]
    cases (replay changes).texts[Path.resolve relativeTo path]? with
    | none => simp [Except.map, eq_comm]
    | some found => simp [Except.map]
  · exact texts_replay_iff
  · rw [leaves_eq_keys, Set.encard_coe_eq_coe_finsetCard,
      List.toFinset_card_of_nodup Std.ExtTreeMap.nodup_keys, Std.ExtTreeMap.length_keys]
    rfl

/-- The spellings that were used for a place are of no consequence. -/
example : (replay [.insert "/x/./a" "1", .insert "/b" "2", .remove "//b"]).fetch "/x/y/main" "../a"
      = .ok "1"
    ∧ (replay [.insert "/x/./a" "1", .insert "/b" "2", .remove "//b"]).size = 1 := by decide +kernel

end FileStore

end RpcSchema
