import RpcSchema.Files.Store
import RpcSchema.Proofs.Files.NormalForm

/-!
# Paths from the root

Loading starts from a path that was brought to the root, and every path that a file from the root
mentions is brought there again.  So all paths that are met while loading are texts of steps down from
the root: `Path.IsRooted`.

Whatever a file mentions is looked up by a path in normal form (`cleanText_resolve`).  Of rooted paths three
facts are all that is used.

* A rooted path is absolute and its own normal form (`isRooted_iff`), so it is found under itself from
  wherever it is looked up (`IsRooted.resolve_eq`).
* What is given from outside becomes rooted (`isRooted_absolute`).
* What a rooted file mentions becomes rooted, unless the file is the root itself (`IsRooted.resolve`).
  The root leads from no directory, so what it mentioned would stay relative.
-/

namespace RpcSchema

namespace Path

/-! ## What a file mentions -/

lemma parent_sublist (p : Path) : p.parent.segments.Sublist p.segments := by
  rw [parent]
  split
  · exact List.nil_sublist _
  · next s before h =>
      have hsuffix : (s :: before).Sublist p.segments.reverse :=
        h ▸ (List.dropWhile_suffix _).sublist
      rw [← List.reverse_sublist, List.reverse_reverse]
      exact (List.sublist_cons_self s before).trans hsuffix

lemma isAbsolute_parent {p : Path} (h : p.isAbsolute = false) : p.parent.isAbsolute = false := by
  rw [parent]
  split
  · rfl
  · exact h

lemma named_parent {p : Path} (h : p.Named) : p.parent.Named :=
  fun s hs => h s (p.parent_sublist.subset hs)

/-- What is mentioned by a relative path is looked up behind the directory of the file. -/
lemma resolve_relative {file mentioned : String} (h : (parse mentioned).isAbsolute = false) :
    resolve file mentioned
      = (clean ⟨(parse file).parent.isAbsolute,
          (parse file).parent.segments ++ (parse mentioned).segments⟩).toText := by
  rw [resolve, if_neg (by simp [h]), join, if_neg (by simp [h])]

/-- What a file mentions is looked up by a path in normal form. -/
lemma cleanText_resolve (file mentioned : String) :
    cleanText (resolve file mentioned) = resolve file mentioned := by
  by_cases habsolute : (parse mentioned).isAbsolute = true
  · rw [resolve, if_pos habsolute]
    exact (named_parse mentioned).cleanText_clean
  · rw [Bool.not_eq_true] at habsolute
    have hnamed := (named_parent (named_parse file)).append (named_parse mentioned)
      (parse file).parent.isAbsolute
    rw [resolve_relative habsolute, hnamed.cleanText_clean]

/-! ## Steps down from the root -/

/-- The text of steps down from the root. -/
def IsRooted (text : String) : Prop := ∃ names, (∀ n ∈ names, IsName n) ∧ text = (down names).toText

/-- The normal form of a path from the root is rooted. -/
lemma isRooted_clean {p : Path} (habsolute : p.isAbsolute = true) (hnamed : p.Named) :
    IsRooted p.clean.toText := by
  obtain ⟨names, hnames, hclean⟩ := clean_eq_down hnamed habsolute
  exact ⟨names, hnames, by rw [hclean]⟩

/-! ## Paths that are met while loading -/

lemma isRooted_absolute (path : String) : IsRooted (absolute path) := by
  rw [absolute, join]
  split
  · next habsolute => exact isRooted_clean habsolute (named_parse path)
  · exact isRooted_clean rfl (named_parse path)

/-- What is mentioned by a path from the root is rooted, whoever mentions it. -/
lemma isRooted_resolve_of_isAbsolute {file mentioned : String}
    (h : (parse mentioned).isAbsolute = true) : IsRooted (resolve file mentioned) := by
  rw [resolve, if_pos h]
  exact isRooted_clean h (named_parse mentioned)

namespace IsRooted

variable {path : String}

lemma isAbsolute_parse (h : IsRooted path) : (parse path).isAbsolute = true := by
  obtain ⟨names, hnames, rfl⟩ := h
  rw [parse_toText (named_down hnames)]
  rfl

lemma cleanText_eq (h : IsRooted path) : cleanText path = path := by
  obtain ⟨names, hnames, rfl⟩ := h
  rw [cleanText, parse_toText (named_down hnames), clean_down]

/-- A rooted path is found under itself, whoever asks for it. -/
lemma resolve_eq (h : IsRooted path) (relativeTo : String) : resolve relativeTo path = path := by
  rw [Path.resolve, if_pos h.isAbsolute_parse, h.cleanText_eq]

/-- What a rooted file mentions is rooted, unless the file is the root. -/
lemma resolve (h : IsRooted path) (hroot : path ≠ "/") (mentioned : String) :
    IsRooted (Path.resolve path mentioned) := by
  by_cases habsolute : (parse mentioned).isAbsolute = true
  · exact isRooted_resolve_of_isAbsolute habsolute
  · obtain ⟨names, hnames, rfl⟩ := h
    have hne : names ≠ [] := by
      rintro rfl
      exact hroot rfl
    have hparent : (down names).parent = down names.dropLast := by
      rw [← List.dropLast_concat_getLast hne]
      simp [parent, down]
    rw [Path.resolve, if_neg habsolute, parse_toText (named_down hnames), hparent, join, if_neg habsolute]
    refine isRooted_clean rfl ?_
    intro s hs
    rcases List.mem_append.1 hs with hs | hs
    · obtain ⟨n, hn, hname⟩ := List.mem_map.1 hs
      cases hname
      exact hnames s (List.dropLast_subset names hn)
    · exact named_parse mentioned s hs

end IsRooted

/-- The rooted paths are the absolute ones in normal form. -/
lemma isRooted_iff {path : String} :
    IsRooted path ↔ (parse path).isAbsolute = true ∧ cleanText path = path := by
  constructor
  · intro h
    exact ⟨h.isAbsolute_parse, h.cleanText_eq⟩
  · rintro ⟨habsolute, hclean⟩
    rw [← hclean]
    exact isRooted_clean habsolute (named_parse path)

end Path

/-- A store finds a rooted path under itself, whoever asks for it. -/
lemma FileStore.fetch_eq_read (store : FileStore) (relativeTo : String) {path : String}
    (h : Path.IsRooted path) : store.fetch relativeTo path = store.read path := by
  rw [fetch, h.resolve_eq]

end RpcSchema
