/-!
# Text up to a closing mark

Docstrings and block comments run up to the first occurrence of a closing mark, whatever stands in
between.

* `splitAtMark` finds that occurrence.
-/

namespace RpcSchema.Text

/-- Splits a text at the first occurrence of a mark: what stands before the mark, and what follows it.
Nothing if the mark does not occur. -/
def splitAtMark (mark : List Char) : List Char → Option (List Char × List Char)
  | [] => none
  | c :: rest =>
    if mark.isPrefixOf (c :: rest) then some ([], (c :: rest).drop mark.length)
    else (splitAtMark mark rest).map fun (before, after) => (c :: before, after)

/-- The pieces and the mark between them are the text. -/
theorem splitAtMark_append {mark cs before after : List Char}
    (h : splitAtMark mark cs = some (before, after)) : before ++ mark ++ after = cs := by
  induction cs generalizing before after with
  | nil => simp [splitAtMark] at h
  | cons c rest ih =>
    unfold splitAtMark at h
    split at h
    · next hm =>
      obtain ⟨tail, ht⟩ := List.isPrefixOf_iff_prefix.1 hm
      simp only [Option.some.injEq, Prod.mk.injEq] at h
      obtain ⟨rfl, rfl⟩ := h
      simp [← ht]
    · obtain ⟨⟨b, a⟩, hb, h⟩ := Option.map_eq_some_iff.1 h
      simp only [Prod.mk.injEq] at h
      obtain ⟨rfl, rfl⟩ := h
      simp [← ih hb]

/-- No mark begins before the one that was found. -/
theorem splitAtMark_first {mark cs before after : List Char}
    (h : splitAtMark mark cs = some (before, after)) {front back : List Char}
    (hs : cs = front ++ mark ++ back) : before.length ≤ front.length := by
  induction cs generalizing before after front with
  | nil => simp [splitAtMark] at h
  | cons c rest ih =>
    unfold splitAtMark at h
    split at h
    · simp only [Option.some.injEq, Prod.mk.injEq] at h
      simp [← h.1]
    · next hm =>
      obtain ⟨⟨b, a⟩, hb, h⟩ := Option.map_eq_some_iff.1 h
      simp only [Prod.mk.injEq] at h
      obtain ⟨rfl, rfl⟩ := h
      cases front with
      | nil =>
        exact absurd (List.isPrefixOf_iff_prefix.2 ⟨back, by simpa using hs.symm⟩) hm
      | cons d front =>
        simp only [List.cons_append, List.cons.injEq] at hs
        simpa using ih hb hs.2

end RpcSchema.Text
