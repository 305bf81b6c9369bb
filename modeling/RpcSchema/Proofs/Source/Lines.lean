import Mathlib.Data.List.DropRight
import RpcSchema.Proofs.Source.Slice

/-!
# Lines and columns

Lines are counted twice: a position counts them on the way to a place, and `Source.lines` cuts the
whole text.  Both are about the same line feeds.

**Positions.**  The place behind a text is on the line that the line feeds of the text lead to, and in
the column behind the characters that follow the last of them (`Position.line_after`,
`Position.column_after`).  A carriage return is a character like any other here.

**Lines.**  A text is cut around a line into what stands before it, the line, and what stands behind
(`Source.Around`).  The number of the line is that of the line feeds before it, and what is shown of it
is all but a carriage return right in front of the line feed that ends it (`Source.line_of_around`).
Around every place the text can be cut so, and the line of a place is the one that its position names
(`Source.around_place`).
-/

namespace RpcSchema

variable {front piece back : List Char}

/-! ## Positions -/

namespace Position

/-- The place behind a text, by the line feeds in it. -/
lemma line_after (front : List Char) : (origin.after front).line = 1 + front.count '\n' := by
  induction front using List.reverseRecOn with
  | nil => rfl
  | append_singleton cs c ih =>
      rw [after_append, after_cons, after_nil, advance, List.count_append, List.count_singleton]
      split
      · next hc =>
          rw [if_pos (by simpa using hc), ih, Nat.add_assoc]
      · next hc =>
          rw [if_neg (by simpa using hc), ih, Nat.add_zero]

lemma column_after (front : List Char) :
    (origin.after front).column = 1 + (front.rtakeWhile (· ≠ '\n')).length := by
  induction front using List.reverseRecOn with
  | nil => rfl
  | append_singleton cs c ih =>
      rw [after_append, after_cons, after_nil, advance]
      split
      · next hc =>
          rw [List.rtakeWhile_concat_neg _ _ _ (by simpa using hc)]
          rfl
      · next hc =>
          rw [List.rtakeWhile_concat_pos _ _ _ (by simpa using hc), List.length_append, ← Nat.add_assoc]
          exact congrArg (· + 1) ih

lemma offset_origin_after (front : List Char) :
    (origin.after front).offset = Text.utf8Length front := by
  rw [offset_after]
  exact Nat.zero_add _

end Position

/-! ## Lines -/

namespace Source

variable {s : Source}

/-- A text cut around one of its lines. -/
structure Around (s : Source) (front piece back : List Char) : Prop where
  chars : s.chars = front ++ piece ++ back
  one_line : '\n' ∉ piece
  begins : ∀ c ∈ front.getLast?, c = '\n'
  ends : ∀ c ∈ back.head?, c = '\n'

/-- What stands before a line is cut into pieces by itself, and there is one for every line feed. -/
lemma splitOn_front (hbegins : ∀ c ∈ front.getLast?, c = '\n') (rest : List Char) :
    ∃ pieces, pieces.length = front.count '\n'
      ∧ (front ++ rest).splitOn '\n' = pieces ++ rest.splitOn '\n' := by
  induction front using List.reverseRecOn with
  | nil => exact ⟨[], rfl, rfl⟩
  | append_singleton cs c _ =>
      obtain rfl := hbegins c (by simp)
      refine ⟨cs.splitOn '\n', ?_, ?_⟩
      · rw [length_splitOn_lineFeed, List.count_append, List.count_singleton_self]
      · rw [List.append_assoc, List.singleton_append]
        exact List.splitOnP_append_cons cs rest rfl

/-- **The line with a number** is what stands between line feeds, without a carriage return right in
front of the line feed that ends it. -/
lemma line_of_around (h : s.Around front piece back) : s.line (front.count '\n')
    = String.ofList (if back = [] then piece else dropReturn piece) := by
  obtain ⟨pieces, hlength, hsplit⟩ := splitOn_front h.begins (piece ++ back)
  rw [← List.append_assoc, ← h.chars] at hsplit
  rw [line, lines, ← hlength]
  refine congrArg String.ofList ?_
  cases back with
  | nil =>
      rw [List.append_nil, List.splitOn_eq_singleton h.one_line] at hsplit
      simp [hsplit]
  | cons c cs =>
      obtain rfl := h.ends c rfl
      have hpiece : (piece ++ '\n' :: cs).splitOn '\n' = piece :: cs.splitOn '\n' := by
        refine (List.splitOnP_append_cons piece cs rfl).trans ?_
        exact congrArg (· ++ cs.splitOn '\n') (List.splitOn_eq_singleton h.one_line)
      obtain ⟨first, rest, hrest⟩ := List.exists_cons_of_ne_nil (List.splitOn_ne_nil '\n' cs)
      rw [hpiece, hrest] at hsplit
      simp [hsplit, List.dropLast_append_of_ne_nil]

/-- Around every place the text is cut into a line and the rest. -/
lemma around_place (h : s.chars = front ++ back) :
    s.Around (front.rdropWhile (· ≠ '\n')) (front.rtakeWhile (· ≠ '\n') ++ back.takeWhile (· ≠ '\n'))
        (back.dropWhile (· ≠ '\n'))
      ∧ (front.rdropWhile (· ≠ '\n')).count '\n' = front.count '\n' := by
  have hfront : front.rdropWhile (· ≠ '\n') ++ front.rtakeWhile (· ≠ '\n') = front :=
    List.rdropWhile_append_rtakeWhile
  have hnone : '\n' ∉ front.rtakeWhile (· ≠ '\n') := fun hmem => by
    simpa using List.mem_rtakeWhile_imp hmem
  refine ⟨⟨?_, ?_, fun c hc => ?_, fun c hc => ?_⟩, ?_⟩
  · rw [List.append_assoc, List.append_assoc, List.takeWhile_append_dropWhile, ← List.append_assoc,
      hfront, h]
  · rw [List.mem_append, not_or]
    exact ⟨hnone, fun hmem => by simpa using List.mem_takeWhile_imp hmem⟩
  · obtain ⟨hne, rfl⟩ := List.mem_getLast?_eq_getLast hc
    simpa using List.rdropWhile_last_not _ _ hne
  · have hhead := List.head?_dropWhile_not (· ≠ '\n') back
    rw [Option.mem_def.1 hc] at hhead
    simpa using hhead
  · conv_rhs => rw [← hfront, List.count_append, List.count_eq_zero.2 hnone, Nat.add_zero]

/-- There is a line for every number up to that of the line feeds. -/
lemma exists_around {index : Nat} (h : index < s.lines.length) :
    ∃ front piece back, s.Around front piece back ∧ front.count '\n' = index := by
  have hcut : ∀ (cs : List Char) (index : Nat), index ≤ cs.count '\n' →
      ∃ front back, cs = front ++ back ∧ front.count '\n' = index := by
    intro cs
    induction cs with
    | nil => exact fun index hindex => ⟨[], [], rfl, (Nat.le_zero.1 hindex).symm⟩
    | cons c cs ih =>
        intro index hindex
        by_cases hc : c = '\n'
        · subst hc
          cases index with
          | zero => exact ⟨[], '\n' :: cs, rfl, rfl⟩
          | succ index =>
              rw [List.count_cons_self] at hindex
              obtain ⟨front, back, rfl, hcount⟩ := ih index (Nat.le_of_succ_le_succ hindex)
              exact ⟨'\n' :: front, back, rfl, by rw [List.count_cons_self, hcount]⟩
        · rw [List.count_cons_of_ne hc] at hindex
          obtain ⟨front, back, rfl, hcount⟩ := ih index hindex
          exact ⟨c :: front, back, rfl, by rw [List.count_cons_of_ne hc, hcount]⟩
  rw [length_lines] at h
  obtain ⟨front, back, hchars, hcount⟩ := hcut s.chars index (by omega)
  obtain ⟨haround, hbefore⟩ := around_place hchars
  exact ⟨_, _, _, haround, hbefore.trans hcount⟩

end Source

end RpcSchema
