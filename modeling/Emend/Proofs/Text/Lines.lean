import Emend.Text.Basic
import Mathlib.Algebra.GroupWithZero.Nat
import Mathlib.Data.List.Basic

/-!
# Lines of a text

A text is cut at line feeds into its lines and joined from them again. Joining is simplest when every
line gets a line feed of its own, the last one too: `closedLines` takes lists of lines put together to
texts put together, and a text is what it gives for the lines but for the line feed at the very end.

A place in a text is an offset. Where a line ends or starts there (`IsLineEnd`, `IsLineStart`), the lines
of the text are those in front of the place and those behind it, and `lineAt` tells how many are in
front.
-/

namespace Emend.Text

/-! ## Cutting at a separator -/

section Pieces

variable {α : Type} [DecidableEq α] {sep : α} {t l : List α}

/-- A separator between two texts comes between their pieces. -/
theorem splitOn_append (sep : α) (t u : List α) :
    splitOn sep (t ++ sep :: u) = splitOn sep t ++ splitOn sep u := by
  induction t with
  | nil =>
      show (if sep = sep then [] :: splitOn sep u else _) = _
      exact if_pos rfl
  | cons c t ih =>
      rw [List.cons_append, splitOn, splitOn, ih]
      split
      · rfl
      · cases hpieces : splitOn sep t with
        | nil => exact absurd hpieces (splitOn_ne_nil sep t)
        | cons l ls => rfl

theorem splitOn_of_not_mem (h : sep ∉ t) : splitOn sep t = [t] := by
  induction t with
  | nil => rfl
  | cons c t ih =>
      have hc : c ≠ sep := (List.ne_of_not_mem_cons h).symm
      rw [splitOn, if_neg hc, ih (List.not_mem_of_not_mem_cons h)]

theorem splitOn_append_cons (h : sep ∉ l) (t : List α) : splitOn sep (l ++ sep :: t) = l :: splitOn sep t := by
  rw [splitOn_append, splitOn_of_not_mem h, List.singleton_append]

/-- The pieces between separators have none. -/
theorem not_mem_of_mem_splitOn (h : l ∈ splitOn sep t) : sep ∉ l := by
  induction t generalizing l with
  | nil =>
      rw [List.mem_singleton.mp h]
      exact List.not_mem_nil
  | cons c t ih =>
      rw [splitOn] at h
      split at h
      · rcases List.mem_cons.mp h with rfl | h
        · exact List.not_mem_nil
        · exact ih h
      · rename_i hc
        cases hrest : splitOn sep t with
        | nil => exact absurd hrest (splitOn_ne_nil sep t)
        | cons m ms =>
            rw [hrest] at h ih
            rcases List.mem_cons.mp h with rfl | h
            · intro hsep
              rcases List.mem_cons.mp hsep with rfl | hsep
              · exact hc rfl
              · exact ih List.mem_cons_self hsep
            · exact ih (List.mem_cons_of_mem m h)

/-- There is one more piece than separators. -/
theorem length_splitOn (sep : α) (t : List α) : (splitOn sep t).length = t.count sep + 1 := by
  induction t with
  | nil => rfl
  | cons c t ih =>
      rw [splitOn]
      split
      · rename_i hc
        rw [List.length_cons, ih, hc, List.count_cons_self]
      · rename_i hc
        rw [List.count_cons_of_ne hc]
        cases hpieces : splitOn sep t with
        | nil => exact absurd hpieces (splitOn_ne_nil sep t)
        | cons l ls => rwa [hpieces] at ih

end Pieces

/-! ## Joining lines -/

variable {t u : Text} {ls ms : List Text}

/-- The lines, each with a line feed behind it. -/
def closedLines (ls : List Text) : Text := ls.flatMap (· ++ ['\n'])

theorem closedLines_append (ls ms : List Text) :
    closedLines (ls ++ ms) = closedLines ls ++ closedLines ms := List.flatMap_append

theorem unlines_cons_cons (l m : Text) (ls : List Text) :
    unlines (l :: m :: ls) = l ++ '\n' :: unlines (m :: ls) := rfl

theorem closedLines_eq (hls : ls ≠ []) : closedLines ls = unlines ls ++ ['\n'] := by
  induction ls with
  | nil => exact absurd rfl hls
  | cons l ls ih =>
      rw [closedLines, List.flatMap_cons]
      cases ls with
      | nil => exact List.append_nil _
      | cons m ls =>
          have hrest : (m :: ls).flatMap (· ++ ['\n']) = unlines (m :: ls) ++ ['\n'] :=
            ih (List.cons_ne_nil m ls)
          rw [hrest, unlines_cons_cons, List.append_assoc, List.append_assoc]
          rfl

theorem unlines_append (ls : List Text) (hms : ms ≠ []) :
    unlines (ls ++ ms) = closedLines ls ++ unlines ms := by
  have hne : ls ++ ms ≠ [] := List.append_ne_nil_of_right_ne_nil ls hms
  have hclosed := closedLines_eq hne
  rw [closedLines_append, closedLines_eq hms, ← List.append_assoc] at hclosed
  exact (List.append_cancel_right hclosed).symm

theorem length_closedLines (ls : List Text) :
    (closedLines ls).length = (ls.map (·.length + 1)).sum := by
  rw [closedLines, List.length_flatMap]
  simp only [List.length_append, List.length_singleton]

/-- **Lines that were written one behind the other** are the lines of the text, with nothing behind the
last one. -/
theorem lines_closedLines (h : ∀ l ∈ ls, '\n' ∉ l) : lines (closedLines ls) = ls ++ [[]] := by
  induction ls with
  | nil => rfl
  | cons l ls ih =>
      rw [closedLines, List.flatMap_cons, List.append_assoc, List.singleton_append, lines,
        splitOn_append_cons (h l List.mem_cons_self)]
      exact congrArg (l :: ·) (ih fun m hm => h m (List.mem_cons_of_mem _ hm))

theorem lines_ne_nil (t : Text) : lines t ≠ [] := splitOn_ne_nil '\n' t

theorem lines_append_newline (t u : Text) : lines (t ++ '\n' :: u) = lines t ++ lines u :=
  splitOn_append '\n' t u

/-- Joined lines are cut again where they were joined. -/
theorem lines_unlines (hls : ls ≠ []) (h : ∀ l ∈ ls, '\n' ∉ l) : lines (unlines ls) = ls := by
  have hclosed := lines_closedLines h
  rw [closedLines_eq hls, lines_append_newline] at hclosed
  exact List.append_cancel_right hclosed

/-- A text and a line feed are the lines of the text, each with a line feed. -/
theorem closedLines_lines (t : Text) : closedLines (lines t) = t ++ ['\n'] := by
  rw [closedLines_eq (lines_ne_nil t), unlines_lines]

/-- Each line takes its characters and a line feed, but for the last, which has none. -/
theorem sum_lines (t : Text) : ((lines t).map (·.length + 1)).sum = t.length + 1 := by
  rw [← length_closedLines, closedLines_lines, List.length_append, List.length_singleton]

theorem not_mem_of_mem_lines {l : Text} (h : l ∈ lines t) : '\n' ∉ l := not_mem_of_mem_splitOn h

theorem length_lines (t : Text) : (lines t).length = t.count '\n' + 1 := length_splitOn '\n' t

theorem count_closedLines (h : ∀ l ∈ ls, '\n' ∉ l) : (closedLines ls).count '\n' = ls.length := by
  have hlength := length_lines (closedLines ls)
  rw [lines_closedLines h, List.length_append, List.length_singleton] at hlength
  omega

theorem getLast?_closedLines (ls : List Text) : ∀ c ∈ (closedLines ls).getLast?, c = '\n' := by
  intro c hc
  cases ls with
  | nil => cases hc
  | cons l ls =>
      rw [closedLines_eq (List.cons_ne_nil l ls), List.getLast?_concat] at hc
      exact (Option.some.inj hc).symm

/-- Some lines of a text in a row are a part of it, with the lines before in front of it and, if there are
more, a line feed behind it. -/
theorem exists_of_lines {before behind : List Text} (hms : ms ≠ [])
    (h : lines t = before ++ (ms ++ behind)) :
    ∃ rest, t = closedLines before ++ (unlines ms ++ rest) ∧ ∀ c ∈ rest.head?, c = '\n' := by
  have ht : t = closedLines before ++ unlines (ms ++ behind) := by
    rw [← unlines_append before (List.append_ne_nil_of_left_ne_nil hms behind), ← h, unlines_lines]
  cases behind with
  | nil =>
      refine ⟨[], ?_, by simp⟩
      rw [ht, List.append_nil, List.append_nil]
  | cons l ls =>
      refine ⟨'\n' :: unlines (l :: ls), ?_, by simp⟩
      rw [ht, unlines_append ms (List.cons_ne_nil l ls), closedLines_eq hms, List.append_assoc]
      rfl

/-- What is added on the same line goes on with the last line. -/
theorem lines_append_inline (t : Text) (h : '\n' ∉ u) :
    lines (t ++ u) = (lines t).dropLast ++ [(lines t).getLast (lines_ne_nil t) ++ u] := by
  have hne := lines_ne_nil t
  have hcut : (lines t).dropLast ++ [(lines t).getLast hne] = lines t := List.dropLast_concat_getLast hne
  have htext : t ++ u = unlines ((lines t).dropLast ++ [(lines t).getLast hne ++ u]) := by
    rw [unlines_append _ (List.cons_ne_nil _ _)]
    conv_lhs => rw [← unlines_lines t, ← hcut, unlines_append _ (List.cons_ne_nil _ _)]
    exact List.append_assoc _ _ _
  have hfeeds : ∀ l ∈ (lines t).dropLast ++ [(lines t).getLast hne ++ u], '\n' ∉ l := by
    intro l hl
    rcases List.mem_append.mp hl with hl | hl
    · exact not_mem_of_mem_lines (List.dropLast_subset _ hl)
    · rw [List.mem_singleton.mp hl, List.mem_append]
      exact not_or.mpr ⟨not_mem_of_mem_lines (List.getLast_mem hne), h⟩
  rw [htext, lines_unlines (by simp) hfeeds]

/-! ## Places between lines -/

/-- A line starts at the offset. -/
def IsLineStart (n : Nat) (t : Text) : Prop := n = 0 ∨ t[n - 1]? = some '\n'

/-- A line ends at the offset. -/
def IsLineEnd (n : Nat) (t : Text) : Prop := n = t.length ∨ t[n]? = some '\n'

instance (n : Nat) (t : Text) : Decidable (IsLineStart n t) := inferInstanceAs (Decidable (_ ∨ _))

instance (n : Nat) (t : Text) : Decidable (IsLineEnd n t) := inferInstanceAs (Decidable (_ ∨ _))

/-- The number of the line on which the offset lies, counted from 0: so many lines end in front. -/
def lineAt (n : Nat) (t : Text) : Nat := (t.take n).count '\n'

theorem exists_cut {n : Nat} (h : n ≤ t.length) : ∃ a b, t = a ++ b ∧ a.length = n :=
  ⟨t.take n, t.drop n, (List.take_append_drop n t).symm, List.length_take_of_le h⟩

theorem isLineStart_append : IsLineStart t.length (t ++ u) ↔ ∀ c ∈ t.getLast?, c = '\n' := by
  rcases List.eq_nil_or_concat t with rfl | ⟨t, c, rfl⟩
  · simp [IsLineStart]
  · simp [IsLineStart]

theorem isLineEnd_append : IsLineEnd t.length (t ++ u) ↔ ∀ c ∈ u.head?, c = '\n' := by
  cases u with
  | nil => simp [IsLineEnd]
  | cons c u => simp [IsLineEnd]

theorem lineAt_append (t u : Text) : lineAt t.length (t ++ u) = t.count '\n' := by
  rw [lineAt, List.take_left]

/-- Where a line ends the lines in front of the place are whole. -/
theorem lines_append_of_head? (t : Text) (h : ∀ c ∈ u.head?, c = '\n') :
    lines (t ++ u) = lines t ++ (lines u).tail := by
  cases u with
  | nil =>
      rw [List.append_nil]
      exact (List.append_nil _).symm
  | cons c u =>
      obtain rfl : c = '\n' := h c rfl
      rw [lines_append_newline]
      exact congrArg (lines t ++ ·) (congrArg List.tail (lines_append_newline [] u)).symm

/-- Where a line starts the lines behind the place are whole. -/
theorem lines_append_of_getLast? (h : ∀ c ∈ t.getLast?, c = '\n') (u : Text) :
    lines (t ++ u) = (lines t).dropLast ++ lines u := by
  rcases List.eq_nil_or_concat t with rfl | ⟨t, c, rfl⟩
  · rfl
  · rw [List.concat_eq_append] at h ⊢
    obtain rfl : c = '\n' := h c List.getLast?_concat
    have hempty : lines ([] : Text) = [[]] := rfl
    rw [List.append_assoc, List.singleton_append, lines_append_newline,
      lines_append_newline, hempty, List.dropLast_concat]

end Emend.Text
