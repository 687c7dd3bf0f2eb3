import Emend.Text.Blank
import Mathlib.Data.List.TakeWhile

/-!
# Trimmed texts

A text is trimmed when `strip` leaves it alone. It then has no blank character at either end, and
blank characters put around it are what `strip` takes away.
-/

namespace Emend.Text

theorem suffix_stripStart (t : Text) : stripStart t <:+ t := List.dropWhile_suffix _

theorem prefix_stripEnd (t : Text) : stripEnd t <+: t := by
  have h : t.reverse.dropWhile isBlank <:+ t.reverse := List.dropWhile_suffix _
  rw [← List.reverse_prefix, List.reverse_reverse] at h
  exact h

theorem stripStart_eq_self_of_strip {t : Text} (h : strip t = t) : stripStart t = t := by
  refine (suffix_stripStart t).eq_of_length ?_
  have hstart := (suffix_stripStart t).length_le
  have hend := (prefix_stripEnd (stripStart t)).length_le
  have hlen : (stripEnd (stripStart t)).length = t.length := congrArg List.length h
  omega

theorem stripEnd_eq_self_of_strip {t : Text} (h : strip t = t) : stripEnd t = t := by
  have hstart := stripStart_eq_self_of_strip h
  rwa [strip, hstart] at h

/-- A trimmed text does not begin with a blank character. -/
theorem isBlank_head_of_strip {c : Char} {t : Text} (h : strip (c :: t) = c :: t) :
    isBlank c = false := by
  have hstart := stripStart_eq_self_of_strip h
  cases hc : isBlank c with
  | false => rfl
  | true =>
      rw [stripStart, List.dropWhile_cons_of_pos hc] at hstart
      have hlen := (List.dropWhile_suffix (l := t) isBlank).length_le
      rw [hstart, List.length_cons] at hlen
      omega

/-- Nothing is left of a text by trimming if it is blank, and only then. -/
theorem strip_eq_nil_iff {t : Text} : strip t = [] ↔ allBlank t = true := by
  unfold strip stripEnd allBlank
  rw [List.reverse_eq_nil_iff, List.dropWhile_eq_nil_iff, List.all_eq_true]
  constructor
  · intro h c hc
    rw [← List.takeWhile_append_dropWhile (p := isBlank) (l := t), List.mem_append] at hc
    rcases hc with hc | hc
    · exact List.all_eq_true.mp List.all_takeWhile c hc
    · exact h c (List.mem_reverse.mpr hc)
  · intro h c hc
    exact h c ((suffix_stripStart t).subset (List.mem_reverse.mp hc))

theorem exists_append_stripEnd (t : Text) : ∃ g, allBlank g = true ∧ t = stripEnd t ++ g := by
  refine ⟨(t.reverse.takeWhile isBlank).reverse, ?_, ?_⟩
  · rw [allBlank, List.all_reverse]
    exact List.all_takeWhile
  · rw [stripEnd, ← List.reverse_append, List.takeWhile_append_dropWhile, List.reverse_reverse]

/-- Trimming takes away blank characters at the two ends. -/
theorem exists_append_strip (t : Text) :
    ∃ g g', allBlank g = true ∧ allBlank g' = true ∧ t = g ++ (strip t ++ g') := by
  obtain ⟨g', hg', hend⟩ := exists_append_stripEnd (stripStart t)
  have hstart : t.takeWhile isBlank ++ stripStart t = t := List.takeWhile_append_dropWhile
  refine ⟨t.takeWhile isBlank, g', List.all_takeWhile, hg', ?_⟩
  rw [strip, ← hend, hstart]

theorem stripStart_cons_blank {c : Char} (hc : isBlank c = true) (t : Text) :
    stripStart (c :: t) = stripStart t := List.dropWhile_cons_of_pos hc

theorem stripStart_blank_append {g t : Text} (hg : allBlank g = true) :
    stripStart (g ++ t) = stripStart t :=
  List.dropWhile_append_of_pos fun c hc => List.all_eq_true.mp hg c hc

theorem stripEnd_append_blank {c : Char} (hc : isBlank c = true) (t : Text) :
    stripEnd (t ++ [c]) = stripEnd t := by
  rw [stripEnd, List.reverse_append, List.reverse_singleton, List.singleton_append,
    List.dropWhile_cons_of_pos hc]
  rfl

theorem strip_append_blank {c : Char} (hc : isBlank c = true) (t : Text) :
    strip (t ++ [c]) = strip t := by
  unfold strip stripStart
  rw [List.dropWhile_append]
  split
  · rename_i hempty
    rw [List.isEmpty_iff.mp hempty, List.dropWhile_cons_of_pos hc]
    rfl
  · exact stripEnd_append_blank hc _

/-- Nothing is dropped from the ends of a text if neither end is to be dropped. -/
theorem dropEnds_eq_self_iff {p : Char → Bool} {t : Text} :
    ((t.dropWhile p).reverse.dropWhile p).reverse = t ↔
      (∀ c ∈ t.head?, p c = false) ∧ ∀ c ∈ t.getLast?, p c = false := by
  have hdrop : ∀ u : Text, u.dropWhile p = u ↔ ∀ c ∈ u.head?, p c = false := by
    intro u
    cases u with
    | nil => simp
    | cons c u =>
        cases hc : p c with
        | false => simp [hc]
        | true =>
            have hlen := (List.dropWhile_suffix (l := u) p).length_le
            have hne : u.dropWhile p ≠ c :: u := by
              intro h
              rw [h, List.length_cons] at hlen
              omega
            simp [hc, hne]
  rw [← hdrop, ← List.head?_reverse, ← hdrop]
  constructor
  · intro h
    have hfront := (List.dropWhile_suffix (l := t) p).length_le
    have hback := (List.dropWhile_suffix (l := (t.dropWhile p).reverse) p).length_le
    have hlen := congrArg List.length h
    rw [List.length_reverse] at hback hlen
    have hstart : t.dropWhile p = t := (List.dropWhile_suffix p).eq_of_length (by omega)
    rw [hstart] at h
    exact ⟨hstart, List.reverse_eq_iff.mp h⟩
  · rintro ⟨hstart, hend⟩
    rw [hstart, hend, List.reverse_reverse]

theorem dropEnds_infix (p : Char → Bool) (t : Text) :
    ((t.dropWhile p).reverse.dropWhile p).reverse <:+: t := by
  have hend : ((t.dropWhile p).reverse.dropWhile p).reverse <+: t.dropWhile p := by
    rw [← List.reverse_suffix, List.reverse_reverse]
    exact List.dropWhile_suffix p
  exact hend.isInfix.trans (List.dropWhile_suffix p).isInfix

theorem stripChars_eq_self_iff {cs : List Char} {t : Text} :
    stripChars cs t = t ↔ (∀ c ∈ t.head?, c ∉ cs) ∧ ∀ c ∈ t.getLast?, c ∉ cs := by
  simpa [stripChars] using @dropEnds_eq_self_iff cs.contains t

/-- No blank character is left at the front. -/
theorem isBlank_head?_stripStart {t : Text} {c : Char} (h : c ∈ (stripStart t).head?) :
    isBlank c = false := by
  have hnot := List.head?_dropWhile_not isBlank t
  rw [show t.dropWhile isBlank = stripStart t from rfl, Option.mem_def.mp h] at hnot
  exact hnot

/-- No blank character is left at the end. -/
theorem isBlank_getLast?_stripEnd {t : Text} {c : Char} (h : c ∈ (stripEnd t).getLast?) :
    isBlank c = false := by
  rw [stripEnd, List.getLast?_reverse] at h
  exact isBlank_head?_stripStart h

/-- What is trimmed stays as it is. -/
theorem strip_strip (t : Text) : strip (strip t) = strip t := by
  refine dropEnds_eq_self_iff.mpr ⟨fun c hc => ?_, fun c hc => isBlank_getLast?_stripEnd hc⟩
  obtain ⟨r, hr⟩ := prefix_stripEnd (stripStart t)
  refine isBlank_head?_stripStart (t := t) ?_
  have hhead : (strip t ++ r).head? = some c := by
    rw [List.head?_append, Option.mem_def.mp hc]
    rfl
  rw [show strip t ++ r = stripStart t from hr] at hhead
  exact hhead

/-- A trimmed text on lines of its own is what trimming leaves of them. -/
theorem strip_on_lines {t : Text} (hne : t ≠ []) (h : strip t = t) :
    strip ('\n' :: (t ++ ['\n'])) = t := by
  cases t with
  | nil => exact absurd rfl hne
  | cons c t =>
      have hc : isBlank c = false := isBlank_head_of_strip h
      have hstart : stripStart (c :: t ++ ['\n']) = c :: t ++ ['\n'] := by
        rw [List.cons_append, stripStart, List.dropWhile_cons_of_neg (by simp [hc])]
      rw [strip, stripStart_cons_blank (by decide), hstart, stripEnd_append_blank (by decide)]
      exact stripEnd_eq_self_of_strip h

end Emend.Text
