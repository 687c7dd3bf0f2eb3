import Emend.Proofs.Diff.Alignment

/-!
# A diff changes as few lines as possible

The kept lines of an alignment are a common subsequence of the two sides, so an alignment removes and
adds the fewer lines the longer that subsequence is (`Aligns.changed`). A diff keeps a longest one.
It changes nothing exactly when the two texts are the same.
-/

namespace Emend.Diff

/-! ## Counting the lines of an alignment -/

theorem length_oldLines (ls : List Line) :
    (oldLines ls).length = (keptLines ls).length + (stats ls).removed := by
  induction ls with
  | nil => rfl
  | cons l ls ih =>
      obtain ⟨kind, t, i, j⟩ := l
      simp only [oldLines, keptLines, stats] at ih ⊢
      cases kind <;> simp <;> omega

theorem length_newLines (ls : List Line) :
    (newLines ls).length = (keptLines ls).length + (stats ls).added := by
  induction ls with
  | nil => rfl
  | cons l ls ih =>
      obtain ⟨kind, t, i, j⟩ := l
      simp only [newLines, keptLines, stats] at ih ⊢
      cases kind <;> simp <;> omega

theorem unchanged_eq_length_keptLines (ls : List Line) :
    (stats ls).unchanged = (keptLines ls).length := by
  simp only [stats, keptLines, List.countP_eq_length_filter]

theorem keptLines_sublist_oldLines (ls : List Line) : (keptLines ls).Sublist (oldLines ls) :=
  List.monotone_filter_right ls fun l hl => by
    have hkind : l.kind = .unchanged := by simpa using hl
    simp [hkind]

theorem keptLines_sublist_newLines (ls : List Line) : (keptLines ls).Sublist (newLines ls) :=
  List.monotone_filter_right ls fun l hl => by
    have hkind : l.kind = .unchanged := by simpa using hl
    simp [hkind]

/-- What an alignment keeps is a common subsequence. -/
theorem Aligns.unchanged_mem {ls : List Line} {old new : List Text} (h : Aligns ls old new) :
    (stats ls).unchanged ∈ commonLengths old new := by
  obtain ⟨rfl, rfl⟩ := h
  refine ⟨(keptLines ls).map (·.text), ?_, ?_, ?_⟩
  · exact (keptLines_sublist_oldLines ls).map _
  · exact (keptLines_sublist_newLines ls).map _
  · rw [List.length_map, unchanged_eq_length_keptLines]

/-- What an alignment does not keep of the two sides it removes and adds. -/
theorem Aligns.changed {ls : List Line} {old new : List Text} (h : Aligns ls old new) :
    (stats ls).removed + (stats ls).added + 2 * (stats ls).unchanged = old.length + new.length := by
  obtain ⟨rfl, rfl⟩ := h
  rw [List.length_map, List.length_map, length_oldLines, length_newLines,
    unchanged_eq_length_keptLines]
  omega

/-! ## Lines of optional texts -/

theorem linesOf_eq_ite (t : Option Text) :
    linesOf t = if t.getD [] = [] then [] else Text.lines (t.getD []) := by
  unfold linesOf
  split
  · rename_i h
    rw [if_pos h]
  · rename_i h
    rw [if_neg h]

/-- The lines determine the text up to the difference between no text and an empty one. -/
theorem linesOf_inj {s t : Option Text} : linesOf s = linesOf t ↔ s.getD [] = t.getD [] := by
  constructor
  · intro h
    rw [linesOf_eq_ite, linesOf_eq_ite] at h
    split at h <;> split at h
    · simp_all
    · exact absurd h.symm (Text.splitOn_ne_nil _ _)
    · exact absurd h (Text.splitOn_ne_nil _ _)
    · have hjoin := congrArg Text.unlines h
      rwa [Text.unlines_lines, Text.unlines_lines] at hjoin
  · intro h
    rw [linesOf_eq_ite, linesOf_eq_ite, h]

/-! ## Minimality -/

theorem unchanged_diff (before after : Option Text) :
    (stats (diff before after)).unchanged = (common (linesOf before) (linesOf after)).length := by
  rw [unchanged_eq_length_keptLines, ← (listed_diff before after).keptLines, List.length_map]

/-- Nothing is changed exactly when all lines are kept, and then the two sides are the same. -/
theorem Aligns.isChanged_eq_false {ls : List Line} {old new : List Text} (h : Aligns ls old new)
    (hno : (stats ls).isChanged = false) : old = new := by
  obtain ⟨rfl, rfl⟩ := h
  have hkinds : ∀ l ∈ ls, l.kind ≠ .added ∧ l.kind ≠ .removed := by
    simpa [Stats.isChanged, stats, List.countP_eq_zero, forall_and] using hno
  have hold : oldLines ls = ls := by
    rw [oldLines, List.filter_eq_self]
    exact fun l hl => by simpa using (hkinds l hl).1
  have hnew : newLines ls = ls := by
    rw [newLines, List.filter_eq_self]
    exact fun l hl => by simpa using (hkinds l hl).2
  rw [hold, hnew]

theorem mem_commonLengths_self (xs : List Text) : xs.length ∈ commonLengths xs xs :=
  ⟨xs, List.Sublist.refl xs, List.Sublist.refl xs, rfl⟩

theorem isChanged_diff_self {before after : Option Text} (h : linesOf before = linesOf after) :
    (stats (diff before after)).isChanged = false := by
  have hall := (listed_diff before after).aligns.changed
  have hmax := isGreatest_length_common (linesOf before) (linesOf after)
  rw [← unchanged_diff, ← h] at hmax
  rw [← h] at hall
  have hle := hmax.2 (mem_commonLengths_self (linesOf before))
  have hzero : (stats (diff before after)).removed = 0 ∧ (stats (diff before after)).added = 0 := by
    omega
  simp [Stats.isChanged, hzero]

/-- **A diff is minimal.** It keeps as many lines as a longest common subsequence of the lines of the
two texts has, so that no alignment of them has fewer changed lines; and it changes nothing exactly
when the texts are the same. -/
theorem diff_minimal (before after : Option Text) :
    IsGreatest (commonLengths (linesOf before) (linesOf after))
      (stats (diff before after)).unchanged ∧
    (∀ ls, Aligns ls (linesOf before) (linesOf after) →
      (stats (diff before after)).removed + (stats (diff before after)).added ≤
        (stats ls).removed + (stats ls).added) ∧
    ((stats (diff before after)).isChanged = false ↔ before.getD [] = after.getD []) := by
  have hmax := isGreatest_length_common (linesOf before) (linesOf after)
  rw [← unchanged_diff] at hmax
  have hdiff := (listed_diff before after).aligns
  refine ⟨hmax, ?_, ?_⟩
  · intro ls hls
    have hkept := hmax.2 hls.unchanged_mem
    have hsum := hls.changed
    have hsumDiff := hdiff.changed
    omega
  · constructor
    · exact fun hno => linesOf_inj.mp (hdiff.isChanged_eq_false hno)
    · exact fun heq => isChanged_diff_self (linesOf_inj.mpr heq)

end Emend.Diff
