import Emend.Proofs.Diff.Context
import Emend.Proofs.Diff.Minimality
import Emend.Proofs.Text.Decimal
import Emend.Proofs.Text.Lines
import Emend.Text.Search

/-!
# Reading a rendered diff

The whole diff, written out, holds both texts. A reader that counts the lines of both sides knows the
three gutters that the next line can have, one for each kind, and no two of them can stand in front of the
same line: where one has a number the other has a blank column, and the first five characters of a number
in its column are never all blank, however many digits it has (`gutter_append_inj`). What stands behind
the gutter is the line's text, whatever it looks like.

`readPreview` is that reader. That it gives both texts back (`preview_lossless`) makes the rendering
injective.
-/

namespace Emend.Diff

open Emend.Text (after? after?_eq_some_iff)

/-! ## Columns -/

/-- At most four blanks are put in front of a number, so the first five characters of its column hold one
of its own. -/
theorem exists_mem_take_numberColumn (i : Int) : ∃ c ∈ (numberColumn (some i)).take 5, c ≠ ' ' := by
  obtain ⟨c, t, hi⟩ := List.exists_cons_of_ne_nil (Text.ofInt_ne_nil i)
  have hc : c ≠ ' ' := by
    have hmem : c ∈ Text.ofInt i := by simp [hi]
    rcases Text.minus_or_isDigit_of_mem_ofInt hmem with rfl | hdigit
    · decide
    · rintro rfl
      cases hdigit
  have hcolumn : numberColumn (some i) = List.replicate (5 - (t.length + 1)) ' ' ++ c :: t := by
    simp [numberColumn, Text.padStart, hi]
  obtain ⟨n, hn⟩ : ∃ n, 5 - (5 - (t.length + 1)) = n + 1 := Nat.exists_eq_add_one.mpr (by omega)
  refine ⟨c, ?_, hc⟩
  rw [hcolumn, List.take_append, List.length_replicate, hn, List.take_succ_cons]
  exact List.mem_append_right _ List.mem_cons_self

/-- A column with a number and a blank one begin differently. -/
theorem numberColumn_append_ne (i : Int) (s t : Text) :
    numberColumn (some i) ++ s ≠ numberColumn none ++ t := by
  intro h
  obtain ⟨c, hmem, hc⟩ := exists_mem_take_numberColumn i
  have hlength : 5 ≤ (numberColumn (some i)).length := Text.le_length_padStart 5 ' ' _
  have hblank : numberColumn none = List.replicate 5 ' ' := rfl
  have htake : (numberColumn (some i)).take 5 = List.replicate 5 ' ' := by
    rw [← List.take_append_of_le_length hlength, h, hblank, List.take_left' (by simp)]
  rw [htake] at hmem
  exact hc (List.eq_of_mem_replicate hmem)

/-- With the number known, a column tells whether it is blank and where it ends. -/
theorem numberColumn_append_inj {i : Int} {p q : Prop} [Decidable p] [Decidable q] {s t : Text}
    (h : numberColumn (if p then none else some i) ++ s =
      numberColumn (if q then none else some i) ++ t) : (p ↔ q) ∧ s = t := by
  by_cases hp : p <;> by_cases hq : q <;> simp only [hp, hq, if_true, if_false] at h ⊢
  · exact ⟨trivial, List.append_cancel_left h⟩
  · exact absurd h.symm (numberColumn_append_ne i t s)
  · exact absurd h (numberColumn_append_ne i s t)
  · exact ⟨trivial, List.append_cancel_left h⟩

/-! ## Gutters -/

/-- What stands in front of the text of a line of the kind, where `i` and `j` are the numbers of the next
old and the next new line. -/
def gutter (i j : Int) (k : Kind) : Text :=
  numberColumn (if k = .added then none else some i) ++
    ' ' :: (numberColumn (if k = .removed then none else some j) ++ [' ', k.sign, ' '])

/-- No two gutters of one place can be taken for each other, whatever follows. -/
theorem gutter_append_inj {i j : Int} {k k' : Kind} {s t : Text}
    (h : gutter i j k ++ s = gutter i j k' ++ t) : k = k' ∧ s = t := by
  simp only [gutter, List.append_assoc, List.cons_append] at h
  obtain ⟨hadded, h⟩ := numberColumn_append_inj h
  obtain ⟨hremoved, h⟩ := numberColumn_append_inj (List.cons.inj h).2
  have hkind : k = k' := by
    cases k <;> cases k' <;> simp at hadded hremoved ⊢
  subst hkind
  exact ⟨rfl, by simpa using h⟩

/-- Reads the kind and the text of a line off the gutter it starts with. -/
def readLine (i j : Int) (t : Text) : Option (Kind × Text) :=
  Kind.all.findSome? fun k => (after? (gutter i j k) t).map (k, ·)

theorem readLine_gutter (i j : Int) (k : Kind) (t : Text) :
    readLine i j (gutter i j k ++ t) = some (k, t) := by
  have hself : after? (gutter i j k) (gutter i j k ++ t) = some t := after?_eq_some_iff.mpr rfl
  have hother : ∀ k', k' ≠ k → after? (gutter i j k') (gutter i j k ++ t) = none := by
    intro k' hne
    cases hread : after? (gutter i j k') (gutter i j k ++ t) with
    | none => rfl
    | some r => exact absurd (gutter_append_inj (after?_eq_some_iff.mp hread)).1.symm hne
  cases k <;> simp [readLine, Kind.all, hself, hother]

/-- A line that carries the next numbers of its sides is read. -/
theorem readLine_render {i j : Int} {l : Line}
    (hold : l.oldNumber = if l.kind = .added then none else some i)
    (hnew : l.newNumber = if l.kind = .removed then none else some j) :
    readLine i j l.render = some (l.kind, l.text) := by
  have hrender : l.render = gutter i j l.kind ++ l.text := by
    simp [Line.render, gutter, hold, hnew]
  rw [hrender, readLine_gutter]

/-- Reads the old and the new lines off rendered lines, the first of which have the numbers `i` and `j`. -/
def readLines (i j : Int) : List Text → List Text × List Text
  | [] => ([], [])
  | t :: ts =>
    match readLine i j t with
    | none => ([], [])
    | some (.unchanged, l) =>
      let (old, new) := readLines (i + 1) (j + 1) ts
      (l :: old, l :: new)
    | some (.removed, l) =>
      let (old, new) := readLines (i + 1) j ts
      (l :: old, new)
    | some (.added, l) =>
      let (old, new) := readLines i (j + 1) ts
      (old, l :: new)

/-- The two counts of the reader are those of the walk that listed the lines. -/
theorem Listed.readLines {i j : Int} {keep old new : List Text} {ls : List Line}
    (h : Listed i j keep old new ls) : Diff.readLines i j (ls.map Line.render) = (old, new) := by
  induction h with
  | done => rfl
  | unchanged _ ih =>
      rw [List.map_cons, Diff.readLines, readLine_render rfl rfl]
      simp only [ih]
  | removed _ _ ih =>
      rw [List.map_cons, Diff.readLines, readLine_render rfl rfl]
      simp only [ih]
  | added _ _ _ ih =>
      rw [List.map_cons, Diff.readLines, readLine_render rfl rfl]
      simp only [ih]

/-! ## The whole text -/

/-- Reads the old and the new text off a rendered diff: all but its first line, the heading. -/
def readPreview (t : Text) : Text × Text :=
  let (old, new) := readLines 1 1 (Text.lines t).tail
  (Text.unlines old, Text.unlines new)

theorem newline_not_mem_ofInt (i : Int) : '\n' ∉ Text.ofInt i := by
  intro h
  rcases Text.minus_or_isDigit_of_mem_ofInt h with h | h <;> cases h

theorem newline_not_mem_numberColumn (n : Option Int) : '\n' ∉ numberColumn n := by
  cases n with
  | none => decide
  | some i => simp [numberColumn, Text.padStart, newline_not_mem_ofInt]

theorem newline_not_mem_render {l : Line} (h : '\n' ∉ l.text) : '\n' ∉ l.render := by
  have hsign : l.kind.sign ≠ '\n' := by cases l.kind <;> decide
  simp [Line.render, newline_not_mem_numberColumn, h, hsign.symm]

theorem newline_not_mem_heading (s : Stats) : '\n' ∉ s.heading := by
  have hnat : ∀ n : Nat, '\n' ∉ Text.ofNat n := fun n => newline_not_mem_ofInt n
  simp [Stats.heading, hnat]

/-- Below the heading stand the rendered lines, none if there is no difference. -/
theorem lines_render {ls : List Line} (h : ∀ l ∈ ls, '\n' ∉ l.text) :
    (Text.lines (render none ls)).tail = ls.map Line.render := by
  cases ls with
  | nil => rfl
  | cons l ls =>
      have hlines : ∀ t ∈ (stats (l :: ls)).heading :: (l :: ls).map Line.render, '\n' ∉ t := by
        intro t ht
        rcases List.mem_cons.mp ht with rfl | ht
        · exact newline_not_mem_heading _
        · obtain ⟨m, hm, rfl⟩ := List.mem_map.mp ht
          exact newline_not_mem_render (h m hm)
      rw [render_none (List.cons_ne_nil l ls), Text.lines_unlines (List.cons_ne_nil _ _) hlines,
        List.tail_cons]

theorem newline_not_mem_of_mem_linesOf {t : Option Text} {l : Text} (h : l ∈ linesOf t) : '\n' ∉ l := by
  rw [linesOf_eq_ite] at h
  split at h
  · cases h
  · exact Text.not_mem_of_mem_lines h

/-- Every line of an alignment is one of the old or one of the new text. -/
theorem Aligns.text_mem {ls : List Line} {old new : List Text} (h : Aligns ls old new) {l : Line}
    (hl : l ∈ ls) : l.text ∈ old ∨ l.text ∈ new := by
  obtain ⟨rfl, rfl⟩ := h
  by_cases hkind : l.kind = .added
  · exact .inr (List.mem_map_of_mem (List.mem_filter.mpr ⟨hl, by simp [hkind]⟩))
  · exact .inl (List.mem_map_of_mem (List.mem_filter.mpr ⟨hl, by simpa using hkind⟩))

theorem unlines_linesOf (t : Option Text) : Text.unlines (linesOf t) = t.getD [] := by
  rw [linesOf_eq_ite]
  split
  · rename_i h
    rw [h]
    rfl
  · exact Text.unlines_lines _

theorem readPreview_render (before after : Option Text) :
    readPreview (render none (diff before after)) = (before.getD [], after.getD []) := by
  have hlisted := listed_diff before after
  have hlines : ∀ l ∈ diff before after, '\n' ∉ l.text := by
    intro l hl
    rcases hlisted.aligns.text_mem hl with hmem | hmem
    · exact newline_not_mem_of_mem_linesOf hmem
    · exact newline_not_mem_of_mem_linesOf hmem
  simp only [readPreview, lines_render hlines, hlisted.readLines, unlines_linesOf]

/-- **A rendered diff loses nothing.** Both texts can be read back from it, up to the difference between
no text and an empty one, so two diffs look the same only if they are between the same texts. -/
theorem preview_lossless (before after before' after' : Option Text) :
    readPreview (render none (diff before after)) = (before.getD [], after.getD []) ∧
    (render none (diff before after) = render none (diff before' after') ↔
      before.getD [] = before'.getD [] ∧ after.getD [] = after'.getD []) := by
  refine ⟨readPreview_render before after, ?_, ?_⟩
  · intro hsame
    have hread := congrArg readPreview hsame
    rw [readPreview_render, readPreview_render] at hread
    exact Prod.mk.inj hread
  · rintro ⟨hbefore, hafter⟩
    rw [diff, diff, linesOf_inj.mpr hbefore, linesOf_inj.mpr hafter]

end Emend.Diff
