import Emend.Diff.Render
import Emend.Proofs.Diff.Order
import Mathlib.Algebra.Order.Group.Abs
import Mathlib.Algebra.Order.Ring.Int

/-!
# Showing the surroundings of changes

With a context limit a diff is shown in part. `Shows` says which lines are shown, by their distance from
changed ones, and `Collapsed` what is put for the others: one line of dots for each stretch of hidden
lines that goes as far as it can. The two are independent of how a diff is written out, which is line by
line with a flag that tells whether the line before was hidden. `collapsed_iff_renderLines` joins the two
views: no other way of collapsing the hidden lines obeys the rules.
-/

namespace Emend.Diff

/-! ## Which lines are shown -/

/-- There is a line at the place, and it is changed. -/
def IsChangedAt (ls : List Line) (i : Nat) : Prop := ∃ l ∈ ls[i]?, l.IsChanged

/-- The place is shown with a limit of `c` lines: it holds a changed line, or one stands no further away
than that. -/
def Shows (c : Int) (ls : List Line) (i : Nat) : Prop :=
  IsChangedAt ls i ∨ ∃ j, IsChangedAt ls j ∧ |(i : Int) - j| ≤ c

@[simp] theorem not_isChangedAt_nil (i : Nat) : ¬ IsChangedAt [] i := by simp [IsChangedAt]

@[simp] theorem isChangedAt_zero {l : Line} {ls : List Line} :
    IsChangedAt (l :: ls) 0 ↔ l.IsChanged := by simp [IsChangedAt]

@[simp] theorem isChangedAt_succ {l : Line} {ls : List Line} {i : Nat} :
    IsChangedAt (l :: ls) (i + 1) ↔ IsChangedAt ls i := by simp [IsChangedAt]

theorem mem_changedPlaces {i j : Nat} {ls : List Line} :
    j ∈ changedPlaces i ls ↔ ∃ k, j = i + k ∧ IsChangedAt ls k := by
  induction ls generalizing i with
  | nil => simp [changedPlaces]
  | cons l ls ih =>
      -- a place is that of the head or one further on than a place of the tail
      rw [← Nat.or_exists_add_one]
      by_cases hl : l.kind = .unchanged
      · rw [changedPlaces, if_pos hl, ih]
        simp [Line.IsChanged, hl, Nat.add_assoc, Nat.add_comm 1]
      · rw [changedPlaces, if_neg hl, List.mem_cons, ih]
        simp [Line.IsChanged, hl, Nat.add_assoc, Nat.add_comm 1]

theorem distance_le_iff {i j : Nat} {c : Int} : (distance i j : Int) ≤ c ↔ |(i : Int) - j| ≤ c := by
  rw [abs_le, distance]
  omega

/-- Whether the line at the place is shown, as it is found out. -/
def visibleAt (c : Int) (ls : List Line) (i : Nat) : Bool :=
  ls[i]?.any (·.kind != .unchanged) ||
    (changedPlaces 0 ls).any fun j => decide ((distance i j : Int) ≤ c)

theorem visibleAt_iff {c : Int} {ls : List Line} {i : Nat} :
    visibleAt c ls i = true ↔ Shows c ls i := by
  have hhere : ls[i]?.any (·.kind != .unchanged) = true ↔ IsChangedAt ls i := by
    cases hl : ls[i]? with
    | none => simp [IsChangedAt, hl]
    | some l => simp [IsChangedAt, Line.IsChanged, hl]
  have hnear : (changedPlaces 0 ls).any (fun j => decide ((distance i j : Int) ≤ c)) = true ↔
      ∃ j, IsChangedAt ls j ∧ |(i : Int) - j| ≤ c := by
    simp [mem_changedPlaces, distance_le_iff]
  rw [visibleAt, Bool.or_eq_true, hhere, hnear, Shows]

theorem zip_visible (c : Int) (ls : List Line) :
    ls.zip (visible (some c) ls) = ls.zipIdx.map fun p => (p.1, visibleAt c ls p.2) := by
  have hflags : visible (some c) ls = ls.zipIdx.map fun p => visibleAt c ls p.2 := by
    refine List.map_congr_left fun p hp => ?_
    rw [List.mem_zipIdx_iff_getElem?] at hp
    simp [visibleAt, hp]
  calc ls.zip (visible (some c) ls)
      = (ls.zipIdx.map Prod.fst).zip (ls.zipIdx.map fun p => visibleAt c ls p.2) := by
        rw [hflags, List.zipIdx_map_fst]
    _ = ls.zipIdx.map fun p => (p.1, visibleAt c ls p.2) := List.zip_map'

/-! ## What is put for the others -/

/-- The line that stands for hidden ones. -/
def dots : Text := "...".toList

/-- The text lines for diff lines of which the first has the place `i`. A hidden stretch ends at a shown
line or at the end, so that no two of them meet. -/
inductive Collapsed (shown : Nat → Prop) : (i : Nat) → List Line → List Text → Prop
  | done {i : Nat} : Collapsed shown i [] []
  | shown {i : Nat} {l : Line} {ls : List Line} {ts : List Text} :
      shown i → Collapsed shown (i + 1) ls ts → Collapsed shown i (l :: ls) (l.render :: ts)
  | hidden {i : Nat} {run ls : List Line} {ts : List Text} :
      run ≠ [] → (∀ k < run.length, ¬ shown (i + k)) → (ls = [] ∨ shown (i + run.length)) →
      Collapsed shown (i + run.length) ls ts → Collapsed shown i (run ++ ls) (dots :: ts)

/-- The lines, the first of which has the place `i`, each with whether it is shown. -/
def marked (shown : Nat → Bool) (i : Nat) (ls : List Line) : List (Line × Bool) :=
  (ls.zipIdx i).map fun p => (p.1, shown p.2)

section Collapsed

variable {shown : Nat → Bool} {i : Nat} {l : Line} {ls run : List Line} {ts : List Text}

theorem marked_cons (shown : Nat → Bool) (i : Nat) (l : Line) (ls : List Line) :
    marked shown i (l :: ls) = (l, shown i) :: marked shown (i + 1) ls := by
  rw [marked, List.zipIdx_cons, List.map_cons, marked]

theorem renderLines_of_shown (skipping : Bool) (h : shown i = true) (ls : List Line) :
    renderLines skipping (marked shown i (l :: ls)) =
      l.render :: renderLines false (marked shown (i + 1) ls) := by
  rw [marked_cons, h, renderLines]

theorem renderLines_of_hidden (skipping : Bool) (h : shown i = false) (ls : List Line) :
    renderLines skipping (marked shown i (l :: ls)) =
      (if skipping then [] else [dots]) ++ renderLines true (marked shown (i + 1) ls) := by
  rw [marked_cons, h, renderLines]
  cases skipping <;> rfl

/-- Once some line is hidden, nothing is put for the hidden lines that follow. -/
theorem renderLines_run (h : ∀ k < run.length, shown (i + k) = false) (ls : List Line) :
    renderLines true (marked shown i (run ++ ls)) =
      renderLines true (marked shown (i + run.length) ls) := by
  induction run generalizing i with
  | nil => rfl
  | cons l run ih =>
      have hhead : shown i = false := h 0 (Nat.zero_lt_succ _)
      have htail : ∀ k < run.length, shown (i + 1 + k) = false := by
        intro k hk
        rw [Nat.add_assoc, Nat.add_comm 1]
        exact h (k + 1) (Nat.succ_lt_succ hk)
      rw [List.cons_append, renderLines_of_hidden true hhead, ih htail]
      simp [Nat.add_assoc, Nat.add_comm 1]

/-- The flag does not matter at the end and in front of a shown line. -/
theorem renderLines_of_stop (skipping : Bool) (h : ls = [] ∨ shown i = true) :
    renderLines skipping (marked shown i ls) = renderLines false (marked shown i ls) := by
  rcases h with rfl | h
  · rfl
  · cases ls with
    | nil => rfl
    | cons l ls => rw [renderLines_of_shown skipping h, renderLines_of_shown false h]

/-- A whole stretch of hidden lines comes out as one line of dots. -/
theorem renderLines_stretch (hne : run ≠ []) (hhidden : ∀ k < run.length, shown (i + k) = false)
    (hstop : ls = [] ∨ shown (i + run.length) = true) :
    renderLines false (marked shown i (run ++ ls)) =
      dots :: renderLines false (marked shown (i + run.length) ls) := by
  have hone : renderLines false (marked shown i (run ++ ls)) =
      dots :: renderLines true (marked shown i (run ++ ls)) := by
    obtain ⟨l, run, rfl⟩ := List.exists_cons_of_ne_nil hne
    have hhead : shown i = false := hhidden 0 (Nat.zero_lt_succ _)
    rw [List.cons_append, renderLines_of_hidden false hhead, renderLines_of_hidden true hhead]
    rfl
  rw [hone, renderLines_run hhidden, renderLines_of_stop true hstop]

/-- Some lines are in front of the first shown one. -/
theorem exists_stretch (shown : Nat → Bool) (i : Nat) (ls : List Line) :
    ∃ run rest, ls = run ++ rest ∧ (∀ k < run.length, shown (i + k) = false) ∧
      (rest = [] ∨ shown (i + run.length) = true) := by
  induction ls generalizing i with
  | nil => exact ⟨[], [], rfl, by simp, .inl rfl⟩
  | cons l ls ih =>
      cases hl : shown i with
      | true => exact ⟨[], l :: ls, rfl, by simp, .inr hl⟩
      | false =>
          obtain ⟨run, rest, rfl, hhidden, hstop⟩ := ih (i + 1)
          refine ⟨l :: run, rest, rfl, ?_, ?_⟩
          · intro k hk
            cases k with
            | zero => exact hl
            | succ k =>
                have hshift : i + (k + 1) = i + 1 + k := by omega
                rw [hshift]
                exact hhidden k (Nat.lt_of_succ_lt_succ hk)
          · rwa [List.length_cons, Nat.add_comm run.length, ← Nat.add_assoc]

/-- Whatever obeys the rules is what is written out. -/
theorem Collapsed.eq_renderLines (h : Collapsed (shown · = true) i ls ts) :
    ts = renderLines false (marked shown i ls) := by
  induction h with
  | done => rfl
  | shown hshown _ ih => rw [renderLines_of_shown false hshown, ih]
  | hidden hne hhidden hstop _ ih =>
      simp only [Bool.not_eq_true] at hhidden
      rw [renderLines_stretch hne hhidden hstop, ih]

/-- What is written out obeys the rules. -/
theorem collapsed_renderLines (shown : Nat → Bool) (i : Nat) (ls : List Line) :
    Collapsed (shown · = true) i ls (renderLines false (marked shown i ls)) := by
  -- the induction is on the number of lines: behind a stretch there are fewer
  induction hn : ls.length using Nat.strongRecOn generalizing i ls with
  | ind n ih =>
      obtain ⟨run, rest, rfl, hhidden, hstop⟩ := exists_stretch shown i ls
      rw [List.length_append] at hn
      by_cases hne : run = []
      · subst hne
        cases rest with
        | nil => exact .done
        | cons l rest =>
            have hl : shown i = true := hstop.resolve_left (List.cons_ne_nil l rest)
            have hfewer : rest.length < n := by
              simp only [List.length_cons] at hn
              omega
            rw [List.nil_append, renderLines_of_shown false hl]
            exact .shown hl (ih _ hfewer (i + 1) rest rfl)
      · have hfewer : rest.length < n := by
          have hpos := List.length_pos_iff.mpr hne
          omega
        rw [renderLines_stretch hne hhidden hstop]
        exact .hidden hne (by simpa using hhidden) hstop (ih _ hfewer (i + run.length) rest rfl)

theorem collapsed_iff_renderLines :
    Collapsed (shown · = true) i ls ts ↔ ts = renderLines false (marked shown i ls) := by
  constructor
  · exact Collapsed.eq_renderLines
  · rintro rfl
    exact collapsed_renderLines shown i ls

/-- No line that has to be shown is left out. -/
theorem Collapsed.sublist {p : Line → Bool} {shown : Nat → Prop} (h : Collapsed shown i ls ts)
    (hshown : ∀ k l, ls[k]? = some l → p l = true → shown (i + k)) :
    ((ls.filter p).map Line.render).Sublist ts := by
  induction h with
  | done => exact .slnil
  | @shown i l ls ts _ _ ih =>
      have hrest := ih fun k m hm hp => by
        rw [Nat.add_right_comm, Nat.add_assoc]
        exact hshown (k + 1) m hm hp
      cases hp : p l with
      | true =>
          rw [List.filter_cons_of_pos hp, List.map_cons]
          exact hrest.cons_cons _
      | false =>
          rw [List.filter_cons_of_neg (by simp [hp])]
          exact hrest.cons _
  | @hidden i run ls ts _ hhidden _ _ ih =>
      have hrest := ih fun k m hm hp => by
        rw [Nat.add_assoc]
        refine hshown (run.length + k) m ?_ hp
        rwa [List.getElem?_append_right (Nat.le_add_right _ _), Nat.add_sub_cancel_left]
      have hnone : run.filter p = [] := by
        rw [List.filter_eq_nil_iff]
        intro l hl hp
        obtain ⟨k, hk, hget⟩ := List.mem_iff_getElem.mp hl
        refine hhidden k hk (hshown k l ?_ hp)
        rw [List.getElem?_append_left hk, List.getElem?_eq_getElem hk, hget]
      rw [List.filter_append, hnone, List.nil_append]
      exact hrest.cons _

end Collapsed

/-! ## The rendered diff -/

theorem renderLines_all (ls : List Line) :
    renderLines false (ls.zip (ls.map fun _ => true)) = ls.map Line.render := by
  induction ls with
  | nil => rfl
  | cons l ls ih => rw [List.map_cons, List.zip_cons_cons, renderLines, ih, List.map_cons]

theorem render_of_ne_nil (context : Option Int) {ls : List Line} (hne : ls ≠ []) :
    render context ls =
      Text.unlines ((stats ls).heading :: renderLines false (ls.zip (visible context ls))) := by
  cases ls with
  | nil => exact absurd rfl hne
  | cons l ls => rfl

theorem render_none {ls : List Line} (hne : ls ≠ []) :
    render none ls = Text.unlines ((stats ls).heading :: ls.map Line.render) := by
  rw [render_of_ne_nil none hne]
  show Text.unlines (_ :: renderLines false (ls.zip (ls.map fun _ => true))) = _
  rw [renderLines_all]

theorem render_some (c : Int) {ls : List Line} (hne : ls ≠ []) :
    render (some c) ls =
      Text.unlines ((stats ls).heading :: renderLines false (marked (visibleAt c ls) 0 ls)) := by
  rw [render_of_ne_nil (some c) hne, zip_visible, marked]

/-- **A context limit hides unchanged lines that are far from every change, and nothing else.** The heading
is that of the whole diff. Below it stand, as in the whole diff, the changed lines and those within the
limit of one, and a line of dots for each stretch of the others; this is the only text that obeys these
rules. Every changed line is shown, under a negative limit too, and where none is changed the dots stand
for the whole diff. -/
theorem render_context (c : Int) {ls : List Line} (hne : ls ≠ []) :
    render none ls = Text.unlines ((stats ls).heading :: ls.map Line.render) ∧
    ∃ body,
      render (some c) ls = Text.unlines ((stats ls).heading :: body) ∧
      (∀ ts, Collapsed (Shows c ls) 0 ls ts ↔ ts = body) ∧
      ((ls.filter (·.IsChanged)).map Line.render).Sublist body ∧
      ((∀ l ∈ ls, ¬ l.IsChanged) → body = [dots]) := by
  have hshows : Shows c ls = fun i => visibleAt c ls i = true :=
    funext fun i => propext visibleAt_iff.symm
  have hcollapsed : ∀ ts, Collapsed (Shows c ls) 0 ls ts ↔
      ts = renderLines false (marked (visibleAt c ls) 0 ls) := by
    intro ts
    rw [hshows]
    exact collapsed_iff_renderLines
  refine ⟨render_none hne, _, render_some c hne, hcollapsed, ?_, ?_⟩
  · refine ((hcollapsed _).mpr rfl).sublist fun k l hl hchanged => ?_
    rw [Nat.zero_add]
    exact .inl ⟨l, hl, of_decide_eq_true hchanged⟩
  · intro hunchanged
    have hnone : ∀ i, ¬ IsChangedAt ls i := by
      rintro i ⟨l, hl, hchanged⟩
      exact hunchanged l (List.mem_of_getElem? hl) hchanged
    have hhidden : ∀ i, ¬ Shows c ls i := by
      rintro i (hi | ⟨j, hj, -⟩)
      · exact hnone i hi
      · exact hnone j hj
    have hdots := Collapsed.hidden (i := 0) hne (fun k _ => hhidden (0 + k)) (.inl rfl) .done
    rw [List.append_nil] at hdots
    exact ((hcollapsed _).mp hdots).symm

/-- A removed line with kept lines around it. -/
def sampleDiff : List Line :=
  [⟨.unchanged, "a".toList, some 1, some 1⟩, ⟨.unchanged, "b".toList, some 2, some 2⟩,
    ⟨.removed, "c".toList, some 3, none⟩, ⟨.unchanged, "d".toList, some 4, some 3⟩]

/-- A negative limit leaves the changed line and hides what is around it. -/
theorem render_context_negative :
    sampleDiff ≠ [] ∧ render (some (-1)) sampleDiff = "+0 -1\n...\n    3       - c\n...".toList ∧
    ∃ body, render (some (-1)) sampleDiff = Text.unlines ((stats sampleDiff).heading :: body) ∧
      Collapsed (Shows (-1) sampleDiff) 0 sampleDiff body ∧
      ((sampleDiff.filter (·.IsChanged)).map Line.render).Sublist body := by
  have hne : sampleDiff ≠ [] := by decide
  obtain ⟨-, body, hbody, honly, hkept, -⟩ := render_context (-1) hne
  exact ⟨hne, by decide, body, hbody, (honly body).mpr rfl, hkept⟩

end Emend.Diff
