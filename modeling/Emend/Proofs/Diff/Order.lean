import Emend.Proofs.Diff.Alignment
import Mathlib.Data.List.Chain

/-!
# The order of a diff

A diff lists removals before additions and takes every kept line where it first comes up on either side.
Both are read off the rules of `Listed`. An addition needs the old side to stand at the line to keep
already, so no removal can come next; and neither a removal nor an addition has the text of the line to
keep.

A stretch of changed lines may stand anywhere in a diff, so `Listed.split` gives the state of the walk
behind any front part of the list.
-/

namespace Emend.Diff

/-- The line stands in one of the two texts only. -/
def Line.IsChanged (l : Line) : Prop := l.kind ≠ .unchanged

instance (l : Line) : Decidable l.IsChanged := inferInstanceAs (Decidable (_ ≠ _))

section Listed

variable {i j : Int} {keep old new : List Text} {ls : List Line}

/-! ## Removals before additions -/

/-- Where the old side stands at the line to keep, nothing is removed. -/
theorem Listed.head?_ne_removed (h : Listed i j keep old new ls) (hkeep : old.head? = keep.head?) :
    ∀ l ∈ ls.head?, l.kind ≠ .removed := by
  intro l hl
  cases h with
  | done => cases hl
  | unchanged _ =>
      cases hl
      exact Kind.noConfusion
  | removed hne _ => exact absurd hkeep.symm hne
  | added _ _ _ =>
      cases hl
      exact Kind.noConfusion

theorem Listed.isChain (h : Listed i j keep old new ls) :
    ls.IsChain fun l next => l.kind = .added → next.kind ≠ .removed := by
  induction h with
  | done => exact .nil
  | unchanged _ ih => exact List.isChain_cons.mpr ⟨fun _ _ hkind => Kind.noConfusion hkind, ih⟩
  | removed _ _ ih => exact List.isChain_cons.mpr ⟨fun _ _ hkind => Kind.noConfusion hkind, ih⟩
  | added hkeep _ hrest ih =>
      exact List.isChain_cons.mpr ⟨fun l hl _ => hrest.head?_ne_removed hkeep l hl, ih⟩

theorem removed_or_added {l : Line} (h : l.IsChanged) : l.kind = .removed ∨ l.kind = .added := by
  cases hkind : l.kind with
  | unchanged => exact absurd hkind h
  | added => exact .inr rfl
  | removed => exact .inl rfl

/-- Changed lines of which no addition stands directly in front of a removal are all the removals and
then all the additions. -/
theorem eq_filter_append_filter {gap : List Line} (hgap : ∀ l ∈ gap, l.IsChanged)
    (hchain : gap.IsChain fun l next => l.kind = .added → next.kind ≠ .removed) :
    gap = gap.filter (·.kind = .removed) ++ gap.filter (·.kind = .added) := by
  induction gap with
  | nil => rfl
  | cons l gap ih =>
      obtain ⟨hnext, hchain⟩ := List.isChain_cons.mp hchain
      have htail := ih (fun m hm => hgap m (List.mem_cons_of_mem l hm)) hchain
      rcases removed_or_added (hgap l List.mem_cons_self) with hkind | hkind
      · simp [hkind, ← htail]
      · -- behind an addition the removals are those of a list that does not start with one
        have hnone : gap.filter (·.kind = .removed) = [] := by
          cases hfirst : gap.filter (·.kind = .removed) with
          | nil => rfl
          | cons m ms =>
              rw [hfirst, List.cons_append] at htail
              have hm : m ∈ gap.filter (·.kind = .removed) := by rw [hfirst]; exact List.mem_cons_self
              refine absurd ?_ (hnext m (by rw [htail]; rfl) hkind)
              simpa using (List.mem_filter.mp hm).2
        rw [hnone, List.nil_append] at htail
        simp [hkind, hnone, ← htail]

/-! ## Kept lines as early as possible -/

/-- Behind its first line the walk goes on with what that line leaves of the two sides. -/
theorem Listed.tail {l : Line} (h : Listed i j keep old new (l :: ls)) :
    ∃ keep' old' new',
      old = (oldLines [l]).map (·.text) ++ old' ∧ new = (newLines [l]).map (·.text) ++ new' ∧
      Listed (i + (oldLines [l]).length) (j + (newLines [l]).length) keep' old' new' ls := by
  cases h with
  | unchanged h => exact ⟨_, _, _, rfl, rfl, by simpa [oldLines, newLines] using h⟩
  | removed _ h => exact ⟨_, _, _, rfl, rfl, by simpa [oldLines, newLines] using h⟩
  | added _ _ h => exact ⟨_, _, _, rfl, rfl, by simpa [oldLines, newLines] using h⟩

/-- Behind a front part of the lines the walk goes on with what that part leaves of the two sides. -/
theorem Listed.split {front : List Line} (h : Listed i j keep old new (front ++ ls)) :
    ∃ keep' old' new',
      old = (oldLines front).map (·.text) ++ old' ∧ new = (newLines front).map (·.text) ++ new' ∧
      Listed (i + (oldLines front).length) (j + (newLines front).length) keep' old' new' ls := by
  induction front generalizing i j keep old new with
  | nil => exact ⟨keep, old, new, rfl, rfl, by simpa [oldLines, newLines] using h⟩
  | cons l front ih =>
      have hold : oldLines (l :: front) = oldLines [l] ++ oldLines front :=
        List.filter_append [l] front
      have hnew : newLines (l :: front) = newLines [l] ++ newLines front :=
        List.filter_append [l] front
      obtain ⟨_, _, _, rfl, rfl, hfront⟩ := h.tail
      obtain ⟨keep', old', new', rfl, rfl, hrest⟩ := ih hfront
      refine ⟨keep', old', new', by simp [hold], by simp [hnew], ?_⟩
      simpa [hold, hnew, Int.add_assoc] using hrest

/-- No line of a gap has the text of the kept line behind it, and that is the line to keep. -/
theorem Listed.text_ne {gap : List Line} {kept : Line}
    (h : Listed i j keep old new (gap ++ kept :: ls)) (hgap : ∀ l ∈ gap, l.IsChanged)
    (hkept : kept.kind = .unchanged) :
    keep.head? = some kept.text ∧ ∀ l ∈ gap, l.text ≠ kept.text := by
  induction gap generalizing i j old new with
  | nil =>
      cases h with
      | unchanged _ => exact ⟨rfl, by simp⟩
      | removed _ _ => cases hkept
      | added _ _ _ => cases hkept
  | cons l gap ih =>
      have hrest := fun m hm => hgap m (List.mem_cons_of_mem l hm)
      have hl := hgap l List.mem_cons_self
      cases h with
      | unchanged _ => exact absurd rfl hl
      | removed hne h =>
          obtain ⟨hkeep, hgap⟩ := ih h hrest
          refine ⟨hkeep, List.forall_mem_cons.mpr ⟨?_, hgap⟩⟩
          exact fun htext => hne (hkeep.trans (congrArg some htext.symm))
      | added _ hne h =>
          obtain ⟨hkeep, hgap⟩ := ih h hrest
          refine ⟨hkeep, List.forall_mem_cons.mpr ⟨?_, hgap⟩⟩
          exact fun htext => hne (hkeep.trans (congrArg some htext.symm))

/-- The kept line at the head is numbered by the two counts and stands at the head of both sides. -/
theorem Listed.kept {kept : Line} (h : Listed i j keep old new (kept :: ls))
    (hkept : kept.kind = .unchanged) :
    kept.oldNumber = some i ∧ kept.newNumber = some j ∧
      old.head? = some kept.text ∧ new.head? = some kept.text := by
  cases h with
  | unchanged _ => exact ⟨rfl, rfl, rfl, rfl⟩
  | removed _ _ => cases hkept
  | added _ _ _ => cases hkept

end Listed

/-- The places of the lines with the text `t` behind the first `count` lines, counted from 0. -/
def placesBehind (count : Nat) (t : Text) (lines : List Text) : Set Nat :=
  {n | count ≤ n ∧ lines[n]? = some t}

/-- Behind lines of which none is the sought one, the next line is the first place where it stands. -/
theorem isLeast_placesBehind (front : List Text) {gap rest : List Text} {t : Text} (hgap : t ∉ gap)
    (hrest : rest.head? = some t) :
    IsLeast (placesBehind front.length t (front ++ (gap ++ rest))) (front.length + gap.length) := by
  obtain ⟨rest, rfl⟩ := List.head?_eq_some_iff.mp hrest
  refine ⟨⟨Nat.le_add_right _ _, ?_⟩, ?_⟩
  · rw [List.getElem?_append_right (Nat.le_add_right _ _), Nat.add_sub_cancel_left,
      List.getElem?_append_right (Nat.le_refl _), Nat.sub_self]
    rfl
  · rintro n ⟨hfront, hn⟩
    by_contra hlt
    rw [List.getElem?_append_right hfront, List.getElem?_append_left (by omega)] at hn
    exact hgap (List.mem_of_getElem? hn)

/-- The line that is numbered behind the lines `front` and `gap` of a side is the first one with its text
behind `front`, if none of `gap` has that text. -/
theorem exists_isLeast_placesBehind {side rest : List Text} {front gap : List Line} {t : Text}
    {number : Option Int} (hside : side = front.map (·.text) ++ (gap.map (·.text) ++ rest))
    (hgap : ∀ l ∈ gap, l.text ≠ t) (hrest : rest.head? = some t)
    (hnumber : number = some (1 + (front.length : Int) + gap.length)) :
    ∃ n : Nat, number = some (1 + (n : Int)) ∧ IsLeast (placesBehind front.length t side) n := by
  have hnone : t ∉ gap.map (·.text) := by
    intro hmem
    obtain ⟨l, hl, htext⟩ := List.mem_map.mp hmem
    exact hgap l hl htext
  have hleast := isLeast_placesBehind (front.map (·.text)) hnone hrest
  rw [← hside, List.length_map, List.length_map] at hleast
  exact ⟨front.length + gap.length, by rw [hnumber, Int.natCast_add, Int.add_assoc], hleast⟩

/-- **A diff is in canonical order.** No addition stands directly in front of a removal, so in any stretch
of changed lines all removals stand before all additions. No line of such a stretch has the text of the
kept line behind it: on both sides each kept line is the first one with its text behind the lines that are
listed in front of the stretch. -/
theorem diff_ordered (before after : Option Text) :
    (diff before after).IsChain (fun l next => l.kind = .added → next.kind ≠ .removed) ∧
    (∀ front gap rest, diff before after = front ++ (gap ++ rest) → (∀ l ∈ gap, l.IsChanged) →
      gap = gap.filter (·.kind = .removed) ++ gap.filter (·.kind = .added)) ∧
    (∀ front gap kept rest, diff before after = front ++ (gap ++ kept :: rest) →
      (∀ l ∈ gap, l.IsChanged) → kept.kind = .unchanged →
      (∀ l ∈ gap, l.text ≠ kept.text) ∧
      (∃ n : Nat, kept.oldNumber = some (1 + (n : Int)) ∧
        IsLeast (placesBehind (oldLines front).length kept.text (linesOf before)) n) ∧
      ∃ n : Nat, kept.newNumber = some (1 + (n : Int)) ∧
        IsLeast (placesBehind (newLines front).length kept.text (linesOf after)) n) := by
  have hlisted := listed_diff before after
  have hchain := hlisted.isChain
  refine ⟨hchain, ?_, ?_⟩
  · intro front gap rest hdiff hgap
    rw [hdiff] at hchain
    exact eq_filter_append_filter hgap hchain.right_of_append.left_of_append
  · intro front gap kept rest hdiff hgap hkept
    rw [hdiff] at hlisted
    obtain ⟨keep, old, new, hold, hnew, hfrom⟩ := hlisted.split
    obtain ⟨keep', old', new', rfl, rfl, hhere⟩ := hfrom.split
    obtain ⟨holdNumber, hnewNumber, holdHead, hnewHead⟩ := hhere.kept hkept
    have hne := (hfrom.text_ne hgap hkept).2
    refine ⟨hne, ?_, ?_⟩
    · exact exists_isLeast_placesBehind hold (fun l hl => hne l (List.mem_filter.mp hl).1) holdHead
        holdNumber
    · exact exists_isLeast_placesBehind hnew (fun l hl => hne l (List.mem_filter.mp hl).1) hnewHead
        hnewNumber

end Emend.Diff
