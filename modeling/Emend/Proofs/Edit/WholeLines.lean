import Emend.Proofs.Edit.LineBlocks

/-!
# Anchors that stand as whole lines

An anchor may stand in a text from the start of a line to the end of one. Its lines are then lines of the
text in a row (`exists_of_standsAsLines`). The search by whole lines asks for less where it trims the
lines, so that it does not matter how they are indented (`isBlock_congr`), and for more where it leaves
out the blank ones of the anchor: those that are left have to stand in a row in the text. They do if the
anchor has blank lines at its ends only (`exists_isBlock_of_isSolid`).
-/

namespace Emend

open Text (OccursAt IsLineStart IsLineEnd lines allBlank strip)

namespace Anchor

variable {ls ms wanted : List Text} {anchor t u : Text} {n k : Nat} {hit : Match}

/-- The anchor stands at the offset, from the start of a line to the end of one. -/
def StandsAsLines (anchor : Text) (n : Nat) (t : Text) : Prop :=
  OccursAt anchor n t ∧ IsLineStart n t ∧ IsLineEnd (n + anchor.length) t

instance (anchor : Text) (n : Nat) (t : Text) : Decidable (StandsAsLines anchor n t) :=
  inferInstanceAs (Decidable (_ ∧ _))

/-- The texts have the same lines but for the blank characters at the ends of lines. -/
def IsReindented (t u : Text) : Prop := (lines t).map strip = (lines u).map strip

instance (t u : Text) : Decidable (IsReindented t u) := inferInstanceAs (Decidable (_ = _))

/-- The lines without the blank ones at the two ends of the list. -/
def innerLines (ls : List Text) : List Text :=
  ((ls.dropWhile allBlank).reverse.dropWhile allBlank).reverse

/-- Blank lines stand at the two ends of the list only. -/
def IsSolid (ls : List Text) : Prop := ∀ l ∈ innerLines ls, allBlank l = false

instance (ls : List Text) : Decidable (IsSolid ls) := inferInstanceAs (Decidable (∀ l ∈ _, _))

/-! ## Lines of the anchor and of the text -/

/-- What stands as whole lines is lines of the text in a row. -/
theorem exists_of_standsAsLines (h : StandsAsLines anchor n t) :
    ∃ before behind, lines t = before ++ (lines anchor ++ behind) := by
  obtain ⟨⟨before, behind, rfl, rfl⟩, hstart, hend⟩ := h
  rw [Text.isLineStart_append] at hstart
  rw [← List.length_append, ← List.append_assoc, Text.isLineEnd_append] at hend
  refine ⟨(lines before).dropLast, (lines behind).tail, ?_⟩
  rw [Text.lines_append_of_getLast? hstart, Text.lines_append_of_head? anchor hend]

theorem exists_innerLines (ls : List Text) :
    ∃ above below, ls = above ++ (innerLines ls ++ below) ∧ (∀ l ∈ above, allBlank l = true) ∧
      ∀ l ∈ below, allBlank l = true := by
  refine ⟨ls.takeWhile allBlank, ((ls.dropWhile allBlank).reverse.takeWhile allBlank).reverse, ?_, ?_, ?_⟩
  · rw [innerLines, ← List.reverse_append, List.takeWhile_append_dropWhile, List.reverse_reverse,
      List.takeWhile_append_dropWhile]
  · intro l hl
    exact List.mem_takeWhile_imp hl
  · intro l hl
    exact List.mem_takeWhile_imp (List.mem_reverse.mp hl)

theorem filter_of_allBlank (h : ∀ l ∈ ls, allBlank l = true) :
    ls.filter (fun l => !allBlank l) = [] := by
  rw [List.filter_eq_nil_iff]
  intro l hl
  simp [h l hl]

/-- Lines in a row are a block where they stand. -/
theorem isBlock_append (front block behind : List Text) :
    IsBlock (block.map strip) (front ++ (block ++ behind)) front.length := by
  refine ⟨?_, ?_⟩
  · simp only [List.length_append, List.length_map]
    omega
  · rw [List.drop_left, List.length_map, List.take_left]

/-- **An anchor of solid lines** that stands as whole lines is a block of the text there. -/
theorem exists_isBlock_of_isSolid (hsolid : IsSolid (lines anchor)) (h : StandsAsLines anchor n t) :
    ∃ k, IsBlock (soughtLines anchor) (lines t) k := by
  obtain ⟨before, behind, ht⟩ := exists_of_standsAsLines h
  obtain ⟨above, below, hanchor, habove, hbelow⟩ := exists_innerLines (lines anchor)
  have hsought : soughtLines anchor = (innerLines (lines anchor)).map strip := by
    have hkept : (innerLines (lines anchor)).filter (fun l => !allBlank l) = innerLines (lines anchor) :=
      List.filter_eq_self.mpr fun l hl => by simp [hsolid l hl]
    unfold soughtLines
    conv_lhs => rw [hanchor]
    rw [List.filter_append, List.filter_append, filter_of_allBlank habove,
      filter_of_allBlank hbelow, hkept, List.nil_append, List.append_nil]
  have htext : lines t = (before ++ above) ++ (innerLines (lines anchor) ++ (below ++ behind)) := by
    rw [ht]
    conv_lhs => rw [hanchor]
    simp only [List.append_assoc]
  rw [hsought, htext]
  exact ⟨_, isBlock_append _ _ _⟩

/-! ## Re-indented lines -/

theorem length_eq_of_trimmed (h : ls.map strip = ms.map strip) : ls.length = ms.length := by
  have hsame := congrArg List.length h
  rwa [List.length_map, List.length_map] at hsame

/-- Blocks are found by what the lines are when they are trimmed. -/
theorem isBlock_congr (h : ls.map strip = ms.map strip) :
    IsBlock wanted ls k ↔ IsBlock wanted ms k := by
  have hlength := length_eq_of_trimmed h
  unfold IsBlock
  rw [List.map_take, List.map_drop, h, hlength, ← List.map_drop, ← List.map_take]

theorem blockStarts_congr (h : ls.map strip = ms.map strip) :
    blockStarts wanted ls = blockStarts wanted ms := by
  have hlength := length_eq_of_trimmed h
  unfold blockStarts
  rw [hlength]
  exact List.filter_congr fun k _ => decide_eq_decide.mpr (isBlock_congr h)

/-! ## What the search finds -/

theorem soughtLines_ne_nil_iff : soughtLines anchor ≠ [] ↔ ∃ l ∈ lines anchor, allBlank l = false := by
  unfold soughtLines
  rw [ne_eq, List.map_eq_nil_iff, List.filter_eq_nil_iff]
  simp

/-- The lines that are sought are not empty. -/
theorem ne_nil_of_mem_soughtLines {l : Text} (h : l ∈ soughtLines anchor) : l ≠ [] := by
  obtain ⟨m, hm, rfl⟩ := List.mem_map.mp h
  rw [ne_eq, Text.strip_eq_nil_iff]
  simpa using (List.mem_filter.mp hm).2

/-- The empty text has no block. -/
theorem blockStarts_lines_nil (hsought : soughtLines anchor ≠ []) :
    blockStarts (soughtLines anchor) (lines []) = [] := by
  refine List.filter_eq_nil_iff.mpr fun k _ hblock => ?_
  have htrimmed := (decide_eq_true_eq.mp hblock).2
  obtain ⟨l, hl⟩ := List.exists_mem_of_ne_nil _ hsought
  rw [← htrimmed] at hl
  obtain ⟨m, hm, hstrip⟩ := List.mem_map.mp hl
  have hline : m ∈ lines [] := List.mem_of_mem_drop (List.mem_of_mem_take hm)
  obtain rfl : m = [] := List.mem_singleton.mp hline
  rw [htrimmed] at hl
  exact ne_nil_of_mem_soughtLines hl hstrip.symm

/-- What is found and how often says which blocks there are. -/
theorem occurrences_of_locate_normalized (hsought : soughtLines anchor ≠ []) (t : Text) :
    (locate t anchor .normalized).map (·.occurrences) =
      if blockStarts (soughtLines anchor) (lines t) = [] then none
      else some (blockStarts (soughtLines anchor) (lines t)).length := by
  by_cases ht : t = []
  · rw [ht, blockStarts_lines_nil hsought, if_pos rfl]
    unfold locate
    simp
  · have hanchor : anchor ≠ [] := by
      rintro rfl
      exact hsought rfl
    have hhits := hits_normalized t anchor
    rw [if_neg hsought] at hhits
    cases hlocate : locate t anchor .normalized with
    | none =>
        have hnone := (locate_eq_none_iff ht hanchor).mp hlocate
        rw [hhits, List.map_eq_nil_iff] at hnone
        rw [hnone, if_pos rfl]
        rfl
    | some hit =>
        obtain ⟨rest, hfound, hcount⟩ := hits_of_locate hlocate
        rw [hhits] at hfound
        have hlength := congrArg List.length hfound
        rw [List.length_map, List.length_cons, ← hcount] at hlength
        have hne : blockStarts (soughtLines anchor) (lines t) ≠ [] := by
          intro hnone
          rw [hnone] at hfound
          cases hfound
        rw [if_neg hne, hlength]
        rfl

/-- Re-indenting the lines of a text does not change how often an anchor is found. -/
theorem occurrences_of_isReindented (hsought : soughtLines anchor ≠ []) (h : IsReindented t u) :
    (locate u anchor .normalized).map (·.occurrences) =
      (locate t anchor .normalized).map (·.occurrences) := by
  rw [occurrences_of_locate_normalized hsought, occurrences_of_locate_normalized hsought,
    blockStarts_congr h]

theorem exists_locate_normalized_iff (hsought : soughtLines anchor ≠ []) (t : Text) :
    (∃ hit, locate t anchor .normalized = some hit) ↔
      ∃ k, IsBlock (soughtLines anchor) (lines t) k := by
  have hcount := occurrences_of_locate_normalized hsought t
  constructor
  · rintro ⟨hit, hhit⟩
    rw [hhit] at hcount
    cases hstarts : blockStarts (soughtLines anchor) (lines t) with
    | nil =>
        rw [hstarts] at hcount
        cases hcount
    | cons k ks => exact ⟨k, (mem_blockStarts hsought).mp (hstarts ▸ List.mem_cons_self)⟩
  · rintro ⟨k, hk⟩
    have hne := List.ne_nil_of_mem ((mem_blockStarts hsought).mpr hk)
    rw [if_neg hne] at hcount
    obtain ⟨hit, hhit, -⟩ := Option.map_eq_some_iff.mp hcount
    exact ⟨hit, hhit⟩

/-- **Whole lines and the looser search.** Where an anchor that is not blank stands as whole lines, the
search by whole lines finds it if no blank line of it stands between two others, and otherwise exactly if
its lines without the blank ones stand in a row somewhere in the text. Re-indenting the lines of the text
changes neither this nor how often it is found. -/
theorem locate_normalized_of_lines (hanchor : ∃ l ∈ lines anchor, allBlank l = false)
    (hstands : StandsAsLines anchor n t) (hsame : IsReindented t u) :
    (IsSolid (lines anchor) → ∃ hit, locate u anchor .normalized = some hit) ∧
    ((∃ hit, locate u anchor .normalized = some hit) ↔
      ∃ k, IsBlock (soughtLines anchor) (lines t) k) ∧
    (locate u anchor .normalized).map (·.occurrences) =
      (locate t anchor .normalized).map (·.occurrences) := by
  have hsought := soughtLines_ne_nil_iff.mpr hanchor
  have hiff : (∃ hit, locate u anchor .normalized = some hit) ↔
      ∃ k, IsBlock (soughtLines anchor) (lines t) k := by
    rw [exists_locate_normalized_iff hsought]
    exact exists_congr fun k => (isBlock_congr hsame).symm
  refine ⟨fun hsolid => ?_, hiff, occurrences_of_isReindented hsought hsame⟩
  exact hiff.mpr (exists_isBlock_of_isSolid hsolid hstands)

/-- The anchor has blank lines at both ends, and the text is indented more deeply where it is searched. -/
theorem locate_normalized_of_lines_indented :
    StandsAsLines "\na\n b\n".toList 2 "x\n\na\n b\n\ny".toList ∧
    IsReindented "x\n\na\n b\n\ny".toList "\tx\n\n\ta\n\t\tb\n \n\ty".toList ∧
    ∃ hit, locate "\tx\n\n\ta\n\t\tb\n \n\ty".toList "\na\n b\n".toList .normalized = some hit := by
  have hstands : StandsAsLines "\na\n b\n".toList 2 "x\n\na\n b\n\ny".toList := by decide
  have hsame : IsReindented "x\n\na\n b\n\ny".toList "\tx\n\n\ta\n\t\tb\n \n\ty".toList := by decide
  exact ⟨hstands, hsame,
    (locate_normalized_of_lines ⟨"a".toList, by decide, by decide⟩ hstands hsame).1 (by decide)⟩

/-- A blank line inside an anchor that stands as whole lines can keep it from being found. -/
theorem not_found_with_blank_line :
    ¬ ∀ (anchor t : Text) (n : Nat), (∃ l ∈ lines anchor, allBlank l = false) →
      StandsAsLines anchor n t → ∃ hit, locate t anchor .normalized = some hit := by
  intro hfound
  obtain ⟨hit, hhit⟩ :=
    hfound "a\n\nb".toList "a\n\nb".toList 0 ⟨"a".toList, by decide, by decide⟩ (by decide)
  have hnone : locate "a\n\nb".toList "a\n\nb".toList .normalized = none := by decide
  rw [hnone] at hhit
  cases hhit

end Anchor

end Emend
