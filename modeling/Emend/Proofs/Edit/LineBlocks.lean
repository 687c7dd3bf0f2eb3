import Emend.Proofs.Edit.Anchor
import Mathlib.Data.Set.Card

/-!
# The search by whole lines

The looser search takes the lines of an anchor that are not blank, trims them, and looks for them among
the trimmed lines of a text. `IsBlock` says that they stand there from a line number on; the scan finds
exactly these numbers, in ascending order (`blockHits_eq`), and reports for each the part of the text
that the block takes. In the text such a part starts where a line does, ends where a line does, and is
cut into the lines of the block again (`span_of_block`).
-/

namespace Emend

open Text (Span IsLineStart IsLineEnd lineAt lines unlines closedLines)

namespace Anchor

variable {wanted ls : List Text} {anchor t : Text} {k : Nat}

/-- The lines that an anchor is searched by: those that are not blank, trimmed. -/
def soughtLines (anchor : Text) : List Text :=
  ((lines anchor).filter fun l => !Text.allBlank l).map Text.strip

/-- The lines from number `k` on, as many as are wanted, are the wanted ones when they are trimmed. -/
def IsBlock (wanted ls : List Text) (k : Nat) : Prop :=
  k + wanted.length ≤ ls.length ∧ ((ls.drop k).take wanted.length).map Text.strip = wanted

instance (wanted ls : List Text) (k : Nat) : Decidable (IsBlock wanted ls k) :=
  inferInstanceAs (Decidable (_ ∧ _))

/-- The offset at which line number `k` starts. -/
def lineOffset (ls : List Text) (k : Nat) : Nat := (closedLines (ls.take k)).length

theorem trimmedLines_eq (anchor : Text) : trimmedLines anchor = soughtLines anchor := by
  unfold trimmedLines soughtLines
  rw [List.filter_map]
  refine congrArg (List.map Text.strip) (List.filter_congr fun l _ => ?_)
  show (!(Text.strip l).isEmpty) = !Text.allBlank l
  rw [Bool.eq_iff_iff]
  simp [Text.strip_eq_nil_iff]

/-! ## The scan and the blocks -/

theorem isBlock_zero {l : Text} :
    IsBlock wanted (l :: ls) 0 ↔ ((l :: ls).take wanted.length).map Text.strip = wanted := by
  constructor
  · intro h
    exact h.2
  · intro h
    refine ⟨?_, h⟩
    have hlength := congrArg List.length h
    rw [List.length_map, List.length_take] at hlength
    omega

theorem isBlock_succ {l : Text} : IsBlock wanted (l :: ls) (k + 1) ↔ IsBlock wanted ls k := by
  unfold IsBlock
  rw [List.drop_succ_cons, List.length_cons]
  have hroom : k + 1 + wanted.length ≤ ls.length + 1 ↔ k + wanted.length ≤ ls.length := by omega
  rw [hroom]

theorem lineOffset_succ (l : Text) (ls : List Text) (k : Nat) :
    lineOffset (l :: ls) (k + 1) = l.length + 1 + lineOffset ls k := by
  unfold lineOffset
  rw [List.take_succ_cons, closedLines, List.flatMap_cons, List.length_append, List.length_append,
    List.length_singleton]
  rfl

/-- The part of a text from line `k` on that has as many lines as are wanted, without the line feed at
its end, where the lines start at `pos`. -/
def blockSpan (wanted ls : List Text) (pos k : Nat) : Span :=
  ⟨pos + lineOffset ls k, pos + lineOffset ls (k + wanted.length) - 1⟩

theorem blockSpan_succ (l : Text) (pos : Nat) :
    blockSpan wanted (l :: ls) pos (k + 1) = blockSpan wanted ls (pos + l.length + 1) k := by
  unfold blockSpan
  rw [Nat.add_right_comm k 1, lineOffset_succ, lineOffset_succ]
  congr 1 <;> omega

/-- The numbers of the lines at which blocks begin. -/
def blockStarts (wanted ls : List Text) : List Nat :=
  (List.range ls.length).filter fun k => IsBlock wanted ls k

theorem blockStarts_cons (l : Text) :
    blockStarts wanted (l :: ls) =
      if IsBlock wanted (l :: ls) 0 then 0 :: (blockStarts wanted ls).map Nat.succ
      else (blockStarts wanted ls).map Nat.succ := by
  unfold blockStarts
  rw [List.length_cons, List.range_succ_eq_map, List.filter_cons, List.filter_map]
  have hlater : ((fun k => decide (IsBlock wanted (l :: ls) k)) ∘ Nat.succ) =
      fun k => decide (IsBlock wanted ls k) := by
    funext k
    exact decide_eq_decide.mpr isBlock_succ
  rw [hlater]
  simp only [decide_eq_true_eq]

/-- **The scan by lines** finds a block at each line where one begins, and no other. -/
theorem blockHits_eq (wanted ls : List Text) (pos : Nat) :
    blockHits wanted pos ls = (blockStarts wanted ls).map (blockSpan wanted ls pos) := by
  induction ls generalizing pos with
  | nil => rfl
  | cons l ls ih =>
      -- the blocks further on are those of the rest, each one line later
      have hlater : ((blockStarts wanted ls).map Nat.succ).map (blockSpan wanted (l :: ls) pos) =
          blockHits wanted (pos + l.length + 1) ls := by
        rw [List.map_map, ih]
        exact List.map_congr_left fun k _ => blockSpan_succ l pos
      have hhere : blockSpan wanted (l :: ls) pos 0 =
          ⟨pos, pos + (((l :: ls).take wanted.length).map (·.length + 1)).sum - 1⟩ := by
        unfold blockSpan lineOffset
        rw [Text.length_closedLines, Text.length_closedLines, Nat.zero_add]
        rfl
      rw [blockHits_cons, blockStarts_cons]
      by_cases hblock : IsBlock wanted (l :: ls) 0
      · rw [if_pos (isBlock_zero.mp hblock), if_pos hblock, List.map_cons, hlater, hhere]
      · rw [if_neg (mt isBlock_zero.mpr hblock), if_neg hblock, hlater]

theorem mem_blockStarts (hwanted : wanted ≠ []) : k ∈ blockStarts wanted ls ↔ IsBlock wanted ls k := by
  unfold blockStarts
  rw [List.mem_filter, List.mem_range, decide_eq_true_eq]
  constructor
  · intro h
    exact h.2
  · intro h
    have hsome := List.length_pos_iff.mpr hwanted
    exact ⟨by have hroom := h.1; omega, h⟩

theorem pairwise_blockStarts (wanted ls : List Text) : (blockStarts wanted ls).Pairwise (· < ·) :=
  List.pairwise_lt_range.filter _

/-- The first number is the least one, and all of them are as many as there are blocks. -/
theorem isLeast_of_blockStarts (hwanted : wanted ≠ []) {ks : List Nat}
    (h : blockStarts wanted ls = k :: ks) :
    IsLeast {k | IsBlock wanted ls k} k ∧ {k | IsBlock wanted ls k}.ncard = ks.length + 1 := by
  have hset : {k | IsBlock wanted ls k} = ((k :: ks).toFinset : Set Nat) := by
    ext n
    have hmem : n ∈ k :: ks ↔ IsBlock wanted ls n := h ▸ mem_blockStarts hwanted
    simpa using hmem.symm
  have hascending : (k :: ks).Pairwise (· < ·) := h ▸ pairwise_blockStarts wanted ls
  constructor
  · rw [hset]
    refine ⟨by simp, fun n hn => ?_⟩
    have hmem : n ∈ k :: ks := by simpa using hn
    rcases List.mem_cons.mp hmem with rfl | hn
    · exact le_refl _
    · exact (List.rel_of_pairwise_cons hascending hn).le
  · have hnodup : (k :: ks).Nodup := hascending.imp Nat.ne_of_lt
    rw [hset, Set.ncard_coe_finset, List.toFinset_card_of_nodup hnodup, List.length_cons]

/-! ## Blocks in the text -/

/-- **What lines take of a text.** Lines in a row, the first with number `k`, are the lines of the part
from the start of line `k` to the end of the last of them. -/
theorem span_of_block (hwanted : wanted ≠ []) (hroom : k + wanted.length ≤ (lines t).length) :
    IsLineStart (blockSpan wanted (lines t) 0 k).start t ∧
    lineAt (blockSpan wanted (lines t) 0 k).start t = k ∧
    IsLineEnd (blockSpan wanted (lines t) 0 k).stop t ∧
    lines ((blockSpan wanted (lines t) 0 k).slice t) = ((lines t).drop k).take wanted.length := by
  have hsome := List.length_pos_iff.mpr hwanted
  -- the lines in front, the lines of the block, and the text made of them
  obtain ⟨front, hfront⟩ : ∃ front, (lines t).take k = front := ⟨_, rfl⟩
  obtain ⟨block, hblock⟩ : ∃ block, ((lines t).drop k).take wanted.length = block := ⟨_, rfl⟩
  have hne : block ≠ [] := by
    intro hnil
    have hlength := congrArg List.length hblock
    rw [List.length_take, List.length_drop, hnil, List.length_nil] at hlength
    omega
  have hcut : lines t = front ++ (block ++ ((lines t).drop k).drop wanted.length) := by
    rw [← hfront, ← hblock, List.take_append_drop, List.take_append_drop]
  have hinline : ∀ l ∈ lines t, '\n' ∉ l := fun l hl => Text.not_mem_of_mem_lines hl
  have hfrontInline : ∀ l ∈ front, '\n' ∉ l := fun l hl => hinline l (List.mem_of_mem_take (hfront ▸ hl))
  have hblockInline : ∀ l ∈ block, '\n' ∉ l := fun l hl =>
    hinline l (List.mem_of_mem_drop (List.mem_of_mem_take (hblock ▸ hl)))
  obtain ⟨rest, ht, hrest⟩ := Text.exists_of_lines hne hcut
  have hspan : blockSpan wanted (lines t) 0 k =
      ⟨(closedLines front).length, (closedLines front ++ unlines block).length⟩ := by
    unfold blockSpan lineOffset
    rw [Nat.zero_add, Nat.zero_add, List.take_add, hfront, hblock, Text.closedLines_append,
      Text.closedLines_eq hne, ← List.append_assoc, List.length_append, List.length_singleton,
      Nat.add_sub_cancel]
  rw [hspan]
  dsimp only
  refine ⟨?_, ?_, ?_, ?_⟩
  · rw [ht, Text.isLineStart_append]
    exact Text.getLast?_closedLines front
  · have hcount : front.length = k := by
      rw [← hfront, List.length_take]
      omega
    rw [ht, Text.lineAt_append, Text.count_closedLines hfrontInline, hcount]
  · rw [ht, ← List.append_assoc, Text.isLineEnd_append]
    exact hrest
  · have hslice : (Span.mk (closedLines front).length
        (closedLines front ++ unlines block).length).slice t = unlines block := by
      rw [ht, List.length_append]
      exact Text.slice_append _ _ _
    rw [hslice, Text.lines_unlines hne hblockInline, hblock]

theorem hits_normalized (haystack anchor : Text) :
    hits .normalized haystack anchor =
      if soughtLines anchor = [] then []
      else (blockStarts (soughtLines anchor) (lines haystack)).map
        (blockSpan (soughtLines anchor) (lines haystack) 0) := by
  unfold hits
  dsimp only
  rw [trimmedLines_eq]
  cases soughtLines anchor with
  | nil => rfl
  | cons w ws => exact blockHits_eq (w :: ws) (lines haystack) 0

/-- **The search by whole lines** finds nothing exactly if the anchor is blank or no block of lines of the
text is the one of the anchor when both are trimmed. Otherwise it finds the first such block, as the
whole lines that it has in the text, and counts all of them, also those that overlap. -/
theorem locate_normalized_meaning {haystack : Text} (hhaystack : haystack ≠ []) (hanchor : anchor ≠ []) :
    (locate haystack anchor .normalized = none ↔
      soughtLines anchor = [] ∨ ∀ k, ¬ IsBlock (soughtLines anchor) (lines haystack) k) ∧
    ∀ hit, locate haystack anchor .normalized = some hit →
      ∃ first, IsLeast {k | IsBlock (soughtLines anchor) (lines haystack) k} first ∧
        IsLineStart hit.start haystack ∧ lineAt hit.start haystack = first ∧
        IsLineEnd hit.stop haystack ∧
        lines ((Span.mk hit.start hit.stop).slice haystack) =
          ((lines haystack).drop first).take (soughtLines anchor).length ∧
        hit.occurrences = {k | IsBlock (soughtLines anchor) (lines haystack) k}.ncard := by
  have hhits := hits_normalized haystack anchor
  constructor
  · rw [locate_eq_none_iff hhaystack hanchor, hhits]
    by_cases hsought : soughtLines anchor = []
    · simp [hsought]
    · rw [if_neg hsought, List.map_eq_nil_iff, List.eq_nil_iff_forall_not_mem]
      simp only [mem_blockStarts hsought, hsought, false_or]
  · intro hit hhit
    obtain ⟨rest, hfound, hcount⟩ := hits_of_locate hhit
    rw [hhits] at hfound
    by_cases hsought : soughtLines anchor = []
    · rw [if_pos hsought] at hfound
      cases hfound
    · rw [if_neg hsought] at hfound
      obtain ⟨first, ks, hstarts, hspan, rfl⟩ := List.map_eq_cons_iff.mp hfound
      obtain ⟨hleast, hncard⟩ := isLeast_of_blockStarts hsought hstarts
      obtain ⟨hstart, hline, hstop, hlines⟩ := span_of_block hsought hleast.1.1
      rw [hspan] at hstart hline hstop hlines
      refine ⟨first, hleast, hstart, hline, hstop, hlines, ?_⟩
      rw [hcount, hncard, List.length_map]

/-- The two blocks of this text overlap. -/
theorem locate_normalized_meaning_overlapping :
    locate "x\n x\r\nx".toList "x \n\nx".toList .normalized = some ⟨0, 5, 2, false, .normalized⟩ ∧
    {k | IsBlock (soughtLines "x \n\nx".toList) (lines "x\n x\r\nx".toList) k}.ncard = 2 := by
  have hhit : locate "x\n x\r\nx".toList "x \n\nx".toList .normalized =
      some ⟨0, 5, 2, false, .normalized⟩ := by decide
  obtain ⟨first, -, -, -, -, -, hcount⟩ :=
    (locate_normalized_meaning (by decide) (by decide)).2 _ hhit
  exact ⟨hhit, hcount.symm⟩

end Anchor

end Emend
