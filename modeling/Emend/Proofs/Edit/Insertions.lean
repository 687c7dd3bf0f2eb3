import Emend.Proofs.Edit.Regions

/-!
# Insertions at the ends of lines

An insertion behind a match that ends its line, or in front of a match that starts its line, puts lines
of its own into the text. Its content then begins behind a line feed or ends in front of one: in one of
its own if it has one there (`contentAfter_eq`, `contentBefore_eq`). So the lines of the result are those
in front of the place, those of the content without that line feed, and those behind the place
(`lines_insertAfter`, `lines_insertBefore`).
-/

namespace Emend

open Text (IsLineStart IsLineEnd lineAt lines)

namespace Text

/-- The text without the line feed that it begins with, if it does. -/
def withoutFirstFeed (t : Text) : Text := if t.head? = some '\n' then t.tail else t

/-- The text without the line feed that it ends with, if it does. -/
def withoutLastFeed (t : Text) : Text := if t.getLast? = some '\n' then t.dropLast else t

end Text

namespace Merger

variable {m : Merger} {i : Instruction} {text before rest : Text} {edited : Edited}

/-! ## Content on lines of its own -/

theorem atLineEnd_iff : atLineEnd rest = true ↔ ∀ c ∈ rest.head?, c = '\n' := by
  unfold atLineEnd
  cases rest <;> simp

theorem atLineStart_iff : atLineStart before = true ↔ ∀ c ∈ before.getLast?, c = '\n' := by
  unfold atLineStart
  cases before.getLast? <;> simp

theorem contentAfter_eq (h : ∀ c ∈ rest.head?, c = '\n') (content : Text) :
    contentAfter rest content = '\n' :: content.withoutFirstFeed := by
  unfold contentAfter Text.withoutFirstFeed
  rw [atLineEnd_iff.mpr h]
  cases content with
  | nil => simp
  | cons c content => by_cases hc : c = '\n' <;> simp [hc]

theorem contentBefore_eq (h : ∀ c ∈ before.getLast?, c = '\n') (content : Text) :
    contentBefore before content = content.withoutLastFeed ++ ['\n'] := by
  unfold contentBefore Text.withoutLastFeed
  rw [atLineStart_iff.mpr h]
  rcases List.eq_nil_or_concat content with rfl | ⟨content, c, rfl⟩
  · simp
  · by_cases hc : c = '\n' <;> simp [hc]

/-! ## The lines of the result -/

theorem lines_insertAfter (h : ∀ c ∈ rest.head?, c = '\n') (content : Text) :
    lines (before ++ contentAfter rest content ++ rest) =
      (lines (before ++ rest)).take (before.count '\n' + 1) ++ lines content.withoutFirstFeed ++
        (lines (before ++ rest)).drop (before.count '\n' + 1) := by
  -- the place cuts the lines of the text in two
  have hcut : lines (before ++ rest) = lines before ++ (lines rest).tail :=
    Text.lines_append_of_head? before h
  have hresult : lines (before ++ contentAfter rest content ++ rest) =
      lines before ++ (lines content.withoutFirstFeed ++ (lines rest).tail) := by
    rw [contentAfter_eq h, List.append_assoc, List.cons_append, Text.lines_append_newline,
      Text.lines_append_of_head? _ h]
  have hfront : (lines before).length = before.count '\n' + 1 := Text.length_lines before
  rw [hresult, hcut, List.take_left' hfront, List.drop_left' hfront, List.append_assoc]

theorem lines_insertBefore (h : ∀ c ∈ before.getLast?, c = '\n') (content : Text) :
    lines (before ++ contentBefore before content ++ rest) =
      (lines (before ++ rest)).take (before.count '\n') ++ lines content.withoutLastFeed ++
        (lines (before ++ rest)).drop (before.count '\n') := by
  have hcut : lines (before ++ rest) = (lines before).dropLast ++ lines rest :=
    Text.lines_append_of_getLast? h rest
  have hresult : lines (before ++ contentBefore before content ++ rest) =
      (lines before).dropLast ++ (lines content.withoutLastFeed ++ lines rest) := by
    rw [contentBefore_eq h, List.append_assoc, List.append_assoc, List.singleton_append,
      Text.lines_append_of_getLast? h, Text.lines_append_newline]
  have hfront : (lines before).dropLast.length = before.count '\n' := by
    rw [List.length_dropLast, Text.length_lines, Nat.add_sub_cancel]
  rw [hresult, hcut, List.take_left' hfront, List.drop_left' hfront, List.append_assoc]

/-! ## From the search to the insertion -/

theorem perform_insertAfter (hop : i.operation = .insertAfter) :
    m.perform i text = (m.locateUnique i .only text i.anchor).map fun hit =>
      .written (text.take hit.stop ++ contentAfter (text.drop hit.stop) (i.content.getD []) ++
        text.drop hit.stop) := by
  unfold perform
  rw [hop]
  cases m.locateUnique i .only text i.anchor <;> rfl

theorem perform_insertBefore (hop : i.operation = .insertBefore) :
    m.perform i text = (m.locateUnique i .only text i.anchor).map fun hit =>
      .written (text.take hit.start ++ contentBefore (text.take hit.start) (i.content.getD []) ++
        text.drop hit.start) := by
  unfold perform
  rw [hop]
  cases m.locateUnique i .only text i.anchor <;> rfl

/-- The instruction inserts at a match, and `write` says what comes of it. -/
theorem exists_of_map {hit? : Except MergeError Match} {write : Match → Edited}
    (h : hit?.map write = .ok edited) : ∃ hit, hit? = .ok hit ∧ edited = write hit := by
  cases hit? with
  | error e => cases h
  | ok hit =>
      cases h
      exact ⟨hit, rfl, rfl⟩

/-- **Insertions leave lines whole.** Behind a match that ends where a line or the text does, on line
`k`, the lines up to `k` are followed by the lines of the content and these by all others; a line feed
that the content begins with is the one in front of it. In front of a match that starts a line it is the
same with the lines before `k`, and with a line feed that the content ends with. -/
theorem apply_keeps_lines (h : m.apply i (some text) = .ok edited) :
    (i.operation = .insertAfter → ∃ hit, m.locateUnique i .only text i.anchor = .ok hit ∧
      (IsLineEnd hit.stop text → ∃ result, edited = .written result ∧
        lines result =
          (lines text).take (lineAt hit.stop text + 1) ++
            lines (i.content.getD []).withoutFirstFeed ++
            (lines text).drop (lineAt hit.stop text + 1))) ∧
    (i.operation = .insertBefore → ∃ hit, m.locateUnique i .only text i.anchor = .ok hit ∧
      (IsLineStart hit.start text → ∃ result, edited = .written result ∧
        lines result =
          (lines text).take (lineAt hit.start text) ++
            lines (i.content.getD []).withoutLastFeed ++
            (lines text).drop (lineAt hit.start text))) := by
  have hperform := perform_of_apply h
  constructor
  · intro hop
    rw [perform_insertAfter hop] at hperform
    obtain ⟨hit, hhit, hedited⟩ := exists_of_map hperform
    refine ⟨hit, hhit, fun hend => ⟨_, hedited, ?_⟩⟩
    have hbound := (bounds_of_locateUnique hhit).2
    obtain ⟨before, rest, rfl, hbefore⟩ := Text.exists_cut hbound
    rw [← hbefore] at hend ⊢
    rw [Text.isLineEnd_append] at hend
    rw [List.take_left, List.drop_left, Text.lineAt_append]
    exact lines_insertAfter hend _
  · intro hop
    rw [perform_insertBefore hop] at hperform
    obtain ⟨hit, hhit, hedited⟩ := exists_of_map hperform
    refine ⟨hit, hhit, fun hstart => ⟨_, hedited, ?_⟩⟩
    obtain ⟨horder, hstop⟩ := bounds_of_locateUnique hhit
    obtain ⟨before, rest, rfl, hbefore⟩ := Text.exists_cut (horder.trans hstop)
    rw [← hbefore] at hstart ⊢
    rw [Text.isLineStart_append] at hstart
    rw [List.take_left, List.drop_left, Text.lineAt_append]
    exact lines_insertBefore hstart _

/-- The last line has no line feed behind it, and the content of the other insertion has one. -/
theorem apply_keeps_lines_at_ends :
    (∃ hit, ({} : Merger).locateUnique
          ⟨"a.txt".toList, .insertAfter, some "new".toList, some "two".toList, none, none⟩
          .only "one\ntwo".toList (some "two".toList) = .ok hit ∧
      IsLineEnd hit.stop "one\ntwo".toList ∧
      ∃ result, Edited.written "one\ntwo\nnew".toList = .written result ∧
        lines result = (lines "one\ntwo".toList).take (lineAt hit.stop "one\ntwo".toList + 1) ++
          lines (Text.withoutFirstFeed "new".toList) ++
          (lines "one\ntwo".toList).drop (lineAt hit.stop "one\ntwo".toList + 1)) ∧
    (∃ hit, ({} : Merger).locateUnique
          ⟨"a.txt".toList, .insertBefore, some "new\n".toList, some "one".toList, none, none⟩
          .only "one\ntwo".toList (some "one".toList) = .ok hit ∧
      IsLineStart hit.start "one\ntwo".toList ∧
      ∃ result, Edited.written "new\none\ntwo".toList = .written result ∧
        lines result = (lines "one\ntwo".toList).take (lineAt hit.start "one\ntwo".toList) ++
          lines (Text.withoutLastFeed "new\n".toList) ++
          (lines "one\ntwo".toList).drop (lineAt hit.start "one\ntwo".toList)) := by
  constructor
  · have happlied : ({} : Merger).apply
        ⟨"a.txt".toList, .insertAfter, some "new".toList, some "two".toList, none, none⟩
        (some "one\ntwo".toList) = .ok (.written "one\ntwo\nnew".toList) := by decide
    have hfound : ({} : Merger).locateUnique
        ⟨"a.txt".toList, .insertAfter, some "new".toList, some "two".toList, none, none⟩
        .only "one\ntwo".toList (some "two".toList) = .ok ⟨4, 7, 1, true, .exact⟩ := by decide
    obtain ⟨hit, hhit, hlines⟩ := (apply_keeps_lines happlied).1 rfl
    obtain rfl := Except.ok.inj (hfound.symm.trans hhit)
    exact ⟨_, hhit, by decide, hlines (by decide)⟩
  · have happlied : ({} : Merger).apply
        ⟨"a.txt".toList, .insertBefore, some "new\n".toList, some "one".toList, none, none⟩
        (some "one\ntwo".toList) = .ok (.written "new\none\ntwo".toList) := by decide
    have hfound : ({} : Merger).locateUnique
        ⟨"a.txt".toList, .insertBefore, some "new\n".toList, some "one".toList, none, none⟩
        .only "one\ntwo".toList (some "one".toList) = .ok ⟨0, 3, 1, true, .exact⟩ := by decide
    obtain ⟨hit, hhit, hlines⟩ := (apply_keeps_lines happlied).2 rfl
    obtain rfl := Except.ok.inj (hfound.symm.trans hhit)
    exact ⟨_, hhit, by decide, hlines (by decide)⟩

end Merger

end Emend
