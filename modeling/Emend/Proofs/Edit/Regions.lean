import Emend.Edit.Merge
import Emend.Proofs.Edit.Anchor
import Mathlib.Logic.ExistsUnique
import Mathlib.Order.Bounds.Basic

/-!
# Edits at anchors

Every edit at an anchor starts with a search for its first anchor, and what this search refuses the edit
refuses. An anchor that can be found exactly is never searched more loosely, so one that stands there
several times is ambiguous under every policy, and one that stands there once is found where it stands.

The region of an edit between two anchors begins where the match of the first begins and ends where the
match of the second ends, the second being searched from the beginning of the first on.
-/

namespace Emend

open Text (Span OccursAt occurrences packings)

/-- The anchor that the operation searches first. -/
def Operation.firstAnchor : Operation → AnchorRole
  | findReplace | deleteContent => .start
  | create | replace | deleteFile | insertBefore | insertAfter => .only

/-- What the operation puts in the place of a region. -/
def Instruction.substitute (i : Instruction) : Text :=
  if i.operation = .findReplace then i.content.getD [] else []

namespace Merger

variable {m : Merger} {i : Instruction} {role : AnchorRole} {text anchor : Text} {hit : Match}

/-! ## From the search to the edit -/

/-- What is found exactly is not searched more loosely. -/
theorem search_of_exact (hmode : i.mode = none ∨ i.mode = some .exact)
    (h : locate text anchor .exact = some hit) : m.search i text anchor = some hit := by
  unfold search
  rcases hmode with hmode | hmode
  · rw [hmode]
    dsimp only
    rw [locateByPolicy, h]
  · rw [hmode]
    exact h

theorem locateUnique_of_search (hanchor : anchor ≠ []) (h : m.search i text anchor = some hit) :
    m.locateUnique i role text (some anchor) =
      if hit.occurrences = 1 then .ok hit else .error (.anchorAmbiguous role hit.occurrences) := by
  cases anchor with
  | nil => exact absurd rfl hanchor
  | cons c anchor =>
      unfold locateUnique
      dsimp only [Option.getD_some]
      rw [h]

theorem locate_of_search (h : m.search i text anchor = some hit) :
    ∃ mode, locate text anchor mode = some hit := by
  unfold search at h
  split at h
  · exact ⟨_, h⟩
  · exact locate_of_locateByPolicy h

theorem search_of_locateUnique {anchor : Option Text}
    (h : m.locateUnique i role text anchor = .ok hit) :
    ∃ a, m.search i text a = some hit ∧ hit.occurrences = 1 := by
  unfold locateUnique at h
  split at h
  · cases h
  · split at h
    · cases h
    · rename_i hsearch
      split at h
      · rename_i hone
        cases h
        exact ⟨_, hsearch, hone⟩
      · cases h

/-- What is found once lies within the text. -/
theorem bounds_of_locateUnique {anchor : Option Text} (h : m.locateUnique i role text anchor = .ok hit) :
    hit.start ≤ hit.stop ∧ hit.stop ≤ text.length := by
  obtain ⟨a, hsearch, -⟩ := search_of_locateUnique h
  obtain ⟨mode, hlocate⟩ := locate_of_search hsearch
  exact bounds_of_locate hlocate

/-- What is searched for a region, and where. -/
theorem region_eq_ok_iff {region : Span} : m.region i text = .ok region ↔
    ∃ first last, m.locateUnique i .start text i.anchor = .ok first ∧
      m.locateUnique i .stop (text.drop first.start) i.anchorEnd = .ok last ∧
      region = ⟨first.start, first.start + last.stop⟩ := by
  unfold Merger.region
  constructor
  · intro h
    cases hfirst : m.locateUnique i .start text i.anchor with
    | error e =>
        rw [hfirst] at h
        cases h
    | ok first =>
        rw [hfirst] at h
        dsimp only [bind, Except.bind] at h
        cases hlast : m.locateUnique i .stop (text.drop first.start) i.anchorEnd with
        | error e =>
            rw [hlast] at h
            cases h
        | ok last =>
            rw [hlast] at h
            cases h
            exact ⟨first, last, rfl, hlast, rfl⟩
  · rintro ⟨first, last, hfirst, hlast, rfl⟩
    rw [hfirst]
    dsimp only [bind, Except.bind]
    rw [hlast]
    rfl

/-- An operation that is not refused and finds a text to search is carried out on it. -/
theorem apply_of_text (hsupported : i.operation ∉ m.unsupported) (htext : text ≠ []) :
    m.apply i (some text) = m.perform i text := by
  unfold apply
  dsimp only [Option.getD_some]
  rw [if_neg (by simpa using hsupported), if_neg (by simp [htext])]

/-- An edit at an anchor that succeeds is not refused, and finds a text to search. -/
theorem text_of_apply {edited : Edited} (hop : i.operation.requiresAnchor = true)
    (h : m.apply i (some text) = .ok edited) : i.operation ∉ m.unsupported ∧ text ≠ [] := by
  unfold apply at h
  dsimp only [Option.getD_some] at h
  split at h
  · cases h
  · rename_i hsupported
    split at h
    · cases h
    · rename_i htext
      exact ⟨by simpa using hsupported, by simpa [hop] using htext⟩

/-- What is applied is carried out. -/
theorem perform_of_apply {edited : Edited} (h : m.apply i (some text) = .ok edited) :
    m.perform i text = .ok edited := by
  unfold apply at h
  dsimp only [Option.getD_some] at h
  split at h
  · cases h
  · split at h
    · cases h
    · exact h

/-- Where the first anchor cannot be used, nothing is edited. -/
theorem perform_of_first_error (hop : i.operation.requiresAnchor = true) {e : MergeError}
    (h : m.locateUnique i i.operation.firstAnchor text i.anchor = .error e) :
    m.perform i text = .error e := by
  unfold perform
  cases hcase : i.operation with
  | create | replace | deleteFile =>
      rw [hcase] at hop
      cases hop
  | insertBefore | insertAfter =>
      rw [hcase, Operation.firstAnchor] at h
      dsimp only
      rw [h]
      rfl
  | findReplace | deleteContent =>
      rw [hcase, Operation.firstAnchor] at h
      dsimp only
      rw [region, h]
      rfl

/-- An edit between two anchors splices its region. -/
theorem perform_of_two_anchors (hop : i.operation = .findReplace ∨ i.operation = .deleteContent) :
    m.perform i text =
      (m.region i text).map fun region => .written (splice text region i.substitute) := by
  unfold perform Instruction.substitute
  rcases hop with hop | hop
  all_goals
    rw [hop]
    cases m.region i text <;> rfl

end Merger

/-! ## Anchors that stand at several places -/

/-- **Exact anchors and ambiguity.** An exact search finds nothing exactly if the anchor is no part of
the text. Otherwise it finds the least offset at which the anchor stands, the anchor is what the text has
there, and the occurrences it reports are as many as can be without two of them having a character in
common. If these are more than one, an edit at the anchor is refused as ambiguous with their number,
whatever the policy. -/
theorem locate_exact_meaning {haystack anchor : Text} (hhaystack : haystack ≠ [])
    (hanchor : anchor ≠ []) :
    (locate haystack anchor .exact = none ↔ ¬ anchor <:+: haystack) ∧
    (∀ hit, locate haystack anchor .exact = some hit →
      IsLeast {n | OccursAt anchor n haystack} hit.start ∧
      (Span.mk hit.start hit.stop).slice haystack = anchor ∧
      IsGreatest (packings (occurrences anchor haystack)) hit.occurrences) ∧
    ∀ (policy : AnchorPolicy) (i : Instruction) (k : Nat), i.operation.requiresAnchor = true →
      i.anchor = some anchor → i.mode ≠ some .normalized → i.mode ≠ some .whitespace →
      1 < k → IsGreatest (packings (occurrences anchor haystack)) k →
      ({ policy } : Merger).apply i (some haystack) =
        .error (.anchorAmbiguous i.operation.firstAnchor k) := by
  refine ⟨locate_exact_eq_none_iff hhaystack hanchor, fun hit hhit => ?_, ?_⟩
  · exact ⟨isLeast_start_of_locate hhit,
      Text.slice_of_mem_occurrences (mem_occurrences_of_locate hhit),
      isGreatest_occurrences_of_locate hhit⟩
  · intro policy i k hop hi hnormalized hwhitespace hk hgreatest
    have hmode : i.mode = none ∨ i.mode = some .exact := by
      rcases hcase : i.mode with - | (- | - | -) <;> simp_all
    have hpart : anchor <:+: haystack := Text.isInfix_of_mem_packings (by omega) hgreatest.1
    cases hhit : locate haystack anchor .exact with
    | none => exact absurd hpart ((locate_exact_eq_none_iff hhaystack hanchor).mp hhit)
    | some hit =>
        have hcount : hit.occurrences = k :=
          (isGreatest_occurrences_of_locate hhit).unique hgreatest
        rw [Merger.apply_of_text List.not_mem_nil hhaystack]
        refine Merger.perform_of_first_error hop ?_
        rw [hi, Merger.locateUnique_of_search hanchor (Merger.search_of_exact hmode hhit),
          if_neg (by omega), hcount]

/-- The four places of the anchor in this text are two, as it overlaps itself. -/
theorem locate_exact_meaning_overlapping :
    locate "aaaaa".toList "aa".toList .exact = some ⟨0, 2, 2, true, .exact⟩ ∧
    ({ policy := .exactThenNormalized } : Merger).apply
        ⟨"a.txt".toList, .findReplace, some [], some "aa".toList, some "b".toList, none⟩
        (some "aaaaa".toList) =
      .error (.anchorAmbiguous .start 2) := by
  have hmeaning := @locate_exact_meaning "aaaaa".toList "aa".toList (by decide) (by decide)
  have hhit : locate "aaaaa".toList "aa".toList .exact = some ⟨0, 2, 2, true, .exact⟩ := by decide
  refine ⟨hhit, ?_⟩
  exact hmeaning.2.2 _ ⟨_, .findReplace, _, _, _, _⟩ 2 rfl rfl (by decide) (by decide) (by decide)
    (hmeaning.2.1 _ hhit).2.2

/-! ## Anchors that stand at one place -/

namespace Merger

variable {m : Merger} {i : Instruction} {text anchor : Text}

/-- An anchor that stands at one offset only is found there. -/
theorem locateUnique_of_unique (role : AnchorRole) (hmode : i.mode = none ∨ i.mode = some .exact)
    (hanchor : anchor ≠ []) {n : Nat} (hoccurs : OccursAt anchor n text)
    (hunique : ∃! n, OccursAt anchor n text) :
    ∃ hit, m.locateUnique i role text (some anchor) = .ok hit ∧
      hit.start = n ∧ hit.stop = n + anchor.length := by
  obtain ⟨hit, hhit, hstart, hstop, hone⟩ :=
    locate_exact_of_unique hanchor hoccurs fun n' h => hunique.unique h hoccurs
  refine ⟨hit, ?_, hstart, hstop⟩
  rw [locateUnique_of_search hanchor (search_of_exact hmode hhit), if_pos hone]

/-- The region between two such anchors. -/
theorem region_of_unique {before first mid last after : Text}
    (hmode : i.mode = none ∨ i.mode = some .exact) (hfirst : first ≠ []) (hlast : last ≠ [])
    (hanchor : i.anchor = some first) (hanchorEnd : i.anchorEnd = some last)
    (honce : ∃! n, OccursAt first n (before ++ (first ++ mid ++ last ++ after)))
    (honceBehind : ∃! n, OccursAt last n (first ++ mid ++ last ++ after)) :
    m.region i (before ++ (first ++ mid ++ last ++ after)) =
      .ok ⟨before.length, before.length + (first ++ mid ++ last).length⟩ := by
  have hoccurs : OccursAt first before.length (before ++ (first ++ mid ++ last ++ after)) :=
    ⟨before, mid ++ last ++ after, by simp only [List.append_assoc], rfl⟩
  have hoccursBehind : OccursAt last (first ++ mid).length (first ++ mid ++ last ++ after) :=
    ⟨first ++ mid, after, List.append_assoc _ _ _, rfl⟩
  obtain ⟨hit, hhit, hstart, -⟩ := locateUnique_of_unique (m := m) .start hmode hfirst hoccurs honce
  obtain ⟨hitBehind, hhitBehind, -, hstop⟩ :=
    locateUnique_of_unique (m := m) .stop hmode hlast hoccursBehind honceBehind
  -- the rest of the text that is searched for the second begins with the first
  have hbehind : (before ++ (first ++ mid ++ last ++ after)).drop hit.start =
      first ++ mid ++ last ++ after := by
    rw [hstart, List.drop_left]
  refine region_eq_ok_iff.mpr ⟨hit, hitBehind, hanchor ▸ hhit, ?_, ?_⟩
  · rw [hbehind, hanchorEnd]
    exact hhitBehind
  · have hlength : (first ++ mid ++ last).length = (first ++ mid).length + last.length :=
      List.length_append
    rw [hstart, hstop, hlength]

theorem splice_append (before region after content : Text) :
    splice (before ++ (region ++ after)) ⟨before.length, before.length + region.length⟩ content =
      before ++ content ++ after := by
  unfold splice
  dsimp only
  rw [List.take_left, ← List.drop_drop, List.drop_left, List.drop_left]

/-- **Splicing.** Between two anchors, the first of which stands at one place in the text, the second at
one place from the first on, exactly what reaches from the first to the second is replaced or deleted,
whatever the policy. -/
theorem apply_between (policy : AnchorPolicy) {path : Text} {mode : Option SearchMode}
    (hmode : mode = none ∨ mode = some .exact) {before first mid last after : Text}
    (hfirst : first ≠ []) (hlast : last ≠ [])
    (honce : ∃! n, OccursAt first n (before ++ first ++ mid ++ last ++ after))
    (honceBehind : ∃! n, OccursAt last n (first ++ mid ++ last ++ after)) (content : Text) :
    ({ policy } : Merger).apply ⟨path, .findReplace, some content, some first, some last, mode⟩
        (some (before ++ first ++ mid ++ last ++ after)) = .ok (.written (before ++ content ++ after)) ∧
    ∀ content?, ({ policy } : Merger).apply ⟨path, .deleteContent, content?, some first, some last, mode⟩
        (some (before ++ first ++ mid ++ last ++ after)) = .ok (.written (before ++ after)) := by
  have htext : before ++ first ++ mid ++ last ++ after = before ++ (first ++ mid ++ last ++ after) := by
    simp only [List.append_assoc]
  have hne : before ++ (first ++ mid ++ last ++ after) ≠ [] := by simp [hfirst]
  rw [htext] at honce ⊢
  have hregion (operation : Operation) (content? : Option Text) :=
    region_of_unique (m := { policy })
      (i := ⟨path, operation, content?, some first, some last, mode⟩)
      hmode hfirst hlast rfl rfl honce honceBehind
  constructor
  · rw [apply_of_text List.not_mem_nil hne, perform_of_two_anchors (.inl rfl), hregion]
    exact congrArg (Except.ok ∘ Edited.written) (splice_append _ _ _ _)
  · intro content?
    have hsplice := splice_append before (first ++ mid ++ last) after []
    rw [List.append_nil] at hsplice
    rw [apply_of_text List.not_mem_nil hne, perform_of_two_anchors (.inr rfl), hregion]
    exact congrArg (Except.ok ∘ Edited.written) hsplice

/-- The last anchor also stands before the first. -/
theorem apply_between_also_before :
    ({ policy := .exactThenWhitespace } : Merger).apply
        ⟨"a.txt".toList, .findReplace, some "new".toList, some "a".toList, some "b".toList, none⟩
        (some ("b ".toList ++ "a".toList ++ " old ".toList ++ "b".toList ++ "\n".toList)) =
      .ok (.written ("b ".toList ++ "new".toList ++ "\n".toList)) := by
  have honce : ∃! n, OccursAt "a".toList n
      ("b ".toList ++ "a".toList ++ " old ".toList ++ "b".toList ++ "\n".toList) := by
    exact Text.existsUnique_occursAt (n := 2) (by decide) (by decide)
  have honceBehind : ∃! n, OccursAt "b".toList n
      ("a".toList ++ " old ".toList ++ "b".toList ++ "\n".toList) := by
    exact Text.existsUnique_occursAt (n := 6) (by decide) (by decide)
  exact (apply_between .exactThenWhitespace (.inl rfl) (by decide) (by decide)
    honce honceBehind "new".toList).1

end Merger

/-! ## What is removed with the anchors -/

/-- The span of a match found in the rest of a text behind `offset`. -/
def Match.spanAt (hit : Match) (offset : Nat) : Span := ⟨offset + hit.start, offset + hit.stop⟩

namespace Merger

variable {m : Merger} {i : Instruction} {text : Text} {edited : Edited}

/-- The instruction edits the text between the matches of its two anchors, and removes the region. -/
structure Removes (m : Merger) (i : Instruction) (text : Text) (edited : Edited)
    (first last : Match) (region : Span) : Prop where
  first_found : m.locateUnique i .start text i.anchor = .ok first
  /-- The end anchor is found in the rest of the text that begins with the match of the start anchor. -/
  last_found : m.locateUnique i .stop (text.drop first.start) i.anchorEnd = .ok last
  edited_eq : edited = .written (splice text region i.substitute)

theorem region_of_apply (hop : i.operation = .findReplace ∨ i.operation = .deleteContent)
    (h : m.apply i (some text) = .ok edited) :
    ∃ region, m.region i text = .ok region ∧ edited = .written (splice text region i.substitute) := by
  have hperform := perform_of_apply h
  rw [perform_of_two_anchors hop] at hperform
  cases hregion : m.region i text with
  | error e =>
      rw [hregion] at hperform
      cases hperform
  | ok region =>
      rw [hregion] at hperform
      cases hperform
      exact ⟨region, rfl, rfl⟩

/-- **The region of an edit** runs from the beginning of the match of the start anchor to the end of the
match of the end anchor, within the text. The match of the end anchor goes whole; so does that of the
start anchor, unless the other lies inside it and ends before it does. -/
theorem apply_removes (hop : i.operation = .findReplace ∨ i.operation = .deleteContent)
    (h : m.apply i (some text) = .ok edited) :
    ∃ first last region, m.Removes i text edited first last region ∧
      region.start = first.start ∧ region.stop = (last.spanAt first.start).stop ∧
      region.stop ≤ text.length ∧
      region.Contains (last.spanAt first.start) ∧
      (region.Contains (first.spanAt 0) ∨
        (first.spanAt 0).Contains (last.spanAt first.start) ∧
          (last.spanAt first.start).stop < (first.spanAt 0).stop) := by
  obtain ⟨region, hregion, hedited⟩ := region_of_apply hop h
  obtain ⟨first, last, hfirst, hlast, rfl⟩ := region_eq_ok_iff.mp hregion
  obtain ⟨hfirstOrder, hfirstStop⟩ := bounds_of_locateUnique hfirst
  obtain ⟨hlastOrder, hlastStop⟩ := bounds_of_locateUnique hlast
  rw [List.length_drop] at hlastStop
  refine ⟨first, last, _, ⟨hfirst, hlast, hedited⟩, rfl, rfl, ?_⟩
  unfold Span.Contains Match.spanAt
  dsimp only
  omega

/-- The anchors overlap, and both go whole. -/
theorem apply_removes_overlapping :
    ∃ first last region, ({} : Merger).Removes
        ⟨"a.txt".toList, .findReplace, some "-".toList, some "abc".toList, some "cd".toList, none⟩
        "xabcde".toList (.written "x-e".toList) first last region ∧
      region.start = first.start ∧ region.stop = (last.spanAt first.start).stop ∧
      region.stop ≤ "xabcde".toList.length ∧
      region.Contains (last.spanAt first.start) ∧
      (region.Contains (first.spanAt 0) ∨
        (first.spanAt 0).Contains (last.spanAt first.start) ∧
          (last.spanAt first.start).stop < (first.spanAt 0).stop) :=
  apply_removes (.inl rfl) (by decide)

/-- An edit does not always take both matches whole: here the end anchor stands inside the start anchor,
and what is behind it stays. -/
theorem not_removes_whole_anchors :
    ¬ ∀ (m : Merger) (i : Instruction) (text : Text) (edited : Edited),
      (i.operation = .findReplace ∨ i.operation = .deleteContent) →
      m.apply i (some text) = .ok edited →
      ∃ first last region, m.Removes i text edited first last region ∧
        region.Contains (first.spanAt 0) ∧ region.Contains (last.spanAt first.start) := by
  intro hwhole
  obtain ⟨first, last, region, ⟨hfirst, -, hedited⟩, hcontains, -⟩ :=
    hwhole {} ⟨"a.txt".toList, .deleteContent, none, some "abc".toList, some "a".toList, none⟩
      "abc".toList (.written "bc".toList) (.inr rfl) (by decide)
  have hmatch : ({} : Merger).locateUnique
      ⟨"a.txt".toList, .deleteContent, none, some "abc".toList, some "a".toList, none⟩
      .start "abc".toList (some "abc".toList) = .ok ⟨0, 3, 1, true, .exact⟩ := by decide
  rw [hmatch] at hfirst
  cases hfirst
  -- a region with the whole match in it is the whole text
  have hall : splice "abc".toList region [] = [] := by
    unfold splice
    rw [Nat.le_zero.mp hcontains.1, List.drop_eq_nil_of_le hcontains.2]
    rfl
  cases hedited.trans (congrArg Edited.written hall)

end Merger

end Emend
