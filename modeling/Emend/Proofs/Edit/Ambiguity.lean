import Emend.Proofs.Edit.Insertions

/-!
# Insertions and ambiguous anchors

An insertion whose anchor is found exactly is made at the first place where the anchor stands, and it is
refused as ambiguous if the occurrences that the search counts are more than one. The search counts as
many as keep apart. So what is refused are the anchors that stand at two places without having a character
in common (`occurrences_eq_one_iff`), and what is made may have been possible elsewhere too, where the
anchor overlaps its first occurrence. That takes an anchor whose beginning is its end again
(`overlapsItself_of_occursAt`), as it is with a run of equal lines; with any other anchor an insertion is
made only at the one place there is.
-/

namespace Emend

open Text (Span OccursAt occurrences packings)

namespace Text

variable {p t : Text} {m n : Nat}

/-- Something, but not the whole of the text, stands both at its beginning and at its end. -/
def OverlapsItself (p : Text) : Prop := ∃ b, b ≠ [] ∧ b ≠ p ∧ b <+: p ∧ b <:+ p

/-- A text that stands at two places with characters in common overlaps itself. -/
theorem overlapsItself_of_occursAt (hm : OccursAt p m t) (hn : OccursAt p n t) (hlt : m < n)
    (hover : n < m + p.length) : OverlapsItself p := by
  obtain ⟨-, after, hafter⟩ := occursAt_iff.mp hm
  obtain ⟨-, after', hafter'⟩ := occursAt_iff.mp hn
  -- the part of the first occurrence that the second begins with
  have hcut : p ++ after' = p.drop (n - m) ++ after := by
    have hdrop : t.drop n = (t.drop m).drop (n - m) := by
      rw [List.drop_drop, Nat.add_sub_cancel' hlt.le]
    rw [hafter', hdrop, ← hafter, List.drop_append_of_le_length (by omega)]
  have hlength : (p.drop (n - m)).length = p.length - (n - m) := List.length_drop
  refine ⟨p.drop (n - m), ?_, ?_, ?_, List.drop_suffix _ _⟩
  · apply List.ne_nil_of_length_pos
    omega
  · intro hall
    rw [hall] at hlength
    omega
  · have hfront : p.drop (n - m) <+: p ++ after' := ⟨after, hcut.symm⟩
    apply List.prefix_of_prefix_length_le hfront (List.prefix_append p after')
    omega

end Text

variable {text anchor : Text} {hit : Match} {i : Instruction}

/-- Two occurrences without a character in common are counted as two. -/
theorem two_le_occurrences {m n : Nat} (h : locate text anchor .exact = some hit)
    (hm : OccursAt anchor m text) (hn : OccursAt anchor n text) (hapart : m + anchor.length ≤ n) :
    2 ≤ hit.occurrences := by
  have hwidth := List.length_pos_iff.mpr (ne_nil_of_locate h).2
  have htwo : 2 ∈ packings (occurrences anchor text) := by
    refine ⟨{⟨m, m + anchor.length⟩, ⟨n, n + anchor.length⟩}, ?_, ?_, ?_⟩
    · intro s hs
      rcases Finset.mem_insert.mp hs with rfl | hs
      · exact ⟨hm, rfl⟩
      · rw [Finset.mem_singleton.mp hs]
        exact ⟨hn, rfl⟩
    · rw [Finset.coe_pair]
      exact Set.pairwise_pair_of_symm.mpr fun _ => .inl hapart
    · refine Finset.card_pair fun heq => ?_
      have hstart : m = n := congrArg Span.start heq
      omega
  exact (isGreatest_occurrences_of_locate h).2 htwo

/-- **An anchor is counted once** exactly if any two of its occurrences overlap. -/
theorem occurrences_eq_one_iff (h : locate text anchor .exact = some hit) :
    hit.occurrences = 1 ↔
      ∀ m n, OccursAt anchor m text → OccursAt anchor n text → n < m + anchor.length := by
  constructor
  · intro hone m n hm hn
    by_contra hapart
    have htwo := two_le_occurrences h hm hn (Nat.le_of_not_lt hapart)
    omega
  · intro hover
    obtain ⟨ss, hss, hapart, hcard⟩ := (isGreatest_occurrences_of_locate h).1
    have hone : ss.card ≤ 1 := by
      refine Finset.card_le_one.mpr fun a ha b hb => ?_
      by_contra hne
      have hab := hover _ _ (hss a ha).1 (hss b hb).1
      have hba := hover _ _ (hss b hb).1 (hss a ha).1
      have hstopA := (hss a ha).2
      have hstopB := (hss b hb).2
      rcases hapart ha hb hne with hkept | hkept <;> omega
    obtain ⟨rest, -, hcount⟩ := hits_of_locate h
    omega

namespace Merger

/-- The text with the content of an insertion put in at a match. -/
def insertion (i : Instruction) (text : Text) (hit : Match) : Text :=
  if i.operation = .insertAfter then
    text.take hit.stop ++ contentAfter (text.drop hit.stop) (i.content.getD []) ++ text.drop hit.stop
  else
    text.take hit.start ++ contentBefore (text.take hit.start) (i.content.getD []) ++
      text.drop hit.start

theorem perform_insertion {m : Merger} (hop : i.operation = .insertAfter ∨ i.operation = .insertBefore) :
    m.perform i text =
      (m.locateUnique i .only text i.anchor).map fun hit => .written (insertion i text hit) := by
  unfold insertion
  rcases hop with hop | hop
  · rw [perform_insertAfter hop]
    simp only [hop, if_true]
  · rw [perform_insertBefore hop]
    simp [hop]

section

variable (policy : AnchorPolicy) (hop : i.operation = .insertAfter ∨ i.operation = .insertBefore)
  (hanchor : i.anchor = some anchor) (hmode : i.mode = none ∨ i.mode = some .exact)
  (hhit : locate text anchor .exact = some hit)
include hop hanchor hmode hhit

/-- An insertion at an anchor that is found exactly is made at what is found, if that is counted once. -/
theorem apply_insertion :
    ({ policy } : Merger).apply i (some text) =
      if hit.occurrences = 1 then .ok (.written (insertion i text hit))
      else .error (.anchorAmbiguous .only hit.occurrences) := by
  obtain ⟨htext, hne⟩ := ne_nil_of_locate hhit
  rw [apply_of_text List.not_mem_nil htext, perform_insertion hop, hanchor,
    locateUnique_of_search hne (search_of_exact hmode hhit)]
  split <;> rfl

theorem apply_insertion_ok_iff :
    (∃ edited, ({ policy } : Merger).apply i (some text) = .ok edited) ↔ hit.occurrences = 1 := by
  rw [apply_insertion policy hop hanchor hmode hhit]
  constructor
  · rintro ⟨edited, hedited⟩
    by_contra hmore
    rw [if_neg hmore] at hedited
    cases hedited
  · intro hone
    exact ⟨_, if_pos hone⟩

theorem apply_insertion_error {m n : Nat} (hm : OccursAt anchor m text) (hn : OccursAt anchor n text)
    (hapart : m + anchor.length ≤ n) :
    ∃ k, 1 < k ∧ IsGreatest (packings (occurrences anchor text)) k ∧
      ({ policy } : Merger).apply i (some text) = .error (.anchorAmbiguous .only k) := by
  have htwo := two_le_occurrences hhit hm hn hapart
  refine ⟨hit.occurrences, htwo, isGreatest_occurrences_of_locate hhit, ?_⟩
  rw [apply_insertion policy hop hanchor hmode hhit, if_neg (by omega)]

/-- Two places of an anchor that does not overlap itself have no character in common. -/
theorem apply_insertion_error_of_ne (hplain : ¬ anchor.OverlapsItself) {m n : Nat}
    (hm : OccursAt anchor m text) (hn : OccursAt anchor n text) (hne : m ≠ n) :
    ∃ k, 1 < k ∧ ({ policy } : Merger).apply i (some text) = .error (.anchorAmbiguous .only k) := by
  have hkept : m + anchor.length ≤ n ∨ n + anchor.length ≤ m := by
    by_contra hover
    rcases Nat.lt_or_gt_of_ne hne with hlt | hlt
    · exact hplain (Text.overlapsItself_of_occursAt hm hn hlt (by omega))
    · exact hplain (Text.overlapsItself_of_occursAt hn hm hlt (by omega))
  rcases hkept with hkept | hkept
  · obtain ⟨k, hk, -, hfailed⟩ := apply_insertion_error policy hop hanchor hmode hhit hm hn hkept
    exact ⟨k, hk, hfailed⟩
  · obtain ⟨k, hk, -, hfailed⟩ := apply_insertion_error policy hop hanchor hmode hhit hn hm hkept
    exact ⟨k, hk, hfailed⟩

/-- **Where an insertion is made.** An insertion whose anchor is found exactly succeeds, under every policy,
exactly if any two occurrences of the anchor overlap, and is then made at the first of them. If two
occurrences have no character in common it fails as ambiguous, with the largest number of such occurrences.
So with an anchor that does not overlap itself an insertion is made only where the anchor stands once, and
fails as ambiguous where it stands twice. -/
theorem apply_insertion_places :
    ((∃ edited, ({ policy } : Merger).apply i (some text) = .ok edited) ↔
      ∀ m n, OccursAt anchor m text → OccursAt anchor n text → n < m + anchor.length) ∧
    (∀ edited, ({ policy } : Merger).apply i (some text) = .ok edited →
      edited = .written (insertion i text hit) ∧ IsLeast {n | OccursAt anchor n text} hit.start) ∧
    (∀ m n, OccursAt anchor m text → OccursAt anchor n text → m + anchor.length ≤ n →
      ∃ k, 1 < k ∧ IsGreatest (packings (occurrences anchor text)) k ∧
        ({ policy } : Merger).apply i (some text) = .error (.anchorAmbiguous .only k)) ∧
    (¬ anchor.OverlapsItself →
      (∀ edited, ({ policy } : Merger).apply i (some text) = .ok edited → ∃! n, OccursAt anchor n text) ∧
      ∀ m n, OccursAt anchor m text → OccursAt anchor n text → m ≠ n →
        ∃ k, 1 < k ∧ ({ policy } : Merger).apply i (some text) = .error (.anchorAmbiguous .only k)) := by
  have hiff := apply_insertion_ok_iff policy hop hanchor hmode hhit
  have hleast := isLeast_start_of_locate hhit
  refine ⟨hiff.trans (occurrences_eq_one_iff hhit), ?_, ?_, fun hplain => ⟨?_, ?_⟩⟩
  · intro edited hedited
    refine ⟨?_, hleast⟩
    have hone := hiff.mp ⟨edited, hedited⟩
    rw [apply_insertion policy hop hanchor hmode hhit, if_pos hone] at hedited
    exact (Except.ok.inj hedited).symm
  · intro m n hm hn hkept
    exact apply_insertion_error policy hop hanchor hmode hhit hm hn hkept
  · intro edited hedited
    refine ⟨hit.start, hleast.1, fun n hn => ?_⟩
    by_contra hne
    obtain ⟨k, -, hfailed⟩ :=
      apply_insertion_error_of_ne policy hop hanchor hmode hhit hplain hn hleast.1 hne
    rw [hfailed] at hedited
    cases hedited
  · intro m n hm hn hne
    exact apply_insertion_error_of_ne policy hop hanchor hmode hhit hplain hm hn hne

end

/-- The anchor stands at two places of the first text, and the insertion is made at the first; of its three
places in the second text two have no character in common. -/
theorem apply_insertion_places_ends :
    IsLeast {n | OccursAt "end\nend".toList n "end\nend\nend".toList} 0 ∧
    ({ policy := .exactThenNormalized } : Merger).apply
        ⟨"a.txt".toList, .insertAfter, some "x".toList, some "end\nend".toList, none, none⟩
        (some "end\nend\nend".toList) = .ok (.written "end\nend\nx\nend".toList) ∧
    ∃ k, 1 < k ∧ ({ policy := .exactThenNormalized } : Merger).apply
        ⟨"a.txt".toList, .insertAfter, some "x".toList, some "end\nend".toList, none, none⟩
        (some "end\nend\nend\nend".toList) = .error (.anchorAmbiguous .only k) := by
  have hmade : ({ policy := .exactThenNormalized } : Merger).apply
      ⟨"a.txt".toList, .insertAfter, some "x".toList, some "end\nend".toList, none, none⟩
      (some "end\nend\nend".toList) = .ok (.written "end\nend\nx\nend".toList) := by decide
  have hthree : locate "end\nend\nend".toList "end\nend".toList .exact =
      some ⟨0, 7, 1, true, .exact⟩ := by decide
  have hfour : locate "end\nend\nend\nend".toList "end\nend".toList .exact =
      some ⟨0, 7, 2, true, .exact⟩ := by decide
  obtain ⟨-, hleast⟩ := (apply_insertion_places .exactThenNormalized
    (i := ⟨"a.txt".toList, .insertAfter, some "x".toList, some "end\nend".toList, none, none⟩)
    (.inl rfl) rfl (.inl rfl) hthree).2.1 _ hmade
  obtain ⟨k, hk, -, hfailed⟩ := (apply_insertion_places .exactThenNormalized
    (i := ⟨"a.txt".toList, .insertAfter, some "x".toList, some "end\nend".toList, none, none⟩)
    (.inl rfl) rfl (.inl rfl) hfour).2.2.1 0 8 (by decide) (by decide) (by decide)
  exact ⟨hleast, hmade, k, hk, hfailed⟩

/-- An insertion that succeeds at an exact match does not show that the anchor stands at one place: here
it stands at two, which overlap. -/
theorem not_placed_once :
    ¬ ∀ (policy : AnchorPolicy) (i : Instruction) (text anchor : Text) (hit : Match) (edited : Edited),
      (i.operation = .insertAfter ∨ i.operation = .insertBefore) → i.anchor = some anchor →
      i.mode = none → locate text anchor .exact = some hit →
      ({ policy } : Merger).apply i (some text) = .ok edited → ∃! n, OccursAt anchor n text := by
  intro honce
  have hunique := honce .exactThenNormalized
    ⟨"a.txt".toList, .insertAfter, some "x".toList, some "end\nend".toList, none, none⟩
    "end\nend\nend".toList "end\nend".toList ⟨0, 7, 1, true, .exact⟩ (.written "end\nend\nx\nend".toList)
    (.inl rfl) rfl rfl (by decide) (by decide)
  have hsame : (0 : Nat) = 4 := hunique.unique (by decide) (by decide)
  cases hsame

end Merger

end Emend
