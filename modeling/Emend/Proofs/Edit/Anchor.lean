import Emend.Edit.Anchor
import Emend.Proofs.Text.Hits
import Emend.Proofs.Text.Lines
import Emend.Proofs.Text.Tokens

/-!
# What a search finds

In each mode a hit lies within the text that was searched. The exact search finds an anchor exactly if
it is a part of the text, at the least offset where it stands, and counts the largest number of
occurrences that keep apart; so an anchor that stands at one offset only is found there, once.
-/

namespace Emend

open Text (Span Takes OccursAt occurrences packings readable)

variable {haystack anchor : Text} {mode : SearchMode} {hit : Match}

/-! ## The first hit and the number of hits -/

theorem locate_eq_none_iff (hhaystack : haystack ≠ []) (hanchor : anchor ≠ []) :
    locate haystack anchor mode = none ↔ Anchor.hits mode haystack anchor = [] := by
  unfold locate
  rw [if_neg (by simp [hhaystack, hanchor])]
  cases Anchor.hits mode haystack anchor <;> simp

/-- An empty anchor or text has no hit. -/
theorem ne_nil_of_locate (h : locate haystack anchor mode = some hit) :
    haystack ≠ [] ∧ anchor ≠ [] := by
  unfold locate at h
  split at h
  · cases h
  · rename_i hne
    simpa [and_comm] using hne

/-- What a search reports of its hits. -/
theorem hits_of_locate (h : locate haystack anchor mode = some hit) :
    ∃ rest, Anchor.hits mode haystack anchor = ⟨hit.start, hit.stop⟩ :: rest ∧
      hit.occurrences = rest.length + 1 := by
  unfold locate at h
  split at h
  · cases h
  · cases hhits : Anchor.hits mode haystack anchor with
    | nil =>
        rw [hhits] at h
        cases h
    | cons s rest =>
        rw [hhits] at h
        cases h
        exact ⟨rest, rfl, rfl⟩

theorem isExact_of_locate (h : locate haystack anchor mode = some hit) :
    hit.isExact = Anchor.isExact mode haystack anchor ⟨hit.start, hit.stop⟩ := by
  unfold locate at h
  split at h
  · cases h
  · split at h
    · cases h
    · cases h
      rfl

/-- Under a policy an anchor is found in one of the modes. -/
theorem locate_of_locateByPolicy {policy : AnchorPolicy}
    (h : locateByPolicy haystack anchor policy = some hit) :
    ∃ mode, locate haystack anchor mode = some hit := by
  unfold locateByPolicy at h
  split at h
  · rename_i hexact
    cases h
    exact ⟨.exact, hexact⟩
  · obtain ⟨mode, -, hloose⟩ := Option.bind_eq_some_iff.mp h
    exact ⟨mode, hloose⟩

/-! ## Hits lie within the text -/

namespace Anchor

/-- Words and what is blank between them are read off the front. -/
theorem suffix_afterWords? {words : List Text} {t rest : Text} (h : afterWords? words t = some rest) :
    rest <:+ t := by
  fun_induction afterWords? words t with
  | case1 t =>
      cases h
      exact List.suffix_refl _
  | case2 w t =>
      rw [Text.after?_eq_some_iff] at h
      exact ⟨w, h.symm⟩
  | case3 w ws t hne ih =>
      obtain ⟨behind, hword, h⟩ := Option.bind_eq_some_iff.mp h
      split at h
      · have hbehind : behind <:+ t := ⟨w, (Text.after?_eq_some_iff.mp hword).symm⟩
        exact ((ih _ h).trans (Text.suffix_stripStart behind)).trans hbehind
      · cases h

theorem takes_afterWords? {w : Text} (hw : w ≠ []) (ws : List Text) :
    Takes (afterWords? (w :: ws)) := by
  intro t rest h
  have hword : ∃ behind, Text.after? w t = some behind ∧ rest <:+ behind := by
    cases ws with
    | nil => exact ⟨rest, h, List.suffix_refl _⟩
    | cons v ws =>
        obtain ⟨behind, hword, h⟩ := Option.bind_eq_some_iff.mp h
        split at h
        · exact ⟨behind, hword, (suffix_afterWords? h).trans (Text.suffix_stripStart behind)⟩
        · cases h
  obtain ⟨behind, hword, between, rfl⟩ := hword
  refine ⟨w ++ between, by simp [hw], ?_⟩
  rw [Text.after?_eq_some_iff.mp hword, List.append_assoc]

theorem blockHits_cons (wanted : List Text) (pos : Nat) (l : Text) (ls : List Text) :
    blockHits wanted pos (l :: ls) =
      if ((l :: ls).take wanted.length).map Text.strip = wanted then
        ⟨pos, pos + (((l :: ls).take wanted.length).map (·.length + 1)).sum - 1⟩ ::
          blockHits wanted (pos + l.length + 1) ls
      else blockHits wanted (pos + l.length + 1) ls := rfl

/-- Some lines, the first one among them, take some room, and no more than all. -/
theorem sum_block {wanted : List Text} (hwanted : wanted ≠ []) (l : Text) (ls : List Text) :
    0 < (((l :: ls).take wanted.length).map (·.length + 1)).sum ∧
      (((l :: ls).take wanted.length).map (·.length + 1)).sum ≤ ((l :: ls).map (·.length + 1)).sum := by
  constructor
  · cases wanted with
    | nil => exact absurd rfl hwanted
    | cons w ws =>
        rw [List.length_cons, List.take_succ_cons, List.map_cons, List.sum_cons]
        omega
  · conv_rhs => rw [← List.take_append_drop wanted.length (l :: ls), List.map_append, List.sum_append]
    exact Nat.le_add_right _ _

/-- A block begins with a line and ends at the end of one. -/
theorem bounds_of_mem_blockHits {wanted : List Text} (hwanted : wanted ≠ []) {pos : Nat}
    {ls : List Text} {s : Span} (h : s ∈ blockHits wanted pos ls) :
    s.start ≤ s.stop ∧ s.stop < pos + (ls.map (·.length + 1)).sum := by
  induction ls generalizing pos with
  | nil => cases h
  | cons l ls ih =>
      have htail (h : s ∈ blockHits wanted (pos + l.length + 1) ls) :
          s.start ≤ s.stop ∧ s.stop < pos + ((l :: ls).map (·.length + 1)).sum := by
        have hbounds := ih h
        rw [List.map_cons, List.sum_cons]
        omega
      rw [blockHits_cons] at h
      split at h
      · rcases List.mem_cons.mp h with rfl | h
        · have hblock := sum_block hwanted l ls
          dsimp only
          omega
        · exact htail h
      · exact htail h

/-- **A hit lies within the text.** -/
theorem bounds_of_mem_hits (hanchor : anchor ≠ []) {s : Span} (h : s ∈ hits mode haystack anchor) :
    s.start ≤ s.stop ∧ s.stop ≤ haystack.length := by
  have hscan {read : Text → Option Text} (hread : Takes read) (h : s ∈ Text.hits read haystack) :
      s.start ≤ s.stop ∧ s.stop ≤ haystack.length := by
    have hreadable := Text.readable_of_mem_hitsFrom hread [] haystack s h
    exact ⟨(Text.start_lt_stop hreadable).le, Text.stop_le_length hreadable⟩
  unfold hits at h
  cases mode with
  | exact => exact hscan (Text.takes_after? hanchor) h
  | normalized =>
      dsimp only at h
      split at h
      · cases h
      · rename_i hwanted
        have hbounds := bounds_of_mem_blockHits hwanted h
        rw [Text.sum_lines] at hbounds
        omega
  | whitespace =>
      dsimp only at h
      split at h
      · cases h
      · cases hwords : Text.tokens anchor with
        | nil => simp_all
        | cons w ws =>
            rw [hwords] at h
            have hw : w ≠ [] := Text.ne_nil_of_mem_tokens (hwords ▸ List.mem_cons_self)
            exact hscan (takes_afterWords? hw ws) h

end Anchor

theorem bounds_of_locate (h : locate haystack anchor mode = some hit) :
    hit.start ≤ hit.stop ∧ hit.stop ≤ haystack.length := by
  obtain ⟨rest, hhits, -⟩ := hits_of_locate h
  exact Anchor.bounds_of_mem_hits (ne_nil_of_locate h).2 (hhits ▸ List.mem_cons_self)

/-! ## Searches that scan -/

/-- **A search that scans the text** finds the span that begins first among those that can be read, and
counts as many of them as keep apart, where a later beginning never means an earlier end. -/
theorem scan_of_locate {read : Text → Option Text} (hread : Takes read)
    (hscan : Anchor.hits mode haystack anchor = Text.hits read haystack)
    (hmono : ∀ a ∈ readable read haystack, ∀ b ∈ readable read haystack, a.start ≤ b.start → a.stop ≤ b.stop)
    (h : locate haystack anchor mode = some hit) :
    (⟨hit.start, hit.stop⟩ : Span) ∈ readable read haystack ∧
    (∀ s ∈ readable read haystack, hit.start ≤ s.start) ∧
    IsGreatest (packings (readable read haystack)) hit.occurrences := by
  obtain ⟨rest, hhits, hcount⟩ := hits_of_locate h
  rw [hscan] at hhits
  obtain ⟨hfound, hfirst⟩ := Text.first_of_hits hread hhits
  refine ⟨hfound, hfirst, ?_⟩
  have hgreatest := Text.isGreatest_length_hits hread hmono
  rw [hhits] at hgreatest
  rwa [hcount]

/-! ## The exact search -/

theorem locate_exact_eq_none_iff (hhaystack : haystack ≠ []) (hanchor : anchor ≠ []) :
    locate haystack anchor .exact = none ↔ ¬ anchor <:+: haystack := by
  rw [locate_eq_none_iff hhaystack hanchor, Text.isInfix_iff_exists_occursAt]
  show Text.hits (Text.after? anchor) haystack = [] ↔ _
  rw [Text.hits_eq_nil_iff (Text.takes_after? hanchor), Text.readable_after? hanchor]
  constructor
  · rintro hnever ⟨n, hoccurs⟩
    exact hnever ⟨n, n + anchor.length⟩ ⟨hoccurs, rfl⟩
  · intro hnever s hs
    exact hnever ⟨s.start, hs.1⟩

/-- What the exact search finds and counts are occurrences. -/
theorem exact_of_locate (h : locate haystack anchor .exact = some hit) :
    (⟨hit.start, hit.stop⟩ : Span) ∈ occurrences anchor haystack ∧
    (∀ s ∈ occurrences anchor haystack, hit.start ≤ s.start) ∧
    IsGreatest (packings (occurrences anchor haystack)) hit.occurrences := by
  have hanchor := (ne_nil_of_locate h).2
  rw [← Text.readable_after? hanchor]
  apply scan_of_locate (Text.takes_after? hanchor) rfl ?_ h
  rw [Text.readable_after? hanchor]
  intro a ha b hb hle
  exact Text.stop_le_stop_of_mem_occurrences ha hb hle

theorem mem_occurrences_of_locate (h : locate haystack anchor .exact = some hit) :
    (⟨hit.start, hit.stop⟩ : Span) ∈ occurrences anchor haystack := (exact_of_locate h).1

/-- The exact search finds the least offset at which the anchor stands. -/
theorem isLeast_start_of_locate (h : locate haystack anchor .exact = some hit) :
    IsLeast {n | OccursAt anchor n haystack} hit.start := by
  obtain ⟨hfound, hfirst, -⟩ := exact_of_locate h
  refine ⟨hfound.1, fun n hoccurs => ?_⟩
  exact hfirst ⟨n, n + anchor.length⟩ ⟨hoccurs, rfl⟩

/-- The exact search counts the largest number of occurrences that keep apart. -/
theorem isGreatest_occurrences_of_locate (h : locate haystack anchor .exact = some hit) :
    IsGreatest (packings (occurrences anchor haystack)) hit.occurrences := (exact_of_locate h).2.2

/-- An anchor that stands at one offset only is found there, once. -/
theorem locate_exact_of_unique (hanchor : anchor ≠ []) {n : Nat} (hoccurs : OccursAt anchor n haystack)
    (hunique : ∀ n', OccursAt anchor n' haystack → n' = n) :
    ∃ hit, locate haystack anchor .exact = some hit ∧ hit.start = n ∧
      hit.stop = n + anchor.length ∧ hit.occurrences = 1 := by
  have hpart : anchor <:+: haystack := Text.isInfix_iff_exists_occursAt.mpr ⟨n, hoccurs⟩
  have hhaystack : haystack ≠ [] := by
    obtain ⟨before, after, rfl, -⟩ := hoccurs
    simp [hanchor]
  cases hhit : locate haystack anchor .exact with
  | none => exact absurd hpart ((locate_exact_eq_none_iff hhaystack hanchor).mp hhit)
  | some hit =>
      have hmem := mem_occurrences_of_locate hhit
      have hstart : hit.start = n := hunique _ hmem.1
      refine ⟨hit, rfl, hstart, hstart ▸ hmem.2, ?_⟩
      -- all occurrences that could be counted are this one
      obtain ⟨ss, hss, -, hcard⟩ := (isGreatest_occurrences_of_locate hhit).1
      have hone : ss.card ≤ 1 := by
        refine Finset.card_le_one.mpr fun a ha b hb => ?_
        refine Text.eq_of_mem_occurrences (hss a ha) (hss b hb) ?_
        rw [hunique _ (hss a ha).1, hunique _ (hss b hb).1]
      obtain ⟨rest, -, hcount⟩ := hits_of_locate hhit
      omega

end Emend
