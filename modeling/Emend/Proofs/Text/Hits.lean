import Emend.Text.Search
import Mathlib.Data.Finset.Card
import Mathlib.Data.List.Pairwise
import Mathlib.Order.Bounds.Defs

/-!
# What a scan from the left finds

`hits` runs a reader over a text and goes on behind whatever it has read. Here its spans are compared
with all the spans that the reader could have read, wherever it had begun: the first hit is the leftmost
of these, and where a later beginning never means an earlier end, no set of spans that keep apart is
larger than the list of hits. A literal text is read from exactly its occurrences.

All laws go along the scan (`scan_induction`): it misses and moves on by a character, or it hits and
moves on behind the hit.
-/

namespace Emend.Text

/-! ## Spans of a text -/

theorem slice_append (before w after : Text) :
    (Span.mk before.length (before.length + w.length)).slice (before ++ (w ++ after)) = w := by
  unfold Span.slice
  dsimp only
  rw [Nat.add_sub_cancel_left, List.drop_left, List.take_left]

theorem length_slice {s : Span} {t : Text} (h : s.stop ≤ t.length) :
    (s.slice t).length = s.stop - s.start := by
  unfold Span.slice
  rw [List.length_take, List.length_drop]
  omega

/-- Two parts, one behind the other. -/
theorem slice_append_slice {i j k : Nat} (hij : i ≤ j) (hjk : j ≤ k) (t : Text) :
    (Span.mk i j).slice t ++ (Span.mk j k).slice t = (Span.mk i k).slice t := by
  unfold Span.slice
  dsimp only
  have hwidth : k - i = (j - i) + (k - j) := by omega
  have hjoint : i + (j - i) = j := by omega
  rw [hwidth, List.take_add, List.drop_drop, hjoint]

/-- A span cuts the text in three. -/
theorem exists_cut_of_span {s : Span} {t : Text} (horder : s.start ≤ s.stop) (hstop : s.stop ≤ t.length) :
    ∃ before after, t = before ++ (s.slice t ++ after) ∧
      s = ⟨before.length, before.length + (s.slice t).length⟩ := by
  refine ⟨t.take s.start, t.drop s.stop, ?_, ?_⟩
  · have hbehind : (t.drop s.start).drop (s.stop - s.start) = t.drop s.stop := by
      rw [List.drop_drop, Nat.add_sub_cancel' horder]
    rw [Span.slice, ← hbehind, List.take_append_drop, List.take_append_drop]
  · rw [length_slice hstop, List.length_take_of_le (horder.trans hstop), Nat.add_sub_cancel' horder]

/-- A part that ends within the front of a text is a part of that front. -/
theorem slice_infix_take {s : Span} {n : Nat} (h : s.stop ≤ n) (t : Text) : s.slice t <:+: t.take n := by
  have hsame : s.slice t = ((t.take n).drop s.start).take (s.stop - s.start) := by
    rw [Span.slice, List.drop_take, List.take_take, Nat.min_eq_left (Nat.sub_le_sub_right h _)]
  rw [hsame]
  exact (List.take_prefix _ _).isInfix.trans (List.drop_suffix _ _).isInfix

/-- A part that begins in the back of a text is a part of that back. -/
theorem slice_infix_drop {s : Span} {n : Nat} (h : n ≤ s.start) (t : Text) : s.slice t <:+: t.drop n := by
  have hdrop : t.drop s.start = (t.drop n).drop (s.start - n) := by
    rw [List.drop_drop, Nat.add_sub_cancel' h]
  rw [Span.slice, hdrop]
  exact (List.take_prefix _ _).isInfix.trans (List.drop_suffix _ _).isInfix

/-! ## Spans that can be read -/

/-- Two spans have no character in common. -/
def Span.IsApart (a b : Span) : Prop := a.stop ≤ b.start ∨ b.stop ≤ a.start

instance : Std.Symm Span.IsApart := ⟨fun _ _ => Or.symm⟩

/-- Nothing of `b` is outside of `a`. -/
def Span.Contains (a b : Span) : Prop := a.start ≤ b.start ∧ b.stop ≤ a.stop

/-- The numbers of spans of `S` that can be chosen so that they keep apart. -/
def packings (S : Set Span) : Set Nat :=
  {k | ∃ ss : Finset Span, (∀ s ∈ ss, s ∈ S) ∧ (ss : Set Span).Pairwise Span.IsApart ∧ ss.card = k}

theorem exists_of_mem_packings {S : Set Span} {k : Nat} (hk : 0 < k) (h : k ∈ packings S) : ∃ s, s ∈ S := by
  obtain ⟨ss, hss, -, rfl⟩ := h
  obtain ⟨s, hs⟩ := Finset.card_pos.mp hk
  exact ⟨s, hss s hs⟩

/-- Where spans can be chosen that keep apart, so can spans that lie inside of them. -/
theorem mem_packings_of_contains {S T : Set Span} {k : Nat} (inner : Span → Span)
    (hinner : ∀ s ∈ S, s.Contains (inner s) ∧ inner s ∈ T) (hsome : ∀ s ∈ T, s.start < s.stop)
    (hk : k ∈ packings S) : k ∈ packings T := by
  obtain ⟨ss, hss, hapart, rfl⟩ := hk
  have hstill : ∀ a ∈ ss, ∀ b ∈ ss, a ≠ b → (inner a).IsApart (inner b) := by
    intro a ha b hb hne
    obtain ⟨⟨ha₁, ha₂⟩, -⟩ := hinner a (hss a ha)
    obtain ⟨⟨hb₁, hb₂⟩, -⟩ := hinner b (hss b hb)
    rcases hapart ha hb hne with h | h
    · left
      omega
    · right
      omega
  refine ⟨ss.image inner, ?_, ?_, ?_⟩
  · intro s hs
    obtain ⟨a, ha, rfl⟩ := Finset.mem_image.mp hs
    exact (hinner a (hss a ha)).2
  · intro s hs s' hs' hne
    obtain ⟨a, ha, rfl⟩ := Finset.mem_image.mp hs
    obtain ⟨b, hb, rfl⟩ := Finset.mem_image.mp hs'
    exact hstill a ha b hb fun h => hne (congrArg inner h)
  · -- what is inside of two of them is not the same, as there is something to it
    refine Finset.card_image_of_injOn fun a ha b hb heq => ?_
    by_contra hne
    have hwidth := hsome _ (hinner a (hss a ha)).2
    have hboth := hstill a ha b hb hne
    rw [← heq] at hboth
    rcases hboth with h | h <;> omega

/-- What the reader takes is something at the front of the text. -/
def Takes (read : Text → Option Text) : Prop :=
  ∀ t rest, read t = some rest → ∃ w, w ≠ [] ∧ t = w ++ rest

/-- The spans of the text that the reader reads when it begins where they do. -/
def readable (read : Text → Option Text) (t : Text) : Set Span :=
  {s | ∃ before w after, t = before ++ (w ++ after) ∧ w ≠ [] ∧ read (w ++ after) = some after ∧
    s = ⟨before.length, before.length + w.length⟩}

variable {read : Text → Option Text} {t before rest w : Text} {s : Span}

theorem start_lt_stop (h : s ∈ readable read t) : s.start < s.stop := by
  obtain ⟨before, w, after, -, hw, -, rfl⟩ := h
  have hlength := List.length_pos_iff.mpr hw
  dsimp only
  omega

theorem stop_le_length (h : s ∈ readable read t) : s.stop ≤ t.length := by
  obtain ⟨before, w, after, rfl, -, -, rfl⟩ := h
  simp only [List.length_append]
  omega

theorem start_lt_length (h : s ∈ readable read t) : s.start < t.length :=
  (start_lt_stop h).trans_le (stop_le_length h)

/-- What is read where the rest of the text begins is read off that rest. -/
theorem read_of_readable (h : s ∈ readable read (before ++ t)) (hstart : s.start = before.length) :
    ∃ w after, t = w ++ after ∧ w ≠ [] ∧ read t = some after ∧ s.stop = before.length + w.length := by
  obtain ⟨front, w, after, hcut, hw, hread, rfl⟩ := h
  obtain ⟨rfl, rfl⟩ := List.append_inj hcut hstart.symm
  exact ⟨w, after, rfl, hw, hread, rfl⟩

/-- No span begins where the reader reads nothing. -/
theorem start_ne_of_miss (hmiss : read t = none) (h : s ∈ readable read (before ++ t)) :
    s.start ≠ before.length := by
  intro hhere
  obtain ⟨w, after, -, -, hread, -⟩ := read_of_readable h hhere
  rw [hmiss] at hread
  cases hread

/-! ## The scan -/

/-- Skipping is going on behind. -/
theorem hitsFrom_skip (read : Text → Option Text) (skip pos : Nat) (t : Text) :
    hitsFrom read skip pos t = hitsFrom read 0 (pos + skip) (t.drop skip) := by
  induction t generalizing skip pos with
  | nil => simp [hitsFrom]
  | cons c t ih =>
      cases skip with
      | zero => rfl
      | succ skip =>
          rw [hitsFrom, ih, List.drop_succ_cons, Nat.add_right_comm, Nat.add_assoc]

theorem hitsFrom_miss {c : Char} (h : read (c :: t) = none) (pos : Nat) :
    hitsFrom read 0 pos (c :: t) = hitsFrom read 0 (pos + 1) t := by
  rw [hitsFrom, h]

theorem hitsFrom_hit (hw : w ≠ []) (h : read (w ++ rest) = some rest) (pos : Nat) :
    hitsFrom read 0 pos (w ++ rest) =
      ⟨pos, pos + w.length⟩ :: hitsFrom read 0 (pos + w.length) rest := by
  cases w with
  | nil => exact absurd rfl hw
  | cons c w =>
      have hwidth : (w ++ rest).length + 1 - rest.length = w.length + 1 := by
        rw [List.length_append]
        omega
      rw [List.cons_append] at h ⊢
      rw [hitsFrom, h]
      simp only [hwidth, List.length_cons, Nat.add_sub_cancel]
      rw [hitsFrom_skip, List.drop_left, Nat.add_right_comm, Nat.add_assoc]

/-- **Induction along a scan.** -/
theorem scan_induction (hread : Takes read) {motive : Text → Prop} (nil : motive [])
    (miss : ∀ c t, read (c :: t) = none → motive t → motive (c :: t))
    (hit : ∀ w rest, w ≠ [] → read (w ++ rest) = some rest → motive rest → motive (w ++ rest))
    (t : Text) : motive t := by
  induction hlength : t.length using Nat.strong_induction_on generalizing t with
  | h n ih =>
      subst hlength
      cases t with
      | nil => exact nil
      | cons c t =>
          cases hanswer : read (c :: t) with
          | none => exact miss c t hanswer (ih _ (Nat.lt_succ_self _) t rfl)
          | some rest =>
              obtain ⟨w, hw, hcut⟩ := hread _ _ hanswer
              rw [hcut] at hanswer ih ⊢
              have hshorter : rest.length < (w ++ rest).length := by
                have hlength := List.length_pos_iff.mpr hw
                rw [List.length_append]
                omega
              exact hit w rest hw hanswer (ih _ hshorter rest rfl)

theorem le_start_of_mem_hitsFrom (hread : Takes read) (pos : Nat) (t : Text) :
    ∀ s ∈ hitsFrom read 0 pos t, pos ≤ s.start := by
  induction t using scan_induction hread generalizing pos with
  | nil => intro s hs; cases hs
  | miss c t hmiss ih =>
      intro s hs
      rw [hitsFrom_miss hmiss] at hs
      exact Nat.le_of_succ_le (ih _ s hs)
  | hit w rest hw hhit ih =>
      intro s hs
      rw [hitsFrom_hit hw hhit] at hs
      rcases List.mem_cons.mp hs with rfl | hs
      · exact Nat.le_refl pos
      · exact Nat.le_trans (Nat.le_add_right _ _) (ih _ s hs)

/-- Hits keep apart, each behind the one before. -/
theorem pairwise_hitsFrom (hread : Takes read) (pos : Nat) (t : Text) :
    (hitsFrom read 0 pos t).Pairwise fun a b => a.stop ≤ b.start := by
  induction t using scan_induction hread generalizing pos with
  | nil => exact .nil
  | miss c t hmiss ih =>
      rw [hitsFrom_miss hmiss]
      exact ih _
  | hit w rest hw hhit ih =>
      rw [hitsFrom_hit hw hhit]
      exact .cons (le_start_of_mem_hitsFrom hread _ rest) (ih _)

/-- Hits can be read. -/
theorem readable_of_mem_hitsFrom (hread : Takes read) (before t : Text) :
    ∀ s ∈ hitsFrom read 0 before.length t, s ∈ readable read (before ++ t) := by
  induction t using scan_induction hread generalizing before with
  | nil => intro s hs; cases hs
  | miss c t hmiss ih =>
      intro s hs
      have hnext := ih (before ++ [c])
      rw [List.length_append, List.length_singleton, List.append_assoc] at hnext
      rw [hitsFrom_miss hmiss] at hs
      exact hnext s hs
  | hit w rest hw hhit ih =>
      intro s hs
      have hnext := ih (before ++ w)
      rw [List.length_append, List.append_assoc] at hnext
      rw [hitsFrom_hit hw hhit] at hs
      rcases List.mem_cons.mp hs with rfl | hs
      · exact ⟨before, w, rest, rfl, hw, hhit, rfl⟩
      · exact hnext s hs

/-- No span can be read in front of the first hit, and there is one if any span can be read. -/
theorem exists_hitsFrom_le (hread : Takes read) (before t : Text) (h : s ∈ readable read (before ++ t))
    (hstart : before.length ≤ s.start) :
    ∃ first, (hitsFrom read 0 before.length t).head? = some first ∧ first.start ≤ s.start := by
  induction t using scan_induction hread generalizing before with
  | nil =>
      -- behind the end there is nothing to read
      rw [List.append_nil] at h
      exact absurd (start_lt_length h) (Nat.not_lt_of_le hstart)
  | miss c t hmiss ih =>
      have hne := start_ne_of_miss hmiss h
      have hnext := ih (before ++ [c])
      rw [List.length_append, List.length_singleton, List.append_assoc] at hnext
      rw [hitsFrom_miss hmiss]
      exact hnext h (by omega)
  | hit w rest hw hhit ih =>
      rw [hitsFrom_hit hw hhit]
      exact ⟨_, rfl, hstart⟩

/-- The first hit can be read, and nothing can be read that begins in front of it. -/
theorem first_of_hits {ss : List Span} (hread : Takes read) (h : hits read t = s :: ss) :
    s ∈ readable read t ∧ ∀ s' ∈ readable read t, s.start ≤ s'.start := by
  constructor
  · apply readable_of_mem_hitsFrom hread [] t
    show s ∈ hits read t
    rw [h]
    exact List.mem_cons_self
  · intro s' hs'
    obtain ⟨first, hfirst, hle⟩ := exists_hitsFrom_le hread [] t hs' (Nat.zero_le _)
    have hhead : (hits read t).head? = some first := hfirst
    rw [h] at hhead
    cases hhead
    exact hle

theorem hits_eq_nil_iff (hread : Takes read) (t : Text) :
    hits read t = [] ↔ ∀ s, s ∉ readable read t := by
  constructor
  · intro hnone s hs
    obtain ⟨first, hfirst, -⟩ := exists_hitsFrom_le hread [] t hs (Nat.zero_le _)
    rw [hits] at hnone
    rw [List.length_nil, hnone] at hfirst
    cases hfirst
  · intro hnever
    refine List.eq_nil_iff_forall_not_mem.mpr fun s hs => ?_
    exact hnever s (readable_of_mem_hitsFrom hread [] t s hs)

/-! ## As many as can be -/

section

variable {whole : Text} {ss : Finset Span}
  (hmono : ∀ a ∈ readable read whole, ∀ b ∈ readable read whole, a.start ≤ b.start → a.stop ≤ b.stop)
  (hapart : (ss : Set Span).Pairwise Span.IsApart) (hreadable : ∀ s ∈ ss, s ∈ readable read whole)
include hmono hapart hreadable

/-- Of spans that keep apart, one at most begins inside another that begins no later: two would both go on
to its end. -/
theorem card_inside_le_one {hit : Span} (hhit : hit ∈ readable read whole)
    (hstart : ∀ s ∈ ss, hit.start ≤ s.start) : (ss.filter (·.start < hit.stop)).card ≤ 1 := by
  refine Finset.card_le_one.mpr fun a ha b hb => ?_
  rw [Finset.mem_filter] at ha hb
  have hstopA := hmono _ hhit a (hreadable a ha.1) (hstart a ha.1)
  have hstopB := hmono _ hhit b (hreadable b hb.1) (hstart b hb.1)
  by_contra hne
  rcases hapart ha.1 hb.1 hne with h | h <;> omega

/-- Where a later beginning never means an earlier end, spans that keep apart are no more than the hits.
Of those that the scan has not passed yet, a hit takes one away at most. -/
theorem card_le_length_hitsFrom (hread : Takes read) (before t : Text) (hwhole : whole = before ++ t)
    (hstart : ∀ s ∈ ss, before.length ≤ s.start) :
    ss.card ≤ (hitsFrom read 0 before.length t).length := by
  induction t using scan_induction hread generalizing before ss with
  | nil =>
      have hempty : ss = ∅ := by
        refine Finset.eq_empty_of_forall_notMem fun s hs => ?_
        have hlt := start_lt_length (hreadable s hs)
        rw [hwhole, List.append_nil] at hlt
        exact absurd hlt (Nat.not_lt_of_le (hstart s hs))
      rw [hempty, Finset.card_empty]
      exact Nat.zero_le _
  | miss c t hmiss ih =>
      have hnext := ih hapart hreadable (before ++ [c]) (by simp [hwhole]) fun s hs => by
        have hfrom := hstart s hs
        have hne := start_ne_of_miss hmiss (hwhole ▸ hreadable s hs)
        rw [List.length_append, List.length_singleton]
        omega
      rw [hitsFrom_miss hmiss]
      rwa [List.length_append, List.length_singleton] at hnext
  | hit w rest hw hhit ih =>
      have hhere : (⟨before.length, before.length + w.length⟩ : Span) ∈ readable read whole :=
        ⟨before, w, rest, hwhole, hw, hhit, rfl⟩
      have hinside := card_inside_le_one hmono hapart hreadable hhere hstart
      have hbehind : (ss.filter (¬ ·.start < before.length + w.length)).card ≤
          (hitsFrom read 0 (before ++ w).length rest).length :=
        ih (hapart.mono fun s hs => (Finset.mem_filter.mp hs).1)
          (fun s hs => hreadable s (Finset.mem_filter.mp hs).1) (before ++ w)
          (by rw [hwhole, List.append_assoc]) fun s hs => by
            rw [List.length_append]
            exact Nat.le_of_not_lt (Finset.mem_filter.mp hs).2
      have hsplit := Finset.card_filter_add_card_filter_not (s := ss)
        (·.start < before.length + w.length)
      rw [List.length_append] at hbehind
      rw [hitsFrom_hit hw hhit, List.length_cons]
      dsimp only at hinside
      omega

end

/-- **The hits are as many as can be.** -/
theorem isGreatest_length_hits (hread : Takes read)
    (hmono : ∀ a ∈ readable read t, ∀ b ∈ readable read t, a.start ≤ b.start → a.stop ≤ b.stop) :
    IsGreatest (packings (readable read t)) (hits read t).length := by
  have hreadable : ∀ s ∈ hits read t, s ∈ readable read t := readable_of_mem_hitsFrom hread [] t
  have hapart : (hits read t).Pairwise fun a b => a.stop ≤ b.start := pairwise_hitsFrom hread 0 t
  refine ⟨⟨(hits read t).toFinset, ?_, ?_, ?_⟩, ?_⟩
  · intro s hs
    exact hreadable s (List.mem_toFinset.mp hs)
  · have hpairs : (hits read t).Pairwise Span.IsApart := hapart.imp .inl
    rw [List.coe_toFinset]
    exact hpairs.set_pairwise
  · refine List.toFinset_card_of_nodup (hapart.imp_of_mem fun ha _ h => ?_)
    rintro rfl
    have hlt := start_lt_stop (hreadable _ ha)
    omega
  · rintro k ⟨ss, hss, hssApart, rfl⟩
    exact card_le_length_hitsFrom hmono hssApart hss hread [] t rfl fun _ _ => Nat.zero_le _

/-! ## Occurrences of a literal text -/

/-- The text `p` stands in `t` at the offset `n`. -/
def OccursAt (p : Text) (n : Nat) (t : Text) : Prop :=
  ∃ before after, t = before ++ (p ++ after) ∧ before.length = n

theorem occursAt_iff {p t : Text} {n : Nat} : OccursAt p n t ↔ n ≤ t.length ∧ p <+: t.drop n := by
  constructor
  · rintro ⟨before, after, rfl, rfl⟩
    refine ⟨by simp, after, ?_⟩
    rw [List.drop_left]
  · rintro ⟨hle, after, hcut⟩
    refine ⟨t.take n, after, ?_, List.length_take_of_le hle⟩
    rw [hcut, List.take_append_drop]

instance (p : Text) (n : Nat) (t : Text) : Decidable (OccursAt p n t) :=
  decidable_of_iff _ occursAt_iff.symm

/-- Only so many offsets have to be looked at. -/
theorem existsUnique_occursAt {p t : Text} {n : Nat} (hoccurs : OccursAt p n t)
    (hother : ∀ n' ≤ t.length, OccursAt p n' t → n' = n) : ∃! n, OccursAt p n t :=
  ⟨n, hoccurs, fun n' h => hother n' (occursAt_iff.mp h).1 h⟩

/-- The spans of `t` at which `p` stands. -/
def occurrences (p t : Text) : Set Span := {s | OccursAt p s.start t ∧ s.stop = s.start + p.length}

theorem isInfix_iff_exists_occursAt {p t : Text} : p <:+: t ↔ ∃ n, OccursAt p n t := by
  constructor
  · rintro ⟨before, after, rfl⟩
    exact ⟨_, before, after, List.append_assoc _ _ _, rfl⟩
  · rintro ⟨_, before, after, rfl, -⟩
    exact ⟨before, after, List.append_assoc _ _ _⟩

/-- Where one occurrence at least can be chosen, there is one. -/
theorem isInfix_of_mem_packings {p : Text} {k : Nat} (hk : 0 < k) (h : k ∈ packings (occurrences p t)) :
    p <:+: t := by
  obtain ⟨s, hs⟩ := exists_of_mem_packings hk h
  exact isInfix_iff_exists_occursAt.mpr ⟨s.start, hs.1⟩

theorem eq_of_mem_occurrences {p : Text} {a b : Span} (ha : a ∈ occurrences p t)
    (hb : b ∈ occurrences p t) (hstart : a.start = b.start) : a = b := by
  have hstop : a.stop = b.stop := by rw [ha.2, hb.2, hstart]
  cases a
  cases b
  cases hstart
  cases hstop
  rfl

theorem slice_of_mem_occurrences {p : Text} (h : s ∈ occurrences p t) : s.slice t = p := by
  obtain ⟨start, stop⟩ := s
  obtain ⟨⟨before, after, rfl, rfl⟩, hstop⟩ := h
  obtain rfl : stop = before.length + p.length := hstop
  exact slice_append before p after

theorem takes_after? {p : Text} (hp : p ≠ []) : Takes (after? p) := by
  intro t rest h
  exact ⟨p, hp, after?_eq_some_iff.mp h⟩

/-- A literal text is read where it stands. -/
theorem readable_after? {p : Text} (hp : p ≠ []) (t : Text) :
    readable (after? p) t = occurrences p t := by
  ext ⟨start, stop⟩
  constructor
  · rintro ⟨before, w, after, hcut, -, hread, hs⟩
    obtain rfl : w = p := List.append_cancel_right (after?_eq_some_iff.mp hread)
    cases hs
    exact ⟨⟨before, after, hcut, rfl⟩, rfl⟩
  · rintro ⟨⟨before, after, hcut, rfl⟩, hstop⟩
    refine ⟨before, p, after, hcut, hp, after?_eq_some_iff.mpr rfl, ?_⟩
    rw [← hstop]

/-- Of two occurrences the one that begins later does not end earlier. -/
theorem stop_le_stop_of_mem_occurrences {p : Text} {a b : Span} (ha : a ∈ occurrences p t)
    (hb : b ∈ occurrences p t) (hle : a.start ≤ b.start) : a.stop ≤ b.stop := by
  rw [ha.2, hb.2]
  omega

end Emend.Text
