import Emend.Proofs.Edit.Anchor

/-!
# The search by words

The loosest search takes the words of an anchor and looks for them with any blank run between each two.
What it looks for are the parts of the text that begin and end with a character that is not blank and
have the words of the anchor (`wordings`). Reading the words off the front of a text reads such a part
(`exists_of_afterWords?`), and every such part is read off the front of it (`afterWords?_append`).

All these parts have the same characters but for blank ones. So none lies inside another
(`stop_le_stop`), and a scan from the left finds as many as can be chosen without two of them having a
character in common. The anchor without the blank characters at its ends is one of them wherever the
anchor itself stands: nothing that the exact search finds is missed.
-/

namespace Emend

open Text (Span IsTight IsWord isBlank allBlank tokens occurrences packings readable)

namespace Text

variable {t u w g : Text}

theorem stripStart_word_append (hw : IsWord w) (t : Text) : stripStart (w ++ t) = w ++ t := by
  obtain ⟨hne, hsolid⟩ := hw
  cases w with
  | nil => exact absurd rfl hne
  | cons c w =>
      have hc : isBlank c = false := hsolid c List.mem_cons_self
      rw [List.cons_append, stripStart, List.dropWhile_cons_of_neg (by simp [hc])]

theorem IsTight.tokens_ne_nil (h : IsTight t) : tokens t ≠ [] := by
  rw [ne_eq, tokens_eq_nil_iff]
  intro hblank
  obtain ⟨⟨c, hc, hsolid⟩, -⟩ := h
  have hcontra := List.all_eq_true.mp hblank c (List.mem_of_mem_head? hc)
  rw [hsolid] at hcontra
  cases hcontra

theorem IsTight.append (ht : IsTight t) (hu : IsTight u) (g : Text) : IsTight (t ++ (g ++ u)) := by
  refine ⟨?_, ?_⟩
  · rw [List.head?_append_of_ne_nil _ ht.ne_nil]
    exact ht.1
  · rw [List.getLast?_append_of_ne_nil _ (by simp [hu.ne_nil]), List.getLast?_append_of_ne_nil _ hu.ne_nil]
    exact hu.2

/-- What a word begins and a tight text ends is tight. -/
theorem IsTight.of_word_append (h : IsTight (t ++ (w ++ u))) (hw : IsWord w) : IsTight (w ++ u) := by
  refine ⟨?_, ?_⟩
  · rw [List.head?_append_of_ne_nil _ hw.1]
    exact hw.isTight.1
  · have hlast := h.2
    rwa [List.getLast?_append_of_ne_nil _ (by simp [hw.1])] at hlast

/-- A tight text begins with its first word. -/
theorem IsTight.exists_of_tokens_cons {v : Text} {ws : List Text} (h : IsTight t)
    (hwords : tokens t = v :: ws) :
    ∃ u, t = v ++ u ∧ tokens u = ws ∧ ∀ c ∈ u.head?, isBlank c = true := by
  obtain ⟨g, u, rfl, hg, hu, hbehind⟩ := Text.exists_of_tokens_cons hwords
  cases g with
  | nil => exact ⟨u, rfl, hu, hbehind⟩
  | cons c g =>
      obtain ⟨⟨d, hd, hsolid⟩, -⟩ := h
      cases hd
      simp [allBlank, hsolid] at hg

end Text

namespace Anchor

variable {words ws : List Text} {haystack anchor t u rest w g : Text} {hit : Match} {a b s : Span}

/-- The spans of `t` that begin and end with a character that is not blank and have the words of the
anchor. -/
def wordings (anchor t : Text) : Set Span :=
  {s | s.stop ≤ t.length ∧ IsTight (s.slice t) ∧ tokens (s.slice t) = tokens anchor}

/-! ## Reading words -/

theorem afterWords?_cons_cons (v w : Text) (ws : List Text) (t : Text) :
    afterWords? (v :: w :: ws) t = (Text.after? v t).bind fun rest =>
      if (rest.head?.map isBlank).getD false then afterWords? (w :: ws) (Text.stripStart rest)
      else none := rfl

/-- Behind a word the blank run is skipped as a whole. -/
theorem afterWords?_gap (hg : allBlank g = true) (hgap : g ≠ []) (hu : Text.stripStart u = u)
    (v w : Text) (ws : List Text) :
    afterWords? (v :: w :: ws) (v ++ (g ++ u)) = afterWords? (w :: ws) u := by
  have hhead : ((g ++ u).head?.map isBlank).getD false = true := by
    cases g with
    | nil => exact absurd rfl hgap
    | cons c g =>
        rw [allBlank, List.all_cons, Bool.and_eq_true] at hg
        simp [hg.1]
  rw [afterWords?_cons_cons, Text.after?_eq_some_iff.mpr rfl, Option.bind_some, if_pos hhead,
    Text.stripStart_blank_append hg, hu]

/-- Where words are read, a blank run is between the first and the others. -/
theorem exists_gap_of_afterWords? {v : Text} (h : afterWords? (v :: w :: ws) t = some rest) :
    ∃ g u, t = v ++ (g ++ u) ∧ allBlank g = true ∧ g ≠ [] ∧ afterWords? (w :: ws) u = some rest := by
  rw [afterWords?_cons_cons] at h
  obtain ⟨behind, hfirst, h⟩ := Option.bind_eq_some_iff.mp h
  split at h
  · rename_i hhead
    refine ⟨behind.takeWhile isBlank, Text.stripStart behind, ?_, List.all_takeWhile, ?_, h⟩
    · rw [Text.stripStart, List.takeWhile_append_dropWhile]
      exact Text.after?_eq_some_iff.mp hfirst
    · cases behind with
      | nil => cases hhead
      | cons c behind =>
          have hc : isBlank c = true := hhead
          simp [hc]
  · cases h

/-- What is read off the front of a text is tight and has the words that were to be read. -/
theorem exists_of_afterWords? (hwords : ∀ w ∈ words, IsWord w) (hsome : words ≠ [])
    (h : afterWords? words t = some rest) : ∃ w, t = w ++ rest ∧ IsTight w ∧ tokens w = words := by
  induction words generalizing t with
  | nil => exact absurd rfl hsome
  | cons v ws ih =>
      have hv : IsWord v := hwords v List.mem_cons_self
      cases ws with
      | nil => exact ⟨v, Text.after?_eq_some_iff.mp h, hv.isTight, Text.tokens_of_isWord hv⟩
      | cons w ws =>
          obtain ⟨g, behind, rfl, hg, hgap, h⟩ := exists_gap_of_afterWords? h
          have hothers : ∀ x ∈ w :: ws, IsWord x := fun x hx => hwords x (List.mem_cons_of_mem v hx)
          obtain ⟨u, rfl, htight, htokens⟩ := ih hothers (by simp) h
          refine ⟨v ++ (g ++ u), by simp only [List.append_assoc], hv.isTight.append htight g, ?_⟩
          have hhead : ∀ c ∈ (g ++ u).head?, isBlank c = true := by
            intro c hc
            rw [List.head?_append_of_ne_nil _ hgap] at hc
            exact List.all_eq_true.mp hg c (List.mem_of_mem_head? hc)
          rw [Text.tokens_word_append hv hhead, Text.tokens_blank_append hg, htokens]

/-- The words of a tight text are read off the front of it. -/
theorem afterWords?_append (htight : IsTight w) (rest : Text) :
    afterWords? (tokens w) (w ++ rest) = some rest := by
  induction hwords : tokens w generalizing w with
  | nil => exact absurd hwords htight.tokens_ne_nil
  | cons v ws ih =>
      obtain ⟨u, rfl, hu, hbehind⟩ := htight.exists_of_tokens_cons hwords
      cases ws with
      | nil =>
          have hnil : u = [] := htight.eq_nil_of_append (Text.tokens_eq_nil_iff.mp hu)
          rw [hnil, List.append_nil]
          exact Text.after?_eq_some_iff.mpr rfl
      | cons x ws =>
          obtain ⟨g, behind, rfl, hg, -, -⟩ := Text.exists_of_tokens_cons hu
          have hx : IsWord x := Text.isWord_of_mem_tokens (hu ▸ List.mem_cons_self)
          -- the next word is not the first one going on
          have hgap : g ≠ [] := by
            rintro rfl
            obtain ⟨⟨c, hc, hsolid⟩, -⟩ := hx.isTight
            have hblank := hbehind c (by rwa [List.nil_append, List.head?_append_of_ne_nil _ hx.1])
            rw [hsolid] at hblank
            cases hblank
          have hnext : IsTight (x ++ behind) := by
            rw [← List.append_assoc] at htight
            exact htight.of_word_append hx
          have htokens : tokens (x ++ behind) = x :: ws := by
            rwa [Text.tokens_blank_append hg] at hu
          have hstart : Text.stripStart (x ++ behind ++ rest) = x ++ behind ++ rest := by
            rw [List.append_assoc, Text.stripStart_word_append hx]
          rw [List.append_assoc, List.append_assoc, afterWords?_gap hg hgap hstart]
          exact ih hnext htokens

/-- **Reading words** reads the parts of the text that have the words. -/
theorem readable_afterWords? (hsome : tokens anchor ≠ []) (t : Text) :
    readable (afterWords? (tokens anchor)) t = wordings anchor t := by
  ext s
  constructor
  · rintro ⟨before, w, after, rfl, -, hread, rfl⟩
    obtain ⟨w', hcut, htight, htokens⟩ :=
      exists_of_afterWords? (fun w hw => Text.isWord_of_mem_tokens hw) hsome hread
    obtain rfl : w = w' := List.append_cancel_right hcut
    refine ⟨?_, ?_⟩
    · simp only [List.length_append]
      omega
    · rw [Text.slice_append]
      exact ⟨htight, htokens⟩
  · rintro ⟨hstop, htight, htokens⟩
    have hwidth := List.length_pos_iff.mpr htight.ne_nil
    rw [Text.length_slice hstop] at hwidth
    obtain ⟨before, after, hcut, hs⟩ := Text.exists_cut_of_span (by omega) hstop
    refine ⟨before, s.slice t, after, hcut, htight.ne_nil, ?_, hs⟩
    rw [← htokens]
    exact afterWords?_append htight after

/-! ## Parts that have the words -/

theorem start_lt_stop (h : s ∈ wordings anchor t) : s.start < s.stop := by
  have hwidth := List.length_pos_iff.mpr h.2.1.ne_nil
  rw [Text.length_slice h.1] at hwidth
  omega

theorem tokens_ne_nil_of_mem_wordings (h : s ∈ wordings anchor t) : tokens anchor ≠ [] := by
  rw [← h.2.2]
  exact h.2.1.tokens_ne_nil

/-- **No part lies inside another.** Both have the same characters but for blank ones; what the other has
more at its end would be blank. -/
theorem stop_le_stop (ha : a ∈ wordings anchor t) (hb : b ∈ wordings anchor t)
    (hle : a.start ≤ b.start) : a.stop ≤ b.stop := by
  by_contra hlt
  have horder := start_lt_stop hb
  obtain ⟨front, hfront⟩ : ∃ front, (Span.mk a.start b.start).slice t = front := ⟨_, rfl⟩
  obtain ⟨back, hback⟩ : ∃ back, (Span.mk b.stop a.stop).slice t = back := ⟨_, rfl⟩
  have hcut : a.slice t = front ++ (b.slice t ++ back) := by
    have hinner : b.slice t ++ back = (Span.mk b.start a.stop).slice t := by
      rw [← hback]
      exact Text.slice_append_slice (Nat.le_of_lt horder) (by omega) t
    rw [hinner, ← hfront]
    exact (Text.slice_append_slice hle (by omega) t).symm
  have hsame : (a.slice t).filter (fun c => !isBlank c) = (b.slice t).filter fun c => !isBlank c := by
    rw [← Text.flatten_tokens, ← Text.flatten_tokens, ha.2.2, hb.2.2]
  have hblank : allBlank back = true := by
    have hlength := congrArg List.length hsame
    rw [hcut, List.filter_append, List.filter_append, List.length_append, List.length_append] at hlength
    have hnone : back.filter (fun c => !isBlank c) = [] := List.length_eq_zero_iff.mp (by omega)
    rw [List.filter_eq_nil_iff] at hnone
    exact List.all_eq_true.mpr fun c hc => by simpa using hnone c hc
  have hnil : back = [] := by
    have htight := ha.2.1
    rw [hcut, ← List.append_assoc] at htight
    exact htight.eq_nil_of_append hblank
  have hwidth : back.length = a.stop - b.stop := by
    rw [← hback]
    exact Text.length_slice ha.1
  rw [hnil, List.length_nil] at hwidth
  omega

/-- Where one of them begins there is no other. -/
theorem eq_of_start_eq (ha : a ∈ wordings anchor t) (hb : b ∈ wordings anchor t)
    (hstart : a.start = b.start) : a = b := by
  have hab := stop_le_stop ha hb hstart.le
  have hba := stop_le_stop hb ha hstart.ge
  cases a
  cases b
  cases hstart
  cases Nat.le_antisymm hab hba
  rfl

/-! ## What the search finds -/

theorem takes_tokens (hsome : tokens anchor ≠ []) : Text.Takes (afterWords? (tokens anchor)) := by
  cases hwords : tokens anchor with
  | nil => exact absurd hwords hsome
  | cons w ws => exact takes_afterWords? (Text.ne_nil_of_mem_tokens (hwords ▸ List.mem_cons_self)) ws

theorem hits_whitespace (hsome : tokens anchor ≠ []) (haystack : Text) :
    hits .whitespace haystack anchor = Text.hits (afterWords? (tokens anchor)) haystack := by
  unfold hits
  dsimp only
  split
  · rename_i hnone
    exact absurd hnone hsome
  · rfl

theorem hits_whitespace_of_blank (hnone : tokens anchor = []) (haystack : Text) :
    hits .whitespace haystack anchor = [] := by
  unfold hits
  dsimp only
  rw [hnone]

theorem locate_whitespace_eq_none_iff (hhaystack : haystack ≠ []) (hanchor : anchor ≠ []) :
    locate haystack anchor .whitespace = none ↔ ∀ s, s ∉ wordings anchor haystack := by
  rw [locate_eq_none_iff hhaystack hanchor]
  by_cases hsome : tokens anchor = []
  · constructor
    · intro _ s hs
      exact tokens_ne_nil_of_mem_wordings hs hsome
    · intro _
      exact hits_whitespace_of_blank hsome haystack
  · rw [hits_whitespace hsome, Text.hits_eq_nil_iff (takes_tokens hsome), readable_afterWords? hsome]

theorem tokens_ne_nil_of_locate (h : locate haystack anchor .whitespace = some hit) :
    tokens anchor ≠ [] := by
  intro hnone
  obtain ⟨rest, hhits, -⟩ := hits_of_locate h
  rw [hits_whitespace_of_blank hnone] at hhits
  cases hhits

/-- What the search by words finds and counts are parts that have the words. -/
theorem wordings_of_locate (h : locate haystack anchor .whitespace = some hit) :
    (⟨hit.start, hit.stop⟩ : Span) ∈ wordings anchor haystack ∧
    (∀ s ∈ wordings anchor haystack, hit.start ≤ s.start) ∧
    IsGreatest (packings (wordings anchor haystack)) hit.occurrences := by
  have hsome := tokens_ne_nil_of_locate h
  rw [← readable_afterWords? hsome]
  apply scan_of_locate (takes_tokens hsome) (hits_whitespace hsome haystack) ?_ h
  rw [readable_afterWords? hsome]
  intro a ha b hb hle
  exact stop_le_stop ha hb hle

/-- **The search by words** finds nothing exactly if the anchor has no words or no part of the text that
begins and ends with a character that is not blank has the same. Otherwise it finds the one of these parts
that begins first, says whether it is the anchor itself, and counts as many of them as can be chosen
without two having a character in common. -/
theorem locate_whitespace_meaning (hhaystack : haystack ≠ []) (hanchor : anchor ≠ []) :
    (locate haystack anchor .whitespace = none ↔
      tokens anchor = [] ∨ ∀ s, s ∉ wordings anchor haystack) ∧
    ∀ hit, locate haystack anchor .whitespace = some hit →
      (⟨hit.start, hit.stop⟩ : Span) ∈ wordings anchor haystack ∧
      (∀ s ∈ wordings anchor haystack, s ≠ ⟨hit.start, hit.stop⟩ → hit.start < s.start) ∧
      (hit.isExact = true ↔ (Span.mk hit.start hit.stop).slice haystack = anchor) ∧
      IsGreatest (packings (wordings anchor haystack)) hit.occurrences := by
  constructor
  · rw [locate_whitespace_eq_none_iff hhaystack hanchor]
    constructor
    · exact Or.inr
    · rintro (hnone | hnever)
      · intro s hs
        exact tokens_ne_nil_of_mem_wordings hs hnone
      · exact hnever
  · intro hit hhit
    obtain ⟨hfound, hfirst, hgreatest⟩ := wordings_of_locate hhit
    refine ⟨hfound, fun s hs hother => ?_, ?_, hgreatest⟩
    · refine Nat.lt_of_le_of_ne (hfirst s hs) fun hstart => ?_
      exact hother (eq_of_start_eq hs hfound hstart.symm)
    · rw [isExact_of_locate hhit]
      simp [isExact]

/-- Of the four parts each overlaps the next, and the first is not the anchor itself. -/
theorem locate_whitespace_meaning_overlapping :
    locate "a\n a a\ta a".toList "a a".toList .whitespace = some ⟨0, 4, 2, false, .whitespace⟩ ∧
    (⟨3, 6⟩ : Span) ∈ wordings "a a".toList "a\n a a\ta a".toList ∧
    IsGreatest (packings (wordings "a a".toList "a\n a a\ta a".toList)) 2 := by
  have hhit : locate "a\n a a\ta a".toList "a a".toList .whitespace =
      some ⟨0, 4, 2, false, .whitespace⟩ := by decide
  obtain ⟨-, -, -, hgreatest⟩ := (locate_whitespace_meaning (by decide) (by decide)).2 _ hhit
  exact ⟨hhit, ⟨by decide, by decide, by decide⟩, hgreatest⟩

/-! ## Compared with the exact search -/

/-- What is left of an occurrence of the anchor behind the blank characters `g` at its front and in front of
those at its end. -/
def trimmed (anchor g : Text) (s : Span) : Span :=
  ⟨s.start + g.length, s.start + g.length + (Text.strip anchor).length⟩

/-- Where the anchor stands, what it is without the blank characters at its ends has its words. -/
theorem contains_trimmed (hanchor : allBlank anchor = false) {g' : Text}
    (hcut : anchor = g ++ (Text.strip anchor ++ g')) (hs : s ∈ occurrences anchor t) :
    s.Contains (trimmed anchor g s) ∧ trimmed anchor g s ∈ wordings anchor t := by
  unfold trimmed
  have htight : IsTight (Text.strip anchor) := Text.isTight_strip hanchor
  have htokens : tokens (Text.strip anchor) = tokens anchor := Text.tokens_strip anchor
  obtain ⟨core, hcore⟩ : ∃ core, Text.strip anchor = core := ⟨_, rfl⟩
  rw [hcore] at hcut htight htokens ⊢
  obtain ⟨⟨before, after, rfl, hstart⟩, hstop⟩ := hs
  have hlength : anchor.length = g.length + (core.length + g'.length) := by simp [hcut]
  have htext : before ++ (anchor ++ after) = (before ++ g) ++ (core ++ (g' ++ after)) := by simp [hcut]
  have hoffset : s.start + g.length = (before ++ g).length := by
    rw [List.length_append, hstart]
  constructor
  · unfold Span.Contains
    dsimp only
    omega
  · rw [hoffset, htext]
    refine ⟨?_, ?_⟩
    · simp only [List.length_append]
      omega
    · rw [Text.slice_append]
      exact ⟨htight, htokens⟩

/-- **The search by words misses nothing** that the exact search finds, and counts no less: an anchor that
is ambiguous when it is searched exactly is so when it is searched by words. -/
theorem locate_whitespace_of_exact (hanchor : allBlank anchor = false)
    (h : locate haystack anchor .exact = some hit) :
    ∃ loose, locate haystack anchor .whitespace = some loose ∧ hit.occurrences ≤ loose.occurrences ∧
      (hit.isUnique = false → loose.isUnique = false) := by
  obtain ⟨g, g', -, -, hcut⟩ := Text.exists_append_strip anchor
  have hmany : hit.occurrences ∈ packings (wordings anchor haystack) := by
    apply Text.mem_packings_of_contains (trimmed anchor g) ?_ ?_ (isGreatest_occurrences_of_locate h).1
    · intro s hs
      exact contains_trimmed hanchor hcut hs
    · intro s hs
      exact start_lt_stop hs
  have hpositive : 0 < hit.occurrences := by
    obtain ⟨rest, -, hcount⟩ := hits_of_locate h
    omega
  cases hloose : locate haystack anchor .whitespace with
  | none =>
      obtain ⟨hhaystack, hne⟩ := ne_nil_of_locate h
      have hnever := (locate_whitespace_eq_none_iff hhaystack hne).mp hloose
      obtain ⟨s, hs⟩ := Text.exists_of_mem_packings hpositive hmany
      exact absurd hs (hnever s)
  | some loose =>
      have hle : hit.occurrences ≤ loose.occurrences := (wordings_of_locate hloose).2.2.2 hmany
      refine ⟨loose, rfl, hle, ?_⟩
      unfold Match.isUnique
      intro hmore
      rw [beq_eq_false_iff_ne] at hmore ⊢
      omega

/-- The words stand at more places than the anchor itself. -/
theorem locate_whitespace_of_exact_more :
    locate " a b\na\tb a b".toList " a b".toList .exact = some ⟨0, 4, 2, true, .exact⟩ ∧
    ∃ loose, locate " a b\na\tb a b".toList " a b".toList .whitespace = some loose ∧
      2 ≤ loose.occurrences ∧ loose.isUnique = false := by
  have hhit : locate " a b\na\tb a b".toList " a b".toList .exact = some ⟨0, 4, 2, true, .exact⟩ := by
    decide
  obtain ⟨loose, hloose, hle, hunique⟩ := locate_whitespace_of_exact (by decide) hhit
  exact ⟨hhit, loose, hloose, hle, hunique rfl⟩

end Anchor

end Emend
