import Emend.Proofs.Edit.Insertions
import Emend.Proofs.Text.LineEnds

/-!
# Edits of texts whose lines end in carriage return and line feed

An exact search for an anchor on one line finds the same places whichever way the lines of the text end
(`locateUnique_withReturns`), so an edit that succeeds on one text succeeds on the other, and regions and
the starts of lines correspond. The end of a line does not: only a line feed or the end of the text counts
as one, so in front of a carriage return an anchor stands in the middle of its line (`SharesLine`), and
content that is inserted behind it goes to that line.
-/

namespace Emend

open Text (IsSingleLine withReturns withoutReturns offsetWithReturns)

variable {t text anchor : Text}

/-! ## The search -/

/-- The match that comes of `hit` when the text gets carriage returns. -/
def Match.withReturns (t : Text) (hit : Match) : Match :=
  { hit with start := offsetWithReturns t hit.start, stop := offsetWithReturns t hit.stop }

theorem locate_withReturns (hanchor : IsSingleLine anchor) (t : Text) :
    locate (withReturns t) anchor .exact = (locate t anchor .exact).map (Match.withReturns t) := by
  by_cases hne : anchor = [] ∨ t = []
  · have hne' : anchor = [] ∨ withReturns t = [] := hne.imp_right Text.withReturns_eq_nil_iff.mpr
    unfold locate
    rw [if_pos (by simpa using hne'), if_pos (by simpa using hne)]
    rfl
  · obtain ⟨hsome, htext⟩ := not_or.mp hne
    have htext' : withReturns t ≠ [] := mt Text.withReturns_eq_nil_iff.mp htext
    have hhits : Anchor.hits .exact (withReturns t) anchor =
        (Anchor.hits .exact t anchor).map (Text.Span.withReturns t) :=
      Text.hits_withReturns hsome hanchor t
    unfold locate
    rw [if_neg (by simp [hsome, htext']), if_neg (by simp [hsome, htext]), hhits]
    cases Anchor.hits .exact t anchor with
    | nil => rfl
    | cons s rest =>
        simp only [List.map_cons, List.length_map]
        rfl

namespace Merger

variable {m : Merger} {i : Instruction} {edited : Edited}

/-- The instruction is searched exactly, and in no other way. -/
def SearchesExactly (m : Merger) (i : Instruction) : Prop :=
  i.mode = some .exact ∨ i.mode = none ∧ m.policy = .exactOnly

theorem search_of_searchesExactly (h : m.SearchesExactly i) (text anchor : Text) :
    m.search i text anchor = locate text anchor .exact := by
  unfold search
  rcases h with hmode | ⟨hmode, hpolicy⟩
  · rw [hmode]
  · rw [hmode]
    show locateByPolicy text anchor m.policy = locate text anchor .exact
    unfold locateByPolicy
    rw [hpolicy]
    cases locate text anchor .exact <;> rfl

theorem locateUnique_withReturns (hexact : m.SearchesExactly i) {anchor : Option Text}
    (hanchor : ∀ a ∈ anchor, IsSingleLine a) (role : AnchorRole) (t : Text) :
    m.locateUnique i role (withReturns t) anchor =
      (m.locateUnique i role t anchor).map (Match.withReturns t) := by
  unfold locateUnique
  cases anchor with
  | none => rfl
  | some a =>
      cases a with
      | nil => rfl
      | cons c a =>
          have hsame := locate_withReturns (hanchor (c :: a) rfl) t
          dsimp only [Option.getD_some]
          rw [search_of_searchesExactly hexact, search_of_searchesExactly hexact, hsame]
          cases locate t (c :: a) .exact with
          | none => rfl
          | some hit =>
              show (if hit.occurrences = 1 then _ else _) = _
              dsimp only
              split <;> rfl

theorem region_withReturns (hexact : m.SearchesExactly i) (hanchor : ∀ a ∈ i.anchor, IsSingleLine a)
    (hanchorEnd : ∀ a ∈ i.anchorEnd, IsSingleLine a) {region : Text.Span}
    (h : m.region i t = .ok region) : m.region i (withReturns t) = .ok (region.withReturns t) := by
  obtain ⟨first, last, hfirst, hlast, rfl⟩ := region_eq_ok_iff.mp h
  refine region_eq_ok_iff.mpr ⟨first.withReturns t, last.withReturns (t.drop first.start), ?_, ?_, ?_⟩
  · rw [locateUnique_withReturns hexact hanchor, hfirst]
    rfl
  · -- the rest that is searched for the end anchor begins at the same place
    show m.locateUnique i .stop ((withReturns t).drop (offsetWithReturns t first.start)) i.anchorEnd = _
    rw [Text.drop_withReturns, locateUnique_withReturns hexact hanchorEnd, hlast]
    rfl
  · show Text.Span.mk _ _ = Text.Span.mk _ _
    rw [Text.offsetWithReturns_add]
    rfl

/-! ## The content -/

theorem contentBefore_withReturns (before content : Text) :
    contentBefore (withReturns before) content = contentBefore before content := by
  unfold contentBefore atLineStart
  rw [Text.getLast?_withReturns]

/-- In front of a carriage return nothing is added to the content. -/
theorem contentAfter_withReturns (rest content : Text) :
    contentAfter (withReturns rest) content =
      if rest.head? = some '\n' then content else contentAfter rest content := by
  cases rest with
  | nil => rfl
  | cons c rest =>
      by_cases hc : c = '\n'
      · subst hc
        rw [Text.withReturns_feed, List.head?_cons, if_pos rfl]
        rfl
      · rw [Text.withReturns_cons hc, if_neg (by simpa using hc)]
        rfl

theorem not_mem_contentBefore {before content : Text} (h : '\r' ∉ content) :
    '\r' ∉ contentBefore before content := by
  unfold contentBefore
  split
  · simp [h]
  · exact h

theorem not_mem_contentAfter {rest content : Text} (h : '\r' ∉ content) :
    '\r' ∉ contentAfter rest content := by
  unfold contentAfter
  split
  · simp [h]
  · exact h

theorem not_mem_getD {content : Option Text} (h : ∀ c ∈ content, '\r' ∉ c) : '\r' ∉ content.getD [] := by
  cases content with
  | none => exact List.not_mem_nil
  | some c => exact h c rfl

theorem not_mem_substitute (h : ∀ c ∈ i.content, '\r' ∉ c) : '\r' ∉ i.substitute := by
  unfold Instruction.substitute
  split
  · exact not_mem_getD h
  · exact List.not_mem_nil

/-! ## The edit -/

/-- The instruction inserts behind an anchor that ends its line, and its content brings no line feed of
its own. -/
def SharesLine (m : Merger) (i : Instruction) (text : Text) : Prop :=
  i.operation = .insertAfter ∧ (i.content.getD []).head? ≠ some '\n' ∧
    ∃ hit, m.locateUnique i .only text i.anchor = .ok hit ∧ text[hit.stop]? = some '\n'

section

variable (hexact : m.SearchesExactly i) (htext : '\r' ∉ text) (hcontent : ∀ c ∈ i.content, '\r' ∉ c)
  (hanchor : ∀ a ∈ i.anchor, IsSingleLine a) (hanchorEnd : ∀ a ∈ i.anchorEnd, IsSingleLine a)
include hexact htext hcontent hanchor

include hanchorEnd in
theorem perform_withReturns_region (hop : i.operation = .findReplace ∨ i.operation = .deleteContent)
    (h : m.perform i text = .ok edited) :
    ∃ result result', edited = .written result ∧
      m.perform i (withReturns text) = .ok (.written result') ∧ withoutReturns result' = result := by
  rw [perform_of_two_anchors hop] at h ⊢
  cases hregion : m.region i text with
  | error e =>
      rw [hregion] at h
      cases h
  | ok region =>
      rw [hregion] at h
      rw [region_withReturns hexact hanchor hanchorEnd hregion]
      cases h
      refine ⟨_, _, rfl, rfl, ?_⟩
      show withoutReturns ((withReturns text).take (offsetWithReturns text region.start) ++
        i.substitute ++ (withReturns text).drop (offsetWithReturns text region.stop)) = _
      rw [Text.take_withReturns, Text.drop_withReturns]
      exact Text.withoutReturns_between (mt List.mem_of_mem_take htext) (not_mem_substitute hcontent)
        (mt List.mem_of_mem_drop htext)

theorem perform_withReturns_before (hop : i.operation = .insertBefore)
    (h : m.perform i text = .ok edited) :
    ∃ result result', edited = .written result ∧
      m.perform i (withReturns text) = .ok (.written result') ∧ withoutReturns result' = result := by
  rw [perform_insertBefore hop] at h ⊢
  obtain ⟨hit, hhit, rfl⟩ := exists_of_map h
  rw [locateUnique_withReturns hexact hanchor, hhit]
  refine ⟨_, _, rfl, rfl, ?_⟩
  show withoutReturns ((withReturns text).take (offsetWithReturns text hit.start) ++
    contentBefore ((withReturns text).take (offsetWithReturns text hit.start)) _ ++
    (withReturns text).drop (offsetWithReturns text hit.start)) = _
  rw [Text.take_withReturns, Text.drop_withReturns, contentBefore_withReturns]
  exact Text.withoutReturns_between (mt List.mem_of_mem_take htext)
    (not_mem_contentBefore (not_mem_getD hcontent)) (mt List.mem_of_mem_drop htext)

theorem perform_withReturns_after (hop : i.operation = .insertAfter)
    (h : m.perform i text = .ok edited) :
    ∃ hit result', m.locateUnique i .only text i.anchor = .ok hit ∧
      edited = .written (text.take hit.stop ++ contentAfter (text.drop hit.stop) (i.content.getD []) ++
        text.drop hit.stop) ∧
      m.perform i (withReturns text) = .ok (.written result') ∧
      withoutReturns result' = text.take hit.stop ++
        (if text[hit.stop]? = some '\n' then i.content.getD []
          else contentAfter (text.drop hit.stop) (i.content.getD [])) ++ text.drop hit.stop := by
  rw [perform_insertAfter hop] at h ⊢
  obtain ⟨hit, hhit, rfl⟩ := exists_of_map h
  rw [locateUnique_withReturns hexact hanchor, hhit]
  refine ⟨hit, _, rfl, rfl, rfl, ?_⟩
  show withoutReturns ((withReturns text).take (offsetWithReturns text hit.stop) ++
    contentAfter ((withReturns text).drop (offsetWithReturns text hit.stop)) _ ++
    (withReturns text).drop (offsetWithReturns text hit.stop)) = _
  rw [Text.take_withReturns, Text.drop_withReturns, contentAfter_withReturns, List.head?_drop]
  refine Text.withoutReturns_between (mt List.mem_of_mem_take htext) ?_ (mt List.mem_of_mem_drop htext)
  split
  · exact not_mem_getD hcontent
  · exact not_mem_contentAfter (not_mem_getD hcontent)

include hanchorEnd in
/-- **Edits and line ends.** An edit at anchors on one line that succeeds on a text with line feeds
succeeds on the text with carriage returns in front of them, and without the carriage returns its result
is the same, but for an insertion behind an anchor that ends its line. There the content, unless it
begins with a line feed, comes on a line of its own in the one text and behind the anchor on the same
line in the other. -/
theorem apply_withReturns (hop : i.operation.requiresAnchor = true)
    (h : m.apply i (some text) = .ok edited) :
    ∃ result result', edited = .written result ∧
      m.apply i (some (withReturns text)) = .ok (.written result') ∧
      (¬ m.SharesLine i text → withoutReturns result' = result) ∧
      (m.SharesLine i text → ∃ hit, m.locateUnique i .only text i.anchor = .ok hit ∧
        result = text.take hit.stop ++ '\n' :: i.content.getD [] ++ text.drop hit.stop ∧
        withoutReturns result' = text.take hit.stop ++ i.content.getD [] ++ text.drop hit.stop) := by
  obtain ⟨hsupported, hsome⟩ := text_of_apply hop h
  have hperform := perform_of_apply h
  rw [apply_of_text hsupported (mt Text.withReturns_eq_nil_iff.mp hsome)]
  by_cases hafter : i.operation = .insertAfter
  · obtain ⟨hit, result', hhit, hedited, hperform', hback⟩ :=
      perform_withReturns_after hexact htext hcontent hanchor hafter hperform
    refine ⟨_, result', hedited, hperform', ?_, ?_⟩
    · intro hshares
      rw [hback]
      split
      · -- the content brings its line feed, so nothing is added in either text
        rename_i hfeed
        have hown : (i.content.getD []).head? = some '\n' := by
          by_contra hno
          exact hshares ⟨hafter, hno, hit, hhit, hfeed⟩
        unfold contentAfter
        rw [if_neg (by simp [hown])]
      · rfl
    · rintro ⟨-, hno, hit', hhit', hfeed⟩
      obtain rfl : hit = hit' := Except.ok.inj (hhit.symm.trans hhit')
      refine ⟨hit, hhit, ?_, ?_⟩
      · unfold contentAfter atLineEnd
        rw [List.head?_drop, hfeed, if_pos (by simp [hno])]
      · rw [hback, if_pos hfeed]
  · have hsame : ∃ result result', edited = .written result ∧
        m.perform i (withReturns text) = .ok (.written result') ∧ withoutReturns result' = result := by
      cases hcase : i.operation with
      | create | replace | deleteFile =>
          rw [hcase] at hop
          cases hop
      | findReplace =>
          exact perform_withReturns_region hexact htext hcontent hanchor hanchorEnd (.inl hcase) hperform
      | deleteContent =>
          exact perform_withReturns_region hexact htext hcontent hanchor hanchorEnd (.inr hcase) hperform
      | insertBefore => exact perform_withReturns_before hexact htext hcontent hanchor hcase hperform
      | insertAfter => exact absurd hcase hafter
    obtain ⟨result, result', hedited, hperform', hback⟩ := hsame
    exact ⟨result, result', hedited, hperform', fun _ => hback, fun hshares => absurd hshares.1 hafter⟩

end

/-- The anchor starts a line in both texts. -/
theorem apply_withReturns_before :
    ∃ result', ({} : Merger).apply
        ⟨"a.txt".toList, .insertBefore, some "new".toList, some "two".toList, none, some .exact⟩
        (some (withReturns "one\ntwo".toList)) = .ok (.written result') ∧
      withoutReturns result' = "one\nnew\ntwo".toList := by
  have happlied : ({} : Merger).apply
      ⟨"a.txt".toList, .insertBefore, some "new".toList, some "two".toList, none, some .exact⟩
      (some "one\ntwo".toList) = .ok (.written "one\nnew\ntwo".toList) := by decide
  obtain ⟨result, result', hedited, happly, hsame, -⟩ :=
    apply_withReturns (.inl rfl) (by decide) (by decide) (by decide) (by decide) rfl happlied
  cases hedited
  exact ⟨result', happly, hsame fun hshares => absurd hshares.1 (by decide)⟩

/-- The two texts are not always edited alike: behind an anchor at the end of its line the content goes
to that line where a carriage return follows. -/
theorem not_apply_withReturns_alike :
    ¬ ∀ (m : Merger) (i : Instruction) (text : Text) (edited : Edited),
      m.SearchesExactly i → '\r' ∉ text → (∀ c ∈ i.content, '\r' ∉ c) →
      (∀ a ∈ i.anchor, IsSingleLine a) → (∀ a ∈ i.anchorEnd, IsSingleLine a) →
      i.operation.requiresAnchor = true → m.apply i (some text) = .ok edited →
      ∃ result result', edited = .written result ∧
        m.apply i (some (withReturns text)) = .ok (.written result') ∧
        withoutReturns result' = result := by
  intro halike
  obtain ⟨result, result', hedited, happly, hsame⟩ := halike {}
    ⟨"a.txt".toList, .insertAfter, some "new".toList, some "one".toList, none, some .exact⟩
    "one\ntwo".toList (.written "one\nnew\ntwo".toList)
    (.inl rfl) (by decide) (by decide) (by decide) (by decide) rfl (by decide)
  have hjoined : ({} : Merger).apply
      ⟨"a.txt".toList, .insertAfter, some "new".toList, some "one".toList, none, some .exact⟩
      (some (withReturns "one\ntwo".toList)) = .ok (.written "onenew\r\ntwo".toList) := by decide
  rw [hjoined] at happly
  cases happly
  cases hedited
  exact absurd hsame (by decide)

end Merger

end Emend
