import Emend.Proofs.Text.Trimmed
import Mathlib.Data.List.Basic

/-!
# Words of a text

The words of a text are its longest runs of characters that are not blank. A blank character between two
texts comes between their words (`tokens_append_cons`), so blank characters at the ends of a text do not
matter; and the words one behind the other are the text without its blank characters (`flatten_tokens`).
What stands in front of the first word is blank, and so is the character behind it
(`exists_of_tokens_cons`).
-/

namespace Emend.Text

/-- The text is a word: there is something to it, and nothing blank. -/
def IsWord (w : Text) : Prop := w ≠ [] ∧ ∀ c ∈ w, isBlank c = false

/-- The text begins and ends with characters that are not blank. -/
def IsTight (t : Text) : Prop :=
  (∃ c ∈ t.head?, isBlank c = false) ∧ ∃ c ∈ t.getLast?, isBlank c = false

instance (t : Text) : Decidable (IsTight t) :=
  decidable_of_iff ((t.head?.any fun c => !isBlank c) = true ∧ (t.getLast?.any fun c => !isBlank c) = true)
    (by simp [IsTight, Option.any_eq_true])

variable {t u w g : Text} {ws : List Text} {c d : Char}

/-! ## One character in front -/

theorem tokens_cons_blank (hc : isBlank c = true) (t : Text) : tokens (c :: t) = tokens t := by
  cases t <;> simp [tokens, hc]

/-- A character is a word of its own if no word begins behind it. -/
theorem tokens_cons_alone (hc : isBlank c = false) (h : ∀ d ∈ t.head?, isBlank d = true) :
    tokens (c :: t) = [c] :: tokens t := by
  cases t with
  | nil => simp [tokens, hc]
  | cons d t =>
      have hd : isBlank d = true := h d rfl
      simp [tokens, hc, hd]

/-- A character belongs to the word that begins behind it. -/
theorem tokens_cons_word (hc : isBlank c = false) (hd : isBlank d = false)
    (h : tokens (d :: t) = w :: ws) : tokens (c :: d :: t) = (c :: w) :: ws := by
  rw [tokens, h]
  simp [hc, hd]

theorem exists_tokens_cons (hd : isBlank d = false) (t : Text) : ∃ w ws, tokens (d :: t) = w :: ws := by
  induction t generalizing d with
  | nil => exact ⟨_, _, tokens_cons_alone hd (by simp)⟩
  | cons e t ih =>
      cases he : isBlank e with
      | true => exact ⟨_, _, tokens_cons_alone hd (by simpa using he)⟩
      | false =>
          obtain ⟨w, ws, hwords⟩ := ih he
          exact ⟨_, _, tokens_cons_word hd he hwords⟩

/-- **Induction along the words.** In front of a text comes a blank character, one that is a word of its
own, or one more of the first word. -/
theorem tokens_induction {motive : Text → List Text → Prop} (nil : motive [] [])
    (blank : ∀ c t, isBlank c = true → motive t (tokens t) → motive (c :: t) (tokens t))
    (alone : ∀ c t, isBlank c = false → (∀ d ∈ t.head?, isBlank d = true) → motive t (tokens t) →
      motive (c :: t) ([c] :: tokens t))
    (word : ∀ c d t w ws, isBlank c = false → isBlank d = false → tokens (d :: t) = w :: ws →
      motive (d :: t) (w :: ws) → motive (c :: d :: t) ((c :: w) :: ws))
    (t : Text) : motive t (tokens t) := by
  induction t with
  | nil => exact nil
  | cons c t ih =>
      cases hc : isBlank c with
      | true =>
          rw [tokens_cons_blank hc]
          exact blank c t hc ih
      | false =>
          by_cases hbehind : ∀ d ∈ t.head?, isBlank d = true
          · rw [tokens_cons_alone hc hbehind]
            exact alone c t hc hbehind ih
          · cases t with
            | nil => simp at hbehind
            | cons d t =>
                have hd : isBlank d = false := by simpa using hbehind
                obtain ⟨w, ws, hwords⟩ := exists_tokens_cons hd t
                rw [hwords] at ih
                rw [tokens_cons_word hc hd hwords]
                exact word c d t w ws hc hd hwords ih

/-! ## What words are made of -/

/-- **The words one behind the other** are the text without its blank characters. -/
theorem flatten_tokens (t : Text) : (tokens t).flatten = t.filter fun c => !isBlank c := by
  induction t using tokens_induction with
  | nil => rfl
  | blank c t hc ih => simp [hc, ih]
  | alone c t hc hbehind ih => simp [hc, ih]
  | word c d t w ws hc hd hwords ih => simpa [hc] using ih

theorem isWord_of_mem_tokens (h : w ∈ tokens t) : IsWord w := by
  induction t using tokens_induction generalizing w with
  | nil => cases h
  | blank c t hc ih => exact ih h
  | alone c t hc hbehind ih =>
      rcases List.mem_cons.mp h with rfl | h
      · exact ⟨by simp, by simpa using hc⟩
      · exact ih h
  | word c d t v ws hc hd hwords ih =>
      rcases List.mem_cons.mp h with rfl | h
      · have hsolid := (ih List.mem_cons_self).2
        exact ⟨by simp, by simpa [hc] using hsolid⟩
      · exact ih (List.mem_cons_of_mem v h)

theorem ne_nil_of_mem_tokens (h : w ∈ tokens t) : w ≠ [] := (isWord_of_mem_tokens h).1

theorem tokens_eq_nil_iff : tokens t = [] ↔ allBlank t = true := by
  constructor
  · intro h
    have hleft := flatten_tokens t
    rw [h, List.flatten_nil, eq_comm, List.filter_eq_nil_iff] at hleft
    rw [allBlank, List.all_eq_true]
    intro c hc
    simpa using hleft c hc
  · intro h
    induction t with
    | nil => rfl
    | cons c t ih =>
        rw [allBlank, List.all_cons, Bool.and_eq_true] at h
        rw [tokens_cons_blank h.1]
        exact ih h.2

theorem tokens_of_isWord (h : IsWord w) : tokens w = [w] := by
  obtain ⟨hne, hsolid⟩ := h
  induction w with
  | nil => exact absurd rfl hne
  | cons c w ih =>
      have hc : isBlank c = false := hsolid c List.mem_cons_self
      cases w with
      | nil => exact tokens_cons_alone hc (by simp)
      | cons d w =>
          have hd : isBlank d = false := hsolid d (by simp)
          exact tokens_cons_word hc hd (ih (by simp) fun e he => hsolid e (List.mem_cons_of_mem c he))

/-! ## Blank characters between words -/

/-- **A blank character comes between words.** -/
theorem tokens_append_cons (hc : isBlank c = true) (t u : Text) :
    tokens (t ++ c :: u) = tokens t ++ tokens u := by
  induction t using tokens_induction with
  | nil => exact tokens_cons_blank hc u
  | blank d t hd ih => rw [List.cons_append, tokens_cons_blank hd, ih]
  | alone d t hd hbehind ih =>
      have hstill : ∀ e ∈ (t ++ c :: u).head?, isBlank e = true := by
        cases t with
        | nil => simpa using hc
        | cons e t => simpa using hbehind
      rw [List.cons_append, tokens_cons_alone hd hstill, ih, List.cons_append]
  | word d e t w ws hd he hwords ih => exact tokens_cons_word hd he ih

theorem tokens_blank_append (hg : allBlank g = true) (t : Text) : tokens (g ++ t) = tokens t := by
  induction g with
  | nil => rfl
  | cons c g ih =>
      rw [allBlank, List.all_cons, Bool.and_eq_true] at hg
      rw [List.cons_append, tokens_cons_blank hg.1]
      exact ih hg.2

theorem tokens_append_blank (hg : allBlank g = true) (t : Text) : tokens (t ++ g) = tokens t := by
  cases g with
  | nil => rw [List.append_nil]
  | cons c g =>
      rw [allBlank, List.all_cons, Bool.and_eq_true] at hg
      rw [tokens_append_cons hg.1, tokens_eq_nil_iff.mpr hg.2, List.append_nil]

/-- Blank characters at the ends do not matter. -/
theorem tokens_strip (t : Text) : tokens (strip t) = tokens t := by
  obtain ⟨g, g', hg, hg', hcut⟩ := exists_append_strip t
  have hall : tokens (g ++ (strip t ++ g')) = tokens (strip t) := by
    rw [tokens_blank_append hg, tokens_append_blank hg']
  rw [← hall, ← hcut]

/-- A word behind which nothing goes on is the first word. -/
theorem tokens_word_append (hw : IsWord w) (h : ∀ c ∈ u.head?, isBlank c = true) :
    tokens (w ++ u) = w :: tokens u := by
  cases u with
  | nil =>
      rw [List.append_nil]
      exact tokens_of_isWord hw
  | cons c u =>
      have hc : isBlank c = true := h c rfl
      rw [tokens_append_cons hc, tokens_of_isWord hw, tokens_cons_blank hc, List.singleton_append]

/-- **The first word** has only blank characters in front of it, and nothing or a blank one behind it. -/
theorem exists_of_tokens_cons (h : tokens t = w :: ws) :
    ∃ g u, t = g ++ (w ++ u) ∧ allBlank g = true ∧ tokens u = ws ∧ ∀ c ∈ u.head?, isBlank c = true := by
  induction t using tokens_induction generalizing w ws with
  | nil => cases h
  | blank c t hc ih =>
      obtain ⟨g, u, rfl, hg, hu, hbehind⟩ := ih h
      refine ⟨c :: g, u, rfl, ?_, hu, hbehind⟩
      rw [allBlank, List.all_cons, hc]
      exact hg
  | alone c t hc hbehind ih =>
      cases h
      exact ⟨[], t, rfl, rfl, rfl, hbehind⟩
  | word c d t v vs hc hd hwords ih =>
      cases h
      obtain ⟨g, u, hcut, hg, hu, hbehind⟩ := ih rfl
      -- nothing stands in front of a word that begins here
      cases g with
      | nil =>
          rw [List.nil_append] at hcut
          exact ⟨[], u, by rw [hcut]; rfl, rfl, hu, hbehind⟩
      | cons e g =>
          cases hcut
          simp [allBlank, hd] at hg

/-! ## Tight texts -/

theorem IsTight.ne_nil (h : IsTight t) : t ≠ [] := by
  rintro rfl
  obtain ⟨⟨c, hc, -⟩, -⟩ := h
  cases hc

/-- A tight text does not end in anything blank. -/
theorem IsTight.eq_nil_of_append (h : IsTight (t ++ g)) (hg : allBlank g = true) : g = [] := by
  rcases List.eq_nil_or_concat g with rfl | ⟨g, c, rfl⟩
  · rfl
  · rw [List.concat_eq_append] at h hg
    obtain ⟨-, d, hd, hsolid⟩ := h
    rw [← List.append_assoc, List.getLast?_concat] at hd
    cases hd
    have hblank : isBlank c = true := List.all_eq_true.mp hg c (by simp)
    rw [hsolid] at hblank
    cases hblank

theorem isTight_strip (h : allBlank t = false) : IsTight (strip t) := by
  have hne : strip t ≠ [] := by
    rw [ne_eq, strip_eq_nil_iff, h]
    exact Bool.false_ne_true
  constructor
  · -- the first character is that of the text without the blank ones at its front
    obtain ⟨back, hback⟩ : ∃ back, strip t ++ back = stripStart t := prefix_stripEnd (stripStart t)
    have hfront : stripStart t ≠ [] := by
      rw [← hback]
      exact List.append_ne_nil_of_left_ne_nil hne back
    have hhead : (strip t).head? = some ((stripStart t).head hfront) := by
      rw [← List.head?_eq_some_head hfront, ← hback, List.head?_append_of_ne_nil _ hne]
    exact ⟨_, hhead, List.head_dropWhile_not isBlank hfront⟩
  · have hback : (stripStart t).reverse.dropWhile isBlank ≠ [] := by
      intro hnone
      rw [strip, stripEnd, hnone] at hne
      exact hne rfl
    refine ⟨_, ?_, List.head_dropWhile_not isBlank hback⟩
    rw [strip, stripEnd, List.getLast?_reverse]
    exact List.head?_eq_some_head hback

theorem isTight_strip_of_ne_nil (h : strip t ≠ []) : IsTight (strip t) := by
  refine isTight_strip ?_
  rwa [ne_eq, strip_eq_nil_iff, Bool.not_eq_true] at h

theorem IsWord.isTight (h : IsWord w) : IsTight w := by
  obtain ⟨hne, hsolid⟩ := h
  refine ⟨⟨w.head hne, List.head?_eq_some_head hne, ?_⟩,
    ⟨w.getLast hne, List.getLast?_eq_some_getLast hne, ?_⟩⟩
  · exact hsolid _ (List.head_mem hne)
  · exact hsolid _ (List.getLast_mem hne)

end Emend.Text
