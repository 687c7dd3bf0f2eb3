import Emend.Message.Parse
import Emend.Proofs.Text.Caseless

/-!
# Tags in a text

A tag is a bracketed name. The tags of the grammar and the tag that starts a file block are few and
known, so what they have in common is checked once on the table `tags`: a tag begins with its only
opening bracket, it has no blank character, and none is part of another (`occursIn_tag_iff`). From
this follows where a tag can occur in a text put together from pieces: in one of the pieces, whenever
each piece begins with a blank character or an opening bracket (`occursIn_append`).
-/

namespace Emend.Message

open Emend.Text (OccursIn folds fold isBlank allBlank)

/-! ## The tags -/

/-- The names of the elements of a file block. -/
def elementNames : List String :=
  ["DELETE_FILE", "CREATE", "REPLACE", "MODIFY", "DELETE", "INSERT_AFTER", "INSERT_BEFORE", "ANCHOR",
   "ANCHOR_START", "ANCHOR_END", "CONTENT"]

/-- The tag that starts a file block. -/
def FileTag.text (tag : FileTag) : Text := '[' :: tag.name ++ [']']

/-- The opening and closing tags of the grammar, and the standard tag of a file block. -/
def tags : List Text :=
  FileTag.standard.text :: elementNames.flatMap fun name => [openTag name, closeTag name]

theorem openTag_mem_tags {name : String} (h : name ∈ elementNames) : openTag name ∈ tags :=
  List.mem_cons_of_mem _ (List.mem_flatMap.mpr ⟨name, h, by simp⟩)

theorem closeTag_mem_tags {name : String} (h : name ∈ elementNames) : closeTag name ∈ tags :=
  List.mem_cons_of_mem _ (List.mem_flatMap.mpr ⟨name, h, by simp⟩)

theorem fileTag_mem_tags : FileTag.standard.text ∈ tags := List.mem_cons_self

/-- The code point is that of a blank character. -/
def isBlankCode (n : Nat) : Bool := Text.blankRanges.any fun r => r.1 ≤ n && n ≤ r.2

theorem tag_shape {p : Text} (hp : p ∈ tags) :
    p = '[' :: p.tail ∧ fold '[' ∉ folds p.tail ∧ ∀ n ∈ folds p, isBlankCode n = false := by
  have h : ∀ p ∈ tags, p = '[' :: p.tail ∧ fold '[' ∉ folds p.tail ∧
      ∀ n ∈ folds p, isBlankCode n = false := by
    decide +kernel
  exact h p hp

theorem folds_infix_tag_iff {p q : Text} (hp : p ∈ tags) (hq : q ∈ tags) :
    folds p <:+: folds q ↔ p = q := by
  have h : ∀ p ∈ tags, ∀ q ∈ tags, folds p <:+: folds q → p = q := by decide +kernel
  exact ⟨h p hp q hq, fun heq => heq ▸ List.infix_rfl⟩

/-- A blank character is no letter of a tag. -/
theorem fold_blank_not_mem {p : Text} (hp : p ∈ tags) {c : Char} (hc : isBlank c = true) :
    fold c ∉ folds p := by
  intro hmem
  have hno := (tag_shape hp).2.2 _ hmem
  rw [Text.fold_of_isBlank hc] at hno
  exact Bool.false_ne_true (hno.symm.trans hc)

theorem fold_bracket_ne_blank {c d : Char} (hc : fold c = fold '[') (hd : isBlank d = true) :
    c ≠ d := by
  rintro rfl
  have hmem : fold c ∈ folds (openTag "CREATE") := by
    rw [hc]
    exact List.mem_cons_self
  exact fold_blank_not_mem (openTag_mem_tags (by decide)) hd hmem

theorem isBlank_of_isInlineBlank {c : Char} (h : isInlineBlank c = true) : isBlank c = true := by
  rw [isInlineBlank, Bool.or_eq_true, decide_eq_true_eq, decide_eq_true_eq] at h
  rcases h with rfl | rfl <;> decide

/-! ## Spellings of a tag -/

theorem exists_cons_of_folds {q d : Text} (hq : q ∈ tags) (hd : folds d = folds q) :
    ∃ c r, d = c :: r ∧ fold c = fold '[' ∧ folds r = folds q.tail := by
  rw [(tag_shape hq).1, Text.folds_cons] at hd
  cases d with
  | nil => cases hd
  | cons c r => exact ⟨c, r, rfl, (List.cons.inj hd).1, (List.cons.inj hd).2⟩

/-- The text is the tag in some mix of upper and lower case letters. -/
def Spells (t tag : Text) : Prop := t.map Char.toLower = tag.map Char.toLower

instance (t tag : Text) : Decidable (Spells t tag) :=
  inferInstanceAs (Decidable (t.map Char.toLower = tag.map Char.toLower))

theorem Spells.folds_eq {t tag : Text} (h : Spells t tag) : folds t = folds tag :=
  Text.folds_eq_of_map_toLower h

/-- In the spelling of a tag no other tag occurs. -/
theorem Spells.occursIn_iff {p q t : Text} (h : Spells t q) (hp : p ∈ tags) (hq : q ∈ tags) :
    OccursIn p t ↔ p = q := by
  rw [OccursIn, h.folds_eq]
  exact folds_infix_tag_iff hp hq

theorem Spells.exists_cons {t tag : Text} (h : Spells t tag) (htag : tag ∈ tags) :
    ∃ c r, t = c :: r ∧ fold c = fold '[' := by
  obtain ⟨c, r, hcons, hc, -⟩ := exists_cons_of_folds htag h.folds_eq
  exact ⟨c, r, hcons, hc⟩

/-! ## Occurrences in texts put together -/

/-- The text begins where no tag can be under way: with a blank character or an opening bracket. -/
def Breaks (t : Text) : Prop := ∀ c ∈ t.head?, isBlank c = true ∨ fold c = fold '['

theorem breaks_nil : Breaks [] := by simp [Breaks]

theorem breaks_blank_append {g t : Text} (hg : allBlank g = true) (ht : Breaks t) :
    Breaks (g ++ t) := by
  cases g with
  | nil => exact ht
  | cons d g =>
      intro c hc
      rw [List.cons_append, List.head?_cons, Option.mem_some_iff] at hc
      subst hc
      exact Or.inl (List.all_eq_true.mp hg d List.mem_cons_self)

theorem Spells.breaks_append {t tag : Text} (h : Spells t tag) (htag : tag ∈ tags) (r : Text) :
    Breaks (t ++ r) := by
  obtain ⟨c, t', rfl, hc⟩ := h.exists_cons htag
  intro d hd
  rw [List.cons_append, List.head?_cons, Option.mem_some_iff] at hd
  subst hd
  exact Or.inr hc

/-- A tag that occurs in two texts put together occurs in one of them. -/
theorem occursIn_append {p a b : Text} (hp : p ∈ tags) (hb : Breaks b) (h : OccursIn p (a ++ b)) :
    OccursIn p a ∨ OccursIn p b := by
  cases b with
  | nil =>
      rw [List.append_nil] at h
      exact Or.inl h
  | cons c b =>
      rcases hb c (by simp) with hc | hc
      · have hcut := (Text.occursIn_append_cons (fold_blank_not_mem hp hc)).mp h
        exact hcut.imp_right fun hr => hr.cons c
      · obtain ⟨hshape, hbracket, _⟩ := tag_shape hp
        rw [hshape] at h ⊢
        exact (Text.occursIn_append_head hbracket hc).mp h

theorem occursIn_newline {p a b : Text} (hp : p ∈ tags) (h : OccursIn p (a ++ '\n' :: b)) :
    OccursIn p a ∨ OccursIn p b :=
  (Text.occursIn_append_cons (fold_blank_not_mem hp (by decide))).mp h

/-- No tag occurs in blank text. -/
theorem not_occursIn_blank {p g : Text} (hp : p ∈ tags) (hg : allBlank g = true) :
    ¬ OccursIn p g := by
  intro h
  have hmem : fold '[' ∈ folds g := by
    refine h.subset ?_
    rw [(tag_shape hp).1]
    exact List.mem_cons_self
  obtain ⟨c, hc, hfold⟩ := List.mem_map.mp hmem
  exact fold_bracket_ne_blank hfold (List.all_eq_true.mp hg c hc) rfl

theorem occursIn_blank_append {p g t : Text} (hp : p ∈ tags) (hg : allBlank g = true)
    (ht : Breaks t) (h : OccursIn p (g ++ t)) : OccursIn p t :=
  (occursIn_append hp ht h).resolve_left (not_occursIn_blank hp hg)

end Emend.Message
