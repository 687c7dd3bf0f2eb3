import Emend.Message.Parse
import Emend.Proofs.Message.Tags
import Emend.Proofs.Text.Trimmed

/-!
# Cutting a message into blocks

`splitBlocks` runs over a message from the left. Its equations are stated for whole stretches of text:
a stretch in which the file tag does not occur goes to the body under way (`splitBlocks_append`), and
a marker at the start of a line starts a block with the rest of the text
(`splitBlocks_marker`).
-/

namespace Emend.Message

open Emend.Text (OccursIn folds fold isBlank)

/-- No spelling of the tag runs over the end of a line. -/
def FileTag.IsInline (tag : FileTag) : Prop := fold '\n' ∉ folds tag.text

theorem standard_isInline : FileTag.standard.IsInline :=
  fold_blank_not_mem fileTag_mem_tags (by decide)

/-! ## Markers -/

theorem skipInlineBlanks_newline (u m : Text) :
    skipInlineBlanks (u ++ '\n' :: m) = skipInlineBlanks u ++ '\n' :: m := by
  induction u with
  | nil => rfl
  | cons c u ih =>
      rw [List.cons_append, skipInlineBlanks, skipInlineBlanks, List.dropWhile_cons,
        List.dropWhile_cons]
      split
      · exact ih
      · rfl

theorem suffix_skipInlineBlanks (t : Text) : skipInlineBlanks t <:+ t := List.dropWhile_suffix _

theorem marker?_eq_none {tag : FileTag} {t : Text}
    (h : ¬ folds tag.text <+: folds (skipInlineBlanks t)) : marker? tag t = none := by
  rw [marker?]
  rw [show '[' :: tag.name ++ [']'] = tag.text from rfl, Text.afterCaseless?_eq_none h]
  rfl

/-- There is no marker in a text without the file tag. -/
theorem marker?_eq_none_of_not_occursIn {tag : FileTag} {u : Text} (h : ¬ OccursIn tag.text u) :
    marker? tag u = none := by
  refine marker?_eq_none fun hp => h ?_
  have hsuffix : folds (skipInlineBlanks u) <:+ folds u := (suffix_skipInlineBlanks u).map _
  exact hp.isInfix.trans hsuffix.isInfix

/-- There is no marker in the rest of a line without the file tag. -/
theorem marker?_newline_eq_none {tag : FileTag} (htag : tag.IsInline) {u : Text}
    (h : ¬ OccursIn tag.text u) (m : Text) : marker? tag (u ++ '\n' :: m) = none := by
  refine marker?_eq_none fun hp => h ?_
  rw [skipInlineBlanks_newline, Text.folds_append, Text.folds_cons] at hp
  have hprefix := Text.prefix_of_prefix_append_cons htag hp
  have hsuffix : folds (skipInlineBlanks u) <:+ folds u := (suffix_skipInlineBlanks u).map _
  exact hprefix.isInfix.trans hsuffix.isInfix

/-- A marker is read off the line on which a path follows the tag. -/
theorem marker?_written {tag : FileTag} {f path r : Text} (hf : folds f = folds tag.text)
    (hhead : ∀ c ∈ f.head?, isInlineBlank c = false) (hne : f ≠ [])
    (hpath : path ≠ []) (hstrip : Text.strip path = path) (hchars : '\n' ∉ path ∧ '[' ∉ path) :
    marker? tag (f ++ ' ' :: (path ++ '\n' :: r)) = some (path, '\n' :: r) := by
  have hskip : skipInlineBlanks (f ++ ' ' :: (path ++ '\n' :: r)) =
      f ++ ' ' :: (path ++ '\n' :: r) := by
    cases f with
    | nil => exact absurd rfl hne
    | cons c f =>
        rw [List.cons_append, skipInlineBlanks,
          List.dropWhile_cons_of_neg (by simp [hhead c (by simp)])]
  have hskipPath : skipInlineBlanks (' ' :: (path ++ '\n' :: r)) = path ++ '\n' :: r := by
    cases path with
    | nil => exact absurd rfl hpath
    | cons c path =>
        have hc : ¬ isInlineBlank c = true := fun h => by
          have hb := isBlank_of_isInlineBlank h
          rw [Text.isBlank_head_of_strip hstrip] at hb
          cases hb
        rw [skipInlineBlanks, List.dropWhile_cons_of_pos (by decide), List.cons_append,
          List.dropWhile_cons_of_neg hc]
  have hpathChar : ∀ c ∈ path, isPathChar c = true := by
    intro c hc
    have hnewline : c ≠ '\n' := fun h => hchars.1 (h ▸ hc)
    have hbracket : c ≠ '[' := fun h => hchars.2 (h ▸ hc)
    simp [isPathChar, hnewline, hbracket]
  rw [marker?, hskip, show '[' :: tag.name ++ [']'] = tag.text from rfl,
    Text.afterCaseless?_of_folds hf]
  simp only [Option.bind_eq_bind, Option.bind_some, hskipPath]
  rw [List.takeWhile_append_of_pos hpathChar, List.dropWhile_append_of_pos hpathChar,
    List.takeWhile_cons_of_neg (by decide), List.dropWhile_cons_of_neg (by decide), List.append_nil]
  rfl

/-! ## Stretches of a message -/

/-- Text to be skipped goes nowhere. -/
theorem splitBlocks_skip (tag : FileTag) (lineStart : Bool) (u : Text) (t : Text) :
    ∃ b, splitBlocks tag lineStart u.length (u ++ t) = splitBlocks tag b 0 t := by
  induction u generalizing lineStart with
  | nil => exact ⟨lineStart, rfl⟩
  | cons c u ih =>
      obtain ⟨b, hb⟩ := ih (c = '\n')
      exact ⟨b, by rw [List.length_cons, List.cons_append, splitBlocks, hb]⟩

theorem marker?_newline (tag : FileTag) (htag : tag.IsInline) (t : Text) :
    marker? tag ('\n' :: t) = none := by
  have hno : ¬ OccursIn tag.text [] := by
    intro h
    have hnil : folds tag.text = [] := List.infix_nil.mp h
    simp [FileTag.text] at hnil
  exact marker?_newline_eq_none htag hno t

/-- A line feed goes to the body under way, and a line starts behind it. -/
theorem splitBlocks_newline {tag : FileTag} (htag : tag.IsInline) (b : Bool) (t : Text) :
    splitBlocks tag b 0 ('\n' :: t) =
      ('\n' :: (splitBlocks tag true 0 t).1, (splitBlocks tag true 0 t).2) := by
  rw [splitBlocks, marker?_newline tag htag, ite_self]
  rfl

/-- A stretch of text without the file tag goes to the body under way. -/
theorem splitBlocks_append {tag : FileTag} (htag : tag.IsInline) (b : Bool) {u : Text}
    (hu : ¬ OccursIn tag.text u) (m : Text) :
    splitBlocks tag b 0 (u ++ '\n' :: m) =
      (u ++ '\n' :: (splitBlocks tag true 0 m).1, (splitBlocks tag true 0 m).2) := by
  -- no marker starts inside the stretch, whether or not a line does
  induction u generalizing b with
  | nil => exact splitBlocks_newline htag b m
  | cons c u ih =>
      have hnone := marker?_newline_eq_none htag hu m
      rw [List.cons_append] at hnone ⊢
      rw [splitBlocks, hnone, ite_self]
      simp only [ih (c = '\n') fun h => hu (h.cons c)]
      rfl

/-- A text without the file tag goes to the body under way. -/
theorem splitBlocks_of_not_occursIn {tag : FileTag} (b : Bool) {u : Text}
    (hu : ¬ OccursIn tag.text u) : splitBlocks tag b 0 u = (u, []) := by
  induction u generalizing b with
  | nil => rfl
  | cons c u ih =>
      rw [splitBlocks, marker?_eq_none_of_not_occursIn hu, ite_self]
      simp only [ih (c = '\n') fun h => hu (h.cons c)]

/-- A marker at the start of a line starts a block. -/
theorem splitBlocks_marker {tag : FileTag} {u t path : Text} (hu : u ≠ [])
    (hm : marker? tag (u ++ t) = some (path, t)) :
    ∃ b, splitBlocks tag true 0 (u ++ t) =
      ([], ⟨path, (splitBlocks tag b 0 t).1⟩ :: (splitBlocks tag b 0 t).2) := by
  cases u with
  | nil => exact absurd rfl hu
  | cons c u =>
      rw [List.cons_append] at hm ⊢
      obtain ⟨b, hb⟩ := splitBlocks_skip tag (c = '\n') u t
      refine ⟨b, ?_⟩
      rw [splitBlocks, if_pos rfl, hm]
      simp only [List.length_append, Nat.add_sub_cancel, hb]

end Emend.Message
