import Emend.Proofs.Message.Locality
import Emend.Proofs.Message.Written

/-!
# What makes a block a deletion

The pattern of a deletion is a single tag, it is tried before all others, and it is searched in the
whole body of a block. So the tag makes the block a deletion wherever it stands, also inside an element
whose text is otherwise literal.

What such a tag displaces does not go unnoticed. `Fits` says where a pattern can be read by naming the
pieces of the text, and from pieces it is plain that a tag can be cut out: two tags never overlap, so
the tag lies inside one literal text or outside of all that the pattern reads (`Fits.cut`). An operation
that the block spells out is therefore still found when the tag is gone, and is reported as ignored.
-/

namespace Emend.Message

open Emend.Text (OccursIn folds fold isBlank allBlank stripStart afterCaseless?)

/-- The tag that asks for the deletion of a file. -/
def deletionTag : Text := openTag "DELETE_FILE"

theorem deletionTag_mem_tags : deletionTag ∈ tags := openTag_mem_tags (by decide)

/-! ## Tags do not overlap -/

/-- A tag behind a blank run is behind all of it. -/
theorem blank_apart {q g t x d y : Text} (hq : q ∈ tags) (hg : allBlank g = true)
    (hd : folds d = folds q) (h : g ++ t = x ++ (d ++ y)) :
    ∃ x', x = g ++ x' ∧ t = x' ++ (d ++ y) := by
  rcases List.append_eq_append_iff.mp h with ⟨x', rfl, ht⟩ | ⟨g', rfl, hrest⟩
  · exact ⟨x', rfl, ht⟩
  · cases g' with
    | nil => exact ⟨[], by simp, by simpa using hrest.symm⟩
    | cons e g' =>
        obtain ⟨c, r, rfl, hc, -⟩ := exists_cons_of_folds hq hd
        have hblank : isBlank e = true := List.all_eq_true.mp hg e (by simp)
        exact absurd (List.cons.inj hrest).1 (fold_bracket_ne_blank hc hblank)

/-- Of two different tags in a text, the one that does not end later is behind the other. -/
theorem tag_apart {p q o t x d y : Text} (hp : p ∈ tags) (hq : q ∈ tags) (hne : p ≠ q)
    (ho : folds o = folds p) (hd : folds d = folds q) (h : o ++ t = x ++ (d ++ y)) :
    ∃ x', x = o ++ x' ∧ t = x' ++ (d ++ y) := by
  rcases List.append_eq_append_iff.mp h with ⟨x', rfl, ht⟩ | ⟨o', rfl, hrest⟩
  · exact ⟨x', rfl, ht⟩
  · cases o' with
    | nil => exact ⟨[], by simp, by simpa using hrest.symm⟩
    | cons e o' =>
        obtain ⟨c, r, rfl, hc, -⟩ := exists_cons_of_folds hq hd
        obtain ⟨rfl, -⟩ := List.cons.inj hrest
        cases x with
        | nil =>
            -- both begin here, so the shorter one would be part of the other
            rw [List.nil_append] at ho
            refine absurd ?_ hne
            have hsame : r ++ y = o' ++ t := (List.cons.inj hrest).2
            have ho' : o' <+: r ++ y := hsame ▸ List.prefix_append o' t
            rcases List.prefix_or_prefix_of_prefix (List.prefix_append r y) ho' with hpre | hpre
            · have hinfix : folds q <:+: folds p := by
                rw [← ho, ← hd]
                exact ((List.cons_prefix_cons.mpr ⟨rfl, hpre⟩).map fold).isInfix
              exact ((folds_infix_tag_iff hq hp).mp hinfix).symm
            · have hinfix : folds p <:+: folds q := by
                rw [← ho, ← hd]
                exact ((List.cons_prefix_cons.mpr ⟨rfl, hpre⟩).map fold).isInfix
              exact (folds_infix_tag_iff hp hq).mp hinfix
        | cons a x =>
            -- a tag has its only opening bracket at the front
            obtain ⟨_, r', heq, -, htail⟩ := exists_cons_of_folds hp ho
            obtain ⟨-, rfl⟩ := List.cons.inj heq
            refine absurd ?_ (tag_shape hp).2.1
            rw [← htail, ← hc]
            simp

/-- A tag is inside a literal text, and can be cut out of it, or behind the tag that closes it. -/
theorem body_apart {p q b c t x d y : Text} (hp : p ∈ tags) (hq : q ∈ tags) (hne : p ≠ q)
    (hc : folds c = folds p) (hd : folds d = folds q) (h : b ++ (c ++ t) = x ++ (d ++ y)) :
    (∃ b', x ++ y = b' ++ (c ++ t)) ∨ ∃ x', x = b ++ (c ++ x') ∧ t = x' ++ (d ++ y) := by
  rcases List.append_eq_append_iff.mp h with ⟨x', rfl, hrest⟩ | ⟨b', rfl, hrest⟩
  · obtain ⟨x', rfl, ht⟩ := tag_apart hp hq hne hc hd hrest
    exact Or.inr ⟨x', rfl, ht⟩
  · obtain ⟨b', rfl, rfl⟩ := tag_apart hq hp hne.symm hd hc hrest
    exact Or.inl ⟨x ++ b', (List.append_assoc ..).symm⟩

/-! ## Where a pattern can be read -/

/-- The text begins with the pieces that the pattern expects. -/
inductive Fits : Pattern → Text → Prop
  | nil (t : Text) : Fits [] t
  | tag {name : String} {es : Pattern} {o t : Text} : folds o = folds (openTag name) → Fits es t →
      Fits (.tag name :: es) (o ++ t)
  | blanks {name : String} {es : Pattern} {g o t : Text} : allBlank g = true →
      folds o = folds (openTag name) → Fits es t → Fits (.blanks :: .tag name :: es) (g ++ (o ++ t))
  | body {f : Field} {name : String} {es : Pattern} {b c t : Text} :
      folds c = folds (closeTag name) → Fits es t → Fits (.body f name :: es) (b ++ (c ++ t))
  | restOfLine {f : Field} {name : String} {es : Pattern} {b c t : Text} :
      folds c = folds (closeTag name) → Fits es t →
      Fits (.restOfLine :: .body f name :: es) (b ++ (c ++ t))

/-- A pattern in which a tag follows a blank run, and a body follows the rest of a line. -/
inductive Regular : Pattern → Prop
  | nil : Regular []
  | tag {name : String} {es : Pattern} : Regular es → Regular (.tag name :: es)
  | blanks {name : String} {es : Pattern} : Regular (.tag name :: es) →
      Regular (.blanks :: .tag name :: es)
  | restOfLine {f : Field} {name : String} {es : Pattern} : Regular (.body f name :: es) →
      Regular (.restOfLine :: .body f name :: es)
  | body {f : Field} {name : String} {es : Pattern} : Regular es → Regular (.body f name :: es)

theorem regular_pattern (op : Operation) : Regular (pattern op) := by
  cases op <;> repeat constructor

/-- A pattern fits where a text begins with what it describes. -/
theorem fits_of_matches {p : Pattern} (hp : Regular p) {u : Text} (h : p.Matches u) (y : Text) :
    Fits p (u ++ y) := by
  induction hp generalizing u with
  | nil => exact .nil _
  | tag _ ih =>
      cases h with
      | tag ho ht =>
          rw [List.append_assoc]
          exact .tag ho (ih ht)
  | blanks _ ih =>
      cases h with
      | @blanks _ g t hg ht =>
          have hfits := ih ht
          rw [List.append_assoc]
          generalize t ++ y = w at hfits
          cases hfits with
          | tag ho hw => exact .blanks hg ho hw
  | restOfLine _ ih =>
      cases h with
      | @restOfLine _ g e t hg he ht =>
          have hfits := ih ht
          rw [List.append_assoc, List.append_assoc]
          generalize t ++ y = w at hfits
          -- what stands on the rest of the line is literal text as well
          cases hfits with
          | body hc hw =>
              rw [← List.append_assoc, ← List.append_assoc]
              exact .restOfLine hc hw
  | body _ ih =>
      cases h with
      | body hc ht =>
          rw [List.append_assoc, List.append_assoc]
          exact .body hc (ih ht)

theorem fits_of_read? {p : Pattern} (hp : Regular p) {t : Text} {a : Captures × Text}
    (ha : p.read? t = some a) : Fits p t := by
  obtain ⟨u, rfl, hu⟩ := exists_matches_of_read? ha
  exact fits_of_matches hp hu a.2

/-- The closing or opening tag that is expected there. -/
def Element.tag? : Element → Option Text
  | .tag name => some (openTag name)
  | .body _ name => some (closeTag name)
  | _ => none

/-- The tags that patterns expect are tags of the grammar. -/
theorem mem_tags_of_mem_pattern {op : Operation} {e : Element} (he : e ∈ pattern op) {q : Text}
    (hq : q ∈ e.tag?) : q ∈ tags := by
  have h : ∀ op, ∀ q ∈ (pattern op).filterMap Element.tag?, q ∈ tags := by
    intro op
    cases op <;> decide
  exact h op q (List.mem_filterMap.mpr ⟨e, he, hq⟩)

/-- The tags that the pattern expects are tags of the grammar other than that of a deletion. -/
def Pattern.Spares (p : Pattern) : Prop := ∀ e ∈ p, ∀ q ∈ e.tag?, q ∈ tags ∧ q ≠ deletionTag

theorem spares_pattern {op : Operation} (hop : op ≠ .deleteFile) : (pattern op).Spares := by
  intro e he q hq
  have h : ∀ op, op ≠ .deleteFile → ∀ q ∈ (pattern op).filterMap Element.tag?,
      q ∈ tags ∧ q ≠ deletionTag := by
    intro op hop
    cases op
    · decide +kernel
    · decide +kernel
    · exact absurd rfl hop
    all_goals decide +kernel
  exact h op hop q (List.mem_filterMap.mpr ⟨e, he, hq⟩)

theorem Pattern.Spares.head {e : Element} {es : Pattern} (h : Pattern.Spares (e :: es)) {q : Text}
    (hq : e.tag? = some q) : q ∈ tags ∧ q ≠ deletionTag :=
  h e List.mem_cons_self q hq

theorem Pattern.Spares.tail {e : Element} {es : Pattern} (h : Pattern.Spares (e :: es)) :
    Pattern.Spares es :=
  fun e' he' => h e' (List.mem_cons_of_mem _ he')

theorem isSome_read?_of_fits {p : Pattern} {t : Text} (h : Fits p t)
    (hp : ∀ e ∈ p, ∀ q ∈ e.tag?, q ∈ tags) : (p.read? t).isSome := by
  induction h with
  | nil t => rfl
  | tag ho _ ih =>
      rw [read?_tag ho]
      exact ih (List.forall_mem_cons.mp hp).2
  | @blanks name es g o t hg ho _ ih =>
      obtain ⟨htag, hes⟩ := List.forall_mem_cons.mp (List.forall_mem_cons.mp hp).2
      rw [read?_blanks hg _ (stripStart_append (htag _ rfl) ho t), read?_tag ho]
      exact ih hes
  | @restOfLine f name es b c t hc _ ih =>
      obtain ⟨hclose, hes⟩ := List.forall_mem_cons.mp (List.forall_mem_cons.mp hp).2
      obtain ⟨g, hg, hsplit⟩ := exists_blank_append_skipRestOfLine (b ++ (c ++ t))
      obtain ⟨b', -, hrest⟩ := blank_apart (hclose _ rfl) hg hc hsplit.symm
      rw [Pattern.read?, hrest, Pattern.read?, Option.isSome_map]
      exact isSome_upTo b' hc (ih hes)
  | body hc _ ih =>
      rw [Pattern.read?, Option.isSome_map]
      exact isSome_upTo _ hc (ih (List.forall_mem_cons.mp hp).2)

/-- **Cutting out the tag of a deletion** leaves another pattern where it can be read. -/
theorem Fits.cut {p : Pattern} {w x d y : Text} (h : Fits p w) (hp : p.Spares)
    (hd : folds d = folds deletionTag) (hw : w = x ++ (d ++ y)) : Fits p (x ++ y) := by
  -- on the pieces: the tag lies behind a piece, or inside a literal text
  induction h generalizing x with
  | nil t => exact .nil _
  | @tag name es o t ho _ ih =>
      obtain ⟨htag, hne⟩ := hp.head (e := .tag name) rfl
      obtain ⟨x, rfl, rfl⟩ := tag_apart htag deletionTag_mem_tags hne ho hd hw
      rw [List.append_assoc]
      exact .tag ho (ih hp.tail rfl)
  | @blanks name es g o t hg ho _ ih =>
      obtain ⟨htag, hne⟩ := hp.tail.head (e := .tag name) rfl
      obtain ⟨x, rfl, hrest⟩ := blank_apart deletionTag_mem_tags hg hd hw
      obtain ⟨x, rfl, rfl⟩ := tag_apart htag deletionTag_mem_tags hne ho hd hrest
      rw [List.append_assoc, List.append_assoc]
      exact .blanks hg ho (ih hp.tail.tail rfl)
  | @body f name es b c t hc ht ih =>
      obtain ⟨htag, hne⟩ := hp.head (e := .body f name) rfl
      rcases body_apart htag deletionTag_mem_tags hne hc hd hw with ⟨b', hcut⟩ | ⟨x, rfl, rfl⟩
      · rw [hcut]
        exact .body hc ht
      · rw [List.append_assoc, List.append_assoc]
        exact .body hc (ih hp.tail rfl)
  | @restOfLine f name es b c t hc ht ih =>
      obtain ⟨htag, hne⟩ := hp.tail.head (e := .body f name) rfl
      rcases body_apart htag deletionTag_mem_tags hne hc hd hw with ⟨b', hcut⟩ | ⟨x, rfl, rfl⟩
      · rw [hcut]
        exact .restOfLine hc ht
      · rw [List.append_assoc, List.append_assoc]
        exact .restOfLine hc (ih hp.tail.tail rfl)

/-! ## Searching -/

/-- The operation is still asked for when the tag of a deletion is cut out of the text. -/
theorem isSome_search_cut {op : Operation} (hop : op ≠ .deleteFile) {t x d y : Text}
    (h : ((pattern op).search t).isSome) (hd : folds d = folds deletionTag)
    (ht : t = x ++ (d ++ y)) : ((pattern op).search (x ++ y)).isSome := by
  obtain ⟨f, hf⟩ := Option.isSome_iff_exists.mp h
  obtain ⟨w, hw, hread⟩ := exists_of_search hf
  have hfits : Fits (pattern op) w := fits_of_read? (regular_pattern op) hread
  have hspares := spares_pattern hop
  rw [hw] at ht
  rcases List.append_eq_append_iff.mp ht with ⟨x', rfl, rfl⟩ | ⟨a', ha, hrest⟩
  · -- the tag stands behind the place where the pattern begins
    rw [List.append_assoc]
    have hread' := isSome_read?_of_fits (hfits.cut hspares hd rfl) fun _ he _ hq =>
      mem_tags_of_mem_pattern he hq
    exact isSome_search hread' _
  · -- the tag stands before that place, where the pattern begins with a tag of its own
    have hread' : ((pattern op).read? w).isSome := by rw [hread]; rfl
    rw [pattern_eq_cons] at hspares hfits
    obtain ⟨htag, hne⟩ := hspares.head (e := .tag _) rfl
    generalize (pattern op).tail = es at hfits
    cases hfits with
    | tag ho _ =>
        obtain ⟨a', rfl, rfl⟩ := tag_apart deletionTag_mem_tags htag hne.symm hd ho hrest
        rw [← List.append_assoc]
        exact isSome_search hread' _

/-! ## Blocks -/

/-- The tag is found where it stands first. -/
theorem exists_search_deletion {t : Text} (h : OccursIn deletionTag t) :
    ∃ x d y, (pattern .deleteFile).search t = some ⟨x, {}, y⟩ ∧ t = x ++ (d ++ y) ∧
      folds d = folds deletionTag := by
  obtain ⟨x, d, y, rfl, hd⟩ := Text.occursIn_iff.mp h
  have hread : ((pattern .deleteFile).read? (d ++ y)).isSome := by
    rw [pattern, read?_tag hd]
    rfl
  obtain ⟨f, hf⟩ := Option.isSome_iff_exists.mp (isSome_search hread x)
  obtain ⟨u, hu, hfound⟩ := exists_of_search hf
  rw [pattern] at hfound
  obtain ⟨d', r, rfl, hd', hrest⟩ := exists_of_read?_tag hfound
  obtain ⟨hcaptures, hr⟩ := Prod.mk.inj (Option.some.inj hrest)
  refine ⟨f.before, d', f.after, ?_, ?_, hd'⟩
  · rw [hf, hcaptures]
  · rw [hu, hr]

theorem firstOperation_of_occursIn {body : Text} (h : OccursIn deletionTag body) :
    ∃ x d y, firstOperation body = some (.deleteFile, ⟨x, {}, y⟩) ∧ body = x ++ (d ++ y) ∧
      folds d = folds deletionTag := by
  obtain ⟨x, d, y, hsearch, hbody, hd⟩ := exists_search_deletion h
  refine ⟨x, d, y, ?_, hbody, hd⟩
  rw [firstOperation, precedence, List.findSome?_cons, hsearch]
  rfl

/-- An operation that a body spells out beside or around the tag of a deletion is an extra one. -/
theorem mem_extraOperations {body : Text} (h : OccursIn deletionTag body) {op : Operation}
    (hop : op ≠ .deleteFile) (hasked : ((pattern op).search body).isSome) :
    op ∈ extraOperations body := by
  obtain ⟨x, d, y, hfirst, hbody, hd⟩ := firstOperation_of_occursIn h
  rw [extraOperations, hfirst]
  exact List.mem_filter.mpr ⟨mem_precedence op, isSome_search_cut hop hasked hd hbody⟩

theorem readBlock_of_occursIn (path : Text) {body : Text} (h : OccursIn deletionTag body) :
    readBlock path body = .ok { path, operation := .deleteFile } := by
  obtain ⟨x, d, y, hfirst, -, -⟩ := firstOperation_of_occursIn h
  rw [readBlock, hfirst]
  rfl

theorem occursIn_of_readBlock {path body : Text} {i : Instruction} (h : readBlock path body = .ok i)
    (hi : i.operation = .deleteFile) : OccursIn deletionTag body := by
  obtain ⟨f, hfirst, -⟩ := exists_of_readBlock h
  rw [hi] at hfirst
  have hsearch := search_of_firstOperation hfirst
  refine Classical.byContradiction fun hno => ?_
  rw [pattern, search_eq_none hno] at hsearch
  cases hsearch

/-- The block has a path and, somewhere in its body, the tag of a deletion. -/
def Block.Deletes (b : Block) : Prop := Text.strip b.path ≠ [] ∧ OccursIn deletionTag b.body

instance (b : Block) : Decidable b.Deletes := inferInstanceAs (Decidable (_ ∧ _))

/-- The instruction to delete the file of the block. -/
def Block.deletion (b : Block) : Instruction :=
  { path := Text.strip b.path, operation := .deleteFile }

theorem Block.outcome_of_deletes {b : Block} (h : b.Deletes) (number : Nat) :
    b.outcome number =
      ⟨[b.deletion], ignoredOperations (Text.strip b.path) (extraOperations b.body)⟩ :=
  b.outcome_of_readBlock h.1 (readBlock_of_occursIn _ h.2) number

theorem Block.operation_ne_of_not_deletes {b : Block} (h : ¬ b.Deletes) {number : Nat}
    {i : Instruction} (hi : i ∈ (b.outcome number).instructions) : i.operation ≠ .deleteFile := by
  intro hop
  rw [Block.outcome] at hi
  split at hi
  · cases hi
  · rename_i hpath
    split at hi
    · cases hi
    · rename_i i' hread
      obtain rfl := List.mem_singleton.mp hi
      exact h ⟨hpath, occursIn_of_readBlock hread hop⟩

/-- The deletions that blocks ask for are those of the blocks with the tag, in order. -/
theorem filter_outcomeFrom (number : Nat) (bs : List Block) :
    (outcomeFrom number bs).instructions.filter (·.operation = .deleteFile) =
      (bs.filter (·.Deletes)).map Block.deletion := by
  induction bs generalizing number with
  | nil => rfl
  | cons b bs ih =>
      rw [outcomeFrom, Outcome.append_instructions, List.filter_append, ih]
      by_cases hb : b.Deletes
      · have hone : (b.outcome number).instructions.filter (·.operation = .deleteFile) =
            [b.deletion] := by
          rw [Block.outcome_of_deletes hb]
          rfl
        rw [hone, List.filter_cons_of_pos (by simpa using hb)]
        rfl
      · have hnone : (b.outcome number).instructions.filter (·.operation = .deleteFile) = [] := by
          rw [List.filter_eq_nil_iff]
          intro i hi
          simpa using Block.operation_ne_of_not_deletes hb hi
        rw [hnone, List.filter_cons_of_neg (by simpa using hb)]
        rfl

theorem errors_subset_outcomeFrom {b : Block} (h : b.Deletes) {bs : List Block} (hb : b ∈ bs)
    (number : Nat) :
    ignoredOperations (Text.strip b.path) (extraOperations b.body) ⊆
      (outcomeFrom number bs).errors := by
  induction bs generalizing number with
  | nil => cases hb
  | cons b' bs ih =>
      intro e he
      rw [outcomeFrom, Outcome.append_errors, List.mem_append]
      rcases List.mem_cons.mp hb with rfl | hb
      · rw [Block.outcome_of_deletes h]
        exact Or.inl he
      · exact Or.inr (ih hb (number + 1) he)

/-- **The tag of a deletion counts wherever it stands.** The deletions that a message asks for are those
of its blocks that have a path and contain the tag, in any mix of cases and also inside a body, in the
order of the blocks. What such a block spells out besides is never dropped in silence: an error for its
path names every other operation whose pattern can be read in it, also one whose body holds the tag. -/
theorem parse_deletions (tag : FileTag) (message : Text) :
    (parse tag message).instructions.filter (·.operation = .deleteFile) =
        ((blocks tag message).filter (·.Deletes)).map Block.deletion ∧
      ∀ b ∈ blocks tag message, b.Deletes →
        ∀ op, op ≠ .deleteFile → ((pattern op).search b.body).isSome →
          ∃ ops, op ∈ ops ∧
            ignoredOperations (Text.strip b.path) ops ⊆ (parse tag message).errors := by
  rw [parse]
  split
  · rename_i hnil
    rw [hnil]
    exact ⟨rfl, fun b hb => absurd hb List.not_mem_nil⟩
  · refine ⟨filter_outcomeFrom 1 _, fun b hb hdel op hop hasked => ?_⟩
    exact ⟨extraOperations b.body, mem_extraOperations hdel.2 hop hasked,
      errors_subset_outcomeFrom hdel hb 1⟩

/-! ## A tag inside a body -/

/-- The tag stands at that position of the text. -/
def StandsAt (p t : Text) (k : Nat) : Prop := folds p <+: folds (t.drop k)

instance (p t : Text) (k : Nat) : Decidable (StandsAt p t k) :=
  inferInstanceAs (Decidable (folds p <+: folds (t.drop k)))

/-- The position lies in the body of an element of that name: behind its opening tag, with no closing
tag in between and with a closing tag further on. -/
def IsInside (name : String) (t : Text) (k : Nat) : Prop :=
  ∃ s ≤ k, StandsAt (openTag name) t s ∧ s + (openTag name).length ≤ k ∧
    ¬ OccursIn (closeTag name) ((t.take k).drop (s + (openTag name).length)) ∧
    OccursIn (closeTag name) (t.drop k)

instance (name : String) (t : Text) (k : Nat) : Decidable (IsInside name t k) :=
  inferInstanceAs (Decidable (∃ s ≤ k, _))

/-- The request for a new file whose content speaks of the tag. -/
def quotingBody : Text := "\n[CREATE]\nuse [DELETE_FILE] to delete\n[/CREATE]".toList

/-- A message with that request. -/
def quotingMessage : Text := "[FILE] a.txt".toList ++ quotingBody

/-- A block can be a deletion although the tag stands in the body of an element only. -/
theorem not_deletion_needs_tag_outside :
    ¬ ∀ message, ∀ b ∈ blocks .standard message, ∀ i, readBlock (Text.strip b.path) b.body = .ok i →
      i.operation = .deleteFile →
        ∃ k ≤ b.body.length, StandsAt deletionTag b.body k ∧
          ∀ name ∈ ["CREATE", "REPLACE", "CONTENT"], ¬ IsInside name b.body k := by
  intro h
  have hblocks : ⟨"a.txt".toList, quotingBody⟩ ∈ blocks .standard quotingMessage := by
    decide +kernel
  obtain ⟨k, hk, hstands, houtside⟩ := h quotingMessage _ hblocks
    { path := "a.txt".toList, operation := .deleteFile } (by decide +kernel) rfl
  -- there is one position at which the tag stands
  have honly : ∀ k ≤ quotingBody.length, StandsAt deletionTag quotingBody k →
      IsInside "CREATE" quotingBody k := by
    decide +kernel
  exact houtside "CREATE" List.mem_cons_self (honly k hk hstands)

end Emend.Message
