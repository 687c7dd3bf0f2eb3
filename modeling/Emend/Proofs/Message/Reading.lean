import Emend.Proofs.Message.Tags
import Emend.Proofs.Text.Trimmed

/-!
# Reading a pattern

Equations for `Pattern.read?`, one for each kind of thing that a pattern expects, and the two ends of
a search: a pattern is not found in a text without its first tag, and it is found at its first tag if
it can be read there.

A body is literal text up to the first closing tag behind which the rest can be read
(`exists_of_upTo`). Where the body has no such tag and ends its line, that is the one written behind it
(`upTo_newline`).

`Pattern.Matches` says without any search which texts a pattern describes as a whole, and what is read at
the front of a text is one of them (`exists_matches_of_read?`).
-/

namespace Emend.Message

open Emend.Text (OccursIn folds fold isBlank allBlank stripStart afterCaseless?)

/-! ## Reading at the front -/

theorem read?_tag {name : String} {t : Text} (ht : folds t = folds (openTag name)) (es : Pattern)
    (r : Text) : Pattern.read? (.tag name :: es) (t ++ r) = es.read? r := by
  rw [Pattern.read?, Text.afterCaseless?_of_folds ht, Option.bind_some]

theorem stripStart_append {q d : Text} (hq : q ∈ tags) (hd : folds d = folds q) (y : Text) :
    stripStart (d ++ y) = d ++ y := by
  obtain ⟨c, r, rfl, hc, -⟩ := exists_cons_of_folds hq hd
  rw [List.cons_append, stripStart, List.dropWhile_cons_of_neg]
  exact fun hb => fold_bracket_ne_blank hc hb rfl

theorem read?_blanks {g : Text} (hg : allBlank g = true) (es : Pattern) {t : Text}
    (ht : stripStart t = t) : Pattern.read? (.blanks :: es) (g ++ t) = es.read? t := by
  rw [Pattern.read?, Text.stripStart_blank_append hg, ht]

theorem read?_restOfLine (es : Pattern) (t : Text) :
    Pattern.read? (.restOfLine :: es) ('\n' :: t) = es.read? t := rfl

/-- A closing tag that does not occur in the body is not met before its end. -/
theorem upTo_append {α : Type} {close c r : Text} {rest : Text → Option α} {a : α} (body : Text)
    (hbody : ∀ s t, body = s ++ t → t ≠ [] → ¬ folds close <+: folds (t ++ (c ++ r)))
    (hc : folds c = folds close) (hrest : rest r = some a) :
    upTo close rest (body ++ (c ++ r)) = some (body, a) := by
  have hclose : (afterCaseless? close (c ++ r)).bind rest = some a := by
    rw [Text.afterCaseless?_of_folds hc, Option.bind_some, hrest]
  induction body with
  | nil =>
      rw [List.nil_append]
      cases hcr : c ++ r with
      | nil =>
          rw [hcr] at hclose
          rw [upTo, hclose]
          rfl
      | cons d t =>
          rw [hcr] at hclose
          rw [upTo, hclose]
  | cons d body ih =>
      have hnot : afterCaseless? close (d :: (body ++ (c ++ r))) = none :=
        Text.afterCaseless?_eq_none (hbody [] (d :: body) rfl (List.cons_ne_nil d body))
      rw [List.cons_append, upTo, hnot, Option.bind_none]
      rw [ih fun s t hst => hbody (d :: s) t (by rw [hst, List.cons_append])]
      rfl

/-- A body on lines of its own ends at the closing tag behind it. -/
theorem upTo_newline {α : Type} {close c r : Text} {rest : Text → Option α} {a : α} {body : Text}
    (hclose : close ∈ tags) (hbody : ¬ OccursIn close body) (hc : folds c = folds close)
    (hrest : rest r = some a) :
    upTo close rest (body ++ '\n' :: (c ++ r)) = some (body ++ ['\n'], a) := by
  have hsplit : body ++ '\n' :: (c ++ r) = (body ++ ['\n']) ++ (c ++ r) := by simp
  rw [hsplit]
  refine upTo_append _ ?_ hc hrest
  intro s t hst hne hprefix
  -- what is left of the body ends in the line feed, which the closing tag cannot run over
  obtain ⟨t', rfl⟩ : ∃ t', t = t' ++ ['\n'] := by
    rcases List.eq_nil_or_concat t with rfl | ⟨t', d, rfl⟩
    · exact absurd rfl hne
    · rw [List.concat_eq_append, ← List.append_assoc] at hst
      exact ⟨t', by rw [List.concat_eq_append, (List.append_inj_right' hst rfl)]⟩
  have hbodyEq : body = s ++ t' := by
    rw [← List.append_assoc] at hst
    exact List.append_inj_left' hst rfl
  have hnewline : fold '\n' ∉ folds close := fold_blank_not_mem hclose (by decide)
  rw [List.append_assoc, List.singleton_append, Text.folds_append, Text.folds_cons] at hprefix
  have hinfix : OccursIn close t' :=
    Text.occursIn_of_starts (Text.prefix_of_prefix_append_cons hnewline hprefix)
  refine hbody ?_
  rw [hbodyEq, OccursIn, Text.folds_append]
  exact List.infix_append_of_infix_right hinfix

theorem read?_body {name : String} (hname : name ∈ elementNames) {field : Field} {es : Pattern}
    {body c r after : Text} {caps : Captures} (hbody : ¬ OccursIn (closeTag name) body)
    (hc : folds c = folds (closeTag name)) (hrest : es.read? r = some (caps, after)) :
    Pattern.read? (.body field name :: es) (body ++ '\n' :: (c ++ r)) =
      some (caps.put field (body ++ ['\n']), after) := by
  rw [Pattern.read?, upTo_newline (closeTag_mem_tags hname) hbody hc hrest, Option.map_some]

/-! ## What was read -/

/-- How a line can end behind an opening tag; the text may also go on there. -/
def lineEnds : List Text := [[], ['\n'], ['\r', '\n']]

theorem exists_of_read?_tag {name : String} {es : Pattern} {t : Text} {a : Captures × Text}
    (h : Pattern.read? (.tag name :: es) t = some a) :
    ∃ o r, t = o ++ r ∧ folds o = folds (openTag name) ∧ es.read? r = some a := by
  rw [Pattern.read?] at h
  obtain ⟨r, hafter, hread⟩ := Option.bind_eq_some_iff.mp h
  obtain ⟨o, ho, hfolds⟩ := Text.afterCaseless?_eq_some_iff.mp hafter
  exact ⟨o, r, ho, hfolds, hread⟩

theorem exists_of_read?_blanks {es : Pattern} {t : Text} {a : Captures × Text}
    (h : Pattern.read? (.blanks :: es) t = some a) :
    ∃ g r, t = g ++ r ∧ allBlank g = true ∧ es.read? r = some a := by
  rw [Pattern.read?] at h
  exact ⟨t.takeWhile isBlank, stripStart t, List.takeWhile_append_dropWhile.symm, List.all_takeWhile,
    h⟩

/-- What is left out for the rest of a line: spaces and tabs, and the line end if they go up to it. -/
theorem exists_append_skipRestOfLine (t : Text) :
    ∃ g e, (∀ c ∈ g, isInlineBlank c = true) ∧ e ∈ lineEnds ∧ t = g ++ (e ++ skipRestOfLine t) := by
  have hsplit : t.takeWhile isInlineBlank ++ skipInlineBlanks t = t :=
    List.takeWhile_append_dropWhile
  have hrun : ∀ c ∈ t.takeWhile isInlineBlank, isInlineBlank c = true :=
    List.all_eq_true.mp List.all_takeWhile
  rw [skipRestOfLine]
  split
  · rename_i r hskip
    refine ⟨_, ['\r', '\n'], hrun, by decide, ?_⟩
    rw [List.cons_append, List.singleton_append, ← hskip]
    exact hsplit.symm
  · rename_i r hskip
    refine ⟨_, ['\n'], hrun, by decide, ?_⟩
    rw [List.singleton_append, ← hskip]
    exact hsplit.symm
  · exact ⟨_, [], hrun, by decide, hsplit.symm⟩

theorem exists_blank_append_skipRestOfLine (t : Text) :
    ∃ g, allBlank g = true ∧ t = g ++ skipRestOfLine t := by
  obtain ⟨g, e, hg, he, hsplit⟩ := exists_append_skipRestOfLine t
  have hgBlank : allBlank g = true :=
    List.all_eq_true.mpr fun c hc => isBlank_of_isInlineBlank (hg c hc)
  have heBlank : ∀ e ∈ lineEnds, allBlank e = true := by decide
  exact ⟨g ++ e, Text.allBlank_append hgBlank (heBlank e he), by rw [List.append_assoc, ← hsplit]⟩

theorem exists_of_read?_restOfLine {es : Pattern} {t : Text} {a : Captures × Text}
    (h : Pattern.read? (.restOfLine :: es) t = some a) :
    ∃ g r, t = g ++ r ∧ allBlank g = true ∧ es.read? r = some a := by
  rw [Pattern.read?] at h
  obtain ⟨g, hg, hsplit⟩ := exists_blank_append_skipRestOfLine t
  exact ⟨g, skipRestOfLine t, hsplit, hg, h⟩

/-- A body ends at the first closing tag behind which the rest can be read. -/
theorem exists_of_upTo {α : Type} {close t b : Text} {rest : Text → Option α} {a : α}
    (h : upTo close rest t = some (b, a)) :
    ∃ c r, t = b ++ (c ++ r) ∧ folds c = folds close ∧ rest r = some a ∧
      ∀ u d v, t = u ++ (d ++ v) → folds d = folds close → u.length < b.length →
        rest v = none := by
  have hfirst : ∀ t r, afterCaseless? close t = some r → rest r = some a →
      ∃ c r, t = [] ++ (c ++ r) ∧ folds c = folds close ∧ rest r = some a ∧
        ∀ u d v, t = u ++ (d ++ v) → folds d = folds close → u.length < ([] : Text).length →
          rest v = none := by
    intro t r hafter hrest
    obtain ⟨c, hc, hfolds⟩ := Text.afterCaseless?_eq_some_iff.mp hafter
    exact ⟨c, r, hc, hfolds, hrest, fun u _ _ _ _ hu => absurd hu (Nat.not_lt_zero u.length)⟩
  induction t generalizing b with
  | nil =>
      rw [upTo, Option.map_eq_some_iff] at h
      obtain ⟨a', hbind, heq⟩ := h
      obtain ⟨rfl, rfl⟩ := Prod.mk.inj heq
      obtain ⟨r, hafter, hrest⟩ := Option.bind_eq_some_iff.mp hbind
      exact hfirst [] r hafter hrest
  | cons ch t ih =>
      rw [upTo] at h
      cases hhere : (afterCaseless? close (ch :: t)).bind rest with
      | some a' =>
          rw [hhere] at h
          obtain ⟨rfl, rfl⟩ := Prod.mk.inj (Option.some.inj h)
          obtain ⟨r, hafter, hrest⟩ := Option.bind_eq_some_iff.mp hhere
          exact hfirst (ch :: t) r hafter hrest
      | none =>
          rw [hhere] at h
          obtain ⟨⟨b', a'⟩, hlater, heq⟩ := Option.map_eq_some_iff.mp h
          obtain ⟨rfl, rfl⟩ := Prod.mk.inj heq
          obtain ⟨c, r, ht, hfolds, hrest, hbefore⟩ := ih hlater
          refine ⟨c, r, by rw [ht, List.cons_append], hfolds, hrest, ?_⟩
          intro u d v hsplit hd hu
          cases u with
          | nil =>
              -- the tag stands here, and the body was not ended by it
              rw [hsplit, List.nil_append, Text.afterCaseless?_of_folds hd] at hhere
              exact hhere
          | cons e u =>
              obtain ⟨-, hsplit⟩ := List.cons.inj hsplit
              exact hbefore u d v hsplit hd (Nat.lt_of_succ_lt_succ hu)

theorem isSome_upTo {α : Type} {close c r : Text} {rest : Text → Option α} (b : Text)
    (hc : folds c = folds close) (hrest : (rest r).isSome) :
    (upTo close rest (b ++ (c ++ r))).isSome := by
  have hhere : ((afterCaseless? close (c ++ r)).bind rest).isSome := by
    rw [Text.afterCaseless?_of_folds hc]
    exact hrest
  induction b with
  | nil =>
      obtain ⟨a, ha⟩ := Option.isSome_iff_exists.mp hhere
      rw [List.nil_append]
      cases hcr : c ++ r <;> rw [hcr] at ha <;> rw [upTo, ha] <;> rfl
  | cons d b ih =>
      rw [List.cons_append, upTo]
      split
      · rfl
      · rw [Option.isSome_map]
        exact ih

/-! ## What a pattern describes -/

/-- The text as a whole is one that the pattern describes. -/
inductive Pattern.Matches : Pattern → Text → Prop
  | nil : Matches [] []
  | tag {name : String} {es : Pattern} {o t : Text} : folds o = folds (openTag name) → Matches es t →
      Matches (.tag name :: es) (o ++ t)
  | blanks {es : Pattern} {g t : Text} : allBlank g = true → Matches es t →
      Matches (.blanks :: es) (g ++ t)
  | restOfLine {es : Pattern} {g e t : Text} : (∀ c ∈ g, isInlineBlank c = true) → e ∈ lineEnds →
      Matches es t → Matches (.restOfLine :: es) (g ++ (e ++ t))
  | body {f : Field} {name : String} {es : Pattern} {b c t : Text} :
      folds c = folds (closeTag name) → Matches es t → Matches (.body f name :: es) (b ++ (c ++ t))

/-- What is read at the front of a text is described by the pattern. -/
theorem exists_matches_of_read? {p : Pattern} {t r : Text} {caps : Captures}
    (h : p.read? t = some (caps, r)) : ∃ u, t = u ++ r ∧ p.Matches u := by
  induction p generalizing t caps with
  | nil =>
      obtain ⟨-, rfl⟩ := Prod.mk.inj (Option.some.inj h)
      exact ⟨[], rfl, .nil⟩
  | cons e es ih =>
      cases e with
      | tag name =>
          obtain ⟨o, t, rfl, ho, hread⟩ := exists_of_read?_tag h
          obtain ⟨u, rfl, hu⟩ := ih hread
          exact ⟨o ++ u, (List.append_assoc ..).symm, .tag ho hu⟩
      | blanks =>
          obtain ⟨g, t, rfl, hg, hread⟩ := exists_of_read?_blanks h
          obtain ⟨u, rfl, hu⟩ := ih hread
          exact ⟨g ++ u, (List.append_assoc ..).symm, .blanks hg hu⟩
      | restOfLine =>
          rw [Pattern.read?] at h
          obtain ⟨u, hrest, hu⟩ := ih h
          obtain ⟨g, e, hg, he, hsplit⟩ := exists_append_skipRestOfLine t
          refine ⟨g ++ (e ++ u), ?_, .restOfLine hg he hu⟩
          rw [hsplit, hrest]
          simp only [List.append_assoc]
      | body f name =>
          rw [Pattern.read?, Option.map_eq_some_iff] at h
          obtain ⟨⟨b, caps', r'⟩, hupTo, heq⟩ := h
          obtain ⟨-, rfl⟩ := Prod.mk.inj heq
          obtain ⟨c, t, rfl, hc, hread, -⟩ := exists_of_upTo hupTo
          obtain ⟨u, rfl, hu⟩ := ih hread
          refine ⟨b ++ (c ++ u), ?_, .body hc hu⟩
          simp only [List.append_assoc]

/-! ## Searching -/

theorem read?_tag_eq_none {name : String} {t : Text} (h : ¬ folds (openTag name) <+: folds t)
    (es : Pattern) : Pattern.read? (.tag name :: es) t = none := by
  rw [Pattern.read?, Text.afterCaseless?_eq_none h, Option.bind_none]

/-- A pattern is not found where its first tag does not occur. -/
theorem search_eq_none {name : String} {t : Text} (h : ¬ OccursIn (openTag name) t) (es : Pattern) :
    Pattern.search (.tag name :: es) t = none := by
  induction t with
  | nil =>
      rw [Pattern.search, read?_tag_eq_none (fun hp => h (Text.occursIn_of_starts hp))]
      rfl
  | cons c t ih =>
      rw [Pattern.search, read?_tag_eq_none (fun hp => h (Text.occursIn_of_starts hp)),
        ih fun ht => h (ht.cons c)]
      rfl

/-- A pattern that can be read at the front is found there. -/
theorem search_of_read? {p : Pattern} {t r : Text} {caps : Captures}
    (h : p.read? t = some (caps, r)) : p.search t = some ⟨[], caps, r⟩ := by
  cases t with
  | nil => rw [Pattern.search, h]; rfl
  | cons c t => rw [Pattern.search, h]

/-- A pattern that can be read behind a line feed is found there. -/
theorem search_newline {name : String} {es : Pattern} {t r : Text} {caps : Captures}
    (h : Pattern.read? (.tag name :: es) t = some (caps, r)) :
    Pattern.search (.tag name :: es) ('\n' :: t) = some ⟨['\n'], caps, r⟩ := by
  have hnot : ¬ folds (openTag name) <+: folds ('\n' :: t) := by
    intro hp
    have hmem : fold '[' = fold '\n' := (List.cons_prefix_cons.mp hp).1
    exact fold_bracket_ne_blank hmem.symm (show isBlank '\n' = true by decide) rfl
  rw [Pattern.search, read?_tag_eq_none hnot, search_of_read? h]
  rfl

theorem exists_of_search {p : Pattern} {t : Text} {f : Found} (h : p.search t = some f) :
    ∃ u, t = f.before ++ u ∧ p.read? u = some (f.captures, f.after) := by
  induction t generalizing f with
  | nil =>
      rw [Pattern.search, Option.map_eq_some_iff] at h
      obtain ⟨⟨c, r⟩, hread, rfl⟩ := h
      exact ⟨[], rfl, hread⟩
  | cons ch t ih =>
      rw [Pattern.search] at h
      cases hread : p.read? (ch :: t) with
      | some q =>
          rw [hread] at h
          obtain rfl := Option.some.inj h
          exact ⟨ch :: t, rfl, hread⟩
      | none =>
          rw [hread] at h
          obtain ⟨f', hlater, rfl⟩ := Option.map_eq_some_iff.mp h
          obtain ⟨u, rfl, hu⟩ := ih hlater
          exact ⟨u, rfl, hu⟩

theorem isSome_search {p : Pattern} {u : Text} (h : (p.read? u).isSome) (a : Text) :
    (p.search (a ++ u)).isSome := by
  induction a with
  | nil =>
      obtain ⟨⟨c, r⟩, hread⟩ := Option.isSome_iff_exists.mp h
      rw [List.nil_append, search_of_read? hread]
      rfl
  | cons ch a ih =>
      rw [List.cons_append, Pattern.search]
      split
      · rfl
      · rw [Option.isSome_map]
        exact ih

/-! ## Blocks -/

theorem mem_precedence (op : Operation) : op ∈ precedence := by
  cases op <;> decide

/-- The operation of a block can be read where it was found. -/
theorem search_of_firstOperation {body : Text} {op : Operation} {f : Found}
    (h : firstOperation body = some (op, f)) : (pattern op).search body = some f := by
  obtain ⟨op', -, hfound⟩ := List.exists_of_findSome?_eq_some h
  obtain ⟨f', hsearch, heq⟩ := Option.map_eq_some_iff.mp hfound
  obtain ⟨rfl, rfl⟩ := Prod.mk.inj heq
  exact hsearch

/-- An instruction is what was captured for its operation, cleaned. -/
theorem exists_of_readBlock {path body : Text} {i : Instruction}
    (h : readBlock path body = .ok i) :
    ∃ f, firstOperation body = some (i.operation, f) ∧ i.path = path ∧
      i.content = f.captures.content.map (cleanContent i.operation) ∧
      cleanAnchor .emptyAnchor f.captures.anchor = .ok i.anchor ∧
      cleanAnchor .emptyEndAnchor f.captures.anchorEnd = .ok i.anchorEnd := by
  rw [readBlock] at h
  cases hfirst : firstOperation body with
  | none => rw [hfirst] at h; cases h
  | some found =>
      obtain ⟨op, f⟩ := found
      rw [hfirst] at h
      simp only [bind, Except.bind, pure, Except.pure] at h
      split at h
      · cases h
      · rename_i anchor hanchor
        split at h
        · cases h
        · rename_i anchorEnd hanchorEnd
          obtain rfl := Except.ok.inj h
          exact ⟨f, rfl, rfl, rfl, hanchor, hanchorEnd⟩

end Emend.Message
