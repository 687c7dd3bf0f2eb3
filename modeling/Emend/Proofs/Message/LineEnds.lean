import Emend.Proofs.Message.Bodies
import Emend.Proofs.Message.Deletion
import Emend.Proofs.Text.LineEnds

/-!
# Messages whose lines end in carriage return and line feed

A message asks for the same operations on the same files, and has the same errors, whichever way its
lines end; the texts of its instructions have the line ends of the message (`parse_withReturns`).

The two messages are read in step. Both characters of a line end are blank and neither is a letter of a
tag, so a pattern is read in one text where it is read in the other, and leaves corresponding rests
(`read?_withReturns`). The cut behind a marker is the one place where the two do not correspond: the
carriage return at the end of the marker's line counts as part of the path, and the block goes on with
the bare line feed (`Block.withReturns`). Trimming takes the one away, and a search passes the other by.
-/

namespace Emend.Message

open Emend.Text (folds fold isBlank allBlank stripStart strip afterCaseless? withReturns)

/-! ## Reading a pattern -/

/-- What is captured when the text has carriage returns. -/
def Captures.withReturns (c : Captures) : Captures where
  content := c.content.map Text.withReturns
  anchor := c.anchor.map Text.withReturns
  anchorEnd := c.anchorEnd.map Text.withReturns

/-- What a search splits the text into when it has carriage returns. -/
def Found.withReturns (f : Found) : Found where
  before := Text.withReturns f.before
  captures := f.captures.withReturns
  after := Text.withReturns f.after

/-- What a pattern reads when the text has carriage returns. -/
def readWithReturns (q : Captures × Text) : Captures × Text := (q.1.withReturns, withReturns q.2)

theorem Captures.withReturns_put (c : Captures) (f : Field) (t : Text) :
    (c.put f t).withReturns = c.withReturns.put f (Text.withReturns t) := by
  cases f <;> rfl

/-- No tag begins with a blank character. -/
theorem afterCaseless?_blank {q : Text} (hq : q ∈ tags) {c : Char} (hc : isBlank c = true) (t : Text) :
    afterCaseless? q (c :: t) = none := by
  apply Text.afterCaseless?_eq_none
  intro hprefix
  rw [(tag_shape hq).1] at hprefix
  exact fold_bracket_ne_blank (List.cons_prefix_cons.mp hprefix).1.symm hc rfl

theorem afterCaseless?_tag_withReturns {q : Text} (hq : q ∈ tags) (t : Text) :
    afterCaseless? q (withReturns t) = (afterCaseless? q t).map withReturns := by
  apply Text.afterCaseless?_withReturns (fold_blank_not_mem hq (by decide))
  intro hlast
  exact fold_blank_not_mem hq (c := '\r') (by decide) (List.mem_of_getLast? hlast)

/-- A blank character at the front goes to the literal text. -/
theorem upTo_blank {α : Type} {close : Text} (hclose : close ∈ tags) {c : Char}
    (hc : isBlank c = true) (rest : Text → Option α) (t : Text) :
    upTo close rest (c :: t) = (upTo close rest t).map fun r => (c :: r.1, r.2) := by
  rw [upTo, afterCaseless?_blank hclose hc]
  rfl

theorem not_mem_of_afterCaseless? {p t r : Text} {c : Char} (ht : c ∉ t)
    (h : afterCaseless? p t = some r) : c ∉ r := by
  obtain ⟨u, rfl, -⟩ := Text.afterCaseless?_eq_some_iff.mp h
  simp only [List.mem_append, not_or] at ht
  exact ht.2

/-- Where the rest is read alike, literal text ends at the same closing tag. -/
theorem upTo_withReturns {α : Type} {close : Text} (hclose : close ∈ tags) {rest : Text → Option α}
    {g : α → α} (hrest : ∀ r, '\r' ∉ r → rest (withReturns r) = (rest r).map g) {t : Text}
    (ht : '\r' ∉ t) :
    upTo close rest (withReturns t) = (upTo close rest t).map fun q => (withReturns q.1, g q.2) := by
  have hhere : ∀ t, '\r' ∉ t → (afterCaseless? close (withReturns t)).bind rest =
      ((afterCaseless? close t).bind rest).map g := by
    intro t ht
    rw [afterCaseless?_tag_withReturns hclose]
    cases hafter : afterCaseless? close t with
    | none => rfl
    | some r => exact hrest r (not_mem_of_afterCaseless? ht hafter)
  induction t with
  | nil =>
      have hnil := hhere [] ht
      rw [show withReturns [] = [] from rfl] at hnil ⊢
      rw [upTo]
      cases hclosed : (afterCaseless? close []).bind rest with
      | none => rfl
      | some a =>
          rw [hclosed, Option.map_some] at hnil
          rw [Option.map_some, Option.map_some, ← Option.some.inj hnil]
          rfl
  | cons c t ih =>
      have ih := ih (List.not_mem_of_not_mem_cons ht)
      by_cases hc : c = '\n'
      · subst hc
        rw [Text.withReturns_feed, upTo_blank hclose (by decide), upTo_blank hclose (by decide),
          upTo_blank hclose (by decide), ih]
        simp only [Option.map_map]
        rfl
      · have hcons := hhere (c :: t) ht
        rw [Text.withReturns_cons hc] at hcons ⊢
        rw [upTo, upTo, hcons]
        cases (afterCaseless? close (c :: t)).bind rest with
        | some a => rfl
        | none =>
            rw [ih]
            simp only [Option.map_none, Option.map_map]
            refine congrArg (fun f => (upTo close rest t).map f) (funext fun q => ?_)
            show (c :: withReturns q.1, g q.2) = (withReturns (c :: q.1), g q.2)
            rw [Text.withReturns_cons hc]

theorem not_mem_skipRestOfLine {t : Text} {c : Char} (ht : c ∉ t) : c ∉ skipRestOfLine t := by
  obtain ⟨g, -, hsplit⟩ := exists_blank_append_skipRestOfLine t
  intro hc
  exact ht (hsplit ▸ List.mem_append_right g hc)

/-- The rest of a line is the same with its line end of either kind. -/
theorem skipRestOfLine_withReturns {t : Text} (ht : '\r' ∉ t) :
    skipRestOfLine (withReturns t) = withReturns (skipRestOfLine t) := by
  have hskip : skipInlineBlanks (withReturns t) = withReturns (skipInlineBlanks t) :=
    Text.dropWhile_withReturns (by decide) t
  have hreturn : '\r' ∉ skipInlineBlanks t := fun h => ht ((suffix_skipInlineBlanks t).subset h)
  unfold skipRestOfLine
  rw [hskip]
  generalize skipInlineBlanks t = rest at hreturn
  cases rest with
  | nil => rfl
  | cons c r =>
      by_cases hc : c = '\n'
      · subst hc
        rfl
      · have hc' : c ≠ '\r' := (List.ne_of_not_mem_cons hreturn).symm
        rw [Text.withReturns_cons hc]
        simp [hc, hc', Text.withReturns_cons hc]

/-- **A pattern is read alike** whichever way the lines of the text end. -/
theorem read?_withReturns {es : Pattern} (hes : ∀ e ∈ es, ∀ q ∈ e.tag?, q ∈ tags) {t : Text}
    (ht : '\r' ∉ t) : es.read? (withReturns t) = (es.read? t).map readWithReturns := by
  induction es generalizing t with
  | nil => rfl
  | cons e es ih =>
      have ih := @ih fun e' he' => hes e' (List.mem_cons_of_mem _ he')
      have hhead := hes e List.mem_cons_self
      cases e with
      | tag name =>
          rw [Pattern.read?, Pattern.read?, afterCaseless?_tag_withReturns (hhead _ rfl)]
          cases hafter : afterCaseless? (openTag name) t with
          | none => rfl
          | some r => exact ih (not_mem_of_afterCaseless? ht hafter)
      | blanks =>
          rw [Pattern.read?, Pattern.read?, Text.stripStart_withReturns]
          exact ih fun h => ht ((Text.suffix_stripStart t).subset h)
      | restOfLine =>
          rw [Pattern.read?, Pattern.read?, skipRestOfLine_withReturns ht]
          exact ih (not_mem_skipRestOfLine ht)
      | body f name =>
          rw [Pattern.read?, Pattern.read?, upTo_withReturns (hhead _ rfl) (fun r hr => ih hr) ht]
          simp only [Option.map_map]
          refine congrArg (fun g => (upTo (closeTag name) (Pattern.read? es) t).map g)
            (funext fun q => ?_)
          simp [readWithReturns, Captures.withReturns_put]

/-! ## Searching a block -/

/-- A search passes a blank character by. -/
theorem search_blank (op : Operation) {c : Char} (hc : isBlank c = true) (t : Text) :
    (pattern op).search (c :: t) =
      ((pattern op).search t).map fun f => { f with before := c :: f.before } := by
  have hnone : (pattern op).read? (c :: t) = none := by
    rw [pattern_eq_cons, Pattern.read?, afterCaseless?_blank (openTag_mem_tags (requestName_mem op)) hc]
    rfl
  rw [Pattern.search, hnone]

theorem search_withReturns (op : Operation) {t : Text} (ht : '\r' ∉ t) :
    (pattern op).search (withReturns t) = ((pattern op).search t).map Found.withReturns := by
  have hread : ∀ t, '\r' ∉ t → (pattern op).read? (withReturns t) =
      ((pattern op).read? t).map readWithReturns :=
    fun t ht => read?_withReturns (fun e he q hq => mem_tags_of_mem_pattern he hq) ht
  induction t with
  | nil =>
      have hnil := hread [] ht
      rw [show withReturns [] = [] from rfl] at hnil ⊢
      rw [Pattern.search]
      cases hhere : (pattern op).read? [] with
      | none => rfl
      | some q =>
          rw [hhere, Option.map_some] at hnil
          rw [Option.map_some, Option.map_some]
          conv_lhs => rw [Option.some.inj hnil]
          rfl
  | cons c t ih =>
      have ih := ih (List.not_mem_of_not_mem_cons ht)
      by_cases hc : c = '\n'
      · subst hc
        rw [Text.withReturns_feed, search_blank op (by decide), search_blank op (by decide),
          search_blank op (by decide), ih]
        simp only [Option.map_map]
        rfl
      · have hcons := hread (c :: t) ht
        rw [Text.withReturns_cons hc] at hcons ⊢
        rw [Pattern.search, Pattern.search, hcons]
        cases (pattern op).read? (c :: t) with
        | some q => rfl
        | none =>
            rw [ih]
            simp only [Option.map_none, Option.map_map]
            refine congrArg (fun g => ((pattern op).search t).map g) (funext fun f => ?_)
            simp [Found.withReturns, Text.withReturns_cons hc]

theorem firstOperation_withReturns {body : Text} (hbody : '\r' ∉ body) :
    firstOperation (withReturns body) =
      (firstOperation body).map fun q => (q.1, q.2.withReturns) := by
  unfold firstOperation
  rw [List.map_findSome?]
  refine congrArg (fun f => precedence.findSome? f) (funext fun op => ?_)
  rw [search_withReturns op hbody, Option.map_map]
  simp only [Function.comp_apply, Option.map_map]
  rfl

theorem firstOperation_blank {c : Char} (hc : isBlank c = true) (body : Text) :
    firstOperation (c :: body) =
      (firstOperation body).map fun q => (q.1, { q.2 with before := c :: q.2.before }) := by
  unfold firstOperation
  rw [List.map_findSome?]
  refine congrArg (fun f => precedence.findSome? f) (funext fun op => ?_)
  rw [search_blank op hc]
  simp only [Function.comp_apply, Option.map_map]
  rfl

/-- A blank character in front of a block is of no account. -/
theorem readBlock_blank (path : Text) {c : Char} (hc : isBlank c = true) (body : Text) :
    readBlock path (c :: body) = readBlock path body := by
  unfold readBlock
  rw [firstOperation_blank hc]
  cases firstOperation body <;> rfl

theorem extraOperations_blank {c : Char} (hc : isBlank c = true) (body : Text) :
    extraOperations (c :: body) = extraOperations body := by
  unfold extraOperations
  rw [firstOperation_blank hc]
  cases firstOperation body with
  | none => rfl
  | some q =>
      show precedence.filter (fun op => ((pattern op).search (c :: (q.2.before ++ q.2.after))).isSome) =
        precedence.filter fun op => ((pattern op).search (q.2.before ++ q.2.after)).isSome
      simp only [search_blank _ hc, Option.isSome_map]

/-! ## Cleaning what was captured -/

theorem dropClosingLineEnd_withReturns {t : Text} (ht : '\r' ∉ t) :
    dropClosingLineEnd (withReturns t) = withReturns (dropClosingLineEnd t) := by
  rcases List.eq_nil_or_concat t with rfl | ⟨t, c, rfl⟩
  · rfl
  · have hreturn : '\r' ∉ t := fun h => ht (by simp [h])
    rw [List.concat_eq_append, Text.withReturns_append]
    by_cases hc : c = '\n'
    · subst hc
      have hdrop : dropClosingLineEnd (t ++ ['\n']) = t := by
        unfold dropClosingLineEnd
        rw [List.reverse_append, List.reverse_singleton, List.singleton_append]
        split
        · rename_i r hr
          have hmem : '\r' ∈ t.reverse := by rw [(List.cons.inj hr).2]; simp
          exact absurd (List.mem_reverse.mp hmem) hreturn
        · rename_i r _ hr
          rw [← (List.cons.inj hr).2, List.reverse_reverse]
        · rename_i hnone
          exact absurd rfl (hnone t.reverse)
      rw [hdrop]
      simp [dropClosingLineEnd, show withReturns ['\n'] = ['\r', '\n'] from rfl]
    · have hsame : withReturns [c] = [c] := Text.withReturns_cons hc []
      have hkeep : ∀ u : Text, dropClosingLineEnd (u ++ [c]) = u ++ [c] := fun u => by
        simp [dropClosingLineEnd, hc]
      rw [hsame, hkeep, hkeep, Text.withReturns_append, hsame]

theorem cleanContent_withReturns (op : Operation) {t : Text} (ht : '\r' ∉ t) :
    cleanContent op (withReturns t) = withReturns (cleanContent op t) := by
  unfold cleanContent
  split
  · exact Text.stripEnd_withReturns t
  · exact dropClosingLineEnd_withReturns ht

theorem cleanAnchor_some (e : BlockError) (t : Text) :
    cleanAnchor e (some t) = if strip t = [] then .error e else .ok (some (strip t)) := by
  unfold cleanAnchor
  dsimp only
  cases strip t with
  | nil => rfl
  | cons c r => rfl

theorem cleanAnchor_withReturns (e : BlockError) (t : Option Text) :
    cleanAnchor e (t.map withReturns) = (cleanAnchor e t).map (Option.map withReturns) := by
  cases t with
  | none => rfl
  | some t =>
      rw [Option.map_some, cleanAnchor_some, cleanAnchor_some, Text.strip_withReturns]
      simp only [Text.withReturns_eq_nil_iff]
      split <;> rfl

/-- What a block gives for its content stands in it. -/
theorem not_mem_content {body : Text} {op : Operation} {f : Found} {c : Char} (hc : c ∉ body)
    (h : firstOperation body = some (op, f)) : ∀ t ∈ f.captures.content, c ∉ t := by
  intro t ht hmem
  obtain ⟨u, hu, hread⟩ := exists_of_search (search_of_firstOperation h)
  have hcaptured : f.captures.get .content = some t := ht
  obtain ⟨name, rest, -, before, o, behind, rfl, -, hbody⟩ :=
    isCaptured_of_read? (framed_pattern op) hread hcaptured
  cases hbody with
  | intro _ _ _ _ _ => exact hc (by simp [hu, hmem])

end Emend.Message

namespace Emend

/-- The instruction with a carriage return in front of every line feed of its texts. -/
def Instruction.withReturns (i : Instruction) : Instruction :=
  { i with
    content := i.content.map Text.withReturns
    anchor := i.anchor.map Text.withReturns
    anchorEnd := i.anchorEnd.map Text.withReturns }

end Emend

namespace Emend.Message

open Emend.Text (folds fold isBlank strip withReturns)

/-- **A block gives the same instruction** whichever way its lines end, but for the line ends of the
instruction's texts. -/
theorem readBlock_withReturns (path : Text) {body : Text} (hbody : '\r' ∉ body) :
    readBlock path (withReturns body) = (readBlock path body).map Instruction.withReturns := by
  unfold readBlock
  rw [firstOperation_withReturns hbody]
  cases hfirst : firstOperation body with
  | none => rfl
  | some q =>
      obtain ⟨op, f⟩ := q
      have hcontent : f.captures.withReturns.content.map (cleanContent op) =
          (f.captures.content.map (cleanContent op)).map withReturns := by
        show (f.captures.content.map withReturns).map (cleanContent op) = _
        cases hcaptured : f.captures.content with
        | none => rfl
        | some t =>
            have ht := not_mem_content hbody hfirst t hcaptured
            exact congrArg some (cleanContent_withReturns op ht)
      have hanchor := cleanAnchor_withReturns .emptyAnchor f.captures.anchor
      have hanchorEnd := cleanAnchor_withReturns .emptyEndAnchor f.captures.anchorEnd
      simp only [Option.map_some]
      rw [show f.withReturns.captures = f.captures.withReturns from rfl, hcontent,
        show f.captures.withReturns.anchor = f.captures.anchor.map withReturns from rfl, hanchor,
        show f.captures.withReturns.anchorEnd = f.captures.anchorEnd.map withReturns from rfl,
        hanchorEnd]
      cases cleanAnchor .emptyAnchor f.captures.anchor with
      | error e => rfl
      | ok anchor =>
          cases cleanAnchor .emptyEndAnchor f.captures.anchorEnd with
          | error e => rfl
          | ok anchorEnd => rfl

/-- What a pattern leaves is the end of the text. -/
theorem suffix_of_read? {p : Pattern} {t r : Text} {caps : Captures}
    (h : p.read? t = some (caps, r)) : r <:+ t := by
  induction p generalizing t caps with
  | nil => rw [(Prod.mk.inj (Option.some.inj h)).2]
  | cons e es ih =>
      cases e with
      | tag name =>
          obtain ⟨o, u, rfl, -, hread⟩ := exists_of_read?_tag h
          exact (ih hread).trans (List.suffix_append o u)
      | blanks =>
          obtain ⟨g, u, rfl, -, hread⟩ := exists_of_read?_blanks h
          exact (ih hread).trans (List.suffix_append g u)
      | restOfLine =>
          obtain ⟨g, u, rfl, -, hread⟩ := exists_of_read?_restOfLine h
          exact (ih hread).trans (List.suffix_append g u)
      | body f name =>
          rw [Pattern.read?, Option.map_eq_some_iff] at h
          obtain ⟨⟨b, caps', r'⟩, hupTo, heq⟩ := h
          obtain ⟨-, rfl⟩ := Prod.mk.inj heq
          obtain ⟨c, u, rfl, -, hread, -⟩ := exists_of_upTo hupTo
          exact (ih hread).trans ((List.suffix_append c u).trans (List.suffix_append b (c ++ u)))

theorem extraOperations_withReturns {body : Text} (hbody : '\r' ∉ body) :
    extraOperations (withReturns body) = extraOperations body := by
  unfold extraOperations
  rw [firstOperation_withReturns hbody]
  cases hfirst : firstOperation body with
  | none => rfl
  | some q =>
      obtain ⟨op, f⟩ := q
      -- what is left when the operation is cut out of the body
      have hrest : '\r' ∉ f.before ++ f.after := by
        obtain ⟨u, rfl, hread⟩ := exists_of_search (search_of_firstOperation hfirst)
        intro hmem
        apply hbody
        rcases List.mem_append.mp hmem with hmem | hmem
        · exact List.mem_append_left u hmem
        · exact List.mem_append_right f.before ((suffix_of_read? hread).subset hmem)
      show precedence.filter (fun op =>
          ((pattern op).search (withReturns f.before ++ withReturns f.after)).isSome) =
        precedence.filter fun op => ((pattern op).search (f.before ++ f.after)).isSome
      simp only [← Text.withReturns_append, search_withReturns _ hrest, Option.isSome_map]

/-! ## Blocks -/

/-- Where a marker's line is cut when the text has carriage returns: the one at the end of the line
counts as part of the path. -/
def cutWithReturns : Text × Text → Text × Text
  | (path, '\n' :: rest) => (path ++ ['\r'], '\n' :: withReturns rest)
  | (path, rest) => (path, withReturns rest)

/-- The block when the message has carriage returns. -/
def Block.withReturns (b : Block) : Block :=
  ⟨(cutWithReturns (b.path, b.body)).1, (cutWithReturns (b.path, b.body)).2⟩

theorem cutWithReturns_of_head? {path rest : Text} (h : rest.head? ≠ some '\n') :
    cutWithReturns (path, rest) = (path, withReturns rest) := by
  cases rest with
  | nil => rfl
  | cons c rest =>
      have hc : c ≠ '\n' := by simpa using h
      simp [cutWithReturns, hc]

theorem cutWithReturns_cons (c : Char) (path rest : Text) :
    cutWithReturns (c :: path, rest) =
      (c :: (cutWithReturns (path, rest)).1, (cutWithReturns (path, rest)).2) := by
  by_cases h : rest.head? = some '\n'
  · obtain ⟨rest, rfl⟩ := List.head?_eq_some_iff.mp h
    rfl
  · rw [cutWithReturns_of_head? h, cutWithReturns_of_head? h]

/-- The path on a marker's line ends behind the carriage return. -/
theorem span_path_withReturns (t : Text) :
    ((withReturns t).takeWhile isPathChar, (withReturns t).dropWhile isPathChar) =
      cutWithReturns (t.takeWhile isPathChar, t.dropWhile isPathChar) := by
  induction t with
  | nil => rfl
  | cons c t ih =>
      by_cases hc : c = '\n'
      · subst hc
        rfl
      · rw [Text.withReturns_cons hc]
        cases hpath : isPathChar c with
        | true =>
            rw [List.takeWhile_cons_of_pos hpath, List.dropWhile_cons_of_pos hpath,
              List.takeWhile_cons_of_pos hpath, List.dropWhile_cons_of_pos hpath, cutWithReturns_cons,
              ← ih]
        | false =>
            have hstop : ¬ isPathChar c = true := by simp [hpath]
            have hhead : (c :: t).head? ≠ some '\n' := by simpa using hc
            rw [List.takeWhile_cons_of_neg hstop, List.dropWhile_cons_of_neg hstop,
              List.takeWhile_cons_of_neg hstop, List.dropWhile_cons_of_neg hstop,
              cutWithReturns_of_head? hhead, Text.withReturns_cons hc]

/-- **A marker starts a line** whichever way the lines end. -/
theorem marker?_withReturns {tag : FileTag} (htag : tag.IsInline) (t : Text) :
    marker? tag (withReturns t) = (marker? tag t).map cutWithReturns := by
  have hskip : ∀ u, skipInlineBlanks (withReturns u) = withReturns (skipInlineBlanks u) :=
    Text.dropWhile_withReturns (by decide)
  have hlast : (folds tag.text).getLast? ≠ some (fold '\r') := by
    have hbracket : fold ']' ≠ fold '\r' := by decide
    rw [show tag.text = ('[' :: tag.name) ++ [']'] from rfl, Text.folds_append,
      show folds [']'] = [fold ']'] from rfl, List.getLast?_concat]
    exact fun h => hbracket (Option.some.inj h)
  have hafter : Text.afterCaseless? ('[' :: tag.name ++ [']']) (withReturns (skipInlineBlanks t)) =
      (Text.afterCaseless? ('[' :: tag.name ++ [']']) (skipInlineBlanks t)).map withReturns :=
    Text.afterCaseless?_withReturns htag hlast _
  unfold marker?
  rw [hskip, hafter]
  cases Text.afterCaseless? ('[' :: tag.name ++ [']']) (skipInlineBlanks t) with
  | none => rfl
  | some rest =>
      show some _ = some _
      rw [hskip, span_path_withReturns]

theorem not_mem_inlineBlanks (t : Text) : '\n' ∉ t.takeWhile isInlineBlank := by
  intro h
  have hblank : isInlineBlank '\n' = true := List.all_eq_true.mp List.all_takeWhile '\n' h
  exact absurd hblank (by decide)

/-- What a marker takes of its line: something, and no line feed. -/
theorem exists_of_marker? {tag : FileTag} (htag : tag.IsInline) {t path rest : Text}
    (h : marker? tag t = some (path, rest)) : ∃ w, t = w ++ rest ∧ w ≠ [] ∧ '\n' ∉ w := by
  unfold marker? at h
  cases hafter : Text.afterCaseless? tag.text (skipInlineBlanks t) with
  | none =>
      rw [show '[' :: tag.name ++ [']'] = tag.text from rfl, hafter] at h
      cases h
  | some r =>
      rw [show '[' :: tag.name ++ [']'] = tag.text from rfl, hafter] at h
      obtain ⟨rfl, rfl⟩ := Prod.mk.inj (Option.some.inj h)
      obtain ⟨spelled, hspelled, hfolds⟩ := Text.afterCaseless?_eq_some_iff.mp hafter
      have hne : spelled ≠ [] := by
        rintro rfl
        simp [FileTag.text] at hfolds
      have hinline : '\n' ∉ spelled := by
        intro hmem
        apply htag
        rw [← hfolds]
        exact List.mem_map_of_mem hmem
      have hpath : '\n' ∉ (skipInlineBlanks r).takeWhile isPathChar := by
        intro hmem
        have hchar : isPathChar '\n' = true := List.all_eq_true.mp List.all_takeWhile '\n' hmem
        exact absurd hchar (by decide)
      refine ⟨t.takeWhile isInlineBlank ++ (spelled ++ (r.takeWhile isInlineBlank ++
        (skipInlineBlanks r).takeWhile isPathChar)), ?_, ?_, ?_⟩
      · simp only [List.append_assoc, List.takeWhile_append_dropWhile]
        rw [show r.takeWhile isInlineBlank ++ skipInlineBlanks r = r from
          List.takeWhile_append_dropWhile, ← hspelled]
        exact List.takeWhile_append_dropWhile.symm
      · simp [hne]
      · simp [not_mem_inlineBlanks, hinline, hpath]

/-- What is left out of a line is followed by the rest of that line. -/
theorem splitBlocks_skip_inline (tag : FileTag) {u : Text} (hu : '\n' ∉ u) (t : Text) :
    splitBlocks tag false u.length (u ++ t) = splitBlocks tag false 0 t := by
  induction u with
  | nil => rfl
  | cons c u ih =>
      have hc : c ≠ '\n' := (List.ne_of_not_mem_cons hu).symm
      rw [List.length_cons, List.cons_append, splitBlocks, decide_eq_false hc,
        ih (List.not_mem_of_not_mem_cons hu)]

/-- The block that a marker starts goes on in the middle of its line. -/
theorem splitBlocks_of_marker {tag : FileTag} {w rest path : Text} (hne : w ≠ []) (hw : '\n' ∉ w)
    (hm : marker? tag (w ++ rest) = some (path, rest)) :
    splitBlocks tag true 0 (w ++ rest) =
      ([], ⟨path, (splitBlocks tag false 0 rest).1⟩ :: (splitBlocks tag false 0 rest).2) := by
  cases w with
  | nil => exact absurd rfl hne
  | cons c w =>
      have hc : c ≠ '\n' := (List.ne_of_not_mem_cons hw).symm
      have hskip := splitBlocks_skip_inline tag (List.not_mem_of_not_mem_cons hw) rest
      rw [List.cons_append] at hm ⊢
      rw [splitBlocks, if_pos rfl, hm]
      simp only [List.length_append, Nat.add_sub_cancel, decide_eq_false hc, hskip]

theorem head?_splitBlocks (tag : FileTag) {t : Text} (ht : t.head? ≠ some '\n') :
    (splitBlocks tag false 0 t).1.head? ≠ some '\n' := by
  cases t with
  | nil => simp [splitBlocks]
  | cons c t =>
      rw [splitBlocks, if_neg Bool.false_ne_true]
      exact ht

/-- What a message is cut into when it has carriage returns. -/
def splitWithReturns (q : Text × List Block) : Text × List Block :=
  (withReturns q.1, q.2.map Block.withReturns)

theorem splitBlocks_marker_withReturns {tag : FileTag} (htag : tag.IsInline) {w rest path : Text}
    (hne : w ≠ []) (hw : '\n' ∉ w) (hm : marker? tag (w ++ rest) = some (path, rest))
    (hrest : ∀ b u, u <:+ rest →
      splitBlocks tag b 0 (withReturns u) = splitWithReturns (splitBlocks tag b 0 u)) :
    splitBlocks tag true 0 (withReturns (w ++ rest)) =
      splitWithReturns (splitBlocks tag true 0 (w ++ rest)) := by
  have hmarker := marker?_withReturns htag (w ++ rest)
  rw [hm, Option.map_some, Text.withReturns_append, Text.withReturns_of_not_mem hw] at hmarker
  rw [splitBlocks_of_marker hne hw hm, Text.withReturns_append, Text.withReturns_of_not_mem hw]
  by_cases hline : rest.head? = some '\n'
  · -- the line ends here, and its carriage return goes to the path
    obtain ⟨r, rfl⟩ := List.head?_eq_some_iff.mp hline
    have hreturn : w ++ withReturns ('\n' :: r) = (w ++ ['\r']) ++ '\n' :: withReturns r := by
      rw [Text.withReturns_feed, List.append_assoc]
      rfl
    have hw' : '\n' ∉ w ++ ['\r'] := by simp [hw]
    rw [hreturn] at hmarker ⊢
    rw [splitBlocks_of_marker (by simp) hw' hmarker, splitBlocks_newline htag,
      splitBlocks_newline htag, hrest true r (List.suffix_cons '\n' r)]
    rfl
  · have hbody := head?_splitBlocks tag hline
    rw [cutWithReturns_of_head? hline] at hmarker
    rw [splitBlocks_of_marker hne hw hmarker, hrest false rest List.suffix_rfl]
    show _ = ([], Block.withReturns _ :: _)
    rw [Block.withReturns, cutWithReturns_of_head? hbody]
    rfl

/-- **A message has the same blocks** whichever way its lines end. -/
theorem splitBlocks_withReturns {tag : FileTag} (htag : tag.IsInline) (b : Bool) (t : Text) :
    splitBlocks tag b 0 (withReturns t) = splitWithReturns (splitBlocks tag b 0 t) := by
  -- on the length of what is left of the message, since a marker takes a stretch of it at once
  induction hn : t.length using Nat.strong_induction_on generalizing b t with
  | _ n ih =>
  subst hn
  cases t with
  | nil => rfl
  | cons c t =>
      have htail := fun b => ih t.length (by simp) b t rfl
      have hmarker := marker?_withReturns htag (c :: t)
      cases hhere : if b then marker? tag (c :: t) else none with
      | none =>
          have hnone : (if b then marker? tag (withReturns (c :: t)) else none) = none := by
            rw [hmarker]
            cases b with
            | false => rfl
            | true => exact congrArg (Option.map cutWithReturns) hhere
          by_cases hc : c = '\n'
          · subst hc
            rw [Text.withReturns_feed] at hnone ⊢
            rw [splitBlocks, hnone]
            simp only [splitBlocks_newline htag, htail]
            rfl
          · rw [Text.withReturns_cons hc] at hnone ⊢
            rw [splitBlocks, splitBlocks, hhere, hnone]
            simp only [htail, splitWithReturns, Text.withReturns_cons hc]
      | some q =>
          obtain ⟨path, rest⟩ := q
          cases b with
          | false => cases hhere
          | true =>
              have hhere : marker? tag (c :: t) = some (path, rest) := hhere
              obtain ⟨w, hsplit, hne, hw⟩ := exists_of_marker? htag hhere
              have hpos := List.length_pos_iff.mpr hne
              rw [hsplit] at hhere ⊢
              refine splitBlocks_marker_withReturns htag hne hw hhere fun b u hu => ?_
              have hle := hu.length_le
              refine ih u.length ?_ b u rfl
              rw [hsplit, List.length_append]
              omega

/-- A block's text stands in the message. -/
theorem body_subset_of_mem_splitBlocks {tag : FileTag} {b : Bool} {skip : Nat} {t : Text} :
    (∀ c ∈ (splitBlocks tag b skip t).1, c ∈ t) ∧
      ∀ block ∈ (splitBlocks tag b skip t).2, ∀ c ∈ block.body, c ∈ t := by
  induction t generalizing b skip with
  | nil => simp [splitBlocks]
  | cons d t ih =>
      cases skip with
      | succ skip =>
          have ih := @ih (d = '\n') skip
          rw [splitBlocks]
          exact ⟨fun c hc => List.mem_cons_of_mem d (ih.1 c hc),
            fun block hblock c hc => List.mem_cons_of_mem d (ih.2 block hblock c hc)⟩
      | zero =>
          rw [splitBlocks]
          cases if b then marker? tag (d :: t) else none with
          | none =>
              have ih := @ih (d = '\n') 0
              refine ⟨fun c hc => ?_, fun block hblock c hc => ?_⟩
              · rcases List.mem_cons.mp hc with rfl | hc
                · exact List.mem_cons_self
                · exact List.mem_cons_of_mem d (ih.1 c hc)
              · exact List.mem_cons_of_mem d (ih.2 block hblock c hc)
          | some q =>
              have ih := @ih (d = '\n') (t.length - q.2.length)
              refine ⟨by simp, fun block hblock c hc => ?_⟩
              rcases List.mem_cons.mp hblock with rfl | hblock
              · exact List.mem_cons_of_mem d (ih.1 c hc)
              · exact List.mem_cons_of_mem d (ih.2 block hblock c hc)

/-! ## What blocks give -/

/-- The outcome with the line ends of the other kind in the texts of its instructions. -/
def Outcome.withReturns (o : Outcome) : Outcome :=
  { o with instructions := o.instructions.map Instruction.withReturns }

theorem strip_path_withReturns (b : Block) : strip b.withReturns.path = strip b.path := by
  show strip (cutWithReturns (b.path, b.body)).1 = strip b.path
  by_cases h : b.body.head? = some '\n'
  · obtain ⟨r, hr⟩ := List.head?_eq_some_iff.mp h
    rw [hr]
    exact Text.strip_append_blank (by decide) b.path
  · rw [cutWithReturns_of_head? h]

/-- A body without the carriage return in front of it is of the same account. -/
theorem body_withReturns {α : Type} {f : Text → α} (hf : ∀ t, f ('\r' :: t) = f t) (b : Block) :
    f b.withReturns.body = f (withReturns b.body) := by
  show f (cutWithReturns (b.path, b.body)).2 = f (withReturns b.body)
  by_cases h : b.body.head? = some '\n'
  · obtain ⟨r, hr⟩ := List.head?_eq_some_iff.mp h
    rw [hr]
    exact (hf ('\n' :: withReturns r)).symm
  · rw [cutWithReturns_of_head? h]

/-- **A block gives the same**, whichever way its lines end. -/
theorem Block.outcome_withReturns (number : Nat) {b : Block} (hbody : '\r' ∉ b.body) :
    b.withReturns.outcome number = (b.outcome number).withReturns := by
  have hread : ∀ path, readBlock path b.withReturns.body =
      (readBlock path b.body).map Instruction.withReturns := fun path =>
    (body_withReturns (readBlock_blank path (by decide)) b).trans (readBlock_withReturns path hbody)
  have hextra : extraOperations b.withReturns.body = extraOperations b.body :=
    (body_withReturns (extraOperations_blank (by decide)) b).trans (extraOperations_withReturns hbody)
  unfold Block.outcome
  rw [strip_path_withReturns, hextra]
  cases strip b.path with
  | nil => rfl
  | cons c path =>
      dsimp only
      rw [hread]
      cases readBlock (c :: path) b.body with
      | error e => rfl
      | ok i => rfl

theorem outcomeFrom_withReturns {bs : List Block} (hbs : ∀ b ∈ bs, '\r' ∉ b.body) (number : Nat) :
    outcomeFrom number (bs.map Block.withReturns) = (outcomeFrom number bs).withReturns := by
  induction bs generalizing number with
  | nil => rfl
  | cons b bs ih =>
      have hrest := ih (fun b' hb' => hbs b' (List.mem_cons_of_mem b hb')) (number + 1)
      rw [List.map_cons, outcomeFrom, outcomeFrom, hrest,
        Block.outcome_withReturns number (hbs b List.mem_cons_self)]
      show Outcome.mk _ _ = Outcome.mk _ _
      simp [Outcome.withReturns]

/-- **A message asks for the same whichever way its lines end**: the same operations on the same files,
with the same errors, and the texts of the instructions have the line ends of the message. -/
theorem parse_withReturns {tag : FileTag} (htag : '\n' ∉ tag.name) {message : Text}
    (hm : '\r' ∉ message) :
    parse tag (withReturns message) = (parse tag message).withReturns := by
  have hblocks : blocks tag (withReturns message) = (blocks tag message).map Block.withReturns :=
    congrArg Prod.snd (splitBlocks_withReturns (FileTag.isInline_iff.mpr htag) true message)
  have hbodies : ∀ b ∈ blocks tag message, '\r' ∉ b.body := fun b hb h =>
    hm (body_subset_of_mem_splitBlocks.2 b hb '\r' h)
  unfold parse
  rw [hblocks]
  cases hbs : blocks tag message with
  | nil => rfl
  | cons b bs =>
      rw [hbs] at hbodies
      exact outcomeFrom_withReturns hbodies 1

/-- A text of two lines behind an anchor of two lines, and a block that names no file. -/
def sampleLines : Text :=
  ("[FILE] a.py\n[INSERT_AFTER]\n[ANCHOR]\nx\ny\n[/ANCHOR]\n[CONTENT]\n1\n2\n[/CONTENT]\n" ++
    "[FILE]\n[DELETE_FILE]\n").toList

/-- The line ends inside the anchor and the content are those of the message; the ones around them are
not part of either. -/
theorem parse_withReturns_sampleLines :
    '\n' ∉ FileTag.standard.name ∧ '\r' ∉ sampleLines ∧
      parse .standard (withReturns sampleLines) = (parse .standard sampleLines).withReturns ∧
      (parse .standard sampleLines).withReturns =
        ⟨[{ path := "a.py".toList, operation := .insertAfter, content := some "1\r\n2".toList,
            anchor := some "x\r\ny".toList }],
          [⟨.block 2, "empty file path".toList⟩]⟩ := by
  have hname : '\n' ∉ FileTag.standard.name := by decide
  have hm : '\r' ∉ sampleLines := by decide
  exact ⟨hname, hm, parse_withReturns hname hm, by decide⟩

end Emend.Message
