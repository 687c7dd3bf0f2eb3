import Emend.Proofs.Message.Reading
import Emend.Proofs.Text.Trimmed

/-!
# Where the bodies of a block end

An instruction takes its content and its anchors from elements of its block. The text of an element
ends at the first closing tag behind which the rest of the operation can be read (`IsBody`). That is
the next closing tag of the element if the operation goes on behind it. Otherwise the text runs over
that tag, and what it is cut off by may belong to an operation that was asked for further on
(`not_body_up_to_next_tag`).

A pattern captures the text of an element behind the opening tag of that name (`Framed`), so the law is
proved once, by induction on such patterns, for what stands behind that tag.
-/

namespace Emend.Message

open Emend.Text (OccursIn folds fold allBlank)

/-! ## Fields -/

/-- What was captured for the field. -/
def Captures.get (c : Captures) : Field → Option Text
  | .content => c.content
  | .anchor => c.anchor
  | .anchorEnd => c.anchorEnd

/-- What the instruction has in the field. -/
def part (i : Instruction) : Field → Option Text
  | .content => i.content
  | .anchor => i.anchor
  | .anchorEnd => i.anchorEnd

/-- The element whose text is captured for the field: its name, and what has to follow it. -/
def Pattern.element? (field : Field) : Pattern → Option (String × Pattern)
  | [] => none
  | .body f name :: es => if f = field then some (name, es) else Pattern.element? field es
  | _ :: es => Pattern.element? field es

theorem Captures.get_empty (field : Field) : Captures.get {} field = none := by
  cases field <;> rfl

theorem Captures.get_put (c : Captures) (f field : Field) (t : Text) :
    (c.put f t).get field = if f = field then some t else c.get field := by
  cases f <;> cases field <;> rfl

/-- The elements of an operation have names of the grammar. -/
theorem mem_elementNames_of_element? {op : Operation} {field : Field} {name : String} {rest : Pattern}
    (h : (pattern op).element? field = some (name, rest)) : name ∈ elementNames := by
  have hall : ∀ e ∈ (pattern op).element? field, e.1 ∈ elementNames := by
    cases op <;> cases field <;> decide
  exact hall (name, rest) h

/-- Nothing follows the content, and nothing follows the end anchor of a removal. -/
theorem element?_last {op : Operation} {field : Field} {name : String} {rest : Pattern}
    (h : (pattern op).element? field = some (name, rest))
    (hlast : field = .content ∨ op = .deleteContent ∧ field = .anchorEnd) : rest = [] := by
  have hall : ∀ e ∈ (pattern op).element? field, e.2.isEmpty = true := by
    rcases hlast with rfl | ⟨rfl, rfl⟩
    · cases op <;> decide
    · decide
  exact List.isEmpty_iff.mp (hall (name, rest) h)

/-! ## Bodies -/

/-- A text that begins with the body, blanks around it aside, and has a closing tag of that name behind
it: the first one behind which the rest can be read. -/
inductive IsBody (name : String) (rest : Pattern) (body : Text) : Text → Prop
  | intro {g g' c after : Text} : allBlank g = true → allBlank g' = true →
      folds c = folds (closeTag name) → (rest.read? after).isSome →
      (∀ u d v, body = u ++ (d ++ v) → folds d = folds (closeTag name) →
        rest.read? (v ++ (g' ++ (c ++ after))) = none) →
      IsBody name rest body (g ++ (body ++ (g' ++ (c ++ after))))

theorem IsBody.blank_append {name : String} {rest : Pattern} {body t g : Text}
    (h : IsBody name rest body t) (hg : allBlank g = true) : IsBody name rest body (g ++ t) := by
  cases h with
  | @intro g₁ g' c after hg₁ hg' hc hrest hfirst =>
      rw [← List.append_assoc]
      exact .intro (Text.allBlank_append hg hg₁) hg' hc hrest hfirst

/-- Blanks at the ends of a body may be counted to what is around it. -/
theorem IsBody.trim {name : String} {rest : Pattern} {body t g g' : Text}
    (h : IsBody name rest (g ++ (body ++ g')) t) (hg : allBlank g = true) (hg' : allBlank g' = true) :
    IsBody name rest body t := by
  cases h with
  | @intro g₁ g₂ c after hg₁ hg₂ hc hrest hfirst =>
      have hsplit : g₁ ++ (g ++ (body ++ g') ++ (g₂ ++ (c ++ after))) =
          g₁ ++ g ++ (body ++ (g' ++ g₂ ++ (c ++ after))) := by
        simp only [List.append_assoc]
      rw [hsplit]
      refine .intro (Text.allBlank_append hg₁ hg) (Text.allBlank_append hg' hg₂) hc hrest ?_
      intro u d v hbody hd
      -- the same closing tag, seen from the body with its blanks
      have hbefore := hfirst (g ++ u) d (v ++ g') (by rw [hbody]; simp only [List.append_assoc]) hd
      simpa only [List.append_assoc] using hbefore

/-- A body is read up to the first closing tag behind which the rest can be read. -/
theorem isBody_of_upTo {name : String} {rest : Pattern} {t body : Text} {a : Captures × Text}
    (h : upTo (closeTag name) rest.read? t = some (body, a)) :
    IsBody name rest body t ∧ ∃ x r, t = x ++ r ∧ rest.read? r = some a := by
  obtain ⟨c, r, rfl, hc, hrest, hfirst⟩ := exists_of_upTo h
  refine ⟨?_, body ++ c, r, (List.append_assoc ..).symm, hrest⟩
  have hbody : IsBody name rest body ([] ++ (body ++ ([] ++ (c ++ r)))) := by
    refine .intro rfl rfl hc (by rw [hrest]; rfl) fun u d v hsplit hd => ?_
    refine hfirst u d (v ++ (c ++ r)) (by rw [hsplit]; simp only [List.append_assoc]) hd ?_
    -- a closing tag in the body takes room there
    have hd' : d ≠ [] := by
      rintro rfl
      cases hd
    have hlength := List.length_pos_iff.mpr hd'
    rw [hsplit, List.length_append, List.length_append]
    omega
  exact hbody

theorem not_occursIn_of_blank_ends {p t g g' : Text} (hp : p ∈ tags) (hg : allBlank g = true)
    (hg' : allBlank g' = true) (h : ¬ OccursIn p t) : ¬ OccursIn p (g ++ (t ++ g')) := by
  intro hoccurs
  -- blanks are no letters of a tag, so it lies between them
  have hrun : OccursIn p (t ++ g') := by
    induction g with
    | nil => exact hoccurs
    | cons c g ih =>
        rw [allBlank, List.all_cons, Bool.and_eq_true] at hg
        have hsplit := (Text.occursIn_append_cons (a := []) (fold_blank_not_mem hp hg.1)).mp hoccurs
        exact ih hg.2 (hsplit.resolve_left (not_occursIn_blank hp rfl))
  have hbreaks : Breaks g' := by simpa using breaks_blank_append hg' breaks_nil
  rcases occursIn_append hp hbreaks hrun with ht | hblank
  · exact h ht
  · exact not_occursIn_blank hp hg' hblank

/-- **The next closing tag** is in the body if the rest cannot be read behind it, and ends the body
otherwise. -/
theorem IsBody.exists_next {name : String} {rest : Pattern} {body t : Text}
    (h : IsBody name rest body t) (hname : name ∈ elementNames) :
    ∃ u d v, t = u ++ (d ++ v) ∧ folds d = folds (closeTag name) ∧ ¬ OccursIn (closeTag name) u ∧
      (OccursIn (closeTag name) body ↔ rest.read? v = none) := by
  have htag := closeTag_mem_tags hname
  cases h with
  | @intro g g' c after hg hg' hc hrest hfirst =>
      by_cases hbody : OccursIn (closeTag name) body
      · -- the next one is the first in the body, which did not end there
        obtain ⟨u, d, v, rfl, hd, hu⟩ := hbody.exists_first (List.cons_ne_nil _ _)
        refine ⟨g ++ (u ++ []), d, v ++ (g' ++ (c ++ after)), ?_, hd, ?_, ?_⟩
        · simp only [List.append_assoc, List.nil_append]
        · exact not_occursIn_of_blank_ends htag hg rfl hu
        · exact iff_of_true hbody (hfirst u d v rfl hd)
      · -- the next one is that which ends the body
        refine ⟨g ++ (body ++ g'), c, after, ?_, hc, ?_, ?_⟩
        · simp only [List.append_assoc]
        · exact not_occursIn_of_blank_ends htag hg hg' hbody
        · refine iff_of_false hbody fun hnone => ?_
          rw [hnone] at hrest
          cases hrest

/-! ## Reading -/

/-- A pattern in which each text that is captured is that of an element: it follows the opening tag of
the name by which it is closed, at once or on the next line. -/
inductive Framed : Pattern → Prop
  | nil : Framed []
  | element {f : Field} {name : String} {es : Pattern} : Framed es →
      Framed (.tag name :: .body f name :: es)
  | elementOnLines {f : Field} {name : String} {es : Pattern} : Framed es →
      Framed (.tag name :: .restOfLine :: .body f name :: es)
  | tag {name : String} {es : Pattern} : Framed es → Framed (.tag name :: es)
  | blanks {es : Pattern} : Framed es → Framed (.blanks :: es)

theorem framed_pattern (op : Operation) : Framed (pattern op) := by
  cases op <;> repeat constructor

/-- The body stands behind an opening tag of that name. -/
def IsElement (name : String) (rest : Pattern) (body t : Text) : Prop :=
  ∃ before o behind, t = before ++ (o ++ behind) ∧ folds o = folds (openTag name) ∧
    IsBody name rest body behind

theorem IsElement.append_left {name : String} {rest : Pattern} {body t : Text}
    (h : IsElement name rest body t) (x : Text) : IsElement name rest body (x ++ t) := by
  obtain ⟨before, o, behind, rfl, ho, hbody⟩ := h
  exact ⟨x ++ before, o, behind, (List.append_assoc ..).symm, ho, hbody⟩

/-- The field was captured from its element in the pattern, which the text has. -/
def IsCaptured (p : Pattern) (field : Field) (body t : Text) : Prop :=
  ∃ name rest, p.element? field = some (name, rest) ∧ IsElement name rest body t

/-- What is captured behind an opening tag is the text of that element, or of a later one. -/
theorem isCaptured_of_body {name : String} {es : Pattern} {f field : Field} {o t g r body : Text}
    {caps : Captures} (ho : folds o = folds (openTag name)) (hg : allBlank g = true)
    (hread : Pattern.read? (.body f name :: es) t = some (caps, r))
    (hget : caps.get field = some body)
    (hrest : ∀ t caps, es.read? t = some (caps, r) → caps.get field = some body →
      IsCaptured es field body t) :
    IsCaptured (.body f name :: es) field body (o ++ (g ++ t)) := by
  rw [Pattern.read?, Option.map_eq_some_iff] at hread
  obtain ⟨⟨b, caps', r'⟩, hupTo, heq⟩ := hread
  obtain ⟨rfl, rfl⟩ := Prod.mk.inj heq
  obtain ⟨hbody, x, rest, hsplit, hlater⟩ := isBody_of_upTo hupTo
  rw [Captures.get_put] at hget
  rw [IsCaptured, Pattern.element?]
  -- this is the body of the field, or else a later one is
  split at hget
  · rename_i hfield
    obtain rfl := Option.some.inj hget
    rw [if_pos hfield]
    exact ⟨name, es, rfl, [], o, g ++ t, rfl, ho, hbody.blank_append hg⟩
  · rename_i hfield
    rw [if_neg hfield]
    obtain ⟨name', rest', helement, hstands⟩ := hrest rest caps' hlater hget
    refine ⟨name', rest', helement, ?_⟩
    rw [hsplit, ← List.append_assoc, ← List.append_assoc]
    exact hstands.append_left _

/-- What a pattern captures for a field is the text of the element that it has for that field. -/
theorem isCaptured_of_read? {p : Pattern} (hp : Framed p) {t r body : Text} {caps : Captures}
    {field : Field} (hread : p.read? t = some (caps, r)) (hget : caps.get field = some body) :
    IsCaptured p field body t := by
  -- on the pattern, element by element: what is read first stands in front of the rest
  induction hp generalizing t caps with
  | nil =>
      obtain ⟨rfl, -⟩ := Prod.mk.inj (Option.some.inj hread)
      rw [Captures.get_empty] at hget
      cases hget
  | element _ ih =>
      obtain ⟨o, r, rfl, ho, hread⟩ := exists_of_read?_tag hread
      exact isCaptured_of_body (g := []) ho rfl hread hget fun t caps => ih
  | elementOnLines _ ih =>
      obtain ⟨o, r, rfl, ho, hread⟩ := exists_of_read?_tag hread
      obtain ⟨g, r, rfl, hg, hread⟩ := exists_of_read?_restOfLine hread
      exact isCaptured_of_body ho hg hread hget fun t caps => ih
  | tag _ ih =>
      obtain ⟨o, r, rfl, -, hread⟩ := exists_of_read?_tag hread
      obtain ⟨name, rest, helement, hstands⟩ := ih hread hget
      exact ⟨name, rest, helement, hstands.append_left o⟩
  | blanks _ ih =>
      obtain ⟨g, r, rfl, -, hread⟩ := exists_of_read?_blanks hread
      obtain ⟨name, rest, helement, hstands⟩ := ih hread hget
      exact ⟨name, rest, helement, hstands.append_left g⟩

/-! ## Blocks -/

theorem exists_append_dropClosingLineEnd (t : Text) :
    ∃ g, allBlank g = true ∧ t = dropClosingLineEnd t ++ g := by
  rw [dropClosingLineEnd]
  split
  · rename_i r hreverse
    refine ⟨['\r', '\n'], by decide, ?_⟩
    rw [← List.reverse_reverse t, hreverse]
    simp
  · rename_i r hreverse
    refine ⟨['\n'], by decide, ?_⟩
    rw [← List.reverse_reverse t, hreverse]
    simp
  · exact ⟨[], rfl, (List.append_nil t).symm⟩

theorem exists_append_cleanContent (op : Operation) (t : Text) :
    ∃ g, allBlank g = true ∧ t = cleanContent op t ++ g := by
  rw [cleanContent]
  split
  · exact Text.exists_append_stripEnd t
  · exact exists_append_dropClosingLineEnd t

theorem exists_of_cleanAnchor {e : BlockError} {a : Option Text} {t : Text}
    (h : cleanAnchor e a = .ok (some t)) : ∃ raw, a = some raw ∧ Text.strip raw = t := by
  cases a with
  | none => cases h
  | some raw =>
      rw [cleanAnchor] at h
      split at h
      · cases h
      · exact ⟨raw, rfl, Option.some.inj (Except.ok.inj h)⟩

/-- What an instruction has in a field was captured for it, with blanks at its ends. -/
theorem exists_of_part {path body : Text} {i : Instruction} (h : readBlock path body = .ok i)
    {field : Field} {text : Text} (hfield : part i field = some text) :
    ∃ f g g', (pattern i.operation).search body = some f ∧ allBlank g = true ∧
      allBlank g' = true ∧ f.captures.get field = some (g ++ (text ++ g')) := by
  obtain ⟨f, hfirst, -, hcontent, hanchor, hanchorEnd⟩ := exists_of_readBlock h
  have hsearch := search_of_firstOperation hfirst
  cases field with
  | content =>
      have hmap : f.captures.content.map (cleanContent i.operation) = some text :=
        hcontent.symm.trans hfield
      obtain ⟨raw, hraw, rfl⟩ := Option.map_eq_some_iff.mp hmap
      obtain ⟨g, hg, hsplit⟩ := exists_append_cleanContent i.operation raw
      exact ⟨f, [], g, hsearch, rfl, hg, hraw.trans (congrArg some hsplit)⟩
  | anchor =>
      have hclean : cleanAnchor .emptyAnchor f.captures.anchor = .ok (some text) :=
        hanchor.trans (congrArg Except.ok hfield)
      obtain ⟨raw, hraw, rfl⟩ := exists_of_cleanAnchor hclean
      obtain ⟨g, g', hg, hg', hsplit⟩ := Text.exists_append_strip raw
      exact ⟨f, g, g', hsearch, hg, hg', hraw.trans (congrArg some hsplit)⟩
  | anchorEnd =>
      have hclean : cleanAnchor .emptyEndAnchor f.captures.anchorEnd = .ok (some text) :=
        hanchorEnd.trans (congrArg Except.ok hfield)
      obtain ⟨raw, hraw, rfl⟩ := exists_of_cleanAnchor hclean
      obtain ⟨g, g', hg, hg', hsplit⟩ := Text.exists_append_strip raw
      exact ⟨f, g, g', hsearch, hg, hg', hraw.trans (congrArg some hsplit)⟩

/-- **Where bodies end.** What an instruction has in a field is the text of an element of its block,
behind the opening tag and up to the first closing tag behind which the rest of the operation can be
read. So it holds the next closing tag exactly if the rest of the operation cannot be read behind that
one. The last element of an operation is never read over its closing tag. -/
theorem readBlock_bodies {path body : Text} {i : Instruction} (h : readBlock path body = .ok i)
    {field : Field} {text : Text} (hfield : part i field = some text) :
    ∃ name rest, (pattern i.operation).element? field = some (name, rest) ∧
      (∃ before o behind, body = before ++ (o ++ behind) ∧ folds o = folds (openTag name) ∧
        IsBody name rest text behind ∧
        ∃ u d v, behind = u ++ (d ++ v) ∧ folds d = folds (closeTag name) ∧
          ¬ OccursIn (closeTag name) u ∧
          (OccursIn (closeTag name) text ↔ rest.read? v = none)) ∧
      (field = .content ∨ i.operation = .deleteContent ∧ field = .anchorEnd →
        ¬ OccursIn (closeTag name) text) := by
  obtain ⟨f, g, g', hsearch, hg, hg', hget⟩ := exists_of_part h hfield
  obtain ⟨u, hbody, hread⟩ := exists_of_search hsearch
  obtain ⟨name, rest, helement, hstands⟩ :=
    isCaptured_of_read? (framed_pattern i.operation) hread hget
  obtain ⟨before, o, behind, hsplit, ho, hraw⟩ := hstands.append_left f.before
  rw [← hbody] at hsplit
  -- what was captured is the text with blanks around it
  have htext := hraw.trim hg hg'
  obtain ⟨x, d, v, hnext, hd, hx, hover⟩ :=
    htext.exists_next (mem_elementNames_of_element? helement)
  refine ⟨name, rest, helement, ?_, fun hlast hoccurs => ?_⟩
  · exact ⟨before, o, behind, hsplit, ho, htext, x, d, v, hnext, hd, hx, hover⟩
  · -- nothing has to follow, so the rest can be read anywhere
    have hnone := hover.mp hoccurs
    rw [element?_last helement hlast] at hnone
    cases hnone

/-- A request without a content, and behind it another one for the same file. -/
def unfinishedBody : Text :=
  ("\n[INSERT_AFTER]\n[ANCHOR]one[/ANCHOR]\n" ++
    "[INSERT_BEFORE]\n[ANCHOR]two[/ANCHOR]\n[CONTENT]\nnew\n[/CONTENT]").toList

/-- The instruction that is read from it. -/
def mixedInstruction : Instruction where
  path := "a.txt".toList
  operation := .insertAfter
  content := some "new".toList
  anchor := some "one[/ANCHOR]\n[INSERT_BEFORE]\n[ANCHOR]two".toList

/-- The anchor runs over its closing tag, as no content can be read behind that; the content does not. -/
theorem readBlock_bodies_unfinished :
    readBlock "a.txt".toList unfinishedBody = .ok mixedInstruction ∧
      (∃ before o behind, unfinishedBody = before ++ (o ++ behind) ∧
        folds o = folds (openTag "ANCHOR") ∧
        IsBody "ANCHOR" contentElement "one[/ANCHOR]\n[INSERT_BEFORE]\n[ANCHOR]two".toList behind ∧
        ∃ u d v, behind = u ++ (d ++ v) ∧ folds d = folds (closeTag "ANCHOR") ∧
          ¬ OccursIn (closeTag "ANCHOR") u ∧ Pattern.read? contentElement v = none) ∧
      ¬ OccursIn (closeTag "CONTENT") "new".toList := by
  have hread : readBlock "a.txt".toList unfinishedBody = .ok mixedInstruction := by decide +kernel
  have hanchor : part mixedInstruction .anchor =
      some "one[/ANCHOR]\n[INSERT_BEFORE]\n[ANCHOR]two".toList := rfl
  have hcontent : part mixedInstruction .content = some "new".toList := rfl
  refine ⟨hread, ?_, ?_⟩
  · obtain ⟨name, rest, helement, ⟨before, o, behind, hsplit, ho, hbody, u, d, v, hnext, hd, hu,
      hover⟩, -⟩ := readBlock_bodies hread hanchor
    obtain ⟨rfl, rfl⟩ := Prod.mk.inj (Option.some.inj helement)
    have hheld : OccursIn (closeTag "ANCHOR")
        "one[/ANCHOR]\n[INSERT_BEFORE]\n[ANCHOR]two".toList := by
      decide +kernel
    exact ⟨before, o, behind, hsplit, ho, hbody, u, d, v, hnext, hd, hu, hover.mp hheld⟩
  · obtain ⟨name, rest, helement, -, hlast⟩ := readBlock_bodies hread hcontent
    obtain ⟨rfl, rfl⟩ := Prod.mk.inj (Option.some.inj helement)
    exact hlast (Or.inl rfl)

/-- A body can hold its own closing tag. -/
theorem not_body_up_to_next_tag :
    ¬ ∀ path body i, readBlock path body = .ok i → i.operation = .insertAfter →
      ∀ t ∈ i.anchor, ¬ OccursIn (closeTag "ANCHOR") t := by
  intro h
  have hread : readBlock "a.txt".toList unfinishedBody = .ok mixedInstruction := by decide +kernel
  refine h _ _ _ hread rfl _ rfl ?_
  decide +kernel

end Emend.Message
