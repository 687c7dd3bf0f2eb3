import Emend.Proofs.Edit.ApplyAll
import Emend.Proofs.Edit.Refusals
import Emend.Proofs.Message.Bodies
import Emend.Proofs.Message.Locality

/-!
# Parsed instructions

What `parse` returns is well-formed (`IsWellFormed`): the path is on one line and trimmed, there is a text
in each field that the operation uses and in no other, anchors are trimmed and not blank, and a new file
does not end in blanks. The fields are those for which the pattern of the operation has a body
(`isSome_get_of_read?`), so nothing has to be said of what a block looks like.

So an instruction that was parsed is refused only for what the text of its file is like: there is nothing
to edit, or an anchor does not stand there once. That an anchor is empty or the operation not supported is
never the reason (`IsWellFormed.apply_error`), and an operation on the whole file is always carried out.
-/

namespace Emend.Message

open Emend.Text (IsTight isBlank)

/-! ## Well-formed instructions -/

/-- The fields in which an instruction for the operation has a text. -/
def fieldsOf : Operation → List Field
  | .create | .replace => [.content]
  | .deleteFile => []
  | .findReplace => [.anchor, .anchorEnd, .content]
  | .deleteContent => [.anchor, .anchorEnd]
  | .insertBefore | .insertAfter => [.anchor, .content]

/-- The instruction has what its operation needs and nothing else, and each text is as trimming leaves it:
path and anchors begin and end with characters that are not blank, and a new file does not end in one. -/
structure IsWellFormed (i : Instruction) : Prop where
  path : IsTight i.path
  path_chars : '\n' ∉ i.path ∧ '[' ∉ i.path
  fields : ∀ field, (part i field).isSome ↔ field ∈ fieldsOf i.operation
  anchor : ∀ a ∈ i.anchor, IsTight a
  anchorEnd : ∀ a ∈ i.anchorEnd, IsTight a
  created : i.operation = .create → ∀ t ∈ i.content, ∀ c ∈ t.getLast?, isBlank c = false

theorem IsWellFormed.exists_part {i : Instruction} (h : IsWellFormed i) {field : Field}
    (hfield : field ∈ fieldsOf i.operation) : ∃ t, part i field = some t :=
  Option.isSome_iff_exists.mp ((h.fields field).mpr hfield)

/-! ## Paths -/

theorem isPathChar_of_marker? {tag : FileTag} {line path rest : Text}
    (h : marker? tag line = some (path, rest)) : ∀ c ∈ path, isPathChar c = true := by
  rw [marker?] at h
  obtain ⟨r, -, hpath⟩ := Option.bind_eq_some_iff.mp h
  obtain ⟨rfl, -⟩ := Prod.mk.inj (Option.some.inj hpath)
  exact List.all_eq_true.mp List.all_takeWhile

theorem isPathChar_of_mem_splitBlocks {tag : FileTag} {t : Text} {lineStart : Bool} {skip : Nat}
    {b : Block} (hb : b ∈ (splitBlocks tag lineStart skip t).2) : ∀ c ∈ b.path, isPathChar c = true := by
  induction t generalizing lineStart skip with
  | nil => cases lineStart <;> cases skip <;> cases hb
  | cons c t ih =>
      cases skip with
      | succ skip => exact ih hb
      | zero =>
          rw [splitBlocks] at hb
          cases hfound : if lineStart then marker? tag (c :: t) else none with
          | none =>
              rw [hfound] at hb
              exact ih hb
          | some q =>
              rw [hfound] at hb
              rcases List.mem_cons.mp hb with rfl | hb
              · have hmarker : marker? tag (c :: t) = some q := by
                  cases lineStart with
                  | false => cases hfound
                  | true => exact hfound
                exact isPathChar_of_marker? hmarker
              · exact ih hb

/-- What trimming leaves of a path is on one line and in front of any tag. -/
theorem path_chars_of_mem_blocks {tag : FileTag} {message : Text} {b : Block}
    (hb : b ∈ blocks tag message) : '\n' ∉ Text.strip b.path ∧ '[' ∉ Text.strip b.path := by
  have hchars : ∀ c ∈ Text.strip b.path, isPathChar c = true := by
    intro c hc
    obtain ⟨g, g', -, -, hsplit⟩ := Text.exists_append_strip b.path
    refine isPathChar_of_mem_splitBlocks hb c ?_
    rw [hsplit]
    simp [hc]
  exact ⟨fun h => absurd (hchars _ h) (by decide), fun h => absurd (hchars _ h) (by decide)⟩

/-! ## Fields -/

/-- A pattern captures a text for each body that it has, and for no other field. -/
theorem isSome_get_of_read? {p : Pattern} {t r : Text} {caps : Captures}
    (h : p.read? t = some (caps, r)) (field : Field) :
    (caps.get field).isSome = (p.element? field).isSome := by
  induction p generalizing t caps with
  | nil =>
      obtain ⟨rfl, -⟩ := Prod.mk.inj (Option.some.inj h)
      rw [Captures.get_empty]
      rfl
  | cons e es ih =>
      cases e with
      | tag name =>
          obtain ⟨o, r, rfl, -, hread⟩ := exists_of_read?_tag h
          exact ih hread
      | blanks =>
          obtain ⟨g, r, rfl, -, hread⟩ := exists_of_read?_blanks h
          exact ih hread
      | restOfLine =>
          obtain ⟨g, r, rfl, -, hread⟩ := exists_of_read?_restOfLine h
          exact ih hread
      | body f name =>
          rw [Pattern.read?, Option.map_eq_some_iff] at h
          obtain ⟨⟨b, caps', r'⟩, hupTo, heq⟩ := h
          obtain ⟨rfl, rfl⟩ := Prod.mk.inj heq
          obtain ⟨c, r, -, -, hread, -⟩ := exists_of_upTo hupTo
          rw [Captures.get_put, Pattern.element?]
          split
          · rfl
          · exact ih hread

theorem isSome_element?_iff (op : Operation) (field : Field) :
    ((pattern op).element? field).isSome ↔ field ∈ fieldsOf op := by
  cases op <;> cases field <;> decide

theorem isSome_of_cleanAnchor {e : BlockError} {a a' : Option Text} (h : cleanAnchor e a = .ok a') :
    a'.isSome = a.isSome := by
  cases a with
  | none =>
      obtain rfl := Except.ok.inj h
      rfl
  | some raw =>
      rw [cleanAnchor] at h
      split at h
      · cases h
      · obtain rfl := Except.ok.inj h
        rfl

theorem isTight_of_cleanAnchor {e : BlockError} {a : Option Text} {t : Text}
    (h : cleanAnchor e a = .ok (some t)) : IsTight t := by
  obtain ⟨raw, rfl, rfl⟩ := exists_of_cleanAnchor h
  refine Text.isTight_strip_of_ne_nil fun hempty => ?_
  rw [cleanAnchor, hempty] at h
  cases h

/-- Reading keeps what was captured, field by field. -/
theorem isSome_part {path body : Text} {i : Instruction} (h : readBlock path body = .ok i)
    (field : Field) : (part i field).isSome ↔ field ∈ fieldsOf i.operation := by
  obtain ⟨f, hfirst, -, hcontent, hanchor, hanchorEnd⟩ := exists_of_readBlock h
  obtain ⟨u, -, hread⟩ := exists_of_search (search_of_firstOperation hfirst)
  have hpart : (part i field).isSome = (f.captures.get field).isSome := by
    cases field with
    | content =>
        rw [part, hcontent, Option.isSome_map]
        rfl
    | anchor => exact isSome_of_cleanAnchor hanchor
    | anchorEnd => exact isSome_of_cleanAnchor hanchorEnd
  rw [hpart, isSome_get_of_read? hread field]
  exact isSome_element?_iff i.operation field

theorem isWellFormed_of_readBlock {path body : Text} {i : Instruction}
    (h : readBlock path body = .ok i) (hpath : IsTight path) (hchars : '\n' ∉ path ∧ '[' ∉ path) :
    IsWellFormed i := by
  obtain ⟨f, -, hsame, hcontent, hanchor, hanchorEnd⟩ := exists_of_readBlock h
  subst hsame
  refine ⟨hpath, hchars, isSome_part h, fun a ha => ?_, fun a ha => ?_, fun hop t ht c hc => ?_⟩
  · rw [Option.mem_def.mp ha] at hanchor
    exact isTight_of_cleanAnchor hanchor
  · rw [Option.mem_def.mp ha] at hanchorEnd
    exact isTight_of_cleanAnchor hanchorEnd
  · rw [hcontent, Option.mem_def, Option.map_eq_some_iff] at ht
    obtain ⟨raw, -, rfl⟩ := ht
    rw [cleanContent, if_pos hop] at hc
    exact Text.isBlank_getLast?_stripEnd hc

/-! ## Applying what was parsed -/

/-- The anchors that the operation searches are there, and not empty. -/
theorem IsWellFormed.anchorFor_getD {i : Instruction} (h : IsWellFormed i) {role : AnchorRole}
    (hrole : role ∈ i.operation.anchorRoles) : (i.anchorFor role).getD [] ≠ [] := by
  have hanchor : .anchor ∈ fieldsOf i.operation → i.anchor.getD [] ≠ [] := by
    intro hfield
    obtain ⟨a, ha⟩ := h.exists_part hfield
    rw [show i.anchor = some a from ha]
    exact (h.anchor a ha).ne_nil
  have hanchorEnd : .anchorEnd ∈ fieldsOf i.operation → i.anchorEnd.getD [] ≠ [] := by
    intro hfield
    obtain ⟨a, ha⟩ := h.exists_part hfield
    rw [show i.anchorEnd = some a from ha]
    exact (h.anchorEnd a ha).ne_nil
  have hfields : ∀ op, ∀ role ∈ Operation.anchorRoles op,
      (if role = .stop then Field.anchorEnd else Field.anchor) ∈ fieldsOf op := by
    intro op
    cases op <;> decide
  have hfield := hfields i.operation role hrole
  cases role with
  | only | start => exact hanchor hfield
  | stop => exact hanchorEnd hfield

/-- **An instruction that is well-formed** is not refused for an empty anchor, and not as unsupported
unless its operation is. -/
theorem IsWellFormed.apply_error {i : Instruction} (hi : IsWellFormed i) {m : Merger}
    (hsupported : i.operation ∉ m.unsupported) {base : Option Text} {e : MergeError}
    (h : m.apply i base = .error e) :
    ¬ "is empty".toList <:+ e.detail ∧ e.kind ≠ .unsupportedOperation := by
  rw [MergeError.empty_suffix_detail_iff, ne_eq, MergeError.kind_eq_unsupportedOperation_iff]
  cases Merger.apply_error h with
  | unsupported hmem => exact absurd hmem hsupported
  | emptyBase => simp
  | search hrole hsearch =>
      cases hsearch with
      | empty hempty => exact absurd hempty (hi.anchorFor_getD hrole)
      | notFound => simp
      | ambiguous => simp

/-- An operation on the whole file writes the content that the instruction has, or removes the file. -/
theorem IsWellFormed.apply_whole {i : Instruction} (hi : IsWellFormed i) {m : Merger}
    (hsupported : i.operation ∉ m.unsupported) (base : Option Text) :
    (i.operation = .create ∨ i.operation = .replace →
      ∃ t, i.content = some t ∧ m.apply i base = .ok (.written t)) ∧
    (i.operation = .deleteFile → m.apply i base = .ok .removed) := by
  have happly : i.operation.requiresAnchor = false → m.apply i base = m.perform i (base.getD []) := by
    intro hop
    rw [Merger.apply, if_neg (by simpa using hsupported), hop, Bool.false_and,
      if_neg Bool.false_ne_true]
  constructor
  · intro hop
    have hfield : .content ∈ fieldsOf i.operation := by rcases hop with hop | hop <;> simp [hop, fieldsOf]
    obtain ⟨t, ht⟩ := hi.exists_part hfield
    refine ⟨t, ht, ?_⟩
    rw [happly (by rcases hop with hop | hop <;> rw [hop] <;> rfl), Merger.perform,
      show i.content = some t from ht]
    rcases hop with hop | hop <;> rw [hop] <;> rfl
  · intro hop
    rw [happly (by rw [hop]; rfl), Merger.perform, hop]

theorem isWellFormed_of_mem_parse {tag : FileTag} {message : Text} {i : Instruction}
    (hi : i ∈ (parse tag message).instructions) : IsWellFormed i := by
  rw [instructions_parse] at hi
  obtain ⟨b, hb, hi⟩ := List.mem_flatMap.mp hi
  rw [Block.outcome] at hi
  split at hi
  · cases hi
  · rename_i hpath
    split at hi
    · cases hi
    · rename_i i' hread
      obtain rfl := List.mem_singleton.mp hi
      exact isWellFormed_of_readBlock hread (Text.isTight_strip_of_ne_nil hpath)
        (path_chars_of_mem_blocks hb)

/-- **Parsed instructions are well-formed**, whatever the message and the file tag. So applied to any text,
under every policy, none is refused because an anchor of it is empty or its operation is not supported; a new
content is always written, and a deletion always carried out. -/
theorem parse_isWellFormed (tag : FileTag) (message : Text) {i : Instruction}
    (hi : i ∈ (parse tag message).instructions) :
    IsWellFormed i ∧
      (∀ policy base e, ({ policy } : Merger).apply i base = .error e →
        ¬ "is empty".toList <:+ e.detail ∧ e.kind ≠ .unsupportedOperation) ∧
      ∀ policy base,
        (i.operation = .create ∨ i.operation = .replace →
          ∃ t, i.content = some t ∧ ({ policy } : Merger).apply i base = .ok (.written t)) ∧
        (i.operation = .deleteFile → ({ policy } : Merger).apply i base = .ok .removed) := by
  have hwell := isWellFormed_of_mem_parse hi
  refine ⟨hwell, fun policy base e h => ?_, fun policy base => ?_⟩
  · exact hwell.apply_error List.not_mem_nil h
  · exact hwell.apply_whole List.not_mem_nil base

/-- Two blocks with blanks to be trimmed. -/
def untrimmedMessage : Text :=
  "[FILE] a.txt \n[INSERT_AFTER] [ANCHOR]\n one\n[/ANCHOR]\n[CONTENT]new[/CONTENT]\n".toList ++
    "[file] b.txt\t[CREATE]\n text \n\n[/CREATE]".toList

/-- What the first of them asks for. -/
def trimmedInsertion : Instruction where
  path := "a.txt".toList
  operation := .insertAfter
  content := some "new".toList
  anchor := some "one".toList

/-- What the second of them asks for. -/
def trimmedCreation : Instruction where
  path := "b.txt".toList
  operation := .create
  content := some " text".toList

/-- The insertion is refused where its anchor does not stand, and the file is created. -/
theorem parse_isWellFormed_untrimmed :
    trimmedInsertion ∈ (parse .standard untrimmedMessage).instructions ∧
      IsWellFormed trimmedInsertion ∧
      (∃ e, ({ policy := .exactOnly } : Merger).apply trimmedInsertion (some "two".toList) = .error e ∧
        ¬ "is empty".toList <:+ e.detail ∧ e.kind ≠ .unsupportedOperation) ∧
    trimmedCreation ∈ (parse .standard untrimmedMessage).instructions ∧
      IsWellFormed trimmedCreation ∧
      ({ policy := .exactOnly } : Merger).apply trimmedCreation none =
        .ok (.written " text".toList) := by
  have hinsertion : trimmedInsertion ∈ (parse .standard untrimmedMessage).instructions := by
    decide +kernel
  have hcreation : trimmedCreation ∈ (parse .standard untrimmedMessage).instructions := by
    decide +kernel
  obtain ⟨hinserts, hrefused, -⟩ := parse_isWellFormed .standard untrimmedMessage hinsertion
  obtain ⟨hcreates, -, hwhole⟩ := parse_isWellFormed .standard untrimmedMessage hcreation
  obtain ⟨t, ht, hwritten⟩ := (hwhole .exactOnly none).1 (.inl rfl)
  cases ht
  have hfailed : ({ policy := .exactOnly } : Merger).apply trimmedInsertion (some "two".toList) =
      .error (.anchorNotFound .only) := by
    decide
  exact ⟨hinsertion, hinserts, ⟨_, hfailed, hrefused _ _ _ hfailed⟩, hcreation, hcreates, hwritten⟩

end Emend.Message
