import Emend.Proofs.Message.Deletion
import Emend.Proofs.Text.Hits

/-!
# Operations that are ignored

A block gives one instruction, and what else it asks for is reported by name. To look for more, the text of
the operation that counts is cut out and the rest of the block is searched again, each pattern from the left
and with bodies as short as possible.

A search finds a pattern in a text exactly if the text has a part that the pattern describes
(`isSome_search_iff`): what a greedy blank run takes too much, no tag needs, and what the rest of a line
takes too much goes to the body behind it. A part in front of the cut or behind it is still a part of what is left, so nothing that a block
spells out beside its operation is overlooked (`parse_ignored`).
-/

namespace Emend.Message

open Emend.Text (Span)

/-! ## Searching -/

/-- Some part of the text is one that asks for the operation. -/
def AsksFor (t : Text) (op : Operation) : Prop := ∃ u, u <:+: t ∧ (pattern op).Matches u

/-- **A search misses nothing:** it finds an operation exactly if some part of the text asks for it. -/
theorem isSome_search_iff {op : Operation} {t : Text} :
    ((pattern op).search t).isSome ↔ AsksFor t op := by
  constructor
  · intro h
    obtain ⟨f, hf⟩ := Option.isSome_iff_exists.mp h
    obtain ⟨w, rfl, hread⟩ := exists_of_search hf
    obtain ⟨u, rfl, hu⟩ := exists_matches_of_read? hread
    refine ⟨u, ⟨f.before, f.after, ?_⟩, hu⟩
    rw [List.append_assoc]
  · rintro ⟨u, ⟨x, y, rfl⟩, hu⟩
    have hread := isSome_read?_of_fits (fits_of_matches (regular_pattern op) hu y) fun _ he _ hq =>
      mem_tags_of_mem_pattern he hq
    rw [List.append_assoc]
    exact isSome_search hread x

/-! ## The operation of a block and what is beside it -/

/-- The part of a block that its operation is read from. -/
def operationSpan? (body : Text) : Option Span :=
  (firstOperation body).map fun q => ⟨q.2.before.length, body.length - q.2.after.length⟩

/-- The text without that part of it. -/
def without (s : Span) (t : Text) : Text := t.take s.start ++ t.drop s.stop

theorem exists_of_firstOperation {body : Text} {op : Operation} {f : Found}
    (h : firstOperation body = some (op, f)) :
    ∃ u, body = f.before ++ (u ++ f.after) ∧ (pattern op).Matches u ∧
      operationSpan? body = some ⟨f.before.length, f.before.length + u.length⟩ := by
  obtain ⟨w, hbody, hread⟩ := exists_of_search (search_of_firstOperation h)
  obtain ⟨u, rfl, hu⟩ := exists_matches_of_read? hread
  refine ⟨u, hbody, hu, ?_⟩
  have hstop : body.length - f.after.length = f.before.length + u.length := by
    rw [hbody, List.length_append, List.length_append]
    omega
  rw [operationSpan?, h, Option.map_some, hstop]

theorem mem_extraOperations_iff {body : Text} {s : Span} (h : operationSpan? body = some s)
    {op : Operation} : op ∈ extraOperations body ↔ AsksFor (without s body) op := by
  obtain ⟨⟨op', f⟩, hfirst, -⟩ := Option.map_eq_some_iff.mp h
  obtain ⟨u, hbody, -, hspan⟩ := exists_of_firstOperation hfirst
  obtain rfl := Option.some.inj (hspan.symm.trans h)
  have hrest : without ⟨f.before.length, f.before.length + u.length⟩ body = f.before ++ f.after := by
    have hlength : f.before.length + u.length = (f.before ++ u).length := List.length_append.symm
    rw [without, hlength, hbody, List.take_left, ← List.append_assoc, List.drop_left]
  rw [extraOperations, hfirst, hrest, ← isSome_search_iff]
  simp [mem_precedence]

/-- The block asks for the operation with a part that has nothing in common with that span. -/
def AsksBeside (body : Text) (s : Span) (op : Operation) : Prop :=
  ∃ part : Span, part.IsApart s ∧ (pattern op).Matches (part.slice body)

/-- What is beside a span is still there when the span is cut out. -/
theorem AsksBeside.asksFor {body : Text} {s : Span} {op : Operation} (h : AsksBeside body s op) :
    AsksFor (without s body) op := by
  obtain ⟨part, hbefore | hbehind, hmatches⟩ := h
  · have hfront := Text.slice_infix_take hbefore body
    exact ⟨_, List.infix_append_of_infix_left hfront, hmatches⟩
  · have hback := Text.slice_infix_drop hbehind body
    exact ⟨_, List.infix_append_of_infix_right hback, hmatches⟩

theorem extraOperations_sublist (body : Text) : (extraOperations body).Sublist precedence := by
  rw [extraOperations]
  split
  · exact List.nil_sublist _
  · exact List.filter_sublist

theorem nodup_precedence : precedence.Nodup := by decide

/-- A message gives what its blocks give, one after the other. -/
theorem parse_of_blocks {tag : FileTag} {message : Text} {bs bs' : List Block} {b : Block}
    (h : blocks tag message = bs ++ b :: bs') :
    parse tag message =
      outcomeFrom 1 bs ++ (b.outcome (bs.length + 1) ++ outcomeFrom (bs.length + 2) bs') := by
  have hne : blocks tag message ≠ [] := by simp [h]
  rw [parse_of_blocks_ne_nil hne, h, outcomeFrom_append, outcomeFrom, Nat.add_comm 1 bs.length]

/-- The error that names operations which a block asks for in vain. -/
def ignoredError (path : Text) (ops : List Operation) : ParseError where
  context := .file path
  message := "ignored extra operation(s): ".toList ++
    Text.joinWith ", ".toList (ops.map (·.name.toList))

theorem ignoredOperations_of_ne_nil {ops : List Operation} (h : ops ≠ []) (path : Text) :
    ignoredOperations path ops = [ignoredError path ops] := by
  cases ops with
  | nil => exact absurd rfl h
  | cons op ops => rfl

/-- **No operation is dropped in silence.** A block with a path whose instruction is read from the span `s`,
and which asks for an operation beside that span, gives its instruction and exactly one error. The error names
every operation that the block asks for beside the span, each once and in the order of precedence; they are
those that the text without the span asks for. -/
theorem parse_ignored {tag : FileTag} {message : Text} {bs bs' : List Block} {b : Block}
    {i : Instruction} {s : Span} (hblocks : blocks tag message = bs ++ b :: bs')
    (hpath : Text.strip b.path ≠ []) (hread : readBlock (Text.strip b.path) b.body = .ok i)
    (hspan : operationSpan? b.body = some s) :
    (pattern i.operation).Matches (s.slice b.body) ∧
      ((∃ op, AsksBeside b.body s op) →
        ∃ ops : List Operation, (∀ op, AsksBeside b.body s op → op ∈ ops) ∧
          (∀ op, op ∈ ops ↔ AsksFor (without s b.body) op) ∧
          ops.Sublist precedence ∧ ops.Nodup ∧
          parse tag message =
            outcomeFrom 1 bs ++ (⟨[i], [ignoredError (Text.strip b.path) ops]⟩ ++
              outcomeFrom (bs.length + 2) bs')) := by
  obtain ⟨f, hfirst, -⟩ := exists_of_readBlock hread
  obtain ⟨u, hbody, hu, hspan'⟩ := exists_of_firstOperation hfirst
  have hmem : ∀ op, op ∈ extraOperations b.body ↔ AsksFor (without s b.body) op := fun op =>
    mem_extraOperations_iff hspan
  refine ⟨?_, fun ⟨op, hop⟩ => ?_⟩
  · obtain rfl := Option.some.inj (hspan'.symm.trans hspan)
    rw [hbody, Text.slice_append]
    exact hu
  · have hall : ∀ op, AsksBeside b.body s op → op ∈ extraOperations b.body := fun op h =>
      (hmem op).mpr h.asksFor
    have hne : extraOperations b.body ≠ [] := List.ne_nil_of_mem (hall op hop)
    have hsublist := extraOperations_sublist b.body
    refine ⟨_, hall, hmem, hsublist, hsublist.nodup nodup_precedence, ?_⟩
    rw [parse_of_blocks hblocks, b.outcome_of_readBlock hpath hread, ignoredOperations_of_ne_nil hne]

/-- A block that asks for a new file between two other requests, one of them of the same kind. -/
def crowdedBody : Text :=
  "\n[REPLACE]old[/REPLACE]\n[CREATE]new[/CREATE]\n[create]newer[/create]\n".toList

/-- The block in front of that of another file. -/
def crowdedMessage : Text :=
  "[FILE] a.txt".toList ++ crowdedBody ++ "[FILE] b.txt\n[DELETE_FILE]".toList

/-- The other requests are both named, with the file in the second block still deleted. -/
theorem parse_ignored_crowded :
    blocks .standard crowdedMessage =
        [] ++ ⟨"a.txt".toList, crowdedBody⟩ :: [⟨"b.txt".toList, "\n[DELETE_FILE]".toList⟩] ∧
      readBlock "a.txt".toList crowdedBody =
        .ok { path := "a.txt".toList, operation := .create, content := some "new".toList } ∧
      operationSpan? crowdedBody = some ⟨24, 44⟩ ∧
      AsksBeside crowdedBody ⟨24, 44⟩ .replace ∧ AsksBeside crowdedBody ⟨24, 44⟩ .create ∧
      ∃ ops : List Operation, .replace ∈ ops ∧ .create ∈ ops ∧ ops.Sublist precedence ∧ ops.Nodup ∧
        parse .standard crowdedMessage =
          ⟨[{ path := "a.txt".toList, operation := .create, content := some "new".toList },
              { path := "b.txt".toList, operation := .deleteFile }],
            [ignoredError "a.txt".toList ops]⟩ := by
  have hblocks : blocks .standard crowdedMessage =
      [] ++ ⟨"a.txt".toList, crowdedBody⟩ :: [⟨"b.txt".toList, "\n[DELETE_FILE]".toList⟩] := by
    decide +kernel
  have hread : readBlock "a.txt".toList crowdedBody =
      .ok { path := "a.txt".toList, operation := .create, content := some "new".toList } := by
    decide +kernel
  have hspan : operationSpan? crowdedBody = some ⟨24, 44⟩ := by decide +kernel
  have hempty : ∀ c ∈ ([] : Text), isInlineBlank c = true := List.forall_mem_nil _
  have hreplace : AsksBeside crowdedBody ⟨24, 44⟩ .replace := by
    have hslice : (⟨1, 23⟩ : Span).slice crowdedBody =
        "[REPLACE]".toList ++ ([] ++ ([] ++ ("old".toList ++ ("[/REPLACE]".toList ++ [])))) := by
      decide +kernel
    refine ⟨⟨1, 23⟩, .inl (by decide), ?_⟩
    rw [hslice]
    exact .tag (by decide) (.restOfLine hempty (by decide) (.body (by decide) .nil))
  have hcreate : AsksBeside crowdedBody ⟨24, 44⟩ .create := by
    have hslice : (⟨45, 67⟩ : Span).slice crowdedBody =
        "[create]".toList ++ ([] ++ ([] ++ ("newer".toList ++ ("[/create]".toList ++ [])))) := by
      decide +kernel
    refine ⟨⟨45, 67⟩, .inr (by decide), ?_⟩
    rw [hslice]
    exact .tag (by decide) (.restOfLine hempty (by decide) (.body (by decide) .nil))
  have hnext : outcomeFrom 2 [⟨"b.txt".toList, "\n[DELETE_FILE]".toList⟩] =
      ⟨[{ path := "b.txt".toList, operation := .deleteFile }], []⟩ := by
    decide +kernel
  obtain ⟨-, hignored⟩ := parse_ignored hblocks (by decide) hread hspan
  obtain ⟨ops, hnamed, -, hsublist, hnodup, hparse⟩ := hignored ⟨_, hreplace⟩
  refine ⟨hblocks, hread, hspan, hreplace, hcreate, ops, hnamed _ hreplace, hnamed _ hcreate, hsublist,
    hnodup, ?_⟩
  rw [hparse, List.length_nil, hnext]
  rfl

end Emend.Message
