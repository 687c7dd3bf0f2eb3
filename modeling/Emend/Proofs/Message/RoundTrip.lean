import Emend.Proofs.Message.Blocks
import Emend.Proofs.Message.Written

/-!
# Reading what was written

A written block gives back its instruction and nothing else: only its own operation can be found in it
(`WrittenRequest.firstOperation`), none is left when that one is cut out, and cleaning what was
captured leaves the texts of the instruction. A written message falls into the blocks it was put
together from, so that parsing gives back the instructions in order and no error
(`parse_written`).
-/

namespace Emend.Message

open Emend.Text (OccursIn folds isBlank allBlank)

/-! ## The operation of a block -/

theorem findSome?_of_unique {α β : Type} {f : α → Option β} {l : List α} {a : α} {b : β}
    (hmem : a ∈ l) (ha : f a = some b) (hother : ∀ x ∈ l, x ≠ a → f x = none) :
    l.findSome? f = some b := by
  induction l with
  | nil => cases hmem
  | cons x l ih =>
      by_cases hx : x = a
      · rw [hx, List.findSome?_cons_of_isSome (by simp [ha]), ha]
      · have hmem' : a ∈ l := (List.mem_cons.mp hmem).resolve_left (Ne.symm hx)
        rw [List.findSome?_cons, hother x List.mem_cons_self hx]
        exact ih hmem' fun y hy => hother y (List.mem_cons_of_mem _ hy)

theorem openTag_requestName_inj {a b : Operation}
    (h : openTag (requestName a) = openTag (requestName b)) : a = b := by
  revert h
  cases a <;> cases b <;> decide

theorem search_pattern_eq_none {op : Operation} {t : Text}
    (h : ¬ OccursIn (openTag (requestName op)) t) : (pattern op).search t = none := by
  rw [pattern_eq_cons]
  exact search_eq_none h _

theorem occursIn_blank_right {p a g : Text} (hp : p ∈ tags) (hg : allBlank g = true)
    (h : OccursIn p (a ++ g)) : OccursIn p a := by
  have hb : Breaks g := by
    have hb := breaks_blank_append hg breaks_nil
    rwa [List.append_nil] at hb
  exact (occursIn_append hp hb h).resolve_right (not_occursIn_blank hp hg)

/-- A block asks for the operation that was written, whatever blank text follows. -/
theorem WrittenRequest.firstOperation {i : Instruction} {r tail : Text} (h : WrittenRequest i r)
    (hi : Writable i) (htail : allBlank tail = true) :
    ∃ w, WrittenEnd (requestName i.operation) w ∧
      firstOperation ('\n' :: (r ++ tail)) =
        some (i.operation, ⟨['\n'], capturesOf i, w ++ tail⟩) := by
  obtain ⟨w, hw, hread⟩ := h.read hi tail
  refine ⟨w, hw, findSome?_of_unique (mem_precedence i.operation) ?_ ?_⟩
  · rw [pattern_eq_cons] at hread ⊢
    rw [search_newline hread]
    rfl
  · intro op _ hne
    -- the pattern of another operation misses its first tag
    have hp := openTag_mem_startTags op
    have htag := mem_tags_of_mem_startTags hp
    have hno : ¬ OccursIn (openTag (requestName op)) ('\n' :: (r ++ tail)) := by
      refine not_occursIn_newline_cons htag fun hocc => hne ?_
      have heq := h.eq_openTag hi hp (occursIn_blank_right htag htail hocc)
      exact openTag_requestName_inj heq
    rw [search_pattern_eq_none hno]
    rfl

/-- Nothing is asked for besides. -/
theorem WrittenRequest.extraOperations {i : Instruction} {r tail : Text} (h : WrittenRequest i r)
    (hi : Writable i) (htail : allBlank tail = true) :
    extraOperations ('\n' :: (r ++ tail)) = [] := by
  obtain ⟨w, hw, hfirst⟩ := h.firstOperation hi htail
  rw [Message.extraOperations, hfirst]
  refine List.filter_eq_nil_iff.mpr fun op _ => ?_
  have hp := openTag_mem_startTags op
  have htag := mem_tags_of_mem_startTags hp
  have hno : ¬ OccursIn (openTag (requestName op)) (['\n'] ++ (w ++ tail)) := by
    refine not_occursIn_newline_cons htag fun hocc => ?_
    exact hw.not_occursIn (requestName_mem _) hp (occursIn_blank_right htag htail hocc)
  rw [search_pattern_eq_none hno]
  simp

/-! ## The texts of a block -/

theorem cleanAnchor_onLines (e : BlockError) {a : Option Text}
    (h : ∀ t ∈ a, t ≠ [] ∧ Text.strip t = t) : cleanAnchor e (a.map onLines) = .ok a := by
  cases a with
  | none => rfl
  | some t =>
      obtain ⟨hne, hstrip⟩ := h t rfl
      have hclean : Text.strip (onLines t) = t := Text.strip_on_lines hne hstrip
      rw [Option.map_some, cleanAnchor, hclean]
      cases t with
      | nil => exact absurd rfl hne
      | cons c t => rfl

theorem dropClosingLineEnd_newline {t : Text} (h : t.getLast? ≠ some '\r') :
    dropClosingLineEnd (t ++ ['\n']) = t := by
  rw [dropClosingLineEnd, List.reverse_append, List.reverse_singleton, List.singleton_append]
  split
  · rename_i r heq
    obtain ⟨_, hr⟩ := List.cons.inj heq
    rw [List.reverse_eq_iff] at hr
    exact absurd (by rw [hr]; simp) h
  · rename_i r _ heq
    obtain ⟨_, rfl⟩ := List.cons.inj heq
    exact List.reverse_reverse t
  · rename_i hno
    exact absurd rfl (hno t.reverse)

theorem cleanContent_newline {op : Operation} {t : Text}
    (hcreate : op = .create → Text.stripEnd t = t)
    (hother : op ≠ .create → t.getLast? ≠ some '\r') : cleanContent op (t ++ ['\n']) = t := by
  rw [cleanContent]
  split
  · rename_i hop
    rw [Text.stripEnd_append_blank (by decide)]
    exact hcreate hop
  · rename_i hop
    exact dropClosingLineEnd_newline (hother hop)

theorem Writable.cleanContent {i : Instruction} (hi : Writable i) :
    (capturesOf i).content.map (cleanContent i.operation) = i.content := by
  rw [capturesOf, Option.map_map]
  cases hc : i.content with
  | none => rfl
  | some t =>
      have hclean : Message.cleanContent i.operation (t ++ ['\n']) = t :=
        cleanContent_newline (fun hop => hi.created hop t hc) fun hop => hi.content hop t hc
      rw [Option.map_some, Function.comp_apply, hclean]

theorem WrittenRequest.mode_eq_none {i : Instruction} {r : Text} (h : WrittenRequest i r) :
    i.mode = none := by
  cases h <;> rfl

/-- **A written block is read back.** -/
theorem WrittenRequest.readBlock {i : Instruction} {r tail : Text} (h : WrittenRequest i r)
    (hi : Writable i) (htail : allBlank tail = true) :
    readBlock i.path ('\n' :: (r ++ tail)) = .ok i := by
  obtain ⟨w, _, hfirst⟩ := h.firstOperation hi htail
  have hanchor : cleanAnchor .emptyAnchor (capturesOf i).anchor = .ok i.anchor :=
    cleanAnchor_onLines _ hi.anchor
  have hend : cleanAnchor .emptyEndAnchor (capturesOf i).anchorEnd = .ok i.anchorEnd :=
    cleanAnchor_onLines _ hi.anchorEnd
  have hmode := h.mode_eq_none
  simp only [Message.readBlock, hfirst, hanchor, hend, hi.cleanContent, bind, Except.bind, pure,
    Except.pure]
  rw [← hmode]

theorem WrittenRequest.outcome {i : Instruction} {r tail : Text} (h : WrittenRequest i r)
    (hi : Writable i) (htail : allBlank tail = true) (number : Nat) :
    Block.outcome number ⟨i.path, '\n' :: (r ++ tail)⟩ = ⟨[i], []⟩ := by
  rw [Block.outcome, hi.strip_path]
  split
  · rename_i hnil
    exact absurd hnil hi.path_ne_nil
  · simp only [h.readBlock hi htail, h.extraOperations hi htail, ignoredOperations]

/-! ## The blocks of a message -/

/-- A written block at the start of a message is cut off with the text up to the next one. -/
theorem WrittenBlock.splitBlocks {i : Instruction} {t : Text} (h : WrittenBlock i t)
    (hi : Writable i) (rest : Text) :
    ∃ r b, WrittenRequest i r ∧
      splitBlocks .standard true 0 (t ++ rest) =
        ([], ⟨i.path, (splitBlocks .standard b 0 ('\n' :: (r ++ rest))).1⟩ ::
          (splitBlocks .standard b 0 ('\n' :: (r ++ rest))).2) := by
  obtain @⟨f, r, hf, hr⟩ := h
  obtain ⟨c, f', rfl, hc⟩ := hf.exists_cons fileTag_mem_tags
  have hhead : ∀ d ∈ (c :: f').head?, isInlineBlank d = false := by
    intro d hd
    rw [List.head?_cons, Option.mem_some_iff] at hd
    subst hd
    rw [Bool.eq_false_iff]
    exact fun hb => fold_bracket_ne_blank hc (isBlank_of_isInlineBlank hb) rfl
  have hm := marker?_written (r := r ++ rest) hf.folds_eq hhead (by simp) hi.path_ne_nil
    hi.strip_path hi.path_chars
  have hsplit : c :: f' ++ ' ' :: (i.path ++ '\n' :: r) ++ rest =
      (c :: f' ++ ' ' :: i.path) ++ '\n' :: (r ++ rest) := by simp
  rw [show c :: f' ++ ' ' :: (i.path ++ '\n' :: (r ++ rest)) =
    (c :: f' ++ ' ' :: i.path) ++ '\n' :: (r ++ rest) by simp] at hm
  obtain ⟨b, hb⟩ := splitBlocks_marker (by simp) hm
  exact ⟨r, b, hr, by rw [hsplit, hb]⟩

theorem WrittenRequest.not_occursIn_fileTag {i : Instruction} {r : Text} (h : WrittenRequest i r)
    (hi : Writable i) : ¬ OccursIn FileTag.standard.text r := by
  intro hocc
  have heq := h.eq_openTag hi fileTag_mem_startTags hocc
  revert heq
  cases i.operation <;> decide

/-- A written message falls into blocks that give its instructions and no error. -/
theorem WrittenMessage.splitBlocks {is : List Instruction} {m : Text} (h : WrittenMessage is m)
    (his : ∀ i ∈ is, Writable i) :
    ∃ bs, splitBlocks .standard true 0 m = ([], bs) ∧ bs ≠ [] ∧
      ∀ number, outcomeFrom number bs = ⟨is, []⟩ := by
  induction h with
  | @single i t ht =>
      have hi := his i List.mem_cons_self
      obtain ⟨r, b, hr, hsplit⟩ := ht.splitBlocks hi []
      have hbody : Message.splitBlocks .standard b 0 ('\n' :: (r ++ [])) = ('\n' :: (r ++ []), []) := by
        refine splitBlocks_of_not_occursIn b ?_
        rw [List.append_nil]
        exact not_occursIn_newline_cons fileTag_mem_tags (hr.not_occursIn_fileTag hi)
      rw [List.append_nil] at hsplit
      refine ⟨_, hsplit, List.cons_ne_nil _ _, fun number => ?_⟩
      rw [hbody, outcomeFrom, hr.outcome hi rfl]
      rfl
  | @cons i is t m ht hm ih =>
      have hi := his i List.mem_cons_self
      obtain ⟨bs, hbs, _, hout⟩ := ih fun j hj => his j (List.mem_cons_of_mem _ hj)
      obtain ⟨r, b, hr, hsplit⟩ := ht.splitBlocks hi ('\n' :: m)
      have hbody : Message.splitBlocks .standard b 0 ('\n' :: (r ++ '\n' :: m)) =
          ('\n' :: (r ++ ['\n']), bs) := by
        have hno := not_occursIn_newline_cons fileTag_mem_tags (hr.not_occursIn_fileTag hi)
        have happend := splitBlocks_append standard_isInline b hno m
        rw [List.cons_append] at happend
        rw [happend, hbs]
        rfl
      refine ⟨_, hsplit, List.cons_ne_nil _ _, fun number => ?_⟩
      rw [hbody, outcomeFrom, hr.outcome hi (by decide), hout]
      rfl

/-- **Parsing gives back what was written:** the instructions in order, and no error. -/
theorem parse_written {is : List Instruction} {m : Text} (h : WrittenMessage is m)
    (his : ∀ i ∈ is, Writable i) : parse .standard m = ⟨is, []⟩ := by
  obtain ⟨bs, hbs, hne, hout⟩ := h.splitBlocks his
  rw [parse, blocks, hbs]
  cases bs with
  | nil => exact absurd rfl hne
  | cons b bs => exact hout 1

/-! ## A written message -/

/-- An insertion whose content is indented and has blank lines at both ends. -/
def sampleInsertion : Instruction where
  path := "src/a b.py".toList
  operation := .insertAfter
  content := some "\n  x = [1]\n".toList
  anchor := some "import os".toList

/-- The deletion of another file. -/
def sampleDeletion : Instruction where
  path := "old.txt".toList
  operation := .deleteFile

/-- The two instructions in one message, with tags in mixed case. -/
def sampleMessage : Text :=
  "[File] src/a b.py\n[Insert_AFTER]\n[ANCHOR]\nimport os\n[/anchor]\n".toList ++
    "[CONTENT]\n\n  x = [1]\n\n[/Content]\n[/INSERT_after]\n".toList ++
    "[FILE] old.txt\n[delete_File]".toList

theorem writable_sampleInsertion : Writable sampleInsertion where
  path_ne_nil := by decide
  strip_path := by decide
  path_chars := by decide
  anchor := by decide
  anchorEnd := by decide
  created := by decide
  content := by decide
  tagless := by
    rintro t (h | h | h)
    · cases h
      decide +kernel
    · cases h
      decide +kernel
    · cases h

theorem writable_sampleDeletion : Writable sampleDeletion where
  path_ne_nil := by decide
  strip_path := by decide
  path_chars := by decide
  anchor := by decide
  anchorEnd := by decide
  created := by decide
  content := by decide
  tagless := by
    rintro t (h | h | h) <;> cases h

theorem written_sampleMessage :
    WrittenMessage [sampleInsertion, sampleDeletion] sampleMessage := by
  have hanchor : WrittenElement "ANCHOR" "import os".toList _ :=
    .intro (o := "[ANCHOR]".toList) (c := "[/anchor]".toList) (by decide) (by decide)
  have hcontent : WrittenElement "CONTENT" "\n  x = [1]\n".toList _ :=
    .intro (o := "[CONTENT]".toList) (c := "[/Content]".toList) (by decide) (by decide)
  have hend : WrittenEnd "INSERT_AFTER" _ :=
    .closed (g := ['\n']) (c := "[/INSERT_after]".toList) (by decide) (by decide)
  have hinsert : WrittenRequest sampleInsertion _ :=
    .insertAfter (.intro (o := "[Insert_AFTER]".toList) (by decide)
      (.cons (g := ['\n']) (by decide) hanchor (.cons (g := ['\n']) (by decide) hcontent .nil)) hend)
  have hdelete : WrittenRequest sampleDeletion "[delete_File]".toList := .deleteFile (by decide)
  have hmessage : WrittenMessage [sampleInsertion, sampleDeletion] _ :=
    .cons (.intro (f := "[File]".toList) (by decide) hinsert)
      (.single (.intro (f := "[FILE]".toList) (by decide) hdelete))
  refine Eq.subst (motive := WrittenMessage [sampleInsertion, sampleDeletion]) ?_ hmessage
  decide +kernel

theorem parse_sampleMessage :
    WrittenMessage [sampleInsertion, sampleDeletion] sampleMessage ∧
    (∀ i ∈ [sampleInsertion, sampleDeletion], Writable i) ∧
    parse .standard sampleMessage = ⟨[sampleInsertion, sampleDeletion], []⟩ := by
  have his : ∀ i ∈ [sampleInsertion, sampleDeletion], Writable i := by
    simp [writable_sampleInsertion, writable_sampleDeletion]
  exact ⟨written_sampleMessage, his, parse_written written_sampleMessage his⟩

end Emend.Message
