import Emend.Proofs.Message.Blocks
import Emend.Proofs.Message.Reading

/-!
# Reading a message block by block

A message can be cut before any of its markers: what stands in front of the cut and what stands behind
it are read apart, and the two outcomes follow each other. Only the numbers of the blocks behind the cut
have to be counted on.

The reason is that the scan for markers starts afresh with each line. A marker ends with its line, so
whether one starts a line hangs on that line alone (`marker?_append`), and a scan that is restarted at a
marker finds the markers that the scan of the whole message finds from there on
(`splitBlocks_append_marker`, `exists_cut_of_markersFrom`).
-/

namespace Emend.Message

open Emend.Text (folds fold)

/-! ## Tags on one line -/

/-- No other character counts as a line feed. -/
theorem fold_eq_fold_newline_iff {c : Char} : fold c = fold '\n' ↔ c = '\n' := by
  refine ⟨fun h => ?_, fun h => by rw [h]⟩
  have hruns : ∀ r ∈ Text.caseRuns, 10 < (r.first : Int) + r.shift := by decide +kernel
  have hshared : ∀ p ∈ Text.sharedCase, 10 < p.2 := by decide +kernel
  have hnewline : fold '\n' = 10 := by decide +kernel
  rw [hnewline, fold, Text.foldCode] at h
  -- no letter is folded to 10, so the code point is its own lower case
  have hlower : Text.lowerCode c.toNat = 10 := by
    cases hfind : Text.sharedCase.lookup (Text.lowerCode c.toNat) with
    | none => simpa [hfind] using h
    | some n =>
        obtain ⟨before, after, hsplit, -⟩ := List.lookup_eq_some_iff.mp hfind
        have hn : 10 < n := hshared (Text.lowerCode c.toNat, n) (by rw [hsplit]; simp)
        simp only [hfind, Option.getD_some] at h
        omega
  have hcode : c.toNat = 10 := by
    rw [Text.lowerCode] at hlower
    split at hlower
    · split at hlower
      · rename_i hupper
        simp only [Bool.and_eq_true, decide_eq_true_eq] at hupper
        omega
      · exact hlower
    · split at hlower
      · -- the small letters of a run all lie above 10
        rename_i r hfind
        have hr := hruns r (List.mem_of_find?_eq_some hfind)
        have hcovers := List.find?_some hfind
        simp only [Text.CaseRun.covers, Bool.and_eq_true, decide_eq_true_eq] at hcovers
        omega
      · exact hlower
  exact Char.toNat_inj.mp (hcode.trans (by decide))

theorem FileTag.isInline_iff {tag : FileTag} : tag.IsInline ↔ '\n' ∉ tag.name := by
  have hname : '\n' ∈ tag.text ↔ '\n' ∈ tag.name := by simp [FileTag.text]
  rw [FileTag.IsInline, ← hname, folds, List.mem_map]
  simp [fold_eq_fold_newline_iff]

/-! ## Markers and lines -/

theorem takeWhile_append_stop {α : Type} {p : α → Bool} (u : List α) {c : α} (hc : p c = false)
    (m : List α) : (u ++ c :: m).takeWhile p = u.takeWhile p := by
  induction u with
  | nil => simp [hc]
  | cons d u ih => simp only [List.cons_append, List.takeWhile_cons, ih]

theorem dropWhile_append_stop {α : Type} {p : α → Bool} (u : List α) {c : α} (hc : p c = false)
    (m : List α) : (u ++ c :: m).dropWhile p = u.dropWhile p ++ c :: m := by
  induction u with
  | nil => simp [hc]
  | cons d u ih =>
      simp only [List.cons_append, List.dropWhile_cons, ih]
      split <;> rfl

/-- What follows a line feed plays no part in a marker before it. -/
theorem marker?_append_newline {tag : FileTag} (htag : tag.IsInline) (u m : Text) :
    marker? tag (u ++ '\n' :: m) = (marker? tag u).map fun q => (q.1, q.2 ++ '\n' :: m) := by
  have hpath : isPathChar '\n' = false := by decide
  simp only [marker?, show ∀ n : Text, '[' :: n ++ [']'] = (FileTag.mk n).text from fun _ => rfl]
  rw [skipInlineBlanks_newline]
  cases hafter : Text.afterCaseless? tag.text (skipInlineBlanks u) with
  | some r =>
      obtain ⟨w, hw, hfolds⟩ := Text.afterCaseless?_eq_some_iff.mp hafter
      rw [hw, List.append_assoc, Text.afterCaseless?_of_folds hfolds]
      simp only [Option.bind_eq_bind, Option.bind_some, Option.map_some, Option.pure_def,
        skipInlineBlanks_newline, takeWhile_append_stop _ hpath, dropWhile_append_stop _ hpath]
  | none =>
      -- a tag that began here would have to run over the line feed
      have hnone : Text.afterCaseless? tag.text (skipInlineBlanks u ++ '\n' :: m) = none := by
        refine Text.afterCaseless?_eq_none fun hprefix => ?_
        rw [Text.folds_append, Text.folds_cons] at hprefix
        have hline := Text.prefix_of_prefix_append_cons htag hprefix
        obtain ⟨r, hr⟩ := Text.exists_afterCaseless? hline
        rw [hr] at hafter
        cases hafter
      rw [hnone]
      rfl

theorem marker?_append {tag : FileTag} (htag : tag.IsInline) {v : Text} (hv : v.getLast? = some '\n')
    (m : Text) : marker? tag (v ++ m) = (marker? tag v).map fun q => (q.1, q.2 ++ m) := by
  obtain ⟨u, rfl⟩ := List.getLast?_eq_some_iff.mp hv
  rw [List.append_assoc, List.singleton_append, marker?_append_newline htag,
    marker?_append_newline htag u [], Option.map_map]
  refine congrArg (fun f => (marker? tag u).map f) (funext fun q => ?_)
  simp

/-! ## Where markers start -/

/-- The offsets at which markers start, found from the left. The flag tells whether the text begins at
the start of a line; its first `skip` characters belong to a marker that was found before, and it starts
at `offset`. -/
def markersFrom (tag : FileTag) : (lineStart : Bool) → (skip offset : Nat) → Text → List Nat
  | _, _, _, [] => []
  | _, skip + 1, offset, c :: t => markersFrom tag (c = '\n') skip (offset + 1) t
  | lineStart, 0, offset, c :: t =>
    match if lineStart then marker? tag (c :: t) else none with
    | some (_, rest) =>
      offset :: markersFrom tag (c = '\n') (t.length - rest.length) (offset + 1) t
    | none => markersFrom tag (c = '\n') 0 (offset + 1) t

/-- The offsets in a message at which its markers start. -/
def markerStarts (tag : FileTag) (message : Text) : List Nat := markersFrom tag true 0 0 message

/-- A line starts behind the text, if `lineStart` tells whether one starts before it. -/
def startsLine : (lineStart : Bool) → Text → Bool
  | lineStart, [] => lineStart
  | _, c :: v => startsLine (c = '\n') v

/-- A text behind which a line starts ends with a line feed. -/
theorem getLast?_of_startsLine (b : Bool) {c : Char} {v : Text} (h : startsLine b (c :: v) = true) :
    (c :: v).getLast? = some '\n' := by
  induction v generalizing b c with
  | nil =>
      have hc : c = '\n' := of_decide_eq_true h
      rw [hc, List.getLast?_singleton]
  | cons d v ih =>
      rw [List.getLast?_cons_cons]
      exact ih (c = '\n') h

/-- Whether a marker starts here is seen without what follows the line, and so is where it ends. -/
theorem markerHere_append {tag : FileTag} (htag : tag.IsInline) (b : Bool) {c : Char} {v : Text}
    (hline : (c :: v).getLast? = some '\n') (m : Text) :
    (if b then marker? tag (c :: (v ++ m)) else none) =
      (if b then marker? tag (c :: v) else none).map fun q => (q.1, q.2 ++ m) := by
  cases b with
  | false => rfl
  | true => exact marker?_append htag hline m

theorem length_append_sub_append (v r m : Text) :
    (v ++ m).length - (r ++ m).length = v.length - r.length := by
  simp only [List.length_append]
  omega

/-- Text that starts with a marker leaves nothing to the body under way. -/
theorem splitBlocks_of_isSome {tag : FileTag} {m : Text} (hm : (marker? tag m).isSome) :
    (splitBlocks tag true 0 m).1 = [] := by
  cases m with
  | nil => rfl
  | cons c m =>
      obtain ⟨q, hq⟩ := Option.isSome_iff_exists.mp hm
      rw [splitBlocks, if_pos rfl, hq]

/-- **A scan that is restarted at a marker goes on as it would have.** -/
theorem splitBlocks_append_marker {tag : FileTag} (htag : tag.IsInline) {m : Text}
    (hm : (marker? tag m).isSome) {v : Text} {b : Bool} {skip : Nat}
    (hv : startsLine b v = true) (hskip : skip ≤ v.length) :
    splitBlocks tag b skip (v ++ m) =
      ((splitBlocks tag b skip v).1,
        (splitBlocks tag b skip v).2 ++ (splitBlocks tag true 0 m).2) := by
  -- on the text before the marker, which the scan passes with a line start behind it
  induction v generalizing b skip with
  | nil =>
      have hzero : skip = 0 := Nat.le_zero.mp hskip
      have hline : b = true := hv
      subst hzero hline
      have hbody := splitBlocks_of_isSome hm
      rw [List.nil_append, splitBlocks, List.nil_append, ← hbody]
  | cons c v ih =>
      cases skip with
      | succ skip => exact ih hv (Nat.le_of_succ_le_succ hskip)
      | zero =>
          have htail := fun skip hskip => @ih (decide (c = '\n')) skip hv hskip
          rw [List.cons_append, splitBlocks, splitBlocks,
            markerHere_append htag b (getLast?_of_startsLine b hv)]
          cases if b then marker? tag (c :: v) else none with
          | none => simp only [Option.map_none, htail 0 (Nat.zero_le _)]
          | some q =>
              simp only [Option.map_some, length_append_sub_append, htail _ (Nat.sub_le _ _),
                List.cons_append]

/-- There is a block for each marker. -/
theorem length_markersFrom (tag : FileTag) (b : Bool) (skip offset : Nat) (t : Text) :
    (markersFrom tag b skip offset t).length = (splitBlocks tag b skip t).2.length := by
  induction t generalizing b skip offset with
  | nil => cases b <;> cases skip <;> rfl
  | cons c t ih =>
      cases skip with
      | succ skip => exact ih _ _ _
      | zero =>
          rw [markersFrom, splitBlocks]
          cases if b then marker? tag (c :: t) else none with
          | none => exact ih _ _ _
          | some q => exact congrArg (· + 1) (ih _ _ _)

/-- The text is cut at a line start where a marker stands, with as many markers before it as are
counted. -/
theorem exists_cut_of_markersFrom {tag : FileTag} (htag : tag.IsInline) {t : Text} {b : Bool}
    {skip offset k s : Nat} (h : (markersFrom tag b skip offset t)[k]? = some s) :
    ∃ v m, t = v ++ m ∧ s = offset + v.length ∧ skip ≤ v.length ∧ startsLine b v = true ∧
      (marker? tag m).isSome ∧ (splitBlocks tag b skip v).2.length = k := by
  -- on the text: each character that the scan passes comes in front of the cut in the rest
  induction t generalizing b skip offset k with
  | nil => cases b <;> cases skip <;> cases h
  | cons c t ih =>
      cases skip with
      | succ skip =>
          obtain ⟨v, m, rfl, rfl, hskip, hline, hmarker, hcount⟩ := ih h
          refine ⟨c :: v, m, rfl, ?_, Nat.succ_le_succ hskip, hline, hmarker, hcount⟩
          rw [List.length_cons]
          omega
      | zero =>
          rw [markersFrom] at h
          cases hfound : if b then marker? tag (c :: t) else none with
          | none =>
              rw [hfound] at h
              obtain ⟨v, m, rfl, rfl, -, hline, hmarker, hcount⟩ := ih h
              refine ⟨c :: v, m, rfl, ?_, Nat.zero_le _, hline, hmarker, ?_⟩
              · rw [List.length_cons]
                omega
              · rw [markerHere_append htag b (getLast?_of_startsLine b hline),
                  Option.map_eq_none_iff] at hfound
                rw [splitBlocks, hfound]
                exact hcount
          | some q =>
              rw [hfound] at h
              cases k with
              | zero =>
                  -- the marker counted is the one found here
                  have hs : offset = s := Option.some.inj h
                  cases b with
                  | false => cases hfound
                  | true =>
                      have hmarker : marker? tag (c :: t) = some q := hfound
                      exact ⟨[], c :: t, rfl, hs.symm, Nat.le_refl 0, rfl, by rw [hmarker]; rfl, rfl⟩
              | succ k =>
                  -- the marker found here is one of those in front of the cut
                  obtain ⟨v, m, rfl, rfl, hskip, hline, hmarker, hcount⟩ := ih h
                  refine ⟨c :: v, m, rfl, ?_, Nat.zero_le _, hline, hmarker, ?_⟩
                  · rw [List.length_cons]
                    omega
                  · rw [markerHere_append htag b (getLast?_of_startsLine b hline),
                      Option.map_eq_some_iff] at hfound
                    obtain ⟨q, hfound, rfl⟩ := hfound
                    rw [splitBlocks, hfound]
                    rw [length_append_sub_append] at hcount
                    exact congrArg (· + 1) hcount

/-- **The blocks of a message** are those in front of one of its markers and those from there on. -/
theorem blocks_cut {tag : FileTag} (htag : tag.IsInline) {message : Text} {k s : Nat}
    (h : (markerStarts tag message)[k]? = some s) :
    blocks tag message = blocks tag (message.take s) ++ blocks tag (message.drop s) ∧
      (blocks tag (message.take s)).length = k ∧ blocks tag (message.drop s) ≠ [] := by
  obtain ⟨v, m, rfl, rfl, -, hline, hmarker, hcount⟩ := exists_cut_of_markersFrom htag h
  have htake : (v ++ m).take (0 + v.length) = v := by simp
  have hdrop : (v ++ m).drop (0 + v.length) = m := by simp
  have hne : blocks tag m ≠ [] := by
    cases m with
    | nil => simp [marker?, skipInlineBlanks, Text.afterCaseless?] at hmarker
    | cons c m =>
        obtain ⟨q, hq⟩ := Option.isSome_iff_exists.mp hmarker
        rw [blocks, splitBlocks, if_pos rfl, hq]
        exact List.cons_ne_nil _ _
  rw [htake, hdrop]
  refine ⟨?_, hcount, hne⟩
  exact congrArg Prod.snd (splitBlocks_append_marker htag hmarker hline (Nat.zero_le _))

/-! ## What blocks give -/

/-- The context when there are `k` more blocks in front. -/
def Context.shift (k : Nat) : Context → Context
  | block number => block (number + k)
  | c => c

/-- The error when there are `k` more blocks in front. -/
def ParseError.shift (k : Nat) (e : ParseError) : ParseError := { e with context := e.context.shift k }

/-- The outcome when there are `k` more blocks in front. -/
def Outcome.shift (k : Nat) (o : Outcome) : Outcome := { o with errors := o.errors.map (·.shift k) }

@[simp] theorem Outcome.append_instructions (a b : Outcome) :
    (a ++ b).instructions = a.instructions ++ b.instructions := rfl

@[simp] theorem Outcome.append_errors (a b : Outcome) : (a ++ b).errors = a.errors ++ b.errors := rfl

theorem Outcome.append_assoc (a b c : Outcome) : a ++ b ++ c = a ++ (b ++ c) := by
  change Outcome.mk _ _ = Outcome.mk _ _
  simp

theorem Outcome.shift_append (k : Nat) (a b : Outcome) : (a ++ b).shift k = a.shift k ++ b.shift k := by
  change Outcome.mk _ _ = Outcome.mk _ _
  simp [Outcome.shift]

theorem shift_ignoredOperations (k : Nat) (path : Text) (ops : List Operation) :
    (ignoredOperations path ops).map (·.shift k) = ignoredOperations path ops := by
  cases ops <;> rfl

/-- The number of a block shows in the error about a missing path only. -/
theorem Block.outcome_add (number k : Nat) (b : Block) :
    b.outcome (number + k) = (b.outcome number).shift k := by
  rw [Block.outcome, Block.outcome]
  split
  · rfl
  · split
    · rfl
    · simp only [Outcome.shift, shift_ignoredOperations]

theorem outcomeFrom_add (number k : Nat) (bs : List Block) :
    outcomeFrom (number + k) bs = (outcomeFrom number bs).shift k := by
  induction bs generalizing number with
  | nil => rfl
  | cons b bs ih =>
      have htail : outcomeFrom (number + k + 1) bs = (outcomeFrom (number + 1) bs).shift k := by
        rw [← ih, Nat.add_right_comm]
      rw [outcomeFrom, outcomeFrom, Block.outcome_add, htail, Outcome.shift_append]

theorem outcomeFrom_append (number : Nat) (bs bs' : List Block) :
    outcomeFrom number (bs ++ bs') =
      outcomeFrom number bs ++ outcomeFrom (number + bs.length) bs' := by
  induction bs generalizing number with
  | nil => rfl
  | cons b bs ih =>
      have hnumber : number + 1 + bs.length = number + (b :: bs).length := by
        rw [List.length_cons]
        omega
      rw [List.cons_append, outcomeFrom, outcomeFrom, ih, hnumber, Outcome.append_assoc]

theorem parse_of_blocks_ne_nil {tag : FileTag} {message : Text} (h : blocks tag message ≠ []) :
    parse tag message = outcomeFrom 1 (blocks tag message) := by
  rw [parse]
  split
  · rename_i hnil
    exact absurd hnil h
  · rfl

/-- The errors that say why a block gives no instruction. -/
def blockFaults : List Text :=
  ["empty file path".toList, "no recognized operation".toList, "empty anchor".toList,
   "empty end anchor".toList]

/-- What one marker can contribute: an instruction, which may be accompanied by an error about further
operations for its file, or else one error that says why there is no instruction. -/
inductive Contribution : Outcome → Prop
  | instruction (i : Instruction) (ignored : List Operation) :
      Contribution ⟨[i], ignoredOperations i.path ignored⟩
  | fault (e : ParseError) (he : e.message ∈ blockFaults) : Contribution ⟨[], [e]⟩

theorem BlockError.message_mem_blockFaults (e : BlockError) : e.message.toList ∈ blockFaults := by
  cases e <;> decide

theorem path_of_readBlock {path body : Text} {i : Instruction} (h : readBlock path body = .ok i) :
    i.path = path := by
  obtain ⟨-, -, hpath, -⟩ := exists_of_readBlock h
  exact hpath

/-- A block with a path gives the instruction in it, and an error if it asks for more. -/
theorem Block.outcome_of_readBlock (b : Block) (hpath : Text.strip b.path ≠ []) {i : Instruction}
    (h : readBlock (Text.strip b.path) b.body = .ok i) (number : Nat) :
    b.outcome number =
      ⟨[i], ignoredOperations (Text.strip b.path) (extraOperations b.body)⟩ := by
  rw [Block.outcome]
  split
  · rename_i hempty
    exact absurd hempty hpath
  · rw [h]

theorem Block.contribution (number : Nat) (b : Block) : Contribution (b.outcome number) := by
  rw [Block.outcome]
  split
  · exact .fault ⟨.block number, _⟩ List.mem_cons_self
  · cases hread : readBlock (Text.strip b.path) b.body with
    | error e => exact .fault ⟨.file _, _⟩ e.message_mem_blockFaults
    | ok i =>
        have hpath := path_of_readBlock hread
        rw [← hpath]
        exact .instruction i (extraOperations b.body)

theorem exists_contributions (number : Nat) (bs : List Block) :
    ∃ os : List Outcome, os.length = bs.length ∧ outcomeFrom number bs = os.foldr (· ++ ·) {} ∧
      ∀ o ∈ os, Contribution o := by
  induction bs generalizing number with
  | nil => exact ⟨[], rfl, rfl, fun o ho => absurd ho List.not_mem_nil⟩
  | cons b bs ih =>
      obtain ⟨os, hlength, hjoined, hall⟩ := ih (number + 1)
      refine ⟨b.outcome number :: os, congrArg (· + 1) hlength, ?_, ?_⟩
      · rw [outcomeFrom, hjoined, List.foldr_cons]
      · intro o ho
        rcases List.mem_cons.mp ho with rfl | ho
        · exact b.contribution number
        · exact hall o ho

/-- **A message is read marker by marker.** Cut before its marker number `k`, counted from 0 and not the
first, it gives what its two parts give, the blocks of the second being counted on from `k`. Text in
front of the first marker has no effect. Each marker contributes one instruction, or one error that says
why there is none; an error about further operations only accompanies an instruction. -/
theorem parse_cut (tag : FileTag) (htag : '\n' ∉ tag.name) (message : Text) :
    (∀ k s, 1 ≤ k → (markerStarts tag message)[k]? = some s →
      parse tag message = parse tag (message.take s) ++ (parse tag (message.drop s)).shift k) ∧
    (∀ s, (markerStarts tag message)[0]? = some s → parse tag message = parse tag (message.drop s)) ∧
    (markerStarts tag message ≠ [] →
      ∃ os : List Outcome, os.length = (markerStarts tag message).length ∧
        parse tag message = os.foldr (· ++ ·) {} ∧ ∀ o ∈ os, Contribution o) := by
  have hinline := FileTag.isInline_iff.mpr htag
  refine ⟨fun k s hk hs => ?_, fun s hs => ?_, fun hne => ?_⟩
  · obtain ⟨hblocks, hcount, hbehind⟩ := blocks_cut hinline hs
    -- neither part is without blocks, so neither reports that it has none
    have hbefore : blocks tag (message.take s) ≠ [] := by
      intro hnil
      rw [hnil] at hcount
      have : k = 0 := hcount.symm
      omega
    have hall : blocks tag message ≠ [] := by
      rw [hblocks]
      exact List.append_ne_nil_of_left_ne_nil hbefore _
    rw [parse_of_blocks_ne_nil hall, parse_of_blocks_ne_nil hbefore, parse_of_blocks_ne_nil hbehind,
      hblocks, outcomeFrom_append, hcount, outcomeFrom_add]
  · obtain ⟨hblocks, hcount, hbehind⟩ := blocks_cut hinline hs
    have hbefore : blocks tag (message.take s) = [] := List.length_eq_zero_iff.mp hcount
    have hsame : blocks tag message = blocks tag (message.drop s) := by
      rw [hblocks, hbefore, List.nil_append]
    rw [parse, parse, hsame]
  · have hlength := length_markersFrom tag true 0 0 message
    have hall : blocks tag message ≠ [] := by
      intro hnil
      refine hne (List.length_eq_zero_iff.mp ?_)
      rw [markerStarts, hlength]
      exact List.length_eq_zero_iff.mpr hnil
    obtain ⟨os, hos, hjoined, hcontribution⟩ := exists_contributions 1 (blocks tag message)
    refine ⟨os, hos.trans hlength.symm, ?_, hcontribution⟩
    rw [parse_of_blocks_ne_nil hall, hjoined]

/-- Two blocks behind some text, of which the second has no path. -/
def sampleBlocks : Text := "Sure:\n[FILE] a.txt\n[DELETE_FILE]\n [file]\n[CREATE]x[/CREATE]".toList

/-- The second block is read apart from the first, and its number is counted on. -/
theorem parse_sampleBlocks :
    '\n' ∉ FileTag.standard.name ∧ markerStarts .standard sampleBlocks = [6, 33] ∧
      parse .standard sampleBlocks =
        parse .standard (sampleBlocks.take 33) ++ (parse .standard (sampleBlocks.drop 33)).shift 1 ∧
      parse .standard sampleBlocks = parse .standard (sampleBlocks.drop 6) ∧
      (∃ os : List Outcome, os.length = 2 ∧ parse .standard sampleBlocks = os.foldr (· ++ ·) {} ∧
        ∀ o ∈ os, Contribution o) ∧
      (parse .standard sampleBlocks).errors = [⟨.block 2, "empty file path".toList⟩] := by
  have hname : '\n' ∉ FileTag.standard.name := by decide
  have hstarts : markerStarts .standard sampleBlocks = [6, 33] := by decide +kernel
  obtain ⟨hcut, hfirst, hparts⟩ := parse_cut .standard hname sampleBlocks
  rw [hstarts] at hcut hfirst hparts
  exact ⟨hname, hstarts, hcut 1 33 (Nat.le_refl 1) rfl, hfirst 6 rfl, hparts (List.cons_ne_nil _ _),
    by decide +kernel⟩

/-! ## Without the blocks of one path -/

theorem instructions_outcomeFrom (number : Nat) (bs : List Block) :
    (outcomeFrom number bs).instructions = bs.flatMap fun b => (b.outcome 0).instructions := by
  induction bs generalizing number with
  | nil => rfl
  | cons b bs ih =>
      have hnumber : (b.outcome number).instructions = (b.outcome 0).instructions := by
        rw [← Nat.zero_add number, b.outcome_add 0 number]
        rfl
      rw [outcomeFrom, Outcome.append_instructions, ih, hnumber, List.flatMap_cons]

theorem instructions_parse (tag : FileTag) (message : Text) :
    (parse tag message).instructions =
      (blocks tag message).flatMap fun b => (b.outcome 0).instructions := by
  rw [parse]
  split
  · rename_i hnone
    rw [hnone]
    rfl
  · exact instructions_outcomeFrom 1 _

end Emend.Message
