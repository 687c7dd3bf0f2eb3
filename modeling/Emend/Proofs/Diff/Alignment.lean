import Emend.Proofs.Diff.Subsequence

/-!
# What a diff lists

`Listed` gives the rules by which a list of diff lines follows the common lines through the two
texts. Each rule takes a line that is there. `listed_alongCommon` says that the walk obeys the rules
as long as the common lines are a subsequence of both sides, and every law of a diff is an induction
over the rules.

`Reads` is the same walk on lists that may have run out: it takes whatever stands at their heads, so
a rule of it can list a line without a text. A derivation of `Listed` is one of `Reads` in which that
never happens.
-/

namespace Emend.Diff

/-! ## The rules of the walk -/

/-- The diff lines that list `old` and `new` along `keep`, numbered from `i` and `j`. -/
inductive Listed : (i j : Int) → (keep old new : List Text) → List Line → Prop
  | done {i j : Int} : Listed i j [] [] [] []
  | unchanged {i j : Int} {c : Text} {keep old new : List Text} {ls : List Line} :
      Listed (i + 1) (j + 1) keep old new ls →
      Listed i j (c :: keep) (c :: old) (c :: new) (⟨.unchanged, c, some i, some j⟩ :: ls)
  | removed {i j : Int} {o : Text} {keep old new : List Text} {ls : List Line} :
      keep.head? ≠ some o → Listed (i + 1) j keep old new ls →
      Listed i j keep (o :: old) new (⟨.removed, o, some i, none⟩ :: ls)
  | added {i j : Int} {n : Text} {keep old new : List Text} {ls : List Line} :
      old.head? = keep.head? → keep.head? ≠ some n → Listed i (j + 1) keep old new ls →
      Listed i j keep old (n :: new) (⟨.added, n, none, some j⟩ :: ls)

/-- The walk obeys the rules while the common lines are embedded in what is left of both sides. -/
theorem listed_alongCommon (i j : Int) {keep old new : List Text}
    (hold : keep.Sublist old) (hnew : keep.Sublist new) :
    Listed i j keep old new (alongCommon i j keep old new) := by
  induction i, j, keep, old, new using alongCommon.induct with
  | case1 i j c keep o old n new h ih =>
      obtain ⟨rfl, rfl⟩ := h
      rw [alongCommon, if_pos ⟨rfl, rfl⟩]
      exact .unchanged (ih (List.cons_sublist_cons.mp hold) (List.cons_sublist_cons.mp hnew))
  | case2 i j c keep o old n new h hne ih =>
      rw [alongCommon, if_neg h, if_pos hne]
      refine .removed ?_ (ih (hold.of_cons_of_ne (Ne.symm hne)) hnew)
      rw [List.head?_cons]
      exact fun heq => hne (Option.some.inj heq).symm
  | case3 i j c keep o old n new h heq ih =>
      rw [not_not] at heq
      subst heq
      have hne : o ≠ n := fun heq => h ⟨rfl, heq.symm⟩
      rw [alongCommon, if_neg h, if_neg (by simp)]
      refine .added rfl ?_ (ih hold (hnew.of_cons_of_ne hne))
      rw [List.head?_cons]
      exact fun heq => hne (Option.some.inj heq)
  | case4 | case5 =>
      -- a common line is left while the new side has run out
      simp at hnew
  | case6 =>
      simp at hold
  | case7 i j o old new ih =>
      rw [alongCommon]
      exact .removed (by simp) (ih (List.nil_sublist old) (List.nil_sublist new))
  | case8 i j n new ih =>
      rw [alongCommon]
      exact .added rfl (by simp) (ih (List.nil_sublist []) (List.nil_sublist new))
  | case9 i j keep =>
      rw [List.sublist_nil.mp hold]
      simpa [alongCommon] using Listed.done

theorem listed_diff (before after : Option Text) :
    Listed 1 1 (common (linesOf before) (linesOf after)) (linesOf before) (linesOf after)
      (diff before after) :=
  listed_alongCommon 1 1 (common_sublist_left _ _) (common_sublist_right _ _)

/-! ## What the lines amount to -/

/-- The lines that stand in the old text. -/
def oldLines (ls : List Line) : List Line := ls.filter (·.kind != .added)

/-- The lines that stand in the new text. -/
def newLines (ls : List Line) : List Line := ls.filter (·.kind != .removed)

/-- The lines that stand in both texts. -/
def keptLines (ls : List Line) : List Line := ls.filter (·.kind = .unchanged)

/-- The numbers of `count` lines in a row, the first of which is `i`. -/
def numbersFrom (i : Int) : (count : Nat) → List (Option Int)
  | 0 => []
  | count + 1 => some i :: numbersFrom (i + 1) count

/-- The lines list both texts completely and in order, so they are an alignment of the two. -/
def Aligns (ls : List Line) (old new : List Text) : Prop :=
  (oldLines ls).map (·.text) = old ∧ (newLines ls).map (·.text) = new

section Listed

variable {i j : Int} {keep old new : List Text} {ls : List Line}

theorem Listed.aligns (h : Listed i j keep old new ls) : Aligns ls old new := by
  induction h with
  | done => exact ⟨rfl, rfl⟩
  | unchanged _ ih => exact ⟨by simpa [oldLines] using ih.1, by simpa [newLines] using ih.2⟩
  | removed _ _ ih => exact ⟨by simpa [oldLines] using ih.1, by simpa [newLines] using ih.2⟩
  | added _ _ _ ih => exact ⟨by simpa [oldLines] using ih.1, by simpa [newLines] using ih.2⟩

theorem Listed.keptLines (h : Listed i j keep old new ls) :
    (keptLines ls).map (·.text) = keep := by
  induction h with
  | done => rfl
  | unchanged _ ih => simpa [Diff.keptLines] using ih
  | removed _ _ ih => simpa [Diff.keptLines] using ih
  | added _ _ _ ih => simpa [Diff.keptLines] using ih

theorem Listed.oldNumbers (h : Listed i j keep old new ls) :
    (oldLines ls).map (·.oldNumber) = numbersFrom i old.length := by
  induction h with
  | done => rfl
  | unchanged _ ih => simpa [oldLines, numbersFrom] using ih
  | removed _ _ ih => simpa [oldLines, numbersFrom] using ih
  | added _ _ _ ih => simpa [oldLines, numbersFrom] using ih

theorem Listed.newNumbers (h : Listed i j keep old new ls) :
    (newLines ls).map (·.newNumber) = numbersFrom j new.length := by
  induction h with
  | done => rfl
  | unchanged _ ih => simpa [newLines, numbersFrom] using ih
  | removed _ _ ih => simpa [newLines, numbersFrom] using ih
  | added _ _ _ ih => simpa [newLines, numbersFrom] using ih

/-- A line carries the number of each text that it stands in, and no other. -/
def Line.IsNumbered (l : Line) : Prop :=
  (l.oldNumber.isSome ↔ l.kind ≠ .added) ∧ (l.newNumber.isSome ↔ l.kind ≠ .removed)

theorem Listed.isNumbered (h : Listed i j keep old new ls) : ∀ l ∈ ls, l.IsNumbered := by
  induction h with
  | done => simp
  | unchanged _ ih => simpa [Line.IsNumbered] using ih
  | removed _ _ ih => simpa [Line.IsNumbered] using ih
  | added _ _ _ ih => simpa [Line.IsNumbered] using ih

end Listed

/-! ## The walk on lists that may have run out -/

/-- A diff line whose text may be missing. -/
structure Entry where
  kind : Kind
  text : Option Text
  oldNumber : Option Int
  newNumber : Option Int

/-- The line with its text. -/
def Line.entry (l : Line) : Entry := ⟨l.kind, some l.text, l.oldNumber, l.newNumber⟩

/-- The walk by what stands at the heads of the three lists, any of which may have run out. The last
rule takes the head of the new side in every case the others leave, so also when there is none. -/
inductive Reads : (i j : Int) → (keep old new : List Text) → List Entry → Prop
  | done {i j : Int} {keep : List Text} : Reads i j keep [] [] []
  | unchanged {i j : Int} {c : Text} {keep old new : List Text} {es : List Entry} :
      keep.head? = some c → old.head? = some c → new.head? = some c →
      Reads (i + 1) (j + 1) keep.tail old.tail new.tail es →
      Reads i j keep old new (⟨.unchanged, some c, some i, some j⟩ :: es)
  | removed {i j : Int} {o : Text} {keep old new : List Text} {es : List Entry} :
      old.head? = some o → keep.head? ≠ some o → Reads (i + 1) j keep old.tail new es →
      Reads i j keep old new (⟨.removed, some o, some i, none⟩ :: es)
  | added {i j : Int} {keep old new : List Text} {es : List Entry} :
      (old ≠ [] ∨ new ≠ []) →
      (old.head? = none ∨ old.head? = keep.head?) →
      (keep.head? = none ∨ old.head? ≠ keep.head? ∨ new.head? ≠ keep.head?) →
      Reads i (j + 1) keep old new.tail es →
      Reads i j keep old new (⟨.added, new.head?, none, some j⟩ :: es)

/-- Along listed lines no text is ever missing. -/
theorem Listed.reads {i j : Int} {keep old new : List Text} {ls : List Line}
    (h : Listed i j keep old new ls) : Reads i j keep old new (ls.map Line.entry) := by
  induction h with
  | done => exact .done
  | unchanged _ ih => exact .unchanged rfl rfl rfl ih
  | removed hne _ ih => exact .removed rfl hne ih
  | @added i j n keep old new ls heq hne _ ih =>
      have hnew : (n :: new).head? ≠ keep.head? := Ne.symm hne
      exact .added (Or.inr (List.cons_ne_nil n new)) (Or.inr heq) (Or.inr (Or.inr hnew)) ih

/-! ## Conservation -/

/-- **A diff lists both texts.** Its old lines are those of the old text and its new lines those of
the new one, each in order and numbered from 1; a line carries the numbers of the texts it stands in;
and the walk that lists them never takes a line from a side that has run out. -/
theorem diff_conserves (before after : Option Text) :
    (oldLines (diff before after)).map (·.text) = linesOf before ∧
    (oldLines (diff before after)).map (·.oldNumber) = numbersFrom 1 (linesOf before).length ∧
    (newLines (diff before after)).map (·.text) = linesOf after ∧
    (newLines (diff before after)).map (·.newNumber) = numbersFrom 1 (linesOf after).length ∧
    (∀ l ∈ diff before after, l.IsNumbered) ∧
    Reads 1 1 (common (linesOf before) (linesOf after)) (linesOf before) (linesOf after)
      ((diff before after).map Line.entry) := by
  have h := listed_diff before after
  obtain ⟨hold, hnew⟩ := h.aligns
  exact ⟨hold, h.oldNumbers, hnew, h.newNumbers, h.isNumbered, h.reads⟩

end Emend.Diff
