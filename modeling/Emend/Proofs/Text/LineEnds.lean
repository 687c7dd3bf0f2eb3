import Emend.Proofs.Text.Caseless
import Emend.Proofs.Text.Hits
import Emend.Proofs.Text.Trimmed

/-!
# Two ways to end a line

A line may end in a line feed or in a carriage return and a line feed. `withReturns` takes a text of the
first kind to one of the second, `withoutReturns` back. Every offset moves by the number of lines in
front of it, and a literal text that lies on one line stands at the offsets that come of those where it
stood (`hits_withReturns`). Both characters of a line end are blank, so trimming does not tell the two
kinds apart (`strip_withReturns`).
-/

namespace Emend.Text

variable {t u p : Text} {c : Char}

/-- The text with a carriage return in front of every line feed. -/
def withReturns (t : Text) : Text := t.flatMap fun c => if c = '\n' then ['\r', '\n'] else [c]

/-- The text without the carriage returns that stand in front of a line feed. -/
def withoutReturns : Text → Text
  | [] => []
  | '\r' :: '\n' :: t => '\n' :: withoutReturns t
  | c :: t => c :: withoutReturns t

/-- The text has neither a line feed nor a carriage return. -/
def IsSingleLine (t : Text) : Prop := '\n' ∉ t ∧ '\r' ∉ t

instance (t : Text) : Decidable (IsSingleLine t) := inferInstanceAs (Decidable (_ ∧ _))

/-! ## There and back -/

theorem withReturns_feed (t : Text) : withReturns ('\n' :: t) = '\r' :: '\n' :: withReturns t := rfl

theorem withReturns_cons (hc : c ≠ '\n') (t : Text) : withReturns (c :: t) = c :: withReturns t := by
  unfold withReturns
  rw [List.flatMap_cons, if_neg hc]
  rfl

theorem withReturns_append (t u : Text) : withReturns (t ++ u) = withReturns t ++ withReturns u :=
  List.flatMap_append

theorem withReturns_of_not_mem (h : '\n' ∉ t) : withReturns t = t := by
  induction t with
  | nil => rfl
  | cons c t ih =>
      have hc : c ≠ '\n' := (List.ne_of_not_mem_cons h).symm
      rw [withReturns_cons hc, ih (List.not_mem_of_not_mem_cons h)]

theorem withReturns_eq_nil_iff : withReturns t = [] ↔ t = [] := by
  cases t with
  | nil => simp [withReturns]
  | cons c t => by_cases hc : c = '\n' <;> simp [withReturns, hc]

theorem getLast?_withReturns (t : Text) : (withReturns t).getLast? = t.getLast? := by
  rcases List.eq_nil_or_concat t with rfl | ⟨t, c, rfl⟩
  · rfl
  · by_cases hc : c = '\n' <;> simp [withReturns, hc]

theorem withoutReturns_cons (hc : c ≠ '\r') (t : Text) :
    withoutReturns (c :: t) = c :: withoutReturns t := by
  conv_lhs => unfold withoutReturns
  split <;> simp_all

theorem withoutReturns_append (h : '\r' ∉ t) (u : Text) :
    withoutReturns (t ++ u) = t ++ withoutReturns u := by
  induction t with
  | nil => rfl
  | cons c t ih =>
      have hc : c ≠ '\r' := (List.ne_of_not_mem_cons h).symm
      rw [List.cons_append, withoutReturns_cons hc, ih (List.not_mem_of_not_mem_cons h)]
      rfl

theorem withoutReturns_withReturns_append (h : '\r' ∉ t) (u : Text) :
    withoutReturns (withReturns t ++ u) = t ++ withoutReturns u := by
  induction t with
  | nil => rfl
  | cons c t ih =>
      have hrest := ih (List.not_mem_of_not_mem_cons h)
      by_cases hc : c = '\n'
      · subst hc
        rw [withReturns_feed, List.cons_append, List.cons_append, withoutReturns, hrest]
        rfl
      · have hreturn : c ≠ '\r' := (List.ne_of_not_mem_cons h).symm
        rw [withReturns_cons hc, List.cons_append, withoutReturns_cons hreturn, hrest]
        rfl

/-- What was put between two parts of a text is found between them again. -/
theorem withoutReturns_between {before content behind : Text} (hbefore : '\r' ∉ before)
    (hcontent : '\r' ∉ content) (hbehind : '\r' ∉ behind) :
    withoutReturns (withReturns before ++ content ++ withReturns behind) =
      before ++ content ++ behind := by
  have hend : withoutReturns (withReturns behind) = behind := by
    have hback := withoutReturns_withReturns_append hbehind []
    rwa [List.append_nil, withoutReturns, List.append_nil] at hback
  rw [List.append_assoc, withoutReturns_withReturns_append hbefore, withoutReturns_append hcontent,
    hend, List.append_assoc]

/-! ## Trimming -/

/-- What is dropped from the front is the same if both characters of a line end are treated alike. -/
theorem dropWhile_withReturns {p : Char → Bool} (hp : p '\r' = p '\n') (t : Text) :
    (withReturns t).dropWhile p = withReturns (t.dropWhile p) := by
  induction t with
  | nil => rfl
  | cons c t ih =>
      by_cases hc : c = '\n'
      · subst hc
        rw [withReturns_feed]
        cases hfeed : p '\n' with
        | true => simp [hp, hfeed, ih]
        | false => simp [hp, hfeed, withReturns_feed]
      · rw [withReturns_cons hc]
        cases hpc : p c with
        | true => simp [hpc, ih]
        | false => simp [hpc, withReturns_cons hc]

theorem stripStart_withReturns (t : Text) : stripStart (withReturns t) = withReturns (stripStart t) :=
  dropWhile_withReturns (by decide) t

theorem stripEnd_withReturns (t : Text) : stripEnd (withReturns t) = withReturns (stripEnd t) := by
  -- from the end of the text: what is blank there goes, and the rest stays from the first that is not
  induction t using List.reverseRecOn with
  | nil => rfl
  | append_singleton t c ih =>
      rw [withReturns_append]
      by_cases hc : c = '\n'
      · subst hc
        have hreturn : withReturns ['\n'] = ['\r'] ++ ['\n'] := rfl
        rw [hreturn, ← List.append_assoc, stripEnd_append_blank (by decide),
          stripEnd_append_blank (by decide), stripEnd_append_blank (by decide), ih]
      · have hsame : withReturns [c] = [c] := withReturns_cons hc []
        rw [hsame]
        cases hblank : isBlank c with
        | true => rw [stripEnd_append_blank hblank, stripEnd_append_blank hblank, ih]
        | false =>
            have hstays : ∀ u : Text, stripEnd (u ++ [c]) = u ++ [c] := fun u => by
              simp [stripEnd, hblank]
            rw [hstays, hstays, withReturns_append, hsame]

theorem strip_withReturns (t : Text) : strip (withReturns t) = withReturns (strip t) := by
  unfold strip
  rw [stripStart_withReturns, stripEnd_withReturns]

/-! ## Matches up to case -/

/-- A pattern without line feeds that does not end in a carriage return matches both texts alike: it
cannot end between the two characters of a line end, and cannot run over them. -/
theorem afterCaseless?_withReturns {p : Text} (hfeed : fold '\n' ∉ folds p)
    (hlast : (folds p).getLast? ≠ some (fold '\r')) (t : Text) :
    afterCaseless? p (withReturns t) = (afterCaseless? p t).map withReturns := by
  have hmiss : ∀ (d : Char) (q u : Text), fold '\n' ∉ folds (d :: q) →
      afterCaseless? (d :: q) ('\n' :: u) = none := by
    intro d q u h
    apply afterCaseless?_eq_none
    intro hprefix
    exact h (by simp [(List.cons_prefix_cons.mp hprefix).1])
  induction p generalizing t with
  | nil => rfl
  | cons d p ih =>
      have hfeed' : fold '\n' ∉ folds p := fun h => hfeed (List.mem_cons_of_mem _ h)
      cases t with
      | nil => rfl
      | cons c t =>
          by_cases hc : c = '\n'
          · subst hc
            rw [withReturns_feed, hmiss d p t hfeed, afterCaseless?]
            split
            · -- the letter is a carriage return, and what has to follow it is no line feed
              rename_i hd
              cases p with
              | nil => exact absurd (by simpa [sameLetter] using hd) hlast
              | cons e p => rw [hmiss e p _ hfeed']; rfl
            · rfl
          · rw [withReturns_cons hc, afterCaseless?, afterCaseless?]
            split
            · refine ih hfeed' (fun h => hlast ?_) t
              cases p with
              | nil => simp at h
              | cons e p => rw [folds_cons, folds_cons, List.getLast?_cons_cons]; exact h
            · rfl

/-! ## Offsets -/

/-- The offset to which `n` moves. -/
def offsetWithReturns (t : Text) (n : Nat) : Nat := (withReturns (t.take n)).length

/-- The span to which `s` moves. -/
def Span.withReturns (t : Text) (s : Span) : Span :=
  ⟨offsetWithReturns t s.start, offsetWithReturns t s.stop⟩

theorem offsetWithReturns_append (t u : Text) :
    offsetWithReturns (t ++ u) t.length = (withReturns t).length := by
  unfold offsetWithReturns
  rw [List.take_left]

/-- Offsets behind a place move as in the rest of the text there. -/
theorem offsetWithReturns_add (t : Text) (n k : Nat) :
    offsetWithReturns t (n + k) = offsetWithReturns t n + offsetWithReturns (t.drop n) k := by
  unfold offsetWithReturns
  rw [List.take_add, withReturns_append, List.length_append]

theorem take_withReturns (t : Text) (n : Nat) :
    (withReturns t).take (offsetWithReturns t n) = withReturns (t.take n) := by
  conv_lhs => rw [← List.take_append_drop n t, withReturns_append, List.take_append_drop]
  exact List.take_left

theorem drop_withReturns (t : Text) (n : Nat) :
    (withReturns t).drop (offsetWithReturns t n) = withReturns (t.drop n) := by
  conv_lhs => rw [← List.take_append_drop n t, withReturns_append, List.take_append_drop]
  exact List.drop_left

/-! ## Occurrences of a literal text -/

theorem after?_eq_none_of_not_mem (hp : p ≠ []) (hc : c ∉ p) (t : Text) : after? p (c :: t) = none := by
  cases p with
  | nil => exact absurd rfl hp
  | cons d p =>
      have hne : d ≠ c := (List.ne_of_not_mem_cons hc).symm
      rw [after?, if_neg hne]

theorem after?_withReturns (hp : IsSingleLine p) (t : Text) :
    after? p (withReturns t) = (after? p t).map withReturns := by
  induction p generalizing t with
  | nil => rfl
  | cons d p ih =>
      have hrest : IsSingleLine p :=
        ⟨List.not_mem_of_not_mem_cons hp.1, List.not_mem_of_not_mem_cons hp.2⟩
      cases t with
      | nil => rfl
      | cons c t =>
          by_cases hc : c = '\n'
          · subst hc
            rw [withReturns_feed, after?_eq_none_of_not_mem (List.cons_ne_nil d p) hp.2,
              after?_eq_none_of_not_mem (List.cons_ne_nil d p) hp.1]
            rfl
          · rw [withReturns_cons hc, after?, after?]
            split
            · exact ih hrest t
            · rfl

theorem hitsFrom_withReturns (hne : p ≠ []) (hp : IsSingleLine p) (before t : Text) :
    hitsFrom (after? p) 0 (withReturns before).length (withReturns t) =
      (hitsFrom (after? p) 0 before.length t).map (Span.withReturns (before ++ t)) := by
  -- on the scan of the text, with `before` what it has passed
  induction t using scan_induction (takes_after? hne) generalizing before with
  | nil => rfl
  | miss c t hmiss ih =>
      have hnext := ih (before ++ [c])
      rw [List.length_append, List.length_singleton, List.append_assoc, List.singleton_append,
        withReturns_append, List.length_append] at hnext
      rw [hitsFrom_miss hmiss, ← hnext]
      by_cases hc : c = '\n'
      · -- both characters of the line end are missed
        subst hc
        rw [withReturns_feed, hitsFrom_miss (after?_eq_none_of_not_mem hne hp.2 _),
          hitsFrom_miss (after?_eq_none_of_not_mem hne hp.1 _)]
        rfl
      · have hmiss' : after? p (c :: withReturns t) = none := by
          rw [← withReturns_cons hc, after?_withReturns hp, hmiss]
          rfl
        rw [withReturns_cons hc, hitsFrom_miss hmiss', withReturns_cons hc]
        rfl
  | hit w rest hw hhit ih =>
      obtain rfl : w = p := List.append_cancel_right (after?_eq_some_iff.mp hhit)
      have hsame : withReturns w = w := withReturns_of_not_mem hp.1
      have hnext := ih (before ++ w)
      rw [withReturns_append, hsame, List.length_append, List.length_append, List.append_assoc] at hnext
      have hhit' : after? w (w ++ withReturns rest) = some (withReturns rest) :=
        after?_eq_some_iff.mpr rfl
      have hspan : Span.withReturns (before ++ (w ++ rest)) ⟨before.length, before.length + w.length⟩ =
          ⟨(withReturns before).length, (withReturns before).length + w.length⟩ := by
        unfold Span.withReturns
        dsimp only
        rw [offsetWithReturns_append, ← List.append_assoc, ← List.length_append,
          offsetWithReturns_append, withReturns_append, hsame, List.length_append]
      rw [withReturns_append, hsame, hitsFrom_hit hw hhit', hitsFrom_hit hw hhit, List.map_cons,
        hspan, hnext]

/-- **A text on one line stands where it stood**, at the offsets that those move to. -/
theorem hits_withReturns (hne : p ≠ []) (hp : IsSingleLine p) (t : Text) :
    hits (after? p) (withReturns t) = (hits (after? p) t).map (Span.withReturns t) :=
  hitsFrom_withReturns hne hp [] t

end Emend.Text
