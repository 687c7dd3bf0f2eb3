import Emend.Proofs.Data.Json
import Emend.Proofs.Text.Caseless
import Mathlib.Data.List.TakeDrop
import Mathlib.Data.List.TakeWhile

/-!
# JSON with more behind it

A value that is read at the front of a text is read there whatever stands behind the text, as long as
that cannot go on with a number or a word. An opening brace goes on with neither, so behind a JSON text a
record is too much, and the whole is malformed (`read_append_record`).

The reader takes its characters from the front one by one and looks at most at the one behind a number.
Each part of it is therefore shown to leave the same, with the added text behind
(`readBody_append`, `readNumber_append`, `readValue_append`).
-/

namespace Emend.Json

variable {t u : Text}

/-! ## Blanks -/

theorem skipSpace_append (h : skipSpace t ≠ []) (u : Text) : skipSpace (t ++ u) = skipSpace t ++ u := by
  unfold skipSpace at h ⊢
  rw [List.dropWhile_append, if_neg (by simpa using h)]

theorem skipSpace_append_of_nil (h : skipSpace t = []) (u : Text) :
    skipSpace (t ++ u) = skipSpace u := by
  unfold skipSpace at h ⊢
  rw [List.dropWhile_append, if_pos (by simpa using h)]

/-! ## Quoted texts -/

theorem unit?_append {n : Nat} {r : Text} (h : unit? t = some (n, r)) (u : Text) :
    unit? (t ++ u) = some (n, r ++ u) := by
  match t, h with
  | a :: b :: c :: d :: t, h =>
    have hdigits : (Text.digits? 16 [a, b, c, d]).bind (fun n => some (n, t)) = some (n, r) := h
    obtain ⟨m, hm, heq⟩ := Option.bind_eq_some_iff.mp hdigits
    obtain ⟨rfl, rfl⟩ := Prod.mk.inj (Option.some.inj heq)
    show (Text.digits? 16 [a, b, c, d]).bind (fun n => some (n, t ++ u)) = _
    rw [hm]
    rfl

/-- What is added behind a body makes no escape where there was none. -/
theorem append_ne_escape {fuel : Nat} {q : Option Text × Text} (h : readBody fuel t = some q)
    (hno : ∀ v, t ≠ '\\' :: 'u' :: v) (u v : Text) : t ++ u ≠ '\\' :: 'u' :: v := by
  intro heq
  cases fuel with
  | zero => cases h
  | succ fuel =>
      match t, h, hno, heq with
      | c :: d :: t, _, hno, heq =>
        obtain ⟨rfl, hrest⟩ := List.cons.inj heq
        obtain ⟨rfl, -⟩ := List.cons.inj hrest
        exact hno t rfl
      | [c], h, _, heq =>
        obtain ⟨rfl, -⟩ := List.cons.inj heq
        cases h

/-- A body that is read with so much fuel is read with so much more, and with a text behind it. -/
def BodyFront (u : Text) (fuel fuel' : Nat) : Prop :=
  ∀ {t b r}, readBody fuel t = some (b, r) → readBody fuel' (t ++ u) = some (b, r ++ u)

section

variable {fuel fuel' : Nat} {b : Option Text} {r : Text}

/-- So is one with a character more in front. -/
theorem BodyFront.prepend (hfront : BodyFront u fuel fuel') {c : Option Char}
    (h : ((readBody fuel t).map fun q => (prepend c q.1, q.2)) = some (b, r)) :
    ((readBody fuel' (t ++ u)).map fun q => (prepend c q.1, q.2)) = some (b, r ++ u) := by
  obtain ⟨⟨b', r'⟩, hread, heq⟩ := Option.map_eq_some_iff.mp h
  obtain ⟨rfl, rfl⟩ := Prod.mk.inj heq
  rw [hfront hread]
  rfl

/-- A code in digits may be half of a pair. What is behind the body makes no pair of it. -/
theorem BodyFront.code (hfront : BodyFront u fuel fuel')
    (h : readBody (fuel + 1) ('\\' :: 'u' :: t) = some (b, r)) :
    readBody (fuel' + 1) ('\\' :: 'u' :: (t ++ u)) = some (b, r ++ u) := by
  rw [readBody.eq_def] at h ⊢
  simp only [if_neg (by decide : ¬ '\\' = '"'), if_pos] at h ⊢
  cases hunit : unit? t with
  | none => rw [hunit] at h; cases h
  | some q =>
      obtain ⟨n, t'⟩ := q
      rw [hunit] at h
      rw [unit?_append hunit u]
      dsimp only at h ⊢
      split at h
      · rename_i hfirst
        rw [if_pos hfirst]
        split at h
        · rename_i t''
          simp only [List.cons_append]
          cases hsecond : unit? t'' with
          | none => rw [hsecond] at h; cases h
          | some q =>
              obtain ⟨m, rest⟩ := q
              rw [hsecond] at h
              rw [unit?_append hsecond u]
              dsimp only at h ⊢
              split at h
              · rename_i hpair
                rw [if_pos hpair]
                exact hfront.prepend h
              · rename_i hpair
                rw [if_neg hpair]
                exact hfront.prepend h
        · rename_i halone
          obtain ⟨⟨b', r'⟩, hrest, -⟩ := Option.map_eq_some_iff.mp h
          split
          · rename_i hpair
            exact absurd hpair (append_ne_escape hrest halone u _)
          · exact hfront.prepend h
      · rename_i hfirst
        rw [if_neg hfirst]
        split at h
        · rename_i hsecond
          rw [if_pos hsecond]
          exact hfront.prepend h
        · rename_i hsecond
          rw [if_neg hsecond]
          exact hfront.prepend h

end

/-- **The body of a quoted text** is read alike whatever stands behind it. -/
theorem readBody_append (u : Text) {fuel fuel' : Nat} (hfuel : fuel ≤ fuel') :
    BodyFront u fuel fuel' := by
  intro t b r h
  induction fuel generalizing fuel' t b r with
  | zero => cases h
  | succ fuel ih =>
      obtain ⟨fuel', rfl⟩ : ∃ k, fuel' = k + 1 := ⟨fuel' - 1, by omega⟩
      have hfront : BodyFront u fuel fuel' := fun h => ih (by omega) h
      cases t with
      | nil => cases h
      | cons c t =>
          have hwhole := h
          rw [readBody.eq_def] at h
          rw [List.cons_append, readBody.eq_def]
          dsimp only at h ⊢
          split at h
          · rename_i hquote
            obtain ⟨rfl, rfl⟩ := Prod.mk.inj (Option.some.inj h)
            rw [if_pos hquote]
          · rename_i hquote
            rw [if_neg hquote]
            split at h
            · rename_i hslash
              rw [if_pos hslash]
              split at h
              case h_9 t =>
                subst hslash
                have hcode := hfront.code hwhole
                rwa [readBody.eq_def] at hcode
              case h_10 => cases h
              all_goals exact hfront.prepend h
            · rename_i hslash
              rw [if_neg hslash]
              split at h
              · cases h
              · rename_i hcode
                rw [if_neg hcode]
                exact hfront.prepend h

theorem readText_append {b : Option Text} {r : Text} (h : readText t = some (b, r)) (u : Text) :
    readText (t ++ u) = some (b, r ++ u) := by
  refine readBody_append u ?_ h
  rw [List.length_append]
  omega

/-! ## Numbers -/

theorem spanDigits_append (t u : Text) :
    spanDigits (t ++ '{' :: u) = ((spanDigits t).1, (spanDigits t).2 ++ '{' :: u) := by
  unfold spanDigits
  rw [List.span_eq_takeWhile_dropWhile, List.span_eq_takeWhile_dropWhile]
  induction t with
  | nil => rfl
  | cons c t ih =>
      obtain ⟨htake, hdrop⟩ := Prod.mk.inj ih
      rw [List.cons_append, List.takeWhile_cons, List.takeWhile_cons, List.dropWhile_cons,
        List.dropWhile_cons, htake, hdrop]
      split <;> rfl

theorem readFraction_append (t u : Text) :
    readFraction (t ++ '{' :: u) = ((readFraction t).1, (readFraction t).2 ++ '{' :: u) := by
  match t with
  | [] => rfl
  | c :: t =>
    by_cases hc : c = '.'
    · subst hc
      unfold readFraction
      simp only [List.cons_append, spanDigits_append]
      obtain ⟨ds, r⟩ := spanDigits t
      cases ds <;> rfl
    · simp [readFraction, hc]

/-- The sign of an exponent: whether it is a minus, and what follows it. -/
def exponentSign : Text → Bool × Text
  | '-' :: r => (true, r)
  | '+' :: r => (false, r)
  | r => (false, r)

theorem exponentSign_append (t u : Text) :
    exponentSign (t ++ '{' :: u) = ((exponentSign t).1, (exponentSign t).2 ++ '{' :: u) := by
  match t with
  | [] => rfl
  | c :: t =>
    by_cases hminus : c = '-'
    · subst hminus
      rfl
    · by_cases hplus : c = '+'
      · subst hplus
        rfl
      · simp [exponentSign, hminus, hplus]

theorem readExponent_append (t u : Text) :
    readExponent (t ++ '{' :: u) = ((readExponent t).1, (readExponent t).2 ++ '{' :: u) := by
  match t with
  | [] => rfl
  | e :: t =>
    have hread : ∀ t, readExponent (e :: t) = if e = 'e' || e = 'E' then
        if (spanDigits (exponentSign t).2).1 = [] then (none, e :: t)
        else (some (if (exponentSign t).1 then -(digitsValue (spanDigits (exponentSign t).2).1 : Int)
          else digitsValue (spanDigits (exponentSign t).2).1), (spanDigits (exponentSign t).2).2)
        else (none, e :: t) := by
      intro t
      unfold readExponent
      dsimp only
      split
      · split
        · rename_i r hspan
          have hspan' : spanDigits (exponentSign t).2 = ([], r) := hspan
          rw [hspan', if_pos rfl]
        · rename_i ds r hne hspan
          have hspan' : spanDigits (exponentSign t).2 = (ds, r) := hspan
          rw [hspan']
          exact (if_neg hne).symm
      · rfl
    rw [List.cons_append, hread, hread, exponentSign_append, spanDigits_append]
    split
    · split
      · rfl
      · rfl
    · rfl

/-- The sign of a number: whether it is a minus, and what follows it. -/
def numberSign : Text → Bool × Text
  | '-' :: r => (true, r)
  | r => (false, r)

/-- The digits before a fraction, and what follows them. -/
def wholeDigits : Text → Text × Text
  | '0' :: r => (['0'], r)
  | r => spanDigits r

theorem numberSign_append (t u : Text) :
    numberSign (t ++ '{' :: u) = ((numberSign t).1, (numberSign t).2 ++ '{' :: u) := by
  match t with
  | [] => rfl
  | c :: t =>
    by_cases hminus : c = '-'
    · subst hminus
      rfl
    · simp [numberSign, hminus]

theorem wholeDigits_append (t u : Text) :
    wholeDigits (t ++ '{' :: u) = ((wholeDigits t).1, (wholeDigits t).2 ++ '{' :: u) := by
  match t with
  | [] => rfl
  | c :: t =>
    by_cases hzero : c = '0'
    · subst hzero
      rfl
    · have hspan := spanDigits_append (c :: t) u
      simpa [wholeDigits, hzero] using hspan

/-- **A number** is read alike with a record behind it. -/
theorem readNumber_append {v : Value} {r : Text} (h : readNumber t = .ok (v, r)) (u : Text) :
    readNumber (t ++ '{' :: u) = .ok (v, r ++ '{' :: u) := by
  have hread : ∀ t, readNumber t =
      let whole := wholeDigits (numberSign t).2
      let fraction := readFraction whole.2
      let exponent := readExponent fraction.2
      if whole.1.isEmpty then .error .malformed
      else if fraction.1.isEmpty && exponent.1.isNone then
        if Text.maxDigits < whole.1.length then .error (.tooManyDigits whole.1.length)
        else .ok (.int (if (numberSign t).1 then -(digitsValue whole.1 : Int)
          else digitsValue whole.1), exponent.2)
      else .ok (.real (Real.ofDecimal (numberSign t).1 (digitsValue (whole.1 ++ fraction.1))
        (exponent.1.getD 0 - fraction.1.length)), exponent.2) := fun _ => rfl
  rw [hread] at h ⊢
  dsimp only at h ⊢
  rw [numberSign_append, wholeDigits_append, readFraction_append, readExponent_append]
  dsimp only
  generalize hwhole : wholeDigits (numberSign t).2 = whole at h ⊢
  generalize hexponent : readExponent (readFraction whole.2).2 = exponent at h ⊢
  split at h
  · cases h
  · split at h
    · split at h
      · cases h
      · rename_i hfull hwholeOnly hshort
        rw [if_neg hfull, if_pos hwholeOnly, if_neg hshort]
        obtain ⟨rfl, rfl⟩ := Prod.mk.inj (Except.ok.inj h)
        rfl
    · rename_i hfull hreal
      rw [if_neg hfull, if_neg hreal]
      obtain ⟨rfl, rfl⟩ := Prod.mk.inj (Except.ok.inj h)
      rfl

/-! ## Words -/

/-- A word at the front of a text with a record behind it stands at the front of the text. -/
theorem word?_append {w : String} (hw : '{' ∉ w.toList) (t u : Text) :
    word? w (t ++ '{' :: u) = (word? w t).map (· ++ '{' :: u) := by
  unfold word?
  by_cases hfront : w.toList <+: t
  · have hfront' : w.toList <+: t ++ '{' :: u := hfront.trans (List.prefix_append _ _)
    rw [if_pos (List.isPrefixOf_iff_prefix.mpr hfront'), if_pos (List.isPrefixOf_iff_prefix.mpr hfront),
      List.drop_append_of_le_length hfront.length_le]
    rfl
  · have hfront' : ¬ w.toList <+: t ++ '{' :: u := fun h =>
      hfront (Text.prefix_of_prefix_append_cons hw h)
    rw [if_neg (by simpa using hfront'), if_neg (by simpa using hfront)]
    rfl

/-- The value that a word at the front stands for. -/
def readWord (t : Text) : Option (Value × Text) :=
  words.findSome? fun (w, v) => (word? w t).map (v, ·)

theorem readWord_append (t u : Text) :
    readWord (t ++ '{' :: u) = (readWord t).map fun q => (q.1, q.2 ++ '{' :: u) := by
  have hwords : ∀ q ∈ words, '{' ∉ q.1.toList := by decide
  unfold readWord
  generalize words = ws at hwords
  induction ws with
  | nil => rfl
  | cons q ws ih =>
      obtain ⟨w, v⟩ := q
      have hword := word?_append (hwords (w, v) List.mem_cons_self) t u
      simp only [List.findSome?_cons, hword, ih fun q hq => hwords q (List.mem_cons_of_mem _ hq)]
      cases word? w t <;> rfl

/-! ## Values -/

/-- A value that is read with so much fuel is read with more, and with a record behind it. -/
def ValueFront (u : Text) (fuel : Nat) : Prop :=
  ∀ {fuel' depth t v r}, fuel ≤ fuel' → readValue depth fuel t = .ok (v, r) →
    readValue depth fuel' (t ++ '{' :: u) = .ok (v, r ++ '{' :: u)

/-- So are the items of a list. -/
def ItemsFront (u : Text) (fuel : Nat) : Prop :=
  ∀ {fuel' depth t vs r}, fuel ≤ fuel' → readItems depth fuel t = .ok (vs, r) →
    readItems depth fuel' (t ++ '{' :: u) = .ok (vs, r ++ '{' :: u)

/-- So are the fields of a record. -/
def FieldsFront (u : Text) (fuel : Nat) : Prop :=
  ∀ {fuel' depth t fs r}, fuel ≤ fuel' → readFields depth fuel t = .ok (fs, r) →
    readFields depth fuel' (t ++ '{' :: u) = .ok (fs, r ++ '{' :: u)

theorem readItems_nil (depth fuel : Nat) : readItems depth fuel [] = .error .malformed := by
  cases fuel with
  | zero => rfl
  | succ fuel =>
      rw [readItems]
      cases fuel <;> rfl

theorem readFields_nil (depth fuel : Nat) : readFields depth fuel [] = .error .malformed := by
  cases fuel <;> rfl

theorem readValue_nil (depth fuel : Nat) : readValue depth fuel [] = .error .malformed := by
  cases fuel <;> rfl

theorem skipSpace_append_cons {c : Char} {r : Text} (h : skipSpace t = c :: r) (u : Text) :
    skipSpace (t ++ u) = c :: (r ++ u) := by
  rw [skipSpace_append (by simp [h]), h, List.cons_append]

theorem itemsFront_succ {fuel : Nat} (hvalue : ValueFront u fuel) (hitems : ItemsFront u fuel) :
    ItemsFront u (fuel + 1) := by
  intro fuel' depth t vs r hfuel h
  obtain ⟨fuel', rfl⟩ : ∃ k, fuel' = k + 1 := ⟨fuel' - 1, by omega⟩
  have hless : fuel ≤ fuel' := by omega
  rw [readItems] at h ⊢
  cases hv : readValue depth fuel t with
  | error e => rw [hv] at h; cases h
  | ok q =>
      obtain ⟨v, s⟩ := q
      rw [hv] at h
      rw [hvalue hless hv]
      dsimp only [bind, Except.bind, pure, Except.pure] at h ⊢
      split at h
      · rename_i s' hcomma
        rw [skipSpace_append_cons hcomma]
        have hne : skipSpace s' ≠ [] := by
          intro hnil
          rw [hnil, readItems_nil] at h
          cases h
        cases hvs : readItems depth fuel (skipSpace s') with
        | error e => rw [hvs] at h; cases h
        | ok q =>
            obtain ⟨vs', r'⟩ := q
            rw [hvs] at h
            obtain ⟨rfl, rfl⟩ := Prod.mk.inj (Except.ok.inj h)
            simp only [skipSpace_append hne, hitems hless hvs]
      · rename_i s' hclose
        rw [skipSpace_append_cons hclose]
        obtain ⟨rfl, rfl⟩ := Prod.mk.inj (Except.ok.inj h)
        rfl
      · cases h

theorem fieldsFront_succ {fuel : Nat} (hvalue : ValueFront u fuel) (hfields : FieldsFront u fuel) :
    FieldsFront u (fuel + 1) := by
  intro fuel' depth t fs r hfuel h
  obtain ⟨fuel', rfl⟩ : ∃ k, fuel' = k + 1 := ⟨fuel' - 1, by omega⟩
  have hless : fuel ≤ fuel' := by omega
  rw [readFields.eq_def] at h
  dsimp only at h
  split at h
  · rename_i t
    rw [List.cons_append, readFields]
    cases hname : readText t with
    | none => rw [hname] at h; cases h
    | some q =>
        obtain ⟨name, s⟩ := q
        rw [hname] at h
        rw [readText_append hname]
        dsimp only [orMalformed, Option.elim_some, bind, Except.bind, pure, Except.pure] at h ⊢
        split at h
        · rename_i s' hcolon
          rw [skipSpace_append_cons hcolon]
          have hne : skipSpace s' ≠ [] := by
            intro hnil
            rw [hnil, readValue_nil] at h
            cases h
          cases hv : readValue depth fuel (skipSpace s') with
          | error e => rw [hv] at h; cases h
          | ok q =>
              obtain ⟨v, s⟩ := q
              rw [hv] at h
              simp only [skipSpace_append hne, hvalue hless hv]
              dsimp only at h
              split at h
              · rename_i s' hcomma
                rw [skipSpace_append_cons hcomma]
                have hne : skipSpace s' ≠ [] := by
                  intro hnil
                  rw [hnil, readFields_nil] at h
                  cases h
                cases hfs : readFields depth fuel (skipSpace s') with
                | error e => rw [hfs] at h; cases h
                | ok q =>
                    obtain ⟨fs', r'⟩ := q
                    rw [hfs] at h
                    obtain ⟨rfl, rfl⟩ := Prod.mk.inj (Except.ok.inj h)
                    simp only [skipSpace_append hne, hfields hless hfs]
              · rename_i s' hclose
                rw [skipSpace_append_cons hclose]
                obtain ⟨rfl, rfl⟩ := Prod.mk.inj (Except.ok.inj h)
                rfl
              · cases h
        · cases h
  · cases h

theorem readValue_append_list {fuel fuel' depth : Nat} {v : Value} {r : Text} (hitems : ItemsFront u fuel)
    (hless : fuel ≤ fuel') (h : readValue depth (fuel + 1) ('[' :: t) = .ok (v, r)) :
    readValue depth (fuel' + 1) ('[' :: (t ++ '{' :: u)) = .ok (v, r ++ '{' :: u) := by
  rw [readValue] at h ⊢
  split at h
  · cases h
  · rename_i hdepth
    rw [if_neg hdepth]
    split at h
    · rename_i hclose
      rw [skipSpace_append_cons hclose]
      obtain ⟨rfl, rfl⟩ := Prod.mk.inj (Except.ok.inj h)
      rfl
    · rename_i hopen
      cases hvs : readItems (depth + 1) fuel (skipSpace t) with
      | error e => rw [hvs] at h; cases h
      | ok q =>
          obtain ⟨vs, r'⟩ := q
          have hmore := hitems hless hvs
          rw [hvs] at h
          obtain ⟨rfl, rfl⟩ := Prod.mk.inj (Except.ok.inj h)
          cases hs : skipSpace t with
          | nil => rw [hs, readItems_nil] at hvs; cases hvs
          | cons c s =>
              rw [hs, List.cons_append] at hmore
              rw [skipSpace_append_cons hs]
              split
              · rename_i hclose
                exact absurd (hs.trans (by rw [(List.cons.inj hclose).1])) (hopen s)
              · rw [hmore]
                rfl

theorem readValue_append_record {fuel fuel' depth : Nat} {v : Value} {r : Text}
    (hfields : FieldsFront u fuel) (hless : fuel ≤ fuel')
    (h : readValue depth (fuel + 1) ('{' :: t) = .ok (v, r)) :
    readValue depth (fuel' + 1) ('{' :: (t ++ '{' :: u)) = .ok (v, r ++ '{' :: u) := by
  rw [readValue] at h ⊢
  split at h
  · cases h
  · rename_i hdepth
    rw [if_neg hdepth]
    split at h
    · rename_i hclose
      rw [skipSpace_append_cons hclose]
      obtain ⟨rfl, rfl⟩ := Prod.mk.inj (Except.ok.inj h)
      rfl
    · rename_i hopen
      cases hfs : readFields (depth + 1) fuel (skipSpace t) with
      | error e => rw [hfs] at h; cases h
      | ok q =>
          obtain ⟨fs, r'⟩ := q
          have hmore := hfields hless hfs
          rw [hfs] at h
          obtain ⟨rfl, rfl⟩ := Prod.mk.inj (Except.ok.inj h)
          cases hs : skipSpace t with
          | nil => rw [hs, readFields_nil] at hfs; cases hfs
          | cons c s =>
              rw [hs, List.cons_append] at hmore
              rw [skipSpace_append_cons hs]
              split
              · rename_i hclose
                exact absurd (hs.trans (by rw [(List.cons.inj hclose).1])) (hopen s)
              · rw [hmore]
                rfl

/-- What begins with no quotation mark and no bracket is a word or a number. -/
theorem readValue_of_plain {c : Char} (hquote : c ≠ '"') (hlist : c ≠ '[') (hrecord : c ≠ '{')
    (depth fuel : Nat) (t : Text) :
    readValue depth (fuel + 1) (c :: t) =
      (readWord (c :: t)).elim (readNumber (c :: t)) Except.ok := by
  rw [readValue.eq_def]
  dsimp only
  split
  case h_1 heq => exact absurd (List.cons.inj heq).1 hquote
  case h_2 heq => exact absurd (List.cons.inj heq).1 hlist
  case h_3 heq => exact absurd (List.cons.inj heq).1 hrecord
  case h_4 =>
    unfold readWord
    split
    · rename_i q hword
      rw [hword]
      rfl
    · rename_i hword
      rw [hword]
      rfl

theorem valueFront_succ {fuel : Nat} (hitems : ItemsFront u fuel) (hfields : FieldsFront u fuel) :
    ValueFront u (fuel + 1) := by
  intro fuel' depth t v r hfuel h
  obtain ⟨fuel', rfl⟩ : ∃ k, fuel' = k + 1 := ⟨fuel' - 1, by omega⟩
  have hless : fuel ≤ fuel' := by omega
  cases t with
  | nil => cases h
  | cons c t =>
      rw [List.cons_append]
      by_cases hquote : c = '"'
      · subst hquote
        rw [readValue] at h ⊢
        cases hbody : readText t with
        | none => rw [hbody] at h; cases h
        | some q =>
            obtain ⟨body, r'⟩ := q
            rw [hbody] at h
            rw [readText_append hbody]
            obtain ⟨rfl, rfl⟩ := Prod.mk.inj (Except.ok.inj h)
            rfl
      · by_cases hlist : c = '['
        · subst hlist
          exact readValue_append_list hitems hless h
        · by_cases hrecord : c = '{'
          · subst hrecord
            exact readValue_append_record hfields hless h
          · rw [readValue_of_plain hquote hlist hrecord] at h ⊢
            rw [← List.cons_append, readWord_append]
            cases hword : readWord (c :: t) with
            | some q =>
                rw [hword] at h
                obtain ⟨rfl, rfl⟩ := Prod.mk.inj (Except.ok.inj h)
                rfl
            | none =>
                rw [hword] at h
                exact readNumber_append h u

/-- What is read with so much fuel is read with more, and with a record behind the text. -/
theorem front (u : Text) (fuel : Nat) : ValueFront u fuel ∧ ItemsFront u fuel ∧ FieldsFront u fuel := by
  induction fuel with
  | zero =>
      refine ⟨?_, ?_, ?_⟩
      · intro _ _ _ _ _ _ h
        cases h
      · intro _ _ _ _ _ _ h
        cases h
      · intro _ _ _ _ _ _ h
        cases h
  | succ fuel ih =>
      obtain ⟨hvalue, hitems, hfields⟩ := ih
      exact ⟨valueFront_succ hitems hfields, itemsFront_succ hvalue hitems,
        fieldsFront_succ hvalue hfields⟩

/-- **A record is too much behind a JSON text.** -/
theorem read_append_record {v : Value} (h : read t = .ok v) (u : Text) :
    read (t ++ '{' :: u) = .error .malformed := by
  unfold read at h ⊢
  cases hvalue : readValue 0 (t.length + 1) (skipSpace t) with
  | error e => rw [hvalue] at h; cases h
  | ok q =>
      obtain ⟨v', r⟩ := q
      have hne : skipSpace t ≠ [] := by
        intro hnil
        rw [hnil, readValue_nil] at hvalue
        cases hvalue
      have hlength : t.length + 1 ≤ (t ++ '{' :: u).length + 1 := by
        rw [List.length_append]
        omega
      rw [hvalue] at h
      rw [skipSpace_append hne, (front u _).1 hlength hvalue]
      dsimp only [bind, Except.bind] at h ⊢
      split at h
      · rename_i hend
        rw [skipSpace_append_of_nil hend, skipSpace_cons (by decide)]
      · cases h

theorem skipSpace_eq_nil_iff : skipSpace t = [] ↔ ∀ c ∈ t, isSpace c := List.dropWhile_eq_nil_iff

/-- Characters that may stand between the parts of a text may also stand in front of it. -/
theorem read_spaces_append {s : Text} {d : Nat} {v : Value} (hs : ∀ c ∈ s, isSpace c) (h : Plain d v)
    (hd : d ≤ maxDepth) : read (s ++ write .compact v) = .ok v := by
  have hskip : skipSpace (s ++ write .compact v) = write .compact v := by
    have hfront := skipSpace_write h []
    rw [List.append_nil] at hfront
    rw [skipSpace_append_of_nil (skipSpace_eq_nil_iff.mpr hs), hfront]
  have hread := isRead_of_plain h (by omega : 0 + d ≤ maxDepth)
    ((s ++ write .compact v).length + 1) [] (by rw [List.length_append]; omega)
  rw [List.append_nil] at hread
  rw [read, hskip, hread]
  rfl

/-- No word begins with a blank. -/
theorem readWord_of_blank {c : Char} (hc : Text.isBlank c = true) (t : Text) :
    readWord (c :: t) = none := by
  have hwords : ∀ q ∈ words, q.1.toList ≠ [] ∧ q.1.toList.all (!Text.isBlank ·) = true := by decide
  unfold readWord
  rw [List.findSome?_eq_none_iff]
  rintro ⟨w, v⟩ hw
  obtain ⟨hne, hblank⟩ := hwords _ hw
  have hfront : w.toList.isPrefixOf (c :: t) = false := by
    rw [Bool.eq_false_iff]
    intro h
    obtain ⟨d, w', hw'⟩ := List.exists_cons_of_ne_nil hne
    rw [hw', List.all_cons, Bool.and_eq_true] at hblank
    rw [hw', List.isPrefixOf_iff_prefix] at h
    rw [(List.cons_prefix_cons.mp h).1, hc] at hblank
    cases hblank.1
  show Option.map _ (word? w (c :: t)) = none
  unfold word?
  rw [hfront]
  rfl

/-- No number begins with a blank. -/
theorem readNumber_of_blank {c : Char} (hc : Text.isBlank c = true) (t : Text) :
    readNumber (c :: t) = .error .malformed := by
  have hdigit : c.isDigit = false := by
    rw [Bool.eq_false_iff]
    intro hdigit
    have hrange : 48 ≤ c.toNat ∧ c.toNat ≤ 57 := by
      rw [Char.isDigit, Bool.and_eq_true, decide_eq_true_eq, decide_eq_true_eq] at hdigit
      exact hdigit
    simp [Text.isBlank, Text.blankRanges] at hc
    omega
  have hminus : c ≠ '-' := by rintro rfl; cases hc
  have hzero : c ≠ '0' := by rintro rfl; cases hc
  simp [readNumber, hminus, hzero, spanDigits, List.span_eq_takeWhile_dropWhile, hdigit]

/-- No value begins with a blank other than those that may stand between the parts of a text. -/
theorem read_of_blank {c : Char} {r : Text} (h : skipSpace t = c :: r) (hc : Text.isBlank c = true) :
    read t = .error .malformed := by
  have hne : ∀ d, Text.isBlank d = false → c ≠ d := by
    rintro d hd rfl
    rw [hc] at hd
    cases hd
  have hvalue : readValue 0 (t.length + 1) (c :: r) = .error .malformed := by
    rw [readValue_of_plain (hne '"' (by decide)) (hne '[' (by decide)) (hne '{' (by decide)),
      readWord_of_blank hc]
    exact readNumber_of_blank hc r
  rw [read, h, hvalue]
  rfl

end Emend.Json
