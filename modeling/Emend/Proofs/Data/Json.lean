import Emend.Data.Json

/-!
# Reading back JSON

`Plain d` holds of a value made of texts, truth values and null, in lists and records with texts for
names, that are nested at most `d` deep. Such a value is read back from its compact form, whatever
follows (`readValue_write`), and that form stands on one line (`isInline_write`).

The reader is told how far it may go by a number that goes down with each value it enters. The length of
the written form is always enough: each value that is entered has a character of its own.
-/

namespace Emend.Json

/-- A value without numbers, nested at most so deep, whose records have texts for names. -/
inductive Plain : Nat → Value → Prop
  | null (d : Nat) : Plain d .null
  | bool (d : Nat) (b : Bool) : Plain d (.bool b)
  | text (d : Nat) (t : Text) : Plain d (.text t)
  | list {d : Nat} {vs : List Value} : (∀ v ∈ vs, Plain d v) → Plain (d + 1) (.list vs)
  | record {d : Nat} {fs : List (Value × Value)} : (∀ f ∈ fs, ∃ t, f.1 = .text t) →
      (∀ f ∈ fs, Plain d f.2) → Plain (d + 1) (.record fs)

/-! ## Quoted texts -/

/-- The code of a character that has no escape of its own is four digits that spell it. -/
theorem exists_unit {n : Nat} (h : n < 0x20) :
    ∃ a b c d, Text.hex 4 n = [a, b, c, d] ∧ Text.digits? 16 [a, b, c, d] = some n := by
  have hcodes : ∀ n < 0x20, (Text.hex 4 n).length = 4 ∧ Text.digits? 16 (Text.hex 4 n) = some n := by
    decide
  obtain ⟨hlength, hvalue⟩ := hcodes n h
  match hhex : Text.hex 4 n, hlength with
  | [a, b, c, d], _ => exact ⟨a, b, c, d, rfl, hhex ▸ hvalue⟩

theorem readBody_literal {c : Char} (hquote : ¬ c = '"') (hslash : ¬ c = '\\')
    (hcode : ¬ c.toNat < 0x20) (fuel : Nat) (t : Text) :
    readBody (fuel + 1) (c :: t) = (readBody fuel t).map fun (b, r) => (prepend (some c) b, r) := by
  rw [readBody.eq_def]
  simp only [if_neg hquote, if_neg hslash, if_neg hcode]

theorem readBody_code {c : Char} (hcode : c.toNat < 0x20) (fuel : Nat) (t : Text) :
    readBody (fuel + 1) (codeEscape c ++ t) =
      (readBody fuel t).map fun (b, r) => (prepend (some c) b, r) := by
  obtain ⟨a, b, d, e, hhex, hvalue⟩ := exists_unit hcode
  have hunit : unit? (a :: b :: d :: e :: t) = some (c.toNat, t) := by
    rw [unit?, hvalue]
    rfl
  rw [codeEscape, if_pos (by omega), unitEscape, hhex]
  simp only [List.cons_append, List.nil_append]
  rw [readBody.eq_def]
  simp only [if_neg (by decide : ¬ '\\' = '"'), if_pos, hunit]
  rw [if_neg (by omega), if_neg (by omega), Char.ofNat_toNat]

/-- The escape of a character is read as that character. -/
theorem readBody_writeChar (c : Char) (fuel : Nat) (t : Text) :
    readBody (fuel + 1) (writeChar false c ++ t) =
      (readBody fuel t).map fun (b, r) => (prepend (some c) b, r) := by
  rw [writeChar.eq_def]
  split
  case h_8 hquote hslash _ _ _ _ _ =>
    split
    · rename_i hcode
      exact readBody_code (by simpa using hcode) fuel t
    · rename_i hcode
      rw [List.cons_append, List.nil_append]
      exact readBody_literal hquote hslash (by simpa using hcode) fuel t
  all_goals rfl

theorem writeChar_ne_nil (c : Char) : writeChar false c ≠ [] := by
  rw [writeChar.eq_def]
  split
  case h_8 =>
    split
    · rename_i hcode
      have hc : c.toNat < 0x20 := by simpa using hcode
      rw [codeEscape, if_pos (by omega)]
      exact List.cons_ne_nil _ _
    · exact List.cons_ne_nil _ _
  all_goals exact List.cons_ne_nil _ _

/-- What was written between quotation marks is read up to the closing one. -/
theorem readBody_write (t r : Text) {fuel : Nat} (h : (t.flatMap (writeChar false)).length < fuel) :
    readBody fuel (t.flatMap (writeChar false) ++ '"' :: r) = some (some t, r) := by
  induction t generalizing fuel with
  | nil =>
      obtain ⟨fuel, rfl⟩ : ∃ k, fuel = k + 1 := ⟨fuel - 1, by omega⟩
      rfl
  | cons c t ih =>
      have hpos := List.length_pos_iff.mpr (writeChar_ne_nil c)
      rw [List.flatMap_cons, List.length_append] at h
      obtain ⟨fuel, rfl⟩ : ∃ k, fuel = k + 1 := ⟨fuel - 1, by omega⟩
      rw [List.flatMap_cons, List.append_assoc, readBody_writeChar, ih (by omega)]
      rfl

theorem readText_write (t r : Text) :
    readText (t.flatMap (writeChar false) ++ '"' :: r) = some (some t, r) := by
  refine readBody_write t r ?_
  rw [List.length_append, List.length_cons]
  omega

/-! ## Values -/

theorem readValue_text (depth fuel : Nat) (t r : Text) :
    readValue depth (fuel + 1) (writeText false t ++ r) = .ok (.text t, r) := by
  have hsplit : writeText false t ++ r = '"' :: (t.flatMap (writeChar false) ++ '"' :: r) := by
    simp [writeText]
  rw [hsplit, readValue.eq_def]
  simp only [readText_write]
  rfl

theorem exists_cons_write {d : Nat} {v : Value} (h : Plain d v) :
    ∃ c t, write .compact v = c :: t ∧ isSpace c = false ∧ c ≠ ']' := by
  cases h with
  | null => exact ⟨'n', _, rfl, rfl, by decide⟩
  | bool _ b =>
      cases b with
      | false => exact ⟨'f', _, rfl, rfl, by decide⟩
      | true => exact ⟨'t', _, rfl, rfl, by decide⟩
  | text _ t => exact ⟨'"', _, by rw [write.eq_def]; rfl, rfl, by decide⟩
  | list => exact ⟨'[', _, by rw [write.eq_def]; rfl, rfl, by decide⟩
  | record => exact ⟨'{', _, by rw [write.eq_def]; rfl, rfl, by decide⟩

theorem write_ne_nil {d : Nat} {v : Value} (h : Plain d v) : write .compact v ≠ [] := by
  obtain ⟨c, t, hwrite, -⟩ := exists_cons_write h
  rw [hwrite]
  exact List.cons_ne_nil c t

theorem skipSpace_cons {c : Char} (h : isSpace c = false) (t : Text) :
    skipSpace (c :: t) = c :: t := by
  rw [skipSpace, List.dropWhile_cons_of_neg (by simp [h])]

/-- Inside so many lists and records, the value is read from its written form, whatever follows. -/
def IsRead (depth : Nat) (v : Value) : Prop :=
  ∀ fuel r, (write .compact v).length < fuel →
    readValue depth fuel (write .compact v ++ r) = .ok (v, r)

theorem isRead_null (depth : Nat) : IsRead depth .null := by
  intro fuel r h
  obtain ⟨fuel, rfl⟩ : ∃ k, fuel = k + 1 := ⟨fuel - 1, by omega⟩
  rfl

theorem isRead_bool (depth : Nat) (b : Bool) : IsRead depth (.bool b) := by
  intro fuel r h
  obtain ⟨fuel, rfl⟩ : ∃ k, fuel = k + 1 := ⟨fuel - 1, by omega⟩
  cases b <;> rfl

theorem isRead_text (depth : Nat) (t : Text) : IsRead depth (.text t) := by
  intro fuel r h
  obtain ⟨fuel, rfl⟩ : ∃ k, fuel = k + 1 := ⟨fuel - 1, by omega⟩
  rw [write.eq_def]
  exact readValue_text depth fuel t r

theorem writeItems_cons_cons (s : Style) (v w : Value) (vs : List Value) :
    writeItems s (v :: w :: vs) = write s v ++ s.itemSeparator ++ writeItems s (w :: vs) := by
  rw [writeItems]
  simp

theorem exists_cons_writeItems {d : Nat} {v : Value} (vs : List Value) (h : Plain d v) :
    ∃ c t, writeItems .compact (v :: vs) = c :: t ∧ isSpace c = false ∧ c ≠ ']' := by
  obtain ⟨c, t, hwrite, hc⟩ := exists_cons_write h
  cases vs with
  | nil => exact ⟨c, t, by rw [writeItems, hwrite], hc⟩
  | cons w vs => exact ⟨c, _, by rw [writeItems_cons_cons, hwrite]; rfl, hc⟩

theorem readItems_write {d depth : Nat} {vs : List Value} (hne : vs ≠ [])
    (hplain : ∀ v ∈ vs, Plain d v) (hread : ∀ v ∈ vs, IsRead depth v) (r : Text) {fuel : Nat}
    (h : (writeItems .compact vs).length + 1 < fuel) :
    readItems depth fuel (writeItems .compact vs ++ ']' :: r) = .ok (vs, r) := by
  induction vs generalizing fuel with
  | nil => exact absurd rfl hne
  | cons v vs ih =>
      obtain ⟨fuel, rfl⟩ : ∃ k, fuel = k + 1 := ⟨fuel - 1, by omega⟩
      have hfirst := hread v List.mem_cons_self
      cases vs with
      | nil =>
          rw [writeItems] at h ⊢
          rw [readItems, hfirst _ _ (by omega)]
          rfl
      | cons w vs =>
          rw [writeItems_cons_cons] at h ⊢
          have hlength : (writeItems .compact (w :: vs)).length + 1 < fuel := by
            simp only [List.length_append, Style.compact, List.length_singleton] at h
            have hpos := List.length_pos_iff.mpr (write_ne_nil (hplain v List.mem_cons_self))
            simp only [Style.compact] at hpos ⊢
            omega
          have hrest := ih (List.cons_ne_nil _ _) (fun u hu => hplain u (List.mem_cons_of_mem _ hu))
            (fun u hu => hread u (List.mem_cons_of_mem _ hu)) hlength
          have hskip : skipSpace (writeItems .compact (w :: vs) ++ ']' :: r) =
              writeItems .compact (w :: vs) ++ ']' :: r := by
            obtain ⟨c, t, hitems, hc, -⟩ :=
              exists_cons_writeItems vs (hplain w (List.mem_cons_of_mem _ List.mem_cons_self))
            rw [hitems]
            exact skipSpace_cons hc _
          rw [List.append_assoc, List.append_assoc, readItems,
            hfirst _ _ (by simp only [List.length_append] at h; omega)]
          change readItems depth fuel (skipSpace (writeItems .compact (w :: vs) ++ ']' :: r)) >>= _ = _
          rw [hskip, hrest]
          rfl

theorem isRead_list {d depth : Nat} {vs : List Value} (hdepth : depth < maxDepth)
    (hplain : ∀ v ∈ vs, Plain d v) (hread : ∀ v ∈ vs, IsRead (depth + 1) v) :
    IsRead depth (.list vs) := by
  intro fuel r h
  have hwrite : write .compact (.list vs) = '[' :: writeItems .compact vs ++ [']'] := by
    rw [write.eq_def]
  obtain ⟨fuel, rfl⟩ : ∃ k, fuel = k + 1 := ⟨fuel - 1, by omega⟩
  rw [hwrite] at h ⊢
  simp only [List.cons_append, List.append_assoc, List.nil_append, List.length_cons,
    List.length_append, List.length_nil] at h ⊢
  rw [readValue.eq_def]
  simp only [if_neg (Nat.not_le.mpr hdepth)]
  cases vs with
  | nil => rfl
  | cons v vs =>
      obtain ⟨c, t, hitems, hc, hend⟩ := exists_cons_writeItems vs (hplain v List.mem_cons_self)
      have hskip : skipSpace (writeItems .compact (v :: vs) ++ ']' :: r) =
          writeItems .compact (v :: vs) ++ ']' :: r := by
        rw [hitems]
        exact skipSpace_cons hc _
      have hrest := readItems_write (List.cons_ne_nil v vs) hplain hread r (by omega : _ < fuel)
      rw [hskip]
      split
      · rename_i hclose
        rw [hitems] at hclose
        exact absurd (List.cons.inj hclose).1 hend
      · rw [hrest]
        rfl

theorem writeFields_cons_cons (s : Style) (k v : Value) (f : Value × Value)
    (fs : List (Value × Value)) :
    writeFields s ((k, v) :: f :: fs) =
      write s k ++ s.keySeparator ++ write s v ++ s.itemSeparator ++ writeFields s (f :: fs) := by
  rw [writeFields]
  simp

/-- The fields of a record begin with the quotation mark of a name. -/
theorem exists_cons_writeFields (t : Text) (v : Value) (fs : List (Value × Value)) :
    ∃ r, writeFields .compact ((.text t, v) :: fs) = '"' :: r := by
  have hname : write .compact (.text t) = '"' :: (t.flatMap (writeChar false) ++ ['"']) := by
    rw [write.eq_def]
    rfl
  cases fs with
  | nil => exact ⟨_, by rw [writeFields, hname]; rfl⟩
  | cons f fs => exact ⟨_, by rw [writeFields_cons_cons, hname]; rfl⟩

theorem skipSpace_write {d : Nat} {v : Value} (hplain : Plain d v) (s : Text) :
    skipSpace (write .compact v ++ s) = write .compact v ++ s := by
  obtain ⟨c, u, hwrite, hc, -⟩ := exists_cons_write hplain
  rw [hwrite]
  exact skipSpace_cons hc _

theorem write_name (t s : Text) :
    write .compact (.text t) ++ s = '"' :: (t.flatMap (writeChar false) ++ '"' :: s) := by
  rw [write.eq_def]
  simp [writeText, Style.compact]

section

variable {d depth fuel : Nat} {v : Value} {s r : Text}

/-- The last field of a record. -/
theorem readFields_last (hplain : Plain d v) (hread : IsRead depth v)
    (hfuel : (write .compact v).length < fuel) (hend : skipSpace s = '}' :: r) (t : Text) :
    readFields depth (fuel + 1) (write .compact (.text t) ++ ':' :: (write .compact v ++ s)) =
      .ok ([(.text t, v)], r) := by
  have hcolon : skipSpace (':' :: (write .compact v ++ s)) = ':' :: (write .compact v ++ s) :=
    skipSpace_cons (by decide) _
  rw [write_name, readFields, readText_write]
  simp only [orMalformed, Option.elim_some, bind, Except.bind, pure, Except.pure, hcolon,
    skipSpace_write hplain, hread fuel s hfuel, hend]

/-- A field that others follow. -/
theorem readFields_more (hplain : Plain d v) (hread : IsRead depth v)
    (hfuel : (write .compact v).length < fuel) (hend : skipSpace s = ',' :: r)
    {fs : List (Value × Value)} {rest : Text}
    (hrest : readFields depth fuel (skipSpace r) = .ok (fs, rest)) (t : Text) :
    readFields depth (fuel + 1) (write .compact (.text t) ++ ':' :: (write .compact v ++ s)) =
      .ok ((.text t, v) :: fs, rest) := by
  have hcolon : skipSpace (':' :: (write .compact v ++ s)) = ':' :: (write .compact v ++ s) :=
    skipSpace_cons (by decide) _
  rw [write_name, readFields, readText_write]
  simp only [orMalformed, Option.elim_some, bind, Except.bind, pure, Except.pure, hcolon,
    skipSpace_write hplain, hread fuel s hfuel, hend, hrest]

end

theorem readFields_write {d depth : Nat} {fs : List (Value × Value)} (hne : fs ≠ [])
    (hnames : ∀ f ∈ fs, ∃ t, f.1 = .text t) (hplain : ∀ f ∈ fs, Plain d f.2)
    (hread : ∀ f ∈ fs, IsRead depth f.2) (r : Text) {fuel : Nat}
    (h : (writeFields .compact fs).length + 1 < fuel) :
    readFields depth fuel (writeFields .compact fs ++ '}' :: r) = .ok (fs, r) := by
  induction fs generalizing fuel with
  | nil => exact absurd rfl hne
  | cons f fs ih =>
      obtain ⟨fuel, rfl⟩ : ∃ k, fuel = k + 1 := ⟨fuel - 1, by omega⟩
      obtain ⟨k, v⟩ := f
      obtain ⟨t, rfl⟩ := hnames _ List.mem_cons_self
      have hv : Plain d v := hplain _ List.mem_cons_self
      have hfirst : IsRead depth v := hread _ List.mem_cons_self
      have hcolon : Style.compact.keySeparator = [':'] := rfl
      have hcomma : Style.compact.itemSeparator = [','] := rfl
      cases fs with
      | nil =>
          rw [writeFields, hcolon] at h ⊢
          simp only [List.length_append, List.length_singleton] at h
          rw [List.append_assoc, List.append_assoc, List.singleton_append]
          exact readFields_last hv hfirst (by omega) (skipSpace_cons (by decide) r) t
      | cons g fs =>
          obtain ⟨k', w⟩ := g
          obtain ⟨t', rfl⟩ := hnames _ (List.mem_cons_of_mem _ List.mem_cons_self)
          rw [writeFields_cons_cons, hcolon, hcomma] at h ⊢
          simp only [List.length_append, List.length_singleton] at h
          have hrest := ih (List.cons_ne_nil _ _) (fun g hg => hnames g (List.mem_cons_of_mem _ hg))
            (fun g hg => hplain g (List.mem_cons_of_mem _ hg))
            (fun g hg => hread g (List.mem_cons_of_mem _ hg)) (by omega : _ < fuel)
          have hskip : skipSpace (writeFields .compact ((.text t', w) :: fs) ++ '}' :: r) =
              writeFields .compact ((.text t', w) :: fs) ++ '}' :: r := by
            obtain ⟨u, hfields⟩ := exists_cons_writeFields t' w fs
            rw [hfields]
            exact skipSpace_cons (by decide) _
          simp only [List.append_assoc, List.cons_append, List.nil_append]
          exact readFields_more hv hfirst (by omega) (skipSpace_cons (by decide) _)
            (by rw [hskip, hrest]) t

theorem isRead_record {d depth : Nat} {fs : List (Value × Value)} (hdepth : depth < maxDepth)
    (hnames : ∀ f ∈ fs, ∃ t, f.1 = .text t) (hplain : ∀ f ∈ fs, Plain d f.2)
    (hread : ∀ f ∈ fs, IsRead (depth + 1) f.2) : IsRead depth (.record fs) := by
  intro fuel r h
  have hwrite : write .compact (.record fs) = '{' :: writeFields .compact fs ++ ['}'] := by
    rw [write.eq_def]
  obtain ⟨fuel, rfl⟩ : ∃ k, fuel = k + 1 := ⟨fuel - 1, by omega⟩
  rw [hwrite] at h ⊢
  simp only [List.cons_append, List.append_assoc, List.nil_append, List.length_cons,
    List.length_append, List.length_nil] at h ⊢
  rw [readValue.eq_def]
  simp only [if_neg (Nat.not_le.mpr hdepth)]
  cases fs with
  | nil => rfl
  | cons f fs =>
      obtain ⟨k, v⟩ := f
      obtain ⟨t, rfl⟩ := hnames _ List.mem_cons_self
      obtain ⟨u, hfields⟩ := exists_cons_writeFields t v fs
      have hskip : skipSpace (writeFields .compact ((.text t, v) :: fs) ++ '}' :: r) =
          writeFields .compact ((.text t, v) :: fs) ++ '}' :: r := by
        rw [hfields]
        exact skipSpace_cons (by decide) _
      have hrest := readFields_write (List.cons_ne_nil _ fs) hnames hplain hread r
        (by omega : _ < fuel)
      rw [hskip]
      split
      · rename_i hclose
        rw [hfields] at hclose
        exact absurd (List.cons.inj hclose).1 (by decide)
      · rw [hrest]
        rfl

/-- **A plain value is read from its written form**, inside any number of lists and records that leaves
room for its own. -/
theorem isRead_of_plain {d : Nat} {v : Value} (h : Plain d v) {depth : Nat}
    (hdepth : depth + d ≤ maxDepth) : IsRead depth v := by
  induction h generalizing depth with
  | null => exact isRead_null depth
  | bool _ b => exact isRead_bool depth b
  | text _ t => exact isRead_text depth t
  | list hitems ih =>
      exact isRead_list (by omega) hitems fun v hv => ih v hv (by omega)
  | record hnames hfields ih =>
      exact isRead_record (by omega) hnames hfields fun f hf => ih f hf (by omega)

/-- **A plain value is read back from its compact form.** -/
theorem read_write {d : Nat} {v : Value} (h : Plain d v) (hd : d ≤ maxDepth) :
    read (write .compact v) = .ok v := by
  obtain ⟨c, t, hwrite, hc, -⟩ := exists_cons_write h
  have hskip : skipSpace (write .compact v) = write .compact v := by
    rw [hwrite]
    exact skipSpace_cons hc t
  have hread := isRead_of_plain h (by omega : 0 + d ≤ maxDepth)
    ((write .compact v).length + 1) [] (Nat.lt_succ_self _)
  rw [List.append_nil] at hread
  rw [read, hskip, hread]
  rfl

/-! ## One line -/

/-- Every character of the text can stand on a line. -/
def IsInline (t : Text) : Prop := ∀ c ∈ t, 0x20 ≤ c.toNat

instance (t : Text) : Decidable (IsInline t) := List.decidableBAll (fun c : Char => 0x20 ≤ c.toNat) t

theorem isInline_writeChar (c : Char) : IsInline (writeChar false c) := by
  rw [writeChar.eq_def]
  split
  case h_8 =>
    split
    · rename_i hcode
      have hc : c.toNat < 0x20 := by simpa using hcode
      have hcodes : ∀ n < 0x20, IsInline (unitEscape n) := by decide
      rw [codeEscape, if_pos (by omega)]
      exact hcodes _ hc
    · rename_i hcode
      intro d hd
      rw [List.mem_singleton.mp hd]
      simpa using hcode
  all_goals decide

theorem IsInline.append {s t : Text} (hs : IsInline s) (ht : IsInline t) : IsInline (s ++ t) := by
  intro c hc
  rcases List.mem_append.mp hc with hc | hc
  · exact hs c hc
  · exact ht c hc

theorem isInline_writeText (t : Text) : IsInline (writeText false t) := by
  have hbody : IsInline (t.flatMap (writeChar false)) := by
    intro d hd
    obtain ⟨c, -, hc⟩ := List.mem_flatMap.mp hd
    exact isInline_writeChar c d hc
  exact IsInline.append (s := '"' :: t.flatMap (writeChar false))
    (IsInline.append (s := ['"']) (by decide) hbody) (by decide)

theorem isInline_writeItems {vs : List Value} (h : ∀ v ∈ vs, IsInline (write .compact v)) :
    IsInline (writeItems .compact vs) := by
  induction vs with
  | nil => exact fun c hc => absurd hc List.not_mem_nil
  | cons v vs ih =>
      have hfirst := h v List.mem_cons_self
      cases vs with
      | nil =>
          rw [writeItems]
          exact hfirst
      | cons w vs =>
          rw [writeItems_cons_cons]
          have hrest := ih fun u hu => h u (List.mem_cons_of_mem _ hu)
          exact (hfirst.append (by decide)).append hrest

theorem isInline_writeFields {fs : List (Value × Value)} (hnames : ∀ f ∈ fs, ∃ t, f.1 = .text t)
    (h : ∀ f ∈ fs, IsInline (write .compact f.2)) : IsInline (writeFields .compact fs) := by
  induction fs with
  | nil => exact fun c hc => absurd hc List.not_mem_nil
  | cons f fs ih =>
      obtain ⟨k, v⟩ := f
      obtain ⟨t, rfl⟩ := hnames _ List.mem_cons_self
      have hname : IsInline (write .compact (.text t)) := by
        rw [write.eq_def]
        exact isInline_writeText t
      have hfirst : IsInline (write .compact v) := h _ List.mem_cons_self
      have hfield := (hname.append (t := Style.compact.keySeparator) (by decide)).append hfirst
      cases fs with
      | nil =>
          rw [writeFields]
          exact hfield
      | cons g fs =>
          rw [writeFields_cons_cons]
          have hrest := ih (fun g hg => hnames g (List.mem_cons_of_mem _ hg))
            (fun g hg => h g (List.mem_cons_of_mem _ hg))
          exact (hfield.append (by decide)).append hrest

/-- **The compact form of a plain value stands on one line.** -/
theorem isInline_write {d : Nat} {v : Value} (h : Plain d v) : IsInline (write .compact v) := by
  induction h with
  | null => decide
  | bool _ b => cases b <;> decide
  | text _ t =>
      rw [write.eq_def]
      exact isInline_writeText t
  | list _ ih =>
      rw [write.eq_def]
      have hopen := IsInline.append (s := ['[']) (by decide) (isInline_writeItems ih)
      exact hopen.append (by decide)
  | record hnames _ ih =>
      rw [write.eq_def]
      have hopen := IsInline.append (s := ['{']) (by decide) (isInline_writeFields hnames ih)
      exact hopen.append (by decide)

end Emend.Json
