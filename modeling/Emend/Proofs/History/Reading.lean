import Emend.Proofs.Data.Field
import Emend.Proofs.History.Runs

/-!
# Entries that are read

A line is an entry or not by itself: an entry that does not name its identifier or its time takes them
from a supply, but what the supply has plays no part in whether the line is one (`Entry.check_elsewhere`).
So a file is read exactly if each of its lines is blank or an entry (`readLines_of_isEntry`,
`spells_of_readLines`), and it is listed exactly if the times of its entries can be compared: all of them
have an offset or none has (`load_valid`).
-/

namespace Emend.History

/-! ## Fields -/

/-- A field that may be absent is checked alike whatever is taken in its place. -/
theorem optional_congr {α : Type} {fields : List (Value × Value)} {name : String} {a x : α}
    {check : Value → Checked α} (h : optional fields name a check = .valid x) (b : α) :
    ∃ y, optional fields name b check = .valid y ∧ (y = x ∨ x = a ∧ y = b) := by
  unfold optional at h ⊢
  cases hfield : Value.lookup? fields name.toList with
  | none =>
      rw [hfield] at h
      exact ⟨b, rfl, Or.inr ⟨(Checked.valid.inj h).symm, rfl⟩⟩
  | some v =>
      rw [hfield] at h
      exact ⟨x, h, Or.inl rfl⟩

/-- What would be taken in place of a field that is there is of no account. -/
theorem optional_of_present {α : Type} {fields : List (Value × Value)} {name : String}
    (h : (Value.lookup? fields name.toList).isNone = false) (a b : α) (check : Value → Checked α) :
    optional fields name a check = optional fields name b check := by
  obtain ⟨v, hv⟩ := Option.isSome_iff_exists.mp (Option.isNone_eq_false_iff.mp h)
  unfold optional
  rw [hv]

theorem eq_or_exists_of_optional {α : Type} {fields : List (Value × Value)} {name : String} {a x : α}
    {check : Value → Except Fault α}
    (h : (optional fields name a fun v => .ofExcept (check v)) = .valid x) :
    x = a ∨ ∃ v, check v = .ok x := by
  unfold optional at h
  cases hfield : Value.lookup? fields name.toList with
  | none =>
      rw [hfield] at h
      exact Or.inl (Checked.valid.inj h).symm
  | some v =>
      rw [hfield] at h
      exact Or.inr ⟨v, Checked.ofExcept_inside_eq_valid_iff.mp h⟩

/-! ## Entries -/

/-- The supply may have been asked for identifiers and for the time since. -/
def Later (s s' : Supply) : Prop := s'.time = s.time ∧ s'.identifier = s.identifier

theorem Later.refl (s : Supply) : Later s s := ⟨rfl, rfl⟩

theorem Later.trans {s s' s'' : Supply} (h : Later s s') (h' : Later s' s'') : Later s s'' :=
  ⟨h'.1.trans h.1, h'.2.trans h.2⟩

/-- The entry of the fields, which takes the identifier and the time if it has none of its own. -/
def Entry.ofFields (fields : List (Value × Value)) (id : Text) (time : Timestamp) : Checked Entry :=
  (optional fields "id" id fun v => .ofExcept (Config.checkText v)).map Entry.mk
    |>.andAlso (optional fields "timestamp" time fun v => .ofExcept (Timestamp.check v))
    |>.andAlso (required fields "repository" fun v => .ofExcept (Config.checkText v))
    |>.andAlso (required fields "is_successful" fun v => .ofExcept (checkBool v))
    |>.andAlso (optional fields "changes" [] checkRecords)

/-- The entry of a record takes what the supply has next. -/
theorem Entry.check_fields (fields : List (Value × Value)) (s : Supply) :
    ∃ s', Entry.check (.record fields) s = (Entry.ofFields fields s.draw.1 s.readClock.1, s') ∧
      Later s s' := by
  unfold Entry.check Entry.ofFields
  cases hid : (Value.lookup? fields "id".toList).isNone with
  | true =>
      cases htime : (Value.lookup? fields "timestamp".toList).isNone with
      | true =>
          simp only [hid, htime, if_true]
          exact ⟨_, rfl, rfl, rfl⟩
      | false =>
          rw [optional_of_present htime s.readClock.1 ⟨0, none⟩]
          simp only [hid, htime, if_true, Bool.false_eq_true, if_false]
          exact ⟨_, rfl, rfl, rfl⟩
  | false =>
      rw [optional_of_present hid s.draw.1 []]
      cases htime : (Value.lookup? fields "timestamp".toList).isNone with
      | true =>
          simp only [hid, htime, if_true, Bool.false_eq_true, if_false]
          exact ⟨_, rfl, rfl, rfl⟩
      | false =>
          rw [optional_of_present htime s.readClock.1 ⟨0, none⟩]
          simp only [hid, htime, Bool.false_eq_true, if_false]
          exact ⟨_, rfl, Later.refl s⟩

theorem Entry.ofFields_eq_valid_iff {fields : List (Value × Value)} {id : Text} {time : Timestamp}
    {e : Entry} :
    Entry.ofFields fields id time = .valid e ↔
      (optional fields "id" id fun v => .ofExcept (Config.checkText v)) = .valid e.id ∧
      (optional fields "timestamp" time fun v => .ofExcept (Timestamp.check v)) = .valid e.time ∧
      (required fields "repository" fun v => .ofExcept (Config.checkText v)) = .valid e.repository ∧
      (required fields "is_successful" fun v => .ofExcept (checkBool v)) = .valid e.isSuccessful ∧
      optional fields "changes" [] checkRecords = .valid e.changes := by
  unfold Entry.ofFields
  constructor
  · intro h
    obtain ⟨_, _, h₄, hchanges, rfl⟩ := Checked.andAlso_eq_valid_iff.mp h
    obtain ⟨_, _, h₃, hsuccessful, rfl⟩ := Checked.andAlso_eq_valid_iff.mp h₄
    obtain ⟨_, _, h₂, hrepository, rfl⟩ := Checked.andAlso_eq_valid_iff.mp h₃
    obtain ⟨_, _, h₁, htime, rfl⟩ := Checked.andAlso_eq_valid_iff.mp h₂
    obtain ⟨_, hid, rfl⟩ := Checked.map_eq_valid_iff.mp h₁
    exact ⟨hid, htime, hrepository, hsuccessful, hchanges⟩
  · rintro ⟨hid, htime, hrepository, hsuccessful, hchanges⟩
    rw [hid, htime, hrepository, hsuccessful, hchanges]
    rfl

/-- An entry has a time that a field can have, or the next one of the supply. -/
theorem Entry.time_of_check {v : Value} {s s' : Supply} {e : Entry}
    (h : Entry.check v s = (.valid e, s')) :
    Later s s' ∧ (e.time = s.readClock.1 ∨ e.time.IsAccepted) := by
  cases v with
  | record fields =>
      obtain ⟨s₁, hcheck, hlater⟩ := Entry.check_fields fields s
      obtain ⟨hvalid, rfl⟩ := Prod.mk.inj (hcheck.symm.trans h)
      obtain ⟨-, htime, -⟩ := Entry.ofFields_eq_valid_iff.mp hvalid
      exact ⟨hlater, eq_or_exists_of_optional htime⟩
  | _ => cases h

/-- **A value that is an entry is one with any supply.** If it names its time, the time is the same. -/
theorem Entry.check_elsewhere {v : Value} {s s' : Supply} {e : Entry}
    (h : Entry.check v s = (.valid e, s')) (t : Supply) :
    ∃ e' t', Entry.check v t = (.valid e', t') ∧
      (e'.time = e.time ∨ e.time = s.readClock.1 ∧ e'.time = t.readClock.1) := by
  cases v with
  | record fields =>
      obtain ⟨s₁, hcheck, -⟩ := Entry.check_fields fields s
      obtain ⟨hvalid, -⟩ := Prod.mk.inj (hcheck.symm.trans h)
      obtain ⟨hid, htime, hrest⟩ := Entry.ofFields_eq_valid_iff.mp hvalid
      obtain ⟨id, hid', -⟩ := optional_congr hid t.draw.1
      obtain ⟨time, htime', hsame⟩ := optional_congr htime t.readClock.1
      obtain ⟨t₁, hcheck', -⟩ := Entry.check_fields fields t
      have hvalid' : Entry.ofFields fields t.draw.1 t.readClock.1 = .valid { e with id, time } :=
        Entry.ofFields_eq_valid_iff.mpr ⟨hid', htime', hrest⟩
      exact ⟨{ e with id, time }, t₁, by rw [hcheck', hvalid'], hsame⟩
  | _ => cases h

/-! ## Lines -/

/-- The line is an entry by itself. -/
def IsEntry (line : Text) : Prop :=
  ∃ v s e s', Json.read line = .ok v ∧ Entry.check v s = (.valid e, s')

/-- The line spells the entry, where an identifier and a time that it does not name come from the
supply. -/
def Spells (s : Supply) (line : Text) (e : Entry) : Prop :=
  ∃ v s₁ s₂, Json.read line = .ok v ∧ Later s s₁ ∧ Entry.check v s₁ = (.valid e, s₂)

/-- The lines that mean something. -/
def written (lines : List Text) : List Text := lines.filter fun line => !Text.allBlank line

theorem Spells.isEntry {s : Supply} {line : Text} {e : Entry} (h : Spells s line e) : IsEntry line := by
  obtain ⟨v, s₁, s₂, hread, -, hcheck⟩ := h
  exact ⟨v, s₁, e, s₂, hread, hcheck⟩

/-- The line that is written for an entry is that entry. -/
theorem isEntry_json {e : Entry} (h : e.time.IsProper) : IsEntry e.json :=
  ⟨e.value, sampleHost.supply, e, sampleHost.supply, read_json e, Entry.check_value h _⟩

theorem Spells.eq_of_json {s : Supply} {e e' : Entry} (h : e.time.IsProper)
    (hspells : Spells s e.json e') : e' = e := by
  obtain ⟨v, s₁, s₂, hread, -, hcheck⟩ := hspells
  obtain rfl := Except.ok.inj ((read_json e).symm.trans hread)
  rw [Entry.check_value h] at hcheck
  exact (Checked.valid.inj (Prod.mk.inj hcheck).1).symm

/-- The lines that are written for entries spell these entries and no others. -/
theorem eq_of_spells_json {s : Supply} {es es' : List Entry} (h : ∀ e ∈ es, e.time.IsProper)
    (hspells : List.Forall₂ (Spells s) (es.map Entry.json) es') : es = es' := by
  induction es generalizing es' with
  | nil => exact (List.forall₂_nil_left_iff.mp hspells).symm
  | cons e es ih =>
      cases hspells with
      | cons hfirst hrest =>
          rw [hfirst.eq_of_json (h e List.mem_cons_self),
            ih (fun e' he' => h e' (List.mem_cons_of_mem e he')) hrest]

theorem Spells.later {s s' : Supply} {line : Text} {e : Entry} (hs : Later s s') (h : Spells s' line e) :
    Spells s line e := by
  obtain ⟨v, s₁, s₂, hread, hlater, hcheck⟩ := h
  exact ⟨v, s₁, s₂, hread, hs.trans hlater, hcheck⟩

/-- **Lines that are entries are read**, in order. -/
theorem readLines_of_isEntry (l : Location) {lines : List Text}
    (h : ∀ line ∈ written lines, IsEntry line) (number : Nat) (s : Supply) :
    ∃ es s', readLines l number lines s = (.ok es, s') ∧ Later s s' ∧
      List.Forall₂ (Spells s) (written lines) es := by
  -- on the lines, each of which passes the supply on to the next
  induction lines generalizing number s with
  | nil => exact ⟨[], s, rfl, Later.refl s, .nil⟩
  | cons line lines ih =>
      rw [readLines]
      cases hblank : Text.allBlank line with
      | true =>
          have hskip : written (line :: lines) = written lines :=
            List.filter_cons_of_neg (by simp [hblank])
          rw [hskip] at h ⊢
          exact ih h (number + 1) s
      | false =>
          have hkeep : written (line :: lines) = line :: written lines :=
            List.filter_cons_of_pos (by simp [hblank])
          rw [hkeep] at h ⊢
          obtain ⟨v, t, e₀, t', hread, hcheck₀⟩ := h line List.mem_cons_self
          obtain ⟨e, s₁, hcheck, -⟩ := Entry.check_elsewhere hcheck₀ s
          obtain ⟨hlater, -⟩ := Entry.time_of_check hcheck
          obtain ⟨es, s', hrest, hlater', hspells⟩ :=
            ih (fun line hline => h line (List.mem_cons_of_mem _ hline)) (number + 1) s₁
          refine ⟨e :: es, s', ?_, hlater.trans hlater', .cons ?_ ?_⟩
          · rw [hread]
            simp only [hcheck, hrest]
            rfl
          · exact ⟨v, s, s₁, hread, Later.refl s, hcheck⟩
          · exact hspells.imp fun _ _ => Spells.later hlater

/-- **What is read from lines** is spelled by them. -/
theorem spells_of_readLines {l : Location} {lines : List Text} {number : Nat} {s s' : Supply}
    {es : List Entry} (h : readLines l number lines s = (.ok es, s')) :
    Later s s' ∧ List.Forall₂ (Spells s) (written lines) es := by
  induction lines generalizing number s es with
  | nil =>
      obtain ⟨hes, rfl⟩ := Prod.mk.inj h
      rw [← Except.ok.inj hes]
      exact ⟨Later.refl s, .nil⟩
  | cons line lines ih =>
      rw [readLines] at h
      cases hblank : Text.allBlank line with
      | true =>
          have hskip : written (line :: lines) = written lines :=
            List.filter_cons_of_neg (by simp [hblank])
          rw [hblank, if_pos rfl] at h
          rw [hskip]
          exact ih h
      | false =>
          have hkeep : written (line :: lines) = line :: written lines :=
            List.filter_cons_of_pos (by simp [hblank])
          rw [hblank, if_neg Bool.false_ne_true] at h
          rw [hkeep]
          cases hread : Json.read line with
          | error e => rw [hread] at h; cases h
          | ok v =>
              rw [hread] at h
              dsimp only at h
              generalize hcheck : Entry.check v s = checked at h
              obtain ⟨_ | _, s₁⟩ := checked
              · rename_i e
                obtain ⟨hlater, -⟩ := Entry.time_of_check hcheck
                obtain ⟨hes, rfl⟩ := Prod.mk.inj h
                cases hrest : (readLines l (number + 1) lines s₁).1 with
                | error failure => rw [hrest] at hes; cases hes
                | ok entries =>
                    rw [hrest] at hes
                    obtain ⟨hlater', hspells⟩ := ih (Prod.ext hrest rfl)
                    rw [← Except.ok.inj hes]
                    refine ⟨hlater.trans hlater', .cons ⟨v, s, s₁, hread, Later.refl s, hcheck⟩ ?_⟩
                    exact hspells.imp fun _ _ => Spells.later hlater
              · cases h

/-! ## Files -/

theorem linesOf_encode (t : Text) :
    linesOf (Utf8.encode t) = ⟨Text.lines (Text.universalNewlines t), none⟩ := by
  rw [linesOf, Utf8.decodeStream_encode (fun _ => by decide)]

/-- **Loading entries that are each valid.** If every line of a file is blank or an entry by itself, all
of them are read. They are listed from the newest on, by the instants of their times, exactly if all of
the times have an offset or none has; a file with times of both kinds is not listed at all. -/
theorem load_valid {path : Text} {l : Location} {h : Host} {p : Path} {t : Text}
    (hl : Location.ofText h.disk.cwd path = l) (hnames : l.checkNames = .ok ())
    (hfind : h.disk.find l = .ok (p, some (.file (Utf8.encode t))))
    (hlines : ∀ line ∈ written (Text.lines (Text.universalNewlines t)), IsEntry line) :
    ∃ es, List.Forall₂ (Spells h.supply) (written (Text.lines (Text.universalNewlines t))) es ∧
      ((∀ a ∈ es, ∀ b ∈ es, a.time.offset.isSome = b.time.offset.isSome) →
        ∃ listed, (load path h).result = .ok listed ∧ listed.Perm es ∧
          listed.Pairwise fun a b => b.time.instant ≤ a.time.instant) ∧
      ((∃ a ∈ es, ∃ b ∈ es, a.time.offset.isSome ∧ b.time.offset = none) →
        (load path h).result = .error .incomparableTimes) := by
  obtain ⟨es, s, hread, -, hspells⟩ := readLines_of_isEntry l hlines 1 h.supply
  have hentries := readEntries_of_readLines hfind (linesOf_encode t) hread
  have hload := load_of_file hl hnames hfind
  rw [Act.bind_of_ok hentries] at hload
  refine ⟨es, hspells, fun hsame => ?_, fun ⟨a, ha, b, hb, hsome, hnone⟩ => ?_⟩
  · have hmixed : isMixed es = false := isMixed_eq_false_iff.mpr hsame
    refine ⟨newestFirst es, ?_, newestFirst_sorted es⟩
    rw [hload, hmixed]
    rfl
  · have hmixed : isMixed es = true := isMixed_eq_true_iff.mpr ⟨⟨a, ha, hsome⟩, b, hb, hnone⟩
    rw [hload, hmixed]
    rfl

/-- An entry with that time. -/
def entryAt (wall : Int) (offset : Option Int) : Entry := ⟨[], ⟨wall, offset⟩, [], true, []⟩

/-- A host with a history file of that text. -/
def hostWithText (t : Text) : Host where
  disk := { entries := [(["w".toList], .directory), (["w".toList, "h".toList], .file (Utf8.encode t))],
            cwd := ["w".toList], home := [] }
  supply := { time := fun _ => ⟨0, some 0⟩, identifier := fun _ => [] }

/-- A host with a history file of these entries. -/
def hostWith (es : List Entry) : Host := hostWithText (es.flatMap Entry.line)

/-- The clock of the second entry shows less than that of the first, but it is so far behind that the
second entry is the newer one. -/
def sampleEntries : List Entry := [entryAt 3600000000 (some 0), entryAt 0 (some (-7200))]

/-- An entry with an offset and one without. -/
def sampleMixed : List Entry := [entryAt 0 (some 0), entryAt 0 none]

theorem isProper_sample {e : Entry} (h : e ∈ sampleEntries ++ sampleMixed) : e.time.IsProper := by
  have hcheck : ∀ e ∈ sampleEntries ++ sampleMixed,
      Timestamp.check (.text e.time.text) = .ok e.time := by decide +kernel
  exact Timestamp.isProper_of_check (hcheck e h)

/-- Both entries are listed, in the order of their instants. -/
theorem load_valid_offsets :
    (∀ line ∈ written (Text.lines (Text.universalNewlines (sampleEntries.flatMap Entry.line))),
        IsEntry line) ∧
      ∃ listed, (load "h".toList (hostWith sampleEntries)).result = .ok listed ∧
        listed.Perm sampleEntries ∧ listed.Pairwise fun a b => b.time.instant ≤ a.time.instant := by
  have hproper : ∀ e ∈ sampleEntries, e.time.IsProper :=
    fun e he => isProper_sample (List.mem_append_left sampleMixed he)
  have hlines : written (Text.lines (Text.universalNewlines (sampleEntries.flatMap Entry.line))) =
      sampleEntries.map Entry.json := by decide
  have hvalid : ∀ line ∈ written (Text.lines (Text.universalNewlines
      (sampleEntries.flatMap Entry.line))), IsEntry line := by
    rw [hlines, List.forall_mem_map]
    exact fun e he => isEntry_json (hproper e he)
  have hloaded := @load_valid "h".toList _ (hostWith sampleEntries) _ _ rfl (by decide) rfl
    hvalid
  rw [hlines] at hloaded
  obtain ⟨es, hspells, hlisted, -⟩ := hloaded
  obtain rfl := eq_of_spells_json hproper hspells
  exact ⟨hvalid, hlisted (by decide)⟩

/-- It is not so that every file of valid entries is listed. -/
theorem not_load_valid : ¬ ∀ (h : Host) (path : Text) (l : Location) (p : Path) (t : Text),
    Location.ofText h.disk.cwd path = l → l.checkNames = .ok () →
      h.disk.find l = .ok (p, some (.file (Utf8.encode t))) →
        (∀ line ∈ written (Text.lines (Text.universalNewlines t)), IsEntry line) →
          ∃ listed, (load path h).result = .ok listed := by
  intro h
  have hresult : (load "h".toList (hostWith sampleMixed)).result = .error .incomparableTimes := by
    decide +kernel
  have hlines : written (Text.lines (Text.universalNewlines (sampleMixed.flatMap Entry.line))) =
      sampleMixed.map Entry.json := by decide
  obtain ⟨listed, hlisted⟩ := h (hostWith sampleMixed) "h".toList _ _ _ rfl (by decide) rfl (by
    rw [hlines, List.forall_mem_map]
    exact fun e he => isEntry_json (isProper_sample (List.mem_append_right sampleEntries he)))
  rw [hresult] at hlisted
  cases hlisted

end Emend.History
