import Emend.Proofs.Data.JsonFront
import Emend.Proofs.History.Reading
import Emend.Proofs.Text.Bytes

/-!
# Adding to a history that is there

An entry is written behind what a file has, and only then is the file read. What was written stays, so a
call that fails leaves a longer file, and one that cannot be loaded.

A file that can be loaded takes the new line if it ends where a line does. Otherwise the two make up one
line, which is an entry only if nothing but blanks of JSON stands in front (`isEntry_append_json_iff`).
Behind that the file can be loaded unless the new time and those that are kept cannot be compared
(`isMixed_lastOf`). `append_accepted` puts these together.
-/

namespace Emend.History

/-! ## Readable files -/

/-- Each line of the file is blank or an entry by itself. -/
def Readable (bs : Bytes) : Prop :=
  ∃ lines, linesOf bs = ⟨lines, none⟩ ∧ ∀ line ∈ written lines, IsEntry line

section

variable {path : Text} {l : Location} {h : Host} {p : Path} {bs : Bytes} {lines : List Text}

theorem readEntries_of_isEntry (hfind : h.disk.find l = .ok (p, some (.file bs)))
    (hlines : linesOf bs = ⟨lines, none⟩) (hentries : ∀ line ∈ written lines, IsEntry line) :
    ∃ es s, readEntries l h = ⟨.ok es, { h with supply := s }, []⟩ ∧ Later h.supply s ∧
      List.Forall₂ (Spells h.supply) (written lines) es := by
  obtain ⟨es, s, hread, hlater, hspells⟩ := readLines_of_isEntry l hentries 1 h.supply
  exact ⟨es, s, readEntries_of_readLines hfind hlines hread, hlater, hspells⟩

theorem readEntries_of_not_readable (hfind : h.disk.find l = .ok (p, some (.file bs)))
    (hnot : ¬ Readable bs) : ∃ f s, readEntries l h = ⟨.error f, { h with supply := s }, []⟩ := by
  have hbytes : Host.examine (·.readFile l) h = ⟨.ok bs, h, []⟩ := by
    rw [Host.examine, Act.reading, Disk.readFile, hfind]
    rfl
  cases hread : readLines l 1 (linesOf bs).lines h.supply with
  | mk r s =>
      have hsupplied : Host.supplied (readLines l 1 (linesOf bs).lines) h =
          ⟨r, { h with supply := s }, []⟩ := by
        rw [Host.supplied, hread]
      cases r with
      | error f =>
          refine ⟨f, s, ?_⟩
          rw [readEntries, Act.bind_of_ok hbytes]
          exact Act.bind_of_error hsupplied
      | ok es =>
          cases hrefusal : (linesOf bs).refusal with
          | some e =>
              refine ⟨.notText e, s, ?_⟩
              rw [readEntries, Act.bind_of_ok hbytes]
              refine (Act.bind_of_ok hsupplied).trans ?_
              rw [hrefusal]
              rfl
          | none =>
              have hspells := (spells_of_readLines hread).2
              refine absurd ⟨(linesOf bs).lines, by rw [← hrefusal], fun line hline => ?_⟩ hnot
              obtain ⟨i, hi, rfl⟩ := List.mem_iff_getElem.mp hline
              exact (hspells.get hi (hspells.length_eq ▸ hi)).isEntry

end

/-! ## Lines that are gone on with -/

/-- What stands behind the last line end of a file. -/
def openLine (bs : Bytes) : Text := (linesOf bs).lines.getLastD []

theorem Entry.exists_json (e : Entry) : ∃ u, e.json = '{' :: u := by
  rw [Entry.json, Entry.value, Value.object, Json.write.eq_def]
  exact ⟨_, rfl⟩

/-- The line of an entry goes on with the open line of a file and closes it. -/
theorem exists_lines_append {bs : Bytes} {lines : List Text} (h : linesOf bs = ⟨lines, none⟩)
    (e : Entry) :
    ∃ before, lines = before ++ [openLine bs] ∧
      linesOf (bs ++ Utf8.encode e.line) = ⟨before ++ [openLine bs ++ e.json, []], none⟩ := by
  obtain ⟨t, rfl, rfl⟩ : ∃ t, bs = Utf8.encode t ∧ lines = Text.lines (Text.universalNewlines t) := by
    rw [linesOf] at h
    split at h
    · rename_i u hdecoded
      obtain ⟨t, ht, rfl⟩ := Utf8.exists_of_decodeStream (fun _ => by decide) hdecoded
      exact ⟨t, ht, (Lines.mk.inj h).1.symm⟩
    · cases h
  have hne := Text.lines_ne_nil (Text.universalNewlines t)
  have hopen : openLine (Utf8.encode t) = (Text.lines (Text.universalNewlines t)).getLast hne := by
    rw [openLine, h, List.getLastD_eq_getLast?, List.getLast?_eq_some_getLast hne]
    rfl
  have hline : Text.universalNewlines (t ++ e.line) = Text.universalNewlines t ++ e.json ++ ['\n'] := by
    obtain ⟨u, hu⟩ := e.exists_json
    have hreturn : '\r' ∉ e.line := by
      rw [Entry.line_eq, List.mem_append, not_or]
      exact ⟨e.not_mem_json (by decide), by decide⟩
    have hsplit : e.line = '{' :: (u ++ ['\n']) := by rw [Entry.line_eq, hu, List.cons_append]
    rw [hsplit, Text.universalNewlines_append (by decide), ← hsplit,
      Text.universalNewlines_of_not_mem hreturn, Entry.line_eq, List.append_assoc]
  refine ⟨(Text.lines (Text.universalNewlines t)).dropLast, ?_, ?_⟩
  · rw [hopen, List.dropLast_concat_getLast]
  · have hempty : Text.lines [] = [[]] := rfl
    rw [hopen, ← Utf8.encode_append, linesOf_encode, hline, Text.lines_append_newline, hempty,
      Text.lines_append_inline _ (e.not_mem_json (by decide)), List.append_assoc]
    rfl

/-- **An entry behind something else is an entry** only if what stands in front are blanks of JSON. -/
theorem isEntry_append_json_iff {line : Text} (h : Text.allBlank line = true ∨ IsEntry line) {e : Entry}
    (he : e.time.IsProper) : IsEntry (line ++ e.json) ↔ ∀ c ∈ line, Json.isSpace c := by
  constructor
  · rintro ⟨v, s, e', s', hread, -⟩
    rw [← Json.skipSpace_eq_nil_iff]
    cases hskip : Json.skipSpace line with
    | nil => rfl
    | cons c r =>
        rcases h with hblank | ⟨v', -, -, -, hread', -⟩
        · -- a blank that is none of JSON
          have hmem : c ∈ line := (List.dropWhile_suffix _).subset (hskip ▸ List.mem_cons_self)
          have hc : Text.isBlank c = true := List.all_eq_true.mp hblank c hmem
          rw [Json.read_of_blank (Json.skipSpace_append_cons hskip e.json) hc] at hread
          cases hread
        · obtain ⟨u, hu⟩ := e.exists_json
          rw [hu, Json.read_append_record hread'] at hread
          cases hread
  · intro hspaces
    exact ⟨e.value, sampleHost.supply, e, sampleHost.supply,
      Json.read_spaces_append hspaces e.plain_value (by decide), Entry.check_value he _⟩

/-! ## Times with and without an offset -/

/-- Whether the times can be compared hangs on nothing but which of them have an offset. -/
theorem isMixed_congr {es es' : List Entry}
    (h : es.map (·.time.offset.isSome) = es'.map (·.time.offset.isSome)) : isMixed es = isMixed es' := by
  have hmixed : ∀ es : List Entry, isMixed es =
      ((es.map (·.time.offset.isSome)).any id && (es.map (·.time.offset.isSome)).any not) := by
    intro es
    rw [isMixed, List.any_map, List.any_map]
    congr 2
    funext e
    exact (Option.not_isSome _).symm
  rw [hmixed, hmixed, h]

/-- Where the clock shows times with an offset, a line has always a time with an offset or never. -/
theorem Spells.offset_eq {s s' : Supply} {line : Text} {e e' : Entry}
    (hclock : ∀ n, (s.time n).offset.isSome) (hlater : Later s s') (h : Spells s line e)
    (h' : Spells s' line e') : e.time.offset.isSome = e'.time.offset.isSome := by
  obtain ⟨v, s₁, s₂, hread, hs₁, hcheck⟩ := h
  obtain ⟨v', s₁', s₂', hread', hs₁', hcheck'⟩ := h'
  obtain rfl := Except.ok.inj (hread.symm.trans hread')
  obtain ⟨e'', s₂'', hcheck'', htime⟩ := Entry.check_elsewhere hcheck s₁'
  obtain rfl := Checked.valid.inj (Prod.mk.inj (hcheck'.symm.trans hcheck'')).1
  rcases htime with htime | ⟨htime, htime'⟩
  · rw [htime]
  · have hfirst : s₁.time = s.time := hs₁.1
    have hsecond : s₁'.time = s.time := (hlater.trans hs₁').1
    rw [htime, htime', Supply.readClock, Supply.readClock, hfirst, hsecond]
    exact (hclock _).trans (hclock _).symm

theorem offsets_of_spells {s s' : Supply} {lines : List Text} {es es' : List Entry}
    (hclock : ∀ n, (s.time n).offset.isSome) (hlater : Later s s')
    (h : List.Forall₂ (Spells s) lines es) (h' : List.Forall₂ (Spells s') lines es') :
    es.map (·.time.offset.isSome) = es'.map (·.time.offset.isSome) := by
  induction h generalizing es' with
  | nil =>
      cases h'
      rfl
  | cons hfirst _ ih =>
      cases h' with
      | cons hfirst' hrest' =>
          rw [List.map_cons, List.map_cons, hfirst.offset_eq hclock hlater hfirst', ih hrest']

/-- Where the clock shows times that a field can have, lines spell entries with such times. -/
theorem accepted_of_spells {s : Supply} {lines : List Text} {es : List Entry}
    (hclock : ∀ n, (s.time n).IsAccepted) (h : List.Forall₂ (Spells s) lines es) :
    ∀ e ∈ es, e.time.IsAccepted := by
  induction h with
  | nil => simp
  | cons hfirst _ ih =>
      obtain ⟨v, s₁, s₂, -, hlater, hcheck⟩ := hfirst
      rw [List.forall_mem_cons]
      refine ⟨?_, ih⟩
      rcases (Entry.time_of_check hcheck).2 with htime | haccepted
      · have hclock' := hclock s₁.readings
        rw [← hlater.1] at hclock'
        rw [htime]
        exact hclock'
      · exact haccepted

theorem map_lastOf {α β : Type} (f : α → β) (limit : Int) (xs : List α) :
    (lastOf limit xs).map f = lastOf limit (xs.map f) := by
  unfold lastOf
  split
  · simp [List.rtake, List.map_drop]
  · rfl

/-- **What is kept can be listed** if what was there can be, and the new time can be compared with it or
nothing of it is kept. -/
theorem isMixed_lastOf {es : List Entry} (h : isMixed es = false) (e : Entry) (limit : Int) :
    isMixed (lastOf limit (es ++ [e])) = false ↔
      limit = 1 ∨ ∀ a ∈ es, a.time.offset.isSome = e.time.offset.isSome := by
  rw [isMixed_eq_false_iff] at h ⊢
  constructor
  · intro hkept
    rw [or_iff_not_imp_left]
    intro hlimit a ha
    rcases List.eq_nil_or_concat es with rfl | ⟨es, b, rfl⟩
    · cases ha
    · -- the last two are kept
      rw [List.concat_eq_append] at h hkept ha
      have hboth : b ∈ lastOf limit (es ++ [b] ++ [e]) ∧ e ∈ lastOf limit (es ++ [b] ++ [e]) := by
        unfold lastOf
        split
        · obtain ⟨n, hn⟩ : ∃ n, limit.toNat = n + 1 + 1 := ⟨limit.toNat - 2, by omega⟩
          rw [hn, List.rtake_concat_succ, List.rtake_concat_succ]
          simp
        · simp
      exact (h a ha b (by simp)).trans (hkept b hboth.1 e hboth.2)
  · rintro (rfl | hsame)
    · have hlast : lastOf 1 (es ++ [e]) = [e] := by
        have hone : (1 : Int).toNat = 0 + 1 := rfl
        rw [lastOf, if_pos (by decide), hone, List.rtake_concat_succ, List.rtake_zero]
        rfl
      intro a ha b hb
      rw [hlast, List.mem_singleton] at ha hb
      rw [ha, hb]
    · have hall : ∀ a ∈ lastOf limit (es ++ [e]), a.time.offset.isSome = e.time.offset.isSome := by
        intro a ha
        rcases List.mem_append.mp ((sublist_lastOf limit (es ++ [e])).subset ha) with ha | ha
        · exact hsame a ha
        · rw [List.mem_singleton.mp ha]
      intro a ha b hb
      exact (hall a ha).trans (hall b hb).symm

/-- What goes on to an entry is not blank. -/
theorem written_closed (before : List Text) (line : Text) (e : Entry) :
    written (before ++ [line ++ e.json, []]) = written before ++ [line ++ e.json] := by
  have hjson : Text.allBlank (line ++ e.json) = false := by
    unfold Text.allBlank
    rw [List.all_append]
    exact Bool.and_eq_false_iff.mpr (Or.inr e.allBlank_json)
  unfold written
  rw [List.filter_append, List.filter_cons_of_pos (by simp [hjson])]
  rfl

theorem isBlank_of_isSpace {c : Char} (h : Json.isSpace c = true) : Text.isBlank c = true := by
  simp only [Json.isSpace, Bool.or_eq_true, decide_eq_true_eq] at h
  rcases h with ((rfl | rfl) | rfl) | rfl <;> rfl

/-- Behind nothing but blanks of JSON, a line more is one entry more. -/
theorem exists_written_append {bs : Bytes} {lines : List Text} (hlines : linesOf bs = ⟨lines, none⟩)
    (hentries : ∀ line ∈ written lines, IsEntry line) (hopen : ∀ c ∈ openLine bs, Json.isSpace c)
    {e : Entry} (he : e.time.IsProper) :
    ∃ lines', linesOf (bs ++ Utf8.encode e.line) = ⟨lines', none⟩ ∧
      written lines' = written lines ++ [openLine bs ++ e.json] ∧
      ∀ line ∈ written lines', IsEntry line := by
  have hblank : Text.allBlank (openLine bs) = true :=
    List.all_eq_true.mpr fun c hc => isBlank_of_isSpace (hopen c hc)
  obtain ⟨before, rfl, hclosed⟩ := exists_lines_append hlines e
  have hskip : written (before ++ [openLine bs]) = written before := by
    simp [written, hblank]
  refine ⟨_, hclosed, by rw [written_closed, hskip], fun line hline => ?_⟩
  rw [written_closed, List.mem_append, List.mem_singleton] at hline
  rcases hline with hline | rfl
  · exact hentries line (by rwa [hskip])
  · exact (isEntry_append_json_iff (Or.inl hblank) he).mpr hopen

/-- **A readable file stays readable** under a new line exactly if its open line has nothing but blanks
of JSON. -/
theorem readable_append_iff {bs : Bytes} (h : Readable bs) {e : Entry} (he : e.time.IsProper) :
    Readable (bs ++ Utf8.encode e.line) ↔ ∀ c ∈ openLine bs, Json.isSpace c := by
  obtain ⟨lines, hlines, hentries⟩ := h
  constructor
  · rintro ⟨lines', hlines', hentries'⟩
    obtain ⟨before, rfl, hclosed⟩ := exists_lines_append hlines e
    obtain rfl := (Lines.mk.inj (hlines'.symm.trans hclosed)).1
    rw [written_closed] at hentries'
    refine (isEntry_append_json_iff ?_ he).mp (hentries' _ (by simp))
    cases hblank : Text.allBlank (openLine bs) with
    | true => exact Or.inl rfl
    | false => exact Or.inr (hentries _ (by simp [written, hblank]))
  · intro hopen
    obtain ⟨lines', hlines', -, hentries'⟩ := exists_written_append hlines hentries hopen he
    exact ⟨lines', hlines', hentries'⟩

/-! ## One call -/

section

variable {path : Text} {l : Location} {h : Host} {p : Path} {bs : Bytes}

/-- A call writes its line behind what the file has, before it reads the file. -/
theorem append_of_file (hl : Location.ofText h.disk.cwd path = l) (hnames : l.checkNames = .ok ())
    (hne : l.names ≠ []) (hfind : h.disk.find l = .ok (p, some (.file bs))) (e : Entry) (limit : Int) :
    ∃ d, d.find l = .ok (p, some (.file (bs ++ Utf8.encode e.line))) ∧ d.cwd = h.disk.cwd ∧
      append path e limit h = keep l limit { h with disk := d } := by
  obtain ⟨q, hparent⟩ := Disk.find_parent hne hfind
  refine ⟨h.disk.put p (.file (bs ++ Utf8.encode e.line)), Disk.find_put hfind (by simp) _, rfl, ?_⟩
  refine append_eq_keep hl hnames (Disk.makeDirs_of_directory hparent) ?_ limit
  rw [Disk.appendFile, hfind]

/-- A file that is read is listed if the times of its entries can be compared. -/
theorem load_eq_ok_iff (hl : Location.ofText h.disk.cwd path = l) (hnames : l.checkNames = .ok ())
    (hfind : h.disk.find l = .ok (p, some (.file bs))) {es : List Entry} {h' : Host}
    (hread : readEntries l h = ⟨.ok es, h', []⟩) {listed : List Entry} :
    (load path h).result = .ok listed ↔ isMixed es = false ∧ listed = newestFirst es := by
  rw [load_of_file hl hnames hfind, Act.bind_of_ok hread]
  cases isMixed es with
  | true => exact ⟨nofun, fun hboth => nomatch hboth.1⟩
  | false => exact ⟨fun hok => ⟨rfl, (Except.ok.inj hok).symm⟩, fun hboth => hboth.2 ▸ rfl⟩

theorem exists_error_of_not_readable (hl : Location.ofText h.disk.cwd path = l)
    (hnames : l.checkNames = .ok ()) (hfind : h.disk.find l = .ok (p, some (.file bs)))
    (hnot : ¬ Readable bs) : ∃ f, (load path h).result = .error f := by
  obtain ⟨f, s, hread⟩ := readEntries_of_not_readable hfind hnot
  refine ⟨f, ?_⟩
  rw [load_of_file hl hnames hfind, Act.bind_of_error hread]

theorem exists_load_iff (hl : Location.ofText h.disk.cwd path = l) (hnames : l.checkNames = .ok ())
    (hfind : h.disk.find l = .ok (p, some (.file bs))) {es : List Entry} {h' : Host}
    (hread : readEntries l h = ⟨.ok es, h', []⟩) :
    (∃ listed, (load path h).result = .ok listed) ↔ isMixed es = false := by
  simp [load_eq_ok_iff hl hnames hfind hread]

variable {e : Entry} {limit : Int}

/-- **A call succeeds** exactly if the file can be read with the new line. -/
theorem append_isOk_iff (hl : Location.ofText h.disk.cwd path = l) (hnames : l.checkNames = .ok ())
    (hne : l.names ≠ []) (hfind : h.disk.find l = .ok (p, some (.file bs))) :
    (∃ name, (append path e limit h).result = .ok name) ↔ Readable (bs ++ Utf8.encode e.line) := by
  obtain ⟨d, hfind', -, hrun⟩ := append_of_file hl hnames hne hfind e limit
  rw [hrun]
  constructor
  · rintro ⟨name, hok⟩
    by_contra hnot
    obtain ⟨f, s, hread⟩ := readEntries_of_not_readable (h := { h with disk := d }) hfind' hnot
    rw [keep, Act.bind_of_error hread] at hok
    cases hok
  · rintro ⟨lines, hlines, hentries⟩
    obtain ⟨es, s, hread, -⟩ := readEntries_of_isEntry (h := { h with disk := d }) hfind' hlines hentries
    obtain ⟨-, hok, -⟩ := keep_of_entries hfind' hread limit
    exact ⟨l.shown, hok⟩

/-- A call that fails leaves its line behind, and a file that cannot be loaded. -/
theorem append_error (hl : Location.ofText h.disk.cwd path = l) (hnames : l.checkNames = .ok ())
    (hne : l.names ≠ []) (hfind : h.disk.find l = .ok (p, some (.file bs))) {f : Failure}
    (hfail : (append path e limit h).result = .error f) :
    (append path e limit h).state.disk.readFile l = .ok (bs ++ Utf8.encode e.line) ∧
      ∃ f', (load path (append path e limit h).state).result = .error f' := by
  have hnot : ¬ Readable (bs ++ Utf8.encode e.line) := by
    intro hreadable
    obtain ⟨name, hok⟩ := (append_isOk_iff hl hnames hne hfind).mpr hreadable
    rw [hfail] at hok
    cases hok
  obtain ⟨d, hfind', hcwd, hrun⟩ := append_of_file hl hnames hne hfind e limit
  obtain ⟨f', s, hread⟩ := readEntries_of_not_readable (h := { h with disk := d }) hfind' hnot
  have hkeep : keep l limit { h with disk := d } = ⟨.error f', ⟨d, s⟩, []⟩ := by
    rw [keep, Act.bind_of_error hread]
  rw [hrun, hkeep]
  refine ⟨by rw [Disk.readFile, hfind'], ?_⟩
  exact exists_error_of_not_readable (by rw [hcwd, hl]) hnames hfind' hnot

/-- **Behind a call that succeeds** the file is listed exactly if nothing of the old entries is kept, or
the new time can be compared with theirs. -/
theorem exists_load_append_iff (hl : Location.ofText h.disk.cwd path = l)
    (hnames : l.checkNames = .ok ()) (hne : l.names ≠ [])
    (hfind : h.disk.find l = .ok (p, some (.file bs))) (he : e.time.IsProper)
    (hclock : ∀ n, (h.supply.time n).IsAccepted ∧ (h.supply.time n).offset.isSome) {lines : List Text}
    (hlines : linesOf bs = ⟨lines, none⟩) (hentries : ∀ line ∈ written lines, IsEntry line)
    (hopen : ∀ c ∈ openLine bs, Json.isSpace c) {es : List Entry}
    (hspells : List.Forall₂ (Spells h.supply) (written lines) es) (hmixed : isMixed es = false) :
    (∃ listed, (load path (append path e limit h).state).result = .ok listed) ↔
      limit = 1 ∨ ∀ a ∈ es, a.time.offset.isSome = e.time.offset.isSome := by
  have hoffsets : ∀ n, (h.supply.time n).offset.isSome := fun n => (hclock n).2
  obtain ⟨d, hfind', hcwd, hrun⟩ := append_of_file hl hnames hne hfind e limit
  obtain ⟨lines', hlines', hwritten, hentries'⟩ := exists_written_append hlines hentries hopen he
  have hnew : List.Forall₂ (Spells h.supply) (written lines') (es ++ [e]) := by
    have hline : Spells h.supply (openLine bs ++ e.json) e :=
      ⟨e.value, h.supply, h.supply, Json.read_spaces_append hopen e.plain_value (by decide),
        Later.refl _, Entry.check_value he _⟩
    rw [hwritten]
    exact List.rel_append hspells (.cons hline .nil)
  -- the call reads the old entries again, and those without a time have another one by now
  obtain ⟨es', s, hread, hlater, hspells'⟩ :=
    readEntries_of_isEntry (h := { h with disk := d }) hfind' hlines' hentries'
  have hsame := offsets_of_spells hoffsets (Later.refl _) hspells' hnew
  have hkept : isMixed (lastOf limit es') = isMixed (lastOf limit (es ++ [e])) :=
    isMixed_congr (by rw [map_lastOf, map_lastOf, hsame])
  obtain ⟨d', -, hstate, hcwd', hfile⟩ := keep_of_entries hfind' hread limit
  have hl' : Location.ofText d'.cwd path = l := by rw [hcwd', hcwd, hl]
  rw [← isMixed_lastOf hmixed e limit, ← hkept, hrun, hstate]
  rcases hfile with ⟨hdisk, hall⟩ | hholds
  · obtain rfl : d = d' := hdisk.symm
    obtain ⟨es'', s', hread'', -, hspells''⟩ :=
      readEntries_of_isEntry (h := ⟨d, s⟩) hfind' hlines' hentries'
    have hsame' := offsets_of_spells hoffsets hlater hspells' hspells''
    rw [exists_load_iff hl' hnames hfind' hread'', hall, isMixed_congr hsame']
  · obtain ⟨q, hfind''⟩ := hholds
    have hproper : ∀ a ∈ lastOf limit es', a.time.IsProper := fun a ha =>
      (accepted_of_spells (fun n => (hclock n).1) hspells' a
        ((sublist_lastOf limit es').subset ha)).isProper
    exact exists_load_iff hl' hnames hfind'' (readEntries_of_holds ⟨q, hfind''⟩ hproper)

end

/-- **Adding to a history that is there.** Whatever bytes the file has, a call that fails has written its
line all the same, and the file cannot be loaded then. If the file could be loaded before, the call
succeeds exactly if nothing but blanks of JSON stands behind the last line end. The file can be loaded
afterwards exactly if moreover the new entry alone is kept, or the new time and the old ones all have an
offset or all have none. -/
theorem append_accepted {path : Text} {l : Location} {h : Host} {p : Path} {bs : Bytes} {e : Entry}
    (hl : Location.ofText h.disk.cwd path = l) (hnames : l.checkNames = .ok ()) (hne : l.names ≠ [])
    (hfind : h.disk.find l = .ok (p, some (.file bs))) (he : e.time.IsAccepted)
    (hclock : ∀ n, (h.supply.time n).IsAccepted ∧ (h.supply.time n).offset.isSome) (limit : Int) :
    (∀ f, (append path e limit h).result = .error f →
      (append path e limit h).state.disk.readFile l = .ok (bs ++ Utf8.encode e.line) ∧
        ∃ f', (load path (append path e limit h).state).result = .error f') ∧
    ∀ listed, (load path h).result = .ok listed →
      ((∃ name, (append path e limit h).result = .ok name) ↔ ∀ c ∈ openLine bs, Json.isSpace c) ∧
      ((∃ listed', (load path (append path e limit h).state).result = .ok listed') ↔
        (∀ c ∈ openLine bs, Json.isSpace c) ∧
          (limit = 1 ∨ ∀ a ∈ listed, a.time.offset.isSome = e.time.offset.isSome)) := by
  refine ⟨fun f hfail => append_error hl hnames hne hfind hfail, fun listed hload => ?_⟩
  have hreadable : Readable bs := by
    by_contra hnot
    obtain ⟨f, hfail⟩ := exists_error_of_not_readable hl hnames hfind hnot
    rw [hload] at hfail
    cases hfail
  have hcall : (∃ name, (append path e limit h).result = .ok name) ↔
      ∀ c ∈ openLine bs, Json.isSpace c := by
    rw [append_isOk_iff hl hnames hne hfind, readable_append_iff hreadable he.isProper]
  refine ⟨hcall, ?_⟩
  by_cases hopen : ∀ c ∈ openLine bs, Json.isSpace c
  · obtain ⟨lines, hlines, hentries⟩ := hreadable
    obtain ⟨es, s, hread, -, hspells⟩ := readEntries_of_isEntry hfind hlines hentries
    obtain ⟨hmixed, rfl⟩ := (load_eq_ok_iff hl hnames hfind hread).mp hload
    rw [exists_load_append_iff hl hnames hne hfind he.isProper hclock hlines hentries hopen hspells
      hmixed]
    simp only [(newestFirst_sorted es).1.mem_iff]
    exact ⟨fun hkept => ⟨hopen, hkept⟩, And.right⟩
  · constructor
    · rintro ⟨listed', hload'⟩
      cases hresult : (append path e limit h).result with
      | ok name => exact absurd (hcall.mp ⟨name, hresult⟩) hopen
      | error f =>
          obtain ⟨-, f', hfail⟩ := append_error hl hnames hne hfind hresult
          rw [hload'] at hfail
          cases hfail
    · rintro ⟨hspaces, -⟩
      exact absurd hspaces hopen

/-- An entry whose time has an offset. -/
def sampleEntry : Entry := entryAt 0 (some 0)

/-- A history of that entry. -/
def sampleHistory : Host := hostWith [sampleEntry]

theorem isAccepted_sample : sampleEntry.time.IsAccepted ∧ (entryAt 0 none).time.IsAccepted :=
  ⟨⟨.text "1970-01-01T00:00:00Z".toList, by decide⟩,
    ⟨.text "1970-01-01T00:00:00".toList, by decide⟩⟩

/-- An entry without an offset is added to one with an offset. If both are kept, the file cannot be
loaded any more. -/
theorem append_accepted_offsets :
    (load "h".toList sampleHistory).result = .ok [sampleEntry] ∧
      (∃ name, (append "h".toList (entryAt 0 none) 1 sampleHistory).result = .ok name) ∧
      (∃ listed, (load "h".toList
        (append "h".toList (entryAt 0 none) 1 sampleHistory).state).result = .ok listed) ∧
      ¬ ∃ listed, (load "h".toList
        (append "h".toList (entryAt 0 none) 0 sampleHistory).state).result = .ok listed := by
  have hload : (load "h".toList sampleHistory).result = .ok [sampleEntry] := by
    have htimes : ∀ e ∈ [sampleEntry], e.time.IsProper := by
      simpa using isAccepted_sample.1.isProper
    have hone : newestFirst [sampleEntry] = [sampleEntry] := List.mergeSort_singleton _
    rw [load_of_holds (by decide) ⟨_, rfl⟩ htimes (by decide), hone]
  have hclosed : openLine (Utf8.encode ([sampleEntry].flatMap Entry.line)) = [] := by decide
  have hopen : ∀ c ∈ openLine (Utf8.encode ([sampleEntry].flatMap Entry.line)), Json.isSpace c := by
    rw [hclosed]
    exact List.forall_mem_nil _
  have hcall := fun limit => (@append_accepted "h".toList _ sampleHistory _ _ _ rfl (by decide)
    (by decide) rfl isAccepted_sample.2 (fun _ => ⟨isAccepted_sample.1, rfl⟩) limit).2 _ hload
  refine ⟨hload, (hcall 1).1.mpr hopen, (hcall 1).2.mpr ⟨hopen, Or.inl rfl⟩, fun hlisted => ?_⟩
  rcases ((hcall 0).2.mp hlisted).2 with hone | hsame
  · cases hone
  · exact absurd (hsame _ List.mem_cons_self) (by decide)

/-- It is not so that a call that fails leaves the file as it was, nor that no call fails on a file that
can be loaded. -/
theorem not_append_accepted :
    (¬ ∀ (h : Host) (path : Text) (bs : Bytes) (e : Entry) (limit : Int),
      h.disk.readFile (Location.ofText h.disk.cwd path) = .ok bs → e.time.IsAccepted →
        ∀ f, (append path e limit h).result = .error f →
          (append path e limit h).state.disk.readFile (Location.ofText h.disk.cwd path) = .ok bs) ∧
    ¬ ∀ (h : Host) (path : Text) (bs : Bytes) (e : Entry) (limit : Int),
      h.disk.readFile (Location.ofText h.disk.cwd path) = .ok bs → e.time.IsAccepted →
        ∀ listed, (load path h).result = .ok listed →
          ∃ name, (append path e limit h).result = .ok name := by
  constructor
  · -- a file with a line that is no entry
    intro h
    have hfail : (append "h".toList sampleEntry 0 (hostWithText "x\n".toList)).result =
        .error (corrupt (Location.ofText ["w".toList] "h".toList) 1 none) := by decide
    have hsame := h (hostWithText "x\n".toList) "h".toList _ sampleEntry 0 rfl isAccepted_sample.1 _
      hfail
    have hwritten := (@append_error "h".toList _ (hostWithText "x\n".toList) _ _ _ _ rfl
      (by decide) (by decide +kernel) rfl _ hfail).1
    exact absurd (hsame.symm.trans hwritten) (by decide)
  · -- a file of one entry, without a line end behind it
    intro h
    have htime : sampleEntry.time.IsProper := isAccepted_sample.1.isProper
    have hcut : Text.lines (Text.universalNewlines sampleEntry.json) = [sampleEntry.json] := by
      decide
    have hwritten : written [sampleEntry.json] = [sampleEntry].map Entry.json := by decide
    have hlines := linesOf_encode sampleEntry.json
    rw [hcut] at hlines
    have hentries : ∀ line ∈ written [sampleEntry.json], IsEntry line := by
      rw [hwritten]
      simpa using isEntry_json htime
    have hnames : (Location.ofText ["w".toList] "h".toList).checkNames = .ok () := by decide
    have hfind : (hostWithText sampleEntry.json).disk.find (Location.ofText ["w".toList] "h".toList) =
        .ok (["w".toList, "h".toList], some (.file (Utf8.encode sampleEntry.json))) := rfl
    obtain ⟨es, s, hread, -, hspells⟩ := readEntries_of_isEntry hfind hlines hentries
    rw [hwritten] at hspells
    obtain rfl := eq_of_spells_json (by simpa using htime) hspells
    have hload := (load_eq_ok_iff rfl hnames hfind hread).mpr ⟨by decide, rfl⟩
    have happend := h (hostWithText sampleEntry.json) "h".toList _ sampleEntry 0 rfl
      isAccepted_sample.1 _ hload
    rw [append_isOk_iff rfl hnames (by decide) hfind,
      readable_append_iff ⟨_, hlines, hentries⟩ htime] at happend
    have hopen : (openLine (Utf8.encode sampleEntry.json)).all Json.isSpace = false := by decide
    rw [List.all_eq_true.mpr happend] at hopen
    cases hopen

end Emend.History
