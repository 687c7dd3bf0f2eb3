import Emend.History.File
import Emend.Proofs.Data.Json
import Emend.Proofs.Text.Lines
import Emend.Proofs.Text.Streams
import Emend.Proofs.Time.Timestamp

/-!
# Entries on lines

An entry is written as one line and read back from it, field for field (`check_value`, `read_line`). So a
file with the lines of some entries is read as these entries (`readLines_flatMap`).
-/

namespace Emend

/-! ## Fields of records -/

namespace Value

theorem lookup?_cons_of_ne (a : Option Value) {name : Text} {fields : List (String × Value)}
    (h : ∀ f ∈ fields, f.1.toList ≠ name) :
    (fields.map fun (k, v) => (text k.toList, v)).foldl (fun found (k, v) => match k with
      | text t => if t = name then some v else found
      | _ => found) a = a := by
  induction fields generalizing a with
  | nil => rfl
  | cons f fields ih =>
      rw [List.map_cons, List.foldl_cons]
      simp only [if_neg (h f List.mem_cons_self)]
      exact ih a fun g hg => h g (List.mem_cons_of_mem _ hg)

/-- A field is found under its name where no other has it. -/
theorem lookup?_of_mem {fields : List (String × Value)} (hnodup : (fields.map Prod.fst).Nodup)
    {name : String} {v : Value} (h : (name, v) ∈ fields) :
    lookup? (fields.map fun (k, v) => (text k.toList, v)) name.toList = some v := by
  obtain ⟨before, behind, rfl⟩ := List.append_of_mem h
  have hbehind : ∀ f ∈ behind, f.1.toList ≠ name.toList := by
    intro f hf hname
    rw [List.map_append, List.map_cons] at hnodup
    have hnot := (List.nodup_cons.mp (List.nodup_append.mp hnodup).2.1).1
    exact hnot (List.mem_map.mpr ⟨f, hf, String.toList_inj.mp hname⟩)
  rw [lookup?, List.map_append, List.foldl_append, List.map_cons, List.foldl_cons]
  simp only [if_pos]
  exact lookup?_cons_of_ne (some v) hbehind

end Value

namespace History

open Json (Plain)

theorem required_of_lookup {α : Type} {fields : List (Value × Value)} {name : String} {v : Value}
    (check : Value → Checked α) {a : α} (h : Value.lookup? fields name.toList = some v)
    (hv : check v = .valid a) : required fields name check = .valid a := by
  rw [required, h]
  simp only [hv]
  rfl

theorem optional_of_lookup {α : Type} {fields : List (Value × Value)} {name : String} {v : Value}
    (check : Value → Checked α) {a : α} (h : Value.lookup? fields name.toList = some v)
    (hv : check v = .valid a) (otherwise : α) : optional fields name otherwise check = .valid a := by
  rw [optional, h]
  simp only [hv]
  rfl

/-! ## Values of entries -/

theorem ofName?_operation (op : Operation) : Operation.ofName? op.name.toList = some op := by
  cases op <;> decide

theorem ofName?_status (s : ChangeStatus) : ChangeStatus.ofName? s.name.toList = some s := by
  cases s <;> decide

theorem checkName_operation (op : Operation) :
    checkName Operation.ofName? (.text op.name.toList) = .ok op := by
  rw [checkName, Value.text?, Option.bind_some, ofName?_operation]

theorem checkName_status (s : ChangeStatus) :
    checkName ChangeStatus.ofName? (.text s.name.toList) = .ok s := by
  rw [checkName, Value.text?, Option.bind_some, ofName?_status]

theorem checkOptionalText_optionalValue (t : Option Text) :
    Config.checkOptionalText (Config.optionalValue t) = .ok t := by
  cases t <;> rfl

/-- **A record is read back from its value.** -/
theorem Record.check_value (r : Record) : Record.check r.value = .valid r := by
  have hfield : ∀ name v, (name, v) ∈ [("path", Value.text r.path),
      ("operation", .text r.operation.name.toList), ("status", .text r.status.name.toList),
      ("original_content", Config.optionalValue r.before),
      ("modified_content", Config.optionalValue r.after)] → _ :=
    fun name v h => Value.lookup?_of_mem (by simp only [List.map_cons, List.map_nil]; decide) h
  have hpath := required_of_lookup (fun v => .ofExcept (Config.checkText v))
    (hfield "path" (.text r.path) (by simp)) rfl
  have hoperation := required_of_lookup (fun v => .ofExcept (checkName Operation.ofName? v))
    (hfield "operation" (.text r.operation.name.toList) (by simp))
    (by rw [checkName_operation]; rfl)
  have hstatus := required_of_lookup (fun v => .ofExcept (checkName ChangeStatus.ofName? v))
    (hfield "status" (.text r.status.name.toList) (by simp)) (by rw [checkName_status]; rfl)
  have hbefore := optional_of_lookup (fun v => .ofExcept (Config.checkOptionalText v))
    (hfield "original_content" (Config.optionalValue r.before) (by simp))
    (by rw [checkOptionalText_optionalValue]; rfl) none
  have hafter := optional_of_lookup (fun v => .ofExcept (Config.checkOptionalText v))
    (hfield "modified_content" (Config.optionalValue r.after) (by simp))
    (by rw [checkOptionalText_optionalValue]; rfl) none
  rw [Record.value, Value.object, Record.check, hpath, hoperation, hstatus, hbefore, hafter]
  rfl

theorem members_value (n : Nat) (rs : List Record) :
    Checked.members Record.check n (rs.map Record.value) = .valid rs := by
  induction rs generalizing n with
  | nil => rfl
  | cons r rs ih =>
      rw [List.map_cons, Checked.members, Record.check_value, ih]
      rfl

/-- An entry with all its fields draws no identifier and no time. -/
theorem Entry.check_record {fs : List (Value × Value)} {e : Entry} (h : e.time.IsProper)
    (hid : Value.lookup? fs "id".toList = some (.text e.id))
    (htime : Value.lookup? fs "timestamp".toList = some (.text e.time.text))
    (hrepository : Value.lookup? fs "repository".toList = some (.text e.repository))
    (hsuccessful : Value.lookup? fs "is_successful".toList = some (.bool e.isSuccessful))
    (hchanges : Value.lookup? fs "changes".toList = some (.list (e.changes.map Record.value)))
    (s : Supply) : Entry.check (.record fs) s = (.valid e, s) := by
  have htimeText : Checked.ofExcept (Timestamp.check (.text e.time.text)) = .valid e.time := by
    rw [Timestamp.check_text h]
    rfl
  rw [Entry.check]
  simp only [hid, htime, Option.isNone_some, Bool.false_eq_true, if_false]
  rw [optional_of_lookup (fun v => .ofExcept (Config.checkText v)) hid rfl,
    optional_of_lookup (fun v => .ofExcept (Timestamp.check v)) htime htimeText,
    required_of_lookup (fun v => .ofExcept (Config.checkText v)) hrepository rfl,
    required_of_lookup (fun v => .ofExcept (checkBool v)) hsuccessful rfl,
    optional_of_lookup checkRecords hchanges (members_value 0 e.changes)]
  rfl

/-- **An entry is read back from its value.** -/
theorem Entry.check_value {e : Entry} (h : e.time.IsProper) (s : Supply) :
    Entry.check e.value s = (.valid e, s) := by
  have hfield : ∀ name v, (name, v) ∈ [("id", Value.text e.id), ("timestamp", .text e.time.text),
      ("repository", .text e.repository), ("is_successful", .bool e.isSuccessful),
      ("changes", .list (e.changes.map Record.value))] → _ :=
    fun name v h => Value.lookup?_of_mem (by simp only [List.map_cons, List.map_nil]; decide) h
  exact Entry.check_record h (hfield "id" _ (by simp)) (hfield "timestamp" _ (by simp))
    (hfield "repository" _ (by simp)) (hfield "is_successful" _ (by simp))
    (hfield "changes" _ (by simp)) s

theorem plain_optionalValue (d : Nat) (t : Option Text) : Plain d (Config.optionalValue t) := by
  cases t with
  | none => exact .null d
  | some t => exact .text d t

theorem plain_object {d : Nat} {fields : List (String × Value)} (h : ∀ f ∈ fields, Plain d f.2) :
    Plain (d + 1) (.object fields) := by
  refine .record (fun f hf => ?_) fun f hf => ?_
  · obtain ⟨g, -, rfl⟩ := List.mem_map.mp hf
    exact ⟨g.1.toList, rfl⟩
  · obtain ⟨g, hg, rfl⟩ := List.mem_map.mp hf
    exact h g hg

theorem Record.plain_value (r : Record) : Plain 1 r.value := by
  refine plain_object ?_
  simpa using ⟨.text 0 _, .text 0 _, .text 0 _, plain_optionalValue 0 _, plain_optionalValue 0 _⟩

/-- The value of an entry has no numbers, and is not nested deeply. -/
theorem Entry.plain_value (e : Entry) : Plain 3 e.value := by
  have hchanges : Plain 2 (.list (e.changes.map Record.value)) := by
    refine .list fun v hv => ?_
    obtain ⟨r, -, rfl⟩ := List.mem_map.mp hv
    exact r.plain_value
  refine plain_object ?_
  simpa using ⟨.text 2 _, .text 2 _, .text 2 _, .bool 2 _, hchanges⟩

/-! ## Lines of entries -/

/-- The entry on a line, without the line end. -/
def Entry.json (e : Entry) : Text := Json.write .compact e.value

theorem Entry.line_eq (e : Entry) : e.line = e.json ++ ['\n'] := rfl

theorem Entry.isInline_json (e : Entry) : Json.IsInline e.json := Json.isInline_write e.plain_value

theorem Entry.not_mem_json (e : Entry) {c : Char} (h : c.toNat < 0x20) : c ∉ e.json :=
  fun hc => absurd (e.isInline_json c hc) (Nat.not_le.mpr h)

theorem Entry.allBlank_json (e : Entry) : Text.allBlank e.json = false := by
  have hbrace : '{' ∈ e.json := by
    rw [Entry.json, Entry.value, Value.object, Json.write.eq_def]
    exact List.mem_cons_self
  rw [Text.allBlank, List.all_eq_false]
  exact ⟨'{', hbrace, by decide⟩

theorem read_json (e : Entry) : Json.read e.json = .ok e.value :=
  Json.read_write e.plain_value (by decide)

/-- **The lines of entries are read as these entries**, whatever their numbers, and nothing is drawn. -/
theorem readLines_json (l : Location) (number : Nat) {es : List Entry}
    (h : ∀ e ∈ es, e.time.IsProper) (s : Supply) :
    readLines l number (es.map Entry.json ++ [[]]) s = (.ok es, s) := by
  induction es generalizing number with
  | nil => rfl
  | cons e es ih =>
      have hfirst := Entry.check_value (h e List.mem_cons_self) s
      have hrest := ih (number + 1) fun e' he => h e' (List.mem_cons_of_mem _ he)
      rw [List.map_cons, List.cons_append, readLines, if_neg (by rw [e.allBlank_json]; decide),
        read_json]
      simp only [hfirst, hrest]
      rfl

/-- A file of lines is cut into these lines. -/
theorem linesOf_lines (es : List Entry) :
    linesOf (Utf8.encode (es.flatMap Entry.line)) = ⟨es.map Entry.json ++ [[]], none⟩ := by
  have hreturn : '\r' ∉ es.flatMap Entry.line := by
    intro h
    obtain ⟨e, -, he⟩ := List.mem_flatMap.mp h
    rw [Entry.line_eq, List.mem_append] at he
    rcases he with he | he
    · exact e.not_mem_json (by decide) he
    · exact absurd he (by decide)
  have hlines : Text.lines (es.flatMap Entry.line) = es.map Entry.json ++ [[]] := by
    have hinline : ∀ l ∈ es.map Entry.json, '\n' ∉ l := by
      intro l hl
      obtain ⟨e, -, rfl⟩ := List.mem_map.mp hl
      exact e.not_mem_json (by decide)
    have hcut := Text.lines_closedLines hinline
    rwa [Text.closedLines, List.flatMap_map] at hcut
  rw [linesOf, Utf8.decodeStream_encode (fun _ => by decide),
    Text.universalNewlines_of_not_mem hreturn]
  simp only [hlines]

end History

end Emend
