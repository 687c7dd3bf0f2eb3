import Emend.Message.Parse
import Emend.Proofs.Message.Reading
import Emend.Proofs.Text.Trimmed

/-!
# How instructions are written

The written form of an instruction is a relation, since it leaves some choices open: the case of the
letters in a tag, the blank run between two elements, and whether the element of an operation that has
elements inside is closed. `WrittenRequest` has one rule for each operation.

An instruction can be written only if reading cannot mistake its texts: `Writable` asks that trimming
leaves them alone and that no tag occurs in them. Then the tags that occur in the written form are
those that were put there (`WrittenRequest.eq_openTag`), and the pattern of the operation reads
exactly the texts of the instruction (`WrittenRequest.read`).
-/

namespace Emend.Message

open Emend.Text (OccursIn folds fold isBlank allBlank stripStart)

/-! ## Written forms -/

/-- An element: its opening tag, the body on lines of its own, and its closing tag. -/
inductive WrittenElement (name : String) (body : Text) : Text → Prop
  | intro {o c : Text} : Spells o (openTag name) → Spells c (closeTag name) →
      WrittenElement name body (o ++ '\n' :: (body ++ '\n' :: c))

/-- Elements in a row, each behind a blank run. -/
inductive WrittenElements : List (String × Text) → Text → Prop
  | nil : WrittenElements [] []
  | cons {g e r body : Text} {name : String} {rest : List (String × Text)} :
      allBlank g = true → WrittenElement name body e → WrittenElements rest r →
      WrittenElements ((name, body) :: rest) (g ++ (e ++ r))

/-- The end of an element that has elements inside. Its closing tag may be left out. -/
inductive WrittenEnd (name : String) : Text → Prop
  | omitted : WrittenEnd name []
  | closed {g c : Text} : allBlank g = true → Spells c (closeTag name) → WrittenEnd name (g ++ c)

/-- An element with elements inside. -/
inductive WrittenNested (name : String) (inner : List (String × Text)) : Text → Prop
  | intro {o es w : Text} : Spells o (openTag name) → WrittenElements inner es →
      WrittenEnd name w → WrittenNested name inner (o ++ (es ++ w))

/-- What a block says of its file, behind the line of the path. -/
inductive WrittenRequest : Instruction → Text → Prop
  | deleteFile {path t : Text} : Spells t (openTag "DELETE_FILE") →
      WrittenRequest { path, operation := .deleteFile } t
  | create {path content t : Text} : WrittenElement "CREATE" content t →
      WrittenRequest { path, operation := .create, content := some content } t
  | replace {path content t : Text} : WrittenElement "REPLACE" content t →
      WrittenRequest { path, operation := .replace, content := some content } t
  | findReplace {path anchor anchorEnd content t : Text} :
      WrittenNested "MODIFY"
        [("ANCHOR_START", anchor), ("ANCHOR_END", anchorEnd), ("CONTENT", content)] t →
      WrittenRequest
        { path, operation := .findReplace, content := some content, anchor := some anchor,
          anchorEnd := some anchorEnd } t
  | deleteContent {path anchor anchorEnd t : Text} :
      WrittenNested "DELETE" [("ANCHOR_START", anchor), ("ANCHOR_END", anchorEnd)] t →
      WrittenRequest
        { path, operation := .deleteContent, anchor := some anchor, anchorEnd := some anchorEnd } t
  | insertAfter {path anchor content t : Text} :
      WrittenNested "INSERT_AFTER" [("ANCHOR", anchor), ("CONTENT", content)] t →
      WrittenRequest
        { path, operation := .insertAfter, content := some content, anchor := some anchor } t
  | insertBefore {path anchor content t : Text} :
      WrittenNested "INSERT_BEFORE" [("ANCHOR", anchor), ("CONTENT", content)] t →
      WrittenRequest
        { path, operation := .insertBefore, content := some content, anchor := some anchor } t

/-- A file block: the file tag with the path behind it, and what is asked for on the next line. -/
inductive WrittenBlock : Instruction → Text → Prop
  | intro {i : Instruction} {f r : Text} : Spells f FileTag.standard.text → WrittenRequest i r →
      WrittenBlock i (f ++ ' ' :: (i.path ++ '\n' :: r))

/-- A message: the blocks of its instructions, joined by line feeds. -/
inductive WrittenMessage : List Instruction → Text → Prop
  | single {i : Instruction} {t : Text} : WrittenBlock i t → WrittenMessage [i] t
  | cons {i : Instruction} {is : List Instruction} {t m : Text} : WrittenBlock i t →
      WrittenMessage is m → WrittenMessage (i :: is) (t ++ '\n' :: m)

/-- Reading cannot mistake the texts of the instruction. -/
structure Writable (i : Instruction) : Prop where
  path_ne_nil : i.path ≠ []
  strip_path : Text.strip i.path = i.path
  path_chars : '\n' ∉ i.path ∧ '[' ∉ i.path
  anchor : ∀ a ∈ i.anchor, a ≠ [] ∧ Text.strip a = a
  anchorEnd : ∀ a ∈ i.anchorEnd, a ≠ [] ∧ Text.strip a = a
  created : i.operation = .create → ∀ c ∈ i.content, Text.stripEnd c = c
  content : i.operation ≠ .create → ∀ c ∈ i.content, c.getLast? ≠ some '\r'
  tagless : ∀ t, t ∈ i.content ∨ t ∈ i.anchor ∨ t ∈ i.anchorEnd → ∀ p ∈ tags, ¬ OccursIn p t

/-! ## The tags of a written form -/

/-- The name of the tag that asks for an operation. -/
def requestName : Operation → String
  | .deleteFile => "DELETE_FILE"
  | .create => "CREATE"
  | .replace => "REPLACE"
  | .findReplace => "MODIFY"
  | .deleteContent => "DELETE"
  | .insertAfter => "INSERT_AFTER"
  | .insertBefore => "INSERT_BEFORE"

theorem pattern_eq_cons (op : Operation) :
    pattern op = .tag (requestName op) :: (pattern op).tail := by
  cases op <;> rfl

/-- The tags at which reading starts something: a file block or an operation. -/
def startTags : List Text :=
  FileTag.standard.text :: precedence.map fun op => openTag (requestName op)

/-- The names of the elements inside the element of an operation. -/
def innerNames : List String := ["ANCHOR", "ANCHOR_START", "ANCHOR_END", "CONTENT"]

theorem openTag_mem_startTags (op : Operation) : openTag (requestName op) ∈ startTags :=
  List.mem_cons_of_mem _ (List.mem_map.mpr ⟨op, by cases op <;> decide, rfl⟩)

theorem fileTag_mem_startTags : FileTag.standard.text ∈ startTags := List.mem_cons_self

theorem mem_tags_of_mem_startTags {p : Text} (hp : p ∈ startTags) : p ∈ tags := by
  have h : ∀ p ∈ startTags, p ∈ tags := by decide
  exact h p hp

theorem startTag_ne_closeTag {p : Text} (hp : p ∈ startTags) {name : String}
    (hname : name ∈ elementNames) : p ≠ closeTag name := by
  have h : ∀ p ∈ startTags, ∀ name ∈ elementNames, p ≠ closeTag name := by decide
  exact h p hp name hname

theorem startTag_ne_openTag {p : Text} (hp : p ∈ startTags) {name : String}
    (hname : name ∈ innerNames) : p ≠ openTag name := by
  have h : ∀ p ∈ startTags, ∀ name ∈ innerNames, p ≠ openTag name := by decide
  exact h p hp name hname

theorem innerNames_subset {name : String} (h : name ∈ innerNames) : name ∈ elementNames := by
  have hsub : ∀ name ∈ innerNames, name ∈ elementNames := by decide
  exact hsub name h

theorem requestName_mem (op : Operation) : requestName op ∈ elementNames := by
  cases op <;> decide

theorem WrittenElement.breaks_append {name : String} {body e : Text} (hname : name ∈ elementNames)
    (h : WrittenElement name body e) (r : Text) : Breaks (e ++ r) := by
  obtain ⟨ho, _⟩ := h
  rw [List.append_assoc]
  exact ho.breaks_append (openTag_mem_tags hname) _

/-- The tags that occur in an element are its own and those in its body. -/
theorem WrittenElement.occursIn {name : String} {body e p : Text} (hname : name ∈ elementNames)
    (h : WrittenElement name body e) (hp : p ∈ tags) (hbody : ¬ OccursIn p body)
    (hocc : OccursIn p e) : p = openTag name ∨ p = closeTag name := by
  obtain ⟨ho, hc⟩ := h
  rcases occursIn_newline hp hocc with hocc | hocc
  · exact Or.inl ((ho.occursIn_iff hp (openTag_mem_tags hname)).mp hocc)
  · have hclose := (occursIn_newline hp hocc).resolve_left hbody
    exact Or.inr ((hc.occursIn_iff hp (closeTag_mem_tags hname)).mp hclose)

theorem WrittenElements.breaks_append {es : List (String × Text)} {t r : Text}
    (h : WrittenElements es t) (hnames : ∀ e ∈ es, e.1 ∈ elementNames) (hr : Breaks r) :
    Breaks (t ++ r) := by
  cases h with
  | nil => exact hr
  | cons hg he _ =>
      rw [List.append_assoc, List.append_assoc]
      exact breaks_blank_append hg (he.breaks_append (hnames _ List.mem_cons_self) _)

/-- No tag at which something starts occurs in elements inside. -/
theorem WrittenElements.not_occursIn {es : List (String × Text)} {t p : Text}
    (h : WrittenElements es t) (hnames : ∀ e ∈ es, e.1 ∈ innerNames)
    (hbodies : ∀ e ∈ es, ¬ OccursIn p e.2) (hp : p ∈ startTags) : ¬ OccursIn p t := by
  have htag := mem_tags_of_mem_startTags hp
  induction h with
  | nil =>
      intro hocc
      exact not_occursIn_blank htag (g := []) rfl hocc
  | @cons g e r body name rest hg he hrest ih =>
      intro hocc
      have hname := hnames _ List.mem_cons_self
      have hbody := hbodies _ List.mem_cons_self
      have hrestNames : ∀ e ∈ rest, e.1 ∈ innerNames := fun e h =>
        hnames e (List.mem_cons_of_mem _ h)
      have hbreaks : Breaks r := by
        have hb := hrest.breaks_append (fun e h => innerNames_subset (hrestNames e h)) breaks_nil
        rwa [List.append_nil] at hb
      have helem := occursIn_blank_append htag hg
        (he.breaks_append (innerNames_subset hname) r) hocc
      rcases occursIn_append htag hbreaks helem with hocc | hocc
      · rcases he.occursIn (innerNames_subset hname) htag hbody hocc with heq | heq
        · exact startTag_ne_openTag hp hname heq
        · exact startTag_ne_closeTag hp (innerNames_subset hname) heq
      · exact ih hrestNames (fun e h => hbodies e (List.mem_cons_of_mem _ h)) hocc

theorem WrittenEnd.breaks {name : String} (hname : name ∈ elementNames) {w : Text}
    (h : WrittenEnd name w) : Breaks w := by
  cases h with
  | omitted => exact breaks_nil
  | closed hg hc =>
      have hb := hc.breaks_append (closeTag_mem_tags hname) []
      rw [List.append_nil] at hb
      exact breaks_blank_append hg hb

theorem WrittenEnd.not_occursIn {name : String} (hname : name ∈ elementNames) {w p : Text}
    (h : WrittenEnd name w) (hp : p ∈ startTags) : ¬ OccursIn p w := by
  have htag := mem_tags_of_mem_startTags hp
  intro hocc
  cases h with
  | omitted => exact not_occursIn_blank htag (g := []) rfl hocc
  | closed hg hc =>
      have hb := hc.breaks_append (closeTag_mem_tags hname) []
      rw [List.append_nil] at hb
      have hclose := occursIn_blank_append htag hg hb hocc
      exact startTag_ne_closeTag hp hname
        ((hc.occursIn_iff htag (closeTag_mem_tags hname)).mp hclose)

theorem WrittenNested.eq_openTag {name : String} {inner : List (String × Text)} {t p : Text}
    (h : WrittenNested name inner t) (hname : name ∈ elementNames)
    (hnames : ∀ e ∈ inner, e.1 ∈ innerNames) (hbodies : ∀ e ∈ inner, ¬ OccursIn p e.2)
    (hp : p ∈ startTags) (hocc : OccursIn p t) : p = openTag name := by
  have htag := mem_tags_of_mem_startTags hp
  obtain ⟨ho, hes, hw⟩ := h
  have hwBreaks := hw.breaks hname
  have hesBreaks := hes.breaks_append (fun e he => innerNames_subset (hnames e he)) hwBreaks
  rcases occursIn_append htag hesBreaks hocc with hocc | hocc
  · exact (ho.occursIn_iff htag (openTag_mem_tags hname)).mp hocc
  · rcases occursIn_append htag hwBreaks hocc with hocc | hocc
    · exact absurd hocc (hes.not_occursIn hnames hbodies hp)
    · exact absurd hocc (hw.not_occursIn hname hp)

/-- **Of the tags at which something starts, only that of the operation occurs.** -/
theorem WrittenRequest.eq_openTag {i : Instruction} {r p : Text} (h : WrittenRequest i r)
    (hi : Writable i) (hp : p ∈ startTags) (hocc : OccursIn p r) :
    p = openTag (requestName i.operation) := by
  have htag := mem_tags_of_mem_startTags hp
  have hname := requestName_mem i.operation
  have hclose := startTag_ne_closeTag hp hname
  have hfree := fun t ht => hi.tagless t ht p htag
  cases h with
  | deleteFile ho => exact (ho.occursIn_iff htag (openTag_mem_tags hname)).mp hocc
  | create he | replace he =>
      exact (he.occursIn hname htag (hfree _ (by simp)) hocc).resolve_right hclose
  | findReplace h =>
      refine h.eq_openTag hname (by simp [innerNames]) ?_ hp hocc
      simpa using ⟨hfree _ (by simp), hfree _ (by simp), hfree _ (by simp)⟩
  | deleteContent h | insertAfter h | insertBefore h =>
      refine h.eq_openTag hname (by simp [innerNames]) ?_ hp hocc
      simpa using ⟨hfree _ (by simp), hfree _ (by simp)⟩

/-! ## Reading a written form -/

theorem Spells.stripStart_append {t tag : Text} (h : Spells t tag) (htag : tag ∈ tags) (r : Text) :
    stripStart (t ++ r) = t ++ r :=
  Message.stripStart_append htag h.folds_eq r

theorem not_occursIn_newline_cons {p t : Text} (hp : p ∈ tags) (h : ¬ OccursIn p t) :
    ¬ OccursIn p ('\n' :: t) := by
  intro hocc
  rcases occursIn_newline (a := []) hp hocc with hocc | hocc
  · exact not_occursIn_blank hp (g := []) rfl hocc
  · exact h hocc

theorem read?_nil (r : Text) : Pattern.read? [] r = some ({}, r) := rfl

/-- An anchor is captured with the line feeds around it. -/
theorem WrittenElement.read?_anchor {name : String} {body e g r after : Text} {es : Pattern}
    {caps : Captures} (h : WrittenElement name body e) (field : Field) (hname : name ∈ elementNames)
    (hbody : ¬ OccursIn (closeTag name) body) (hg : allBlank g = true)
    (hrest : es.read? r = some (caps, after)) :
    Pattern.read? (.blanks :: .tag name :: .body field name :: es) (g ++ (e ++ r)) =
      some (caps.put field ('\n' :: (body ++ ['\n'])), after) := by
  obtain ⟨ho, hc⟩ := h
  rw [List.append_assoc, read?_blanks hg _ (ho.stripStart_append (openTag_mem_tags hname) _),
    read?_tag ho.folds_eq, List.cons_append, List.append_assoc, List.cons_append]
  have hfree := not_occursIn_newline_cons (closeTag_mem_tags hname) hbody
  exact read?_body hname hfree hc.folds_eq hrest

/-- A content behind its opening tag is captured with the line feed at its end. -/
theorem WrittenElement.read?_content {name : String} {body e r after : Text} {es : Pattern}
    {caps : Captures} (h : WrittenElement name body e) (field : Field) (hname : name ∈ elementNames)
    (hbody : ¬ OccursIn (closeTag name) body) (hrest : es.read? r = some (caps, after)) :
    Pattern.read? (.tag name :: .restOfLine :: .body field name :: es) (e ++ r) =
      some (caps.put field (body ++ ['\n']), after) := by
  obtain ⟨ho, hc⟩ := h
  rw [List.append_assoc, read?_tag ho.folds_eq, List.cons_append, read?_restOfLine,
    List.append_assoc, List.cons_append]
  exact read?_body hname hbody hc.folds_eq hrest

theorem WrittenElement.read?_contentElement {body e g : Text}
    (h : WrittenElement "CONTENT" body e) (hbody : ¬ OccursIn (closeTag "CONTENT") body)
    (hg : allBlank g = true) (r : Text) :
    contentElement.read? (g ++ (e ++ r)) =
      some ({ content := some (body ++ ['\n']) }, r) := by
  have hstrip : stripStart (e ++ r) = e ++ r := by
    obtain ⟨ho, _⟩ := h
    rw [List.append_assoc]
    exact ho.stripStart_append (openTag_mem_tags (by decide)) _
  rw [contentElement, read?_blanks hg _ hstrip]
  exact h.read?_content .content (by decide) hbody (read?_nil r)

/-- A text as it is captured from lines of its own. -/
def onLines (t : Text) : Text := '\n' :: (t ++ ['\n'])

/-- What is captured from the written form of an instruction. -/
def capturesOf (i : Instruction) : Captures where
  content := i.content.map (· ++ ['\n'])
  anchor := i.anchor.map onLines
  anchorEnd := i.anchorEnd.map onLines

/-- **The pattern of the operation reads the written form** up to the end of its element. -/
theorem WrittenRequest.read {i : Instruction} {r : Text} (h : WrittenRequest i r)
    (hi : Writable i) (tail : Text) :
    ∃ w, WrittenEnd (requestName i.operation) w ∧
      (pattern i.operation).read? (r ++ tail) = some (capturesOf i, w ++ tail) := by
  have hfree : ∀ {t : Text} {name : String}, name ∈ elementNames →
      (t ∈ i.content ∨ t ∈ i.anchor ∨ t ∈ i.anchorEnd) → ¬ OccursIn (closeTag name) t :=
    fun hname ht => hi.tagless _ ht _ (closeTag_mem_tags hname)
  cases h with
  | deleteFile ho => exact ⟨[], .omitted, read?_tag ho.folds_eq [] tail⟩
  | create he | replace he =>
      have hread := he.read?_content .content (by decide) (hfree (by decide) (by simp))
        (read?_nil tail)
      exact ⟨[], .omitted, hread⟩
  | findReplace h =>
      obtain @⟨_, _, w, ho, hes, hw⟩ := h
      obtain _ | ⟨hg, he, _ | ⟨hg', he', _ | ⟨hg'', he'', _ | _⟩⟩⟩ := hes
      refine ⟨w, hw, ?_⟩
      simp only [List.append_assoc, List.append_nil]
      rw [pattern, List.cons_append, read?_tag ho.folds_eq]
      have hcontent := he''.read?_contentElement (hfree (by decide) (by simp)) hg'' (w ++ tail)
      have hend := he'.read?_anchor .anchorEnd (by decide)
        (hfree (by decide) (by simp)) hg' hcontent
      exact he.read?_anchor .anchor (by decide) (hfree (by decide) (by simp)) hg hend
  | deleteContent h =>
      obtain @⟨_, _, w, ho, hes, hw⟩ := h
      obtain _ | ⟨hg, he, _ | ⟨hg', he', _ | _⟩⟩ := hes
      refine ⟨w, hw, ?_⟩
      simp only [List.append_assoc, List.append_nil]
      rw [pattern, read?_tag ho.folds_eq]
      have hend := he'.read?_anchor .anchorEnd (by decide) (hfree (by decide) (by simp)) hg'
        (read?_nil (w ++ tail))
      exact he.read?_anchor .anchor (by decide) (hfree (by decide) (by simp)) hg hend
  | insertAfter h | insertBefore h =>
      obtain @⟨_, _, w, ho, hes, hw⟩ := h
      obtain _ | ⟨hg, he, _ | ⟨hg', he', _ | _⟩⟩ := hes
      refine ⟨w, hw, ?_⟩
      simp only [List.append_assoc, List.append_nil]
      rw [pattern, List.cons_append, read?_tag ho.folds_eq]
      have hcontent := he'.read?_contentElement (hfree (by decide) (by simp)) hg' (w ++ tail)
      exact he.read?_anchor .anchor (by decide) (hfree (by decide) (by simp)) hg hcontent

end Emend.Message
