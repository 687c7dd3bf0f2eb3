import Emend.Config.Basic
import Emend.Data.Assoc
import Emend.Proofs.Data.Field
import Emend.Proofs.Text.Trimmed

/-!
# Replacing settings

`Config.withOverrides` writes a configuration out, puts some settings in and checks the whole anew. The
settings that are put in are found where they are named and the others where they were written
(`lookup_override`), so each setting is checked either as it was given or as it was written out
(`setting_override`). What remains is whether a setting that was accepted is accepted again as it is
written out, and as what (`isConfigOf_settings`).

All settings but one come back as they were. The name of the tag is stripped of brackets and blanks anew,
and this takes away more when brackets stood inside blanks inside brackets: the tag is kept exactly if no
bracket is left at either end of its name (`withOverrides_accepted`).
-/

namespace Emend

namespace Config

/-! ## Settings that are put in -/

/-- The value replaces a setting: all do but the null. -/
def counts : Value → Bool
  | .null => false
  | _ => true

/-- The overrides that replace a setting. -/
def given (overrides : List (Text × Value)) : List (Text × Value) := overrides.filter (counts ·.2)

/-- The setting of that name is replaced. -/
def Replaces (overrides : List (Text × Value)) (name : String) : Prop :=
  name.toList ∈ (given overrides).map Prod.fst

instance (overrides : List (Text × Value)) (name : String) : Decidable (Replaces overrides name) :=
  inferInstanceAs (Decidable (_ ∈ _))

theorem lookup_put (named : List (Text × Value)) (n m : Text) (v : Value) :
    (put named n v).lookup m = if m = n then some v else named.lookup m := by
  unfold put
  split
  · rename_i hnamed
    have hfound : named.lookup n ≠ none := by
      rw [ne_eq, lookup_eq_none_iff_not_mem, not_not, List.mem_map]
      simpa using hnamed
    rw [lookup_replace]
    by_cases hm : m = n
    · obtain ⟨w, hw⟩ := Option.ne_none_iff_exists'.mp hfound
      simp [hm, hw]
    · simp [hm]
  · rename_i hnamed
    have hnone : named.lookup n = none := by
      rw [lookup_eq_none_iff_not_mem, List.mem_map]
      simpa using hnamed
    rw [List.lookup_append]
    by_cases hm : m = n
    · simp [hm, hnone]
    · have hne : (m == n) = false := beq_eq_false_iff_ne.mpr hm
      simp [hm, hne, List.lookup_cons]

theorem override_cons (named : List (Text × Value)) (n : Text) (v : Value)
    (overrides : List (Text × Value)) :
    override named ((n, v) :: overrides) =
      override (if counts v then put named n v else named) overrides := by
  cases v <;> rfl

theorem given_cons (n : Text) (v : Value) (overrides : List (Text × Value)) :
    given ((n, v) :: overrides) = if counts v then (n, v) :: given overrides else given overrides :=
  List.filter_cons

/-- **A setting is found where it is put in**, and else where it was. -/
theorem lookup_override {overrides : List (Text × Value)} (hos : (overrides.map Prod.fst).Nodup)
    (named : List (Text × Value)) (m : Text) :
    (override named overrides).lookup m = ((given overrides).lookup m).or (named.lookup m) := by
  induction overrides generalizing named with
  | nil => rfl
  | cons q overrides ih =>
      obtain ⟨n, v⟩ := q
      obtain ⟨hn, hos⟩ := List.nodup_cons.mp hos
      rw [override_cons, given_cons, ih hos]
      cases counts v with
      | false => rfl
      | true =>
          rw [if_pos rfl, if_pos rfl, lookup_put, List.lookup_cons]
          by_cases hm : m = n
          · -- no later override has the name
            have hlater : (given overrides).lookup n = none := by
              rw [lookup_eq_none_iff_not_mem]
              exact fun h => hn (List.filter_sublist.map Prod.fst |>.subset h)
            simp [hm, hlater]
          · have hne : (m == n) = false := beq_eq_false_iff_ne.mpr hm
            simp [hm, hne]

/-- A setting is checked as it is given if it is replaced, and else as it was. -/
theorem setting_override {overrides : List (Text × Value)} (hos : (overrides.map Prod.fst).Nodup)
    {α : Type} (named : List (Text × Value)) (name : String) (otherwise : α)
    (check : Value → Except Fault α) :
    setting (override named overrides) name otherwise check =
      if Replaces overrides name then setting (given overrides) name otherwise check
      else setting named name otherwise check := by
  unfold setting
  rw [lookup_override hos]
  cases hgiven : (given overrides).lookup name.toList with
  | none =>
      have hkept : ¬ Replaces overrides name := (lookup_eq_none_iff_not_mem).mp hgiven
      rw [if_neg hkept]
      rfl
  | some v =>
      have hreplaced : Replaces overrides name :=
        List.mem_map.mpr ⟨(name.toList, v), mem_of_lookup hgiven, rfl⟩
      rw [if_pos hreplaced]
      rfl

theorem setting_override_valid {overrides : List (Text × Value)}
    (hos : (overrides.map Prod.fst).Nodup) {α : Type} {named : List (Text × Value)} {name : String}
    {otherwise a b : α} {check : Value → Except Fault α}
    (hnamed : setting named name otherwise check = .valid a)
    (hgiven : setting (given overrides) name otherwise check = .valid b) :
    setting (override named overrides) name otherwise check =
      .valid (if Replaces overrides name then b else a) := by
  rw [setting_override hos, hnamed, hgiven]
  split <;> rfl

theorem unknownNames_eq_valid_iff {named : List (Text × Value)} :
    unknownNames named = .valid () ↔ ∀ n ∈ named.map Prod.fst, n ∈ names.map String.toList := by
  rw [List.forall_mem_map]
  have hknown : ∀ n : Text, names.any (·.toList = n) = true ↔ n ∈ names.map String.toList := by
    intro n
    simp [List.any_eq_true, List.mem_map]
  unfold unknownNames
  constructor
  · intro h q hq
    split at h
    · rename_i hnone
      have hfiltered := List.filter_eq_nil_iff.mp hnone q hq
      exact (hknown q.1).mp (by simpa using hfiltered)
    · cases h
  · intro h
    rw [List.filter_eq_nil_iff.mpr]
    intro q hq
    simpa using (hknown q.1).mpr (h q hq)

/-- The names after the overrides are those that were there and those that are given. -/
theorem named_override {overrides : List (Text × Value)} (hos : (overrides.map Prod.fst).Nodup)
    (named : List (Text × Value)) (n : Text) :
    n ∈ (override named overrides).map Prod.fst ↔
      n ∈ (given overrides).map Prod.fst ∨ n ∈ named.map Prod.fst := by
  rw [← not_iff_not, not_or, ← lookup_eq_none_iff_not_mem, lookup_override hos,
    Option.or_eq_none_iff, lookup_eq_none_iff_not_mem, lookup_eq_none_iff_not_mem]

/-! ## What a configuration is made of -/

/-- The named values give every setting but the tag the value that it has in the configuration, and
there are no other names. -/
structure IsConfigOf (c : Config) (named : List (Text × Value)) : Prop where
  anchorMode : setting named "anchor_mode" ({} : Config).anchorMode checkPolicy = .valid c.anchorMode
  store : setting named "store" ({} : Config).store checkStore = .valid c.store
  root : setting named "root" ({} : Config).root checkText = .valid c.root
  repository :
    setting named "repository" ({} : Config).repository checkRepository = .valid c.repository
  branch : setting named "branch" ({} : Config).branch checkOptionalText = .valid c.branch
  tokenEnvVar :
    setting named "token_env_var" ({} : Config).tokenEnvVar checkText = .valid c.tokenEnvVar
  commitMessage :
    setting named "commit_message" ({} : Config).commitMessage checkText = .valid c.commitMessage
  logsRoot : setting named "logs_root" ({} : Config).logsRoot checkText = .valid c.logsRoot
  historyFile :
    setting named "history_file" ({} : Config).historyFile checkOptionalText = .valid c.historyFile
  historyLimit :
    setting named "history_limit" ({} : Config).historyLimit checkCount = .valid c.historyLimit
  names : unknownNames named = .valid ()

/-- The check of the tag. -/
def checkTag (named : List (Text × Value)) : Checked Message.FileTag :=
  setting named "file_tag" ({} : Config).fileTag checkFileTag

/-- Where all else is well, the tag decides. -/
theorem IsConfigOf.check_eq {c : Config} {named : List (Text × Value)} (h : c.IsConfigOf named) :
    check named = (checkTag named).map fun tag => { c with fileTag := tag } := by
  unfold check
  dsimp only
  rw [h.anchorMode, h.store, h.root, h.repository, h.branch, h.tokenEnvVar, h.commitMessage,
    h.logsRoot, h.historyFile, h.historyLimit, h.names]
  simp only [Checked.andAlso_valid, Checked.map_map]
  rfl

theorem isConfigOf_of_check {c : Config} {named : List (Text × Value)} (h : check named = .valid c) :
    c.IsConfigOf named ∧ checkTag named = .valid c.fileTag := by
  unfold check at h
  dsimp only at h
  obtain ⟨_, _, h11, hnames, rfl⟩ := Checked.andAlso_eq_valid_iff.mp h
  obtain ⟨_, _, h10, hhistoryLimit, rfl⟩ := Checked.andAlso_eq_valid_iff.mp h11
  obtain ⟨_, _, h9, hhistoryFile, rfl⟩ := Checked.andAlso_eq_valid_iff.mp h10
  obtain ⟨_, _, h8, hlogsRoot, rfl⟩ := Checked.andAlso_eq_valid_iff.mp h9
  obtain ⟨_, _, h7, hcommitMessage, rfl⟩ := Checked.andAlso_eq_valid_iff.mp h8
  obtain ⟨_, _, h6, htokenEnvVar, rfl⟩ := Checked.andAlso_eq_valid_iff.mp h7
  obtain ⟨_, _, h5, hbranch, rfl⟩ := Checked.andAlso_eq_valid_iff.mp h6
  obtain ⟨_, _, h4, hrepository, rfl⟩ := Checked.andAlso_eq_valid_iff.mp h5
  obtain ⟨_, _, h3, hroot, rfl⟩ := Checked.andAlso_eq_valid_iff.mp h4
  obtain ⟨_, _, h2, hstore, rfl⟩ := Checked.andAlso_eq_valid_iff.mp h3
  obtain ⟨_, _, h1, hanchorMode, rfl⟩ := Checked.andAlso_eq_valid_iff.mp h2
  obtain ⟨_, htag, rfl⟩ := Checked.map_eq_valid_iff.mp h1
  exact ⟨⟨hanchorMode, hstore, hroot, hrepository, hbranch, htokenEnvVar, hcommitMessage, hlogsRoot,
    hhistoryFile, hhistoryLimit, hnames⟩, htag⟩

/-! ## Settings as they are written out -/

/-- What a setting has is its default or was made of a value. -/
theorem eq_or_exists_of_setting {α : Type} {named : List (Text × Value)} {name : String}
    {otherwise a : α} {check : Value → Except Fault α}
    (h : setting named name otherwise check = .valid a) : a = otherwise ∨ ∃ v, check v = .ok a := by
  unfold setting at h
  cases hlookup : named.lookup name.toList with
  | none =>
      rw [hlookup] at h
      exact Or.inl (Checked.valid.inj h).symm
  | some v =>
      rw [hlookup] at h
      exact Or.inr ⟨v, Checked.ofExcept_inside_eq_valid_iff.mp h⟩

/-- A repository has the form that the check asks for. -/
def HasSlash (repository : Option Text) : Prop := ∀ r ∈ repository, r.count '/' = 1

theorem checkRepository_optionalValue {repository : Option Text} (h : HasSlash repository) :
    checkRepository (optionalValue repository) = .ok repository := by
  cases repository with
  | none => rfl
  | some r =>
      show (if r.count '/' = 1 then Except.ok (some r) else _) = _
      rw [if_pos (h r rfl)]

theorem hasSlash_of_checkRepository {v : Value} {repository : Option Text}
    (h : checkRepository v = .ok repository) : HasSlash repository := by
  unfold checkRepository at h
  cases hv : checkOptionalText v with
  | error e => rw [hv] at h; cases h
  | ok text =>
      rw [hv] at h
      cases text with
      | none =>
          obtain rfl := Except.ok.inj h
          intro r hr
          cases hr
      | some t =>
          change (if t.count '/' = 1 then Except.ok (some t) else Except.error _) = _ at h
          split at h
          · rename_i hcount
            obtain rfl := Except.ok.inj h
            intro r hr
            rw [← Option.some.inj hr]
            exact hcount
          · cases h

/-- **An accepted configuration is written out as it is**: each setting but the tag is read back with
its value. -/
theorem isConfigOf_settings {c : Config} (hrepository : HasSlash c.repository) :
    c.IsConfigOf c.settings where
  anchorMode := by
    apply Checked.ofExcept_inside_eq_valid_iff.mpr
    show checkPolicy (.text c.anchorMode.name.toList) = .ok c.anchorMode
    cases c.anchorMode <;> rfl
  store := by
    apply Checked.ofExcept_inside_eq_valid_iff.mpr
    show checkStore (.text c.store.name.toList) = .ok c.store
    cases c.store <;> rfl
  root := rfl
  repository := Checked.ofExcept_inside_eq_valid_iff.mpr (checkRepository_optionalValue hrepository)
  branch := by
    apply Checked.ofExcept_inside_eq_valid_iff.mpr
    show checkOptionalText (optionalValue c.branch) = .ok c.branch
    cases c.branch <;> rfl
  tokenEnvVar := rfl
  commitMessage := rfl
  logsRoot := rfl
  historyFile := by
    apply Checked.ofExcept_inside_eq_valid_iff.mpr
    show checkOptionalText (optionalValue c.historyFile) = .ok c.historyFile
    cases c.historyFile <;> rfl
  historyLimit := rfl
  names := unknownNames_eq_valid_iff.mpr fun _ h => h

/-! ## The tag -/

/-- The name that a text gives to a tag: it stands in blanks and brackets. -/
def tagName (t : Text) : Text := Text.strip (Text.stripChars ['[', ']'] (Text.strip t))

/-- The fault of a text that names no tag. -/
def blankTag : Fault := .rule "file_tag must not be blank".toList

/-- No bracket is left at either end of the name. -/
def IsBare (tag : Message.FileTag) : Prop :=
  (∀ c ∈ tag.name.head?, c ∉ ['[', ']']) ∧ ∀ c ∈ tag.name.getLast?, c ∉ ['[', ']']

instance (tag : Message.FileTag) : Decidable (IsBare tag) :=
  decidable_of_iff ((tag.name.head?.all fun c => c ∉ ['[', ']']) ∧
    tag.name.getLast?.all fun c => c ∉ ['[', ']']) (by simp [IsBare, Option.all_eq_true])

/-- The name is one that the check can give: it is not empty, and no blanks are around it. -/
def IsNamed (tag : Message.FileTag) : Prop := tag.name ≠ [] ∧ Text.strip tag.name = tag.name

theorem isNamed_standard : IsNamed .standard := ⟨by decide, by decide⟩

theorem checkFileTag_text {t : Text} (ht : t ≠ []) :
    checkFileTag (.text t) =
      if tagName t = [] then .error blankTag else .ok ⟨tagName t⟩ := by
  have hfull : t.isEmpty = false := by simpa using ht
  unfold checkFileTag
  show (if t.isEmpty then _ else _) = _
  rw [hfull, if_neg Bool.false_ne_true]
  split
  · rename_i hnone
    have hempty : tagName t = [] := hnone
    rw [if_pos hempty]
    rfl
  · rename_i hsome
    have hfull : tagName t ≠ [] := hsome
    rw [if_neg hfull]
    rfl

theorem isNamed_of_checkFileTag {v : Value} {tag : Message.FileTag}
    (h : checkFileTag v = .ok tag) : IsNamed tag := by
  have hread : checkFileTag v = (checkText v).bind fun t => checkFileTag (.text t) := rfl
  rw [hread] at h
  cases hv : checkText v with
  | error e => rw [hv] at h; cases h
  | ok t =>
      rw [hv] at h
      change checkFileTag (.text t) = .ok tag at h
      cases t with
      | nil => cases h
      | cons c t =>
          rw [checkFileTag_text (List.cons_ne_nil c t)] at h
          split at h
          · cases h
          · rename_i hne
            obtain rfl := Except.ok.inj h
            exact ⟨hne, Text.strip_strip _⟩

/-- **A name comes out of its brackets again** exactly if none are left at its ends. -/
theorem tagName_eq_self_iff {tag : Message.FileTag} (h : IsNamed tag) :
    tagName tag.name = tag.name ↔ IsBare tag := by
  unfold tagName IsBare
  rw [h.2, ← Text.stripChars_eq_self_iff]
  constructor
  · intro hsame
    -- neither the brackets nor the blanks behind them can have taken anything away
    have hchars : Text.stripChars ['[', ']'] tag.name <:+: tag.name := Text.dropEnds_infix _ _
    have hblanks : Text.strip (Text.stripChars ['[', ']'] tag.name) <:+:
        Text.stripChars ['[', ']'] tag.name := Text.dropEnds_infix _ _
    rw [hsame] at hblanks
    exact hchars.eq_of_length (Nat.le_antisymm hchars.length_le hblanks.length_le)
  · intro hbare
    rw [hbare, h.2]

/-! ## Configurations with overrides -/

/-- The configuration with the settings that are replaced taken from another one. -/
def updated (c o : Config) (overrides : List (Text × Value)) : Config where
  fileTag := if Replaces overrides "file_tag" then o.fileTag else c.fileTag
  anchorMode := if Replaces overrides "anchor_mode" then o.anchorMode else c.anchorMode
  store := if Replaces overrides "store" then o.store else c.store
  root := if Replaces overrides "root" then o.root else c.root
  repository := if Replaces overrides "repository" then o.repository else c.repository
  branch := if Replaces overrides "branch" then o.branch else c.branch
  tokenEnvVar := if Replaces overrides "token_env_var" then o.tokenEnvVar else c.tokenEnvVar
  commitMessage := if Replaces overrides "commit_message" then o.commitMessage else c.commitMessage
  logsRoot := if Replaces overrides "logs_root" then o.logsRoot else c.logsRoot
  historyFile := if Replaces overrides "history_file" then o.historyFile else c.historyFile
  historyLimit := if Replaces overrides "history_limit" then o.historyLimit else c.historyLimit

theorem IsConfigOf.override {c o : Config} {named overrides : List (Text × Value)}
    (hos : (overrides.map Prod.fst).Nodup) (hc : c.IsConfigOf named)
    (ho : o.IsConfigOf (given overrides)) :
    (c.updated o overrides).IsConfigOf (Config.override named overrides) where
  anchorMode := setting_override_valid hos hc.anchorMode ho.anchorMode
  store := setting_override_valid hos hc.store ho.store
  root := setting_override_valid hos hc.root ho.root
  repository := setting_override_valid hos hc.repository ho.repository
  branch := setting_override_valid hos hc.branch ho.branch
  tokenEnvVar := setting_override_valid hos hc.tokenEnvVar ho.tokenEnvVar
  commitMessage := setting_override_valid hos hc.commitMessage ho.commitMessage
  logsRoot := setting_override_valid hos hc.logsRoot ho.logsRoot
  historyFile := setting_override_valid hos hc.historyFile ho.historyFile
  historyLimit := setting_override_valid hos hc.historyLimit ho.historyLimit
  names := by
    rw [unknownNames_eq_valid_iff]
    intro n hn
    rcases (named_override hos named n).mp hn with hn | hn
    · exact unknownNames_eq_valid_iff.mp ho.names n hn
    · exact unknownNames_eq_valid_iff.mp hc.names n hn

/-- What a check accepts can be written out, and its tag has a name. -/
theorem accepted_of_check {c : Config} {named : List (Text × Value)} (h : check named = .valid c) :
    HasSlash c.repository ∧ IsNamed c.fileTag := by
  obtain ⟨hc, htag⟩ := isConfigOf_of_check h
  constructor
  · rcases eq_or_exists_of_setting hc.repository with hdefault | ⟨v, hv⟩
    · rw [hdefault]
      intro r hr
      cases hr
    · exact hasSlash_of_checkRepository hv
  · rcases eq_or_exists_of_setting htag with hdefault | ⟨v, hv⟩
    · rw [hdefault]
      exact isNamed_standard
    · exact isNamed_of_checkFileTag hv

/-- The tag as it is read from its own name. -/
theorem checkTag_settings {c : Config} (h : IsNamed c.fileTag) :
    checkTag c.settings =
      if tagName c.fileTag.name = [] then .invalid [⟨[.name "file_tag".toList], blankTag⟩]
      else .valid ⟨tagName c.fileTag.name⟩ := by
  have hread : checkTag c.settings =
      (Checked.ofExcept (checkFileTag (.text c.fileTag.name))).inside (.name "file_tag".toList) := rfl
  rw [hread, checkFileTag_text h.1]
  split <;> rfl

theorem withOverrides_eq {c o : Config} {named overrides : List (Text × Value)}
    (hc : check named = .valid c) (hos : (overrides.map Prod.fst).Nodup)
    (ho : check (given overrides) = .valid o) :
    c.withOverrides overrides =
      if Replaces overrides "file_tag" ∨ IsBare c.fileTag then .ok (c.updated o overrides)
      else if tagName c.fileTag.name = [] then .error [⟨[.name "file_tag".toList], blankTag⟩]
      else .ok { c.updated o overrides with fileTag := ⟨tagName c.fileTag.name⟩ } := by
  obtain ⟨hslash, hname⟩ := accepted_of_check hc
  obtain ⟨hgiven, hgivenTag⟩ := isConfigOf_of_check ho
  have htag : checkTag (override c.settings overrides) =
      if Replaces overrides "file_tag" then .valid o.fileTag else checkTag c.settings := by
    rw [checkTag, setting_override hos]
    exact congrArg (fun x => if Replaces overrides "file_tag" then x else _) hgivenTag
  unfold withOverrides
  rw [((isConfigOf_settings hslash).override hos hgiven).check_eq, htag]
  by_cases hreplaced : Replaces overrides "file_tag"
  · have hnew : (c.updated o overrides).fileTag = o.fileTag := if_pos hreplaced
    rw [if_pos hreplaced, if_pos (Or.inl hreplaced), ← hnew]
    rfl
  · have hold : (c.updated o overrides).fileTag = c.fileTag := if_neg hreplaced
    rw [if_neg hreplaced, checkTag_settings hname]
    by_cases hbare : IsBare c.fileTag
    · rw [if_pos (Or.inr hbare), (tagName_eq_self_iff hname).mpr hbare, if_neg hname.1]
      show Except.ok { c.updated o overrides with fileTag := c.fileTag } = _
      rw [← hold]
    · rw [if_neg (not_or.mpr ⟨hreplaced, hbare⟩)]
      split <;> rfl

/-- **Overrides touch what they name**, but for the name of the tag, from which brackets are taken once
more: where one is left at an end, the name changes without being named, and if nothing else is in it
the overrides are refused. A configuration is checked again without a change exactly if its tag has no
bracket at an end. -/
theorem withOverrides_accepted {c o : Config} {named overrides : List (Text × Value)}
    (hc : check named = .valid c) (hos : (overrides.map Prod.fst).Nodup)
    (ho : check (given overrides) = .valid o) :
    c.withOverrides overrides =
        (if Replaces overrides "file_tag" ∨ IsBare c.fileTag then .ok (c.updated o overrides)
        else if tagName c.fileTag.name = [] then .error [⟨[.name "file_tag".toList], blankTag⟩]
        else .ok { c.updated o overrides with fileTag := ⟨tagName c.fileTag.name⟩ }) ∧
      (c.withOverrides [] = .ok c ↔ IsBare c.fileTag) := by
  refine ⟨withOverrides_eq hc hos ho, ?_⟩
  obtain ⟨-, hname⟩ := accepted_of_check hc
  have hempty : check (given []) = .valid {} := rfl
  have hsame : c.updated {} [] = c := by
    simp [updated, Replaces, given]
  have hkept : ¬ Replaces [] "file_tag" := by simp [Replaces, given]
  have hnone : (([] : List (Text × Value)).map Prod.fst).Nodup := List.nodup_nil
  rw [withOverrides_eq hc hnone hempty, hsame]
  by_cases hbare : IsBare c.fileTag
  · rw [if_pos (Or.inr hbare)]
    exact iff_of_true rfl hbare
  · rw [if_neg (not_or.mpr ⟨hkept, hbare⟩)]
    refine iff_of_false (fun h => ?_) hbare
    split at h
    · cases h
    · have htag := congrArg Config.fileTag (Except.ok.inj h)
      exact hbare ((tagName_eq_self_iff hname).mp (congrArg Message.FileTag.name htag))

/-- A tag in brackets that stand in blanks and brackets. -/
def sampleNamed : List (Text × Value) := [("file_tag".toList, .text "[ [x] ]".toList)]

/-- The configuration in which one pair of brackets is left. -/
def sampleConfig : Config := { fileTag := ⟨"[x]".toList⟩ }

/-- A branch, and a null that changes nothing. -/
def sampleOverrides : List (Text × Value) :=
  [("branch".toList, .text "dev".toList), ("root".toList, .null)]

/-- The branch is set and the root kept, and the tag loses its brackets. -/
theorem withOverrides_accepted_brackets :
    check sampleNamed = .valid sampleConfig ∧ (sampleOverrides.map Prod.fst).Nodup ∧
      check (given sampleOverrides) = .valid { branch := some "dev".toList } ∧
      sampleConfig.withOverrides sampleOverrides =
        .ok { fileTag := ⟨"x".toList⟩, branch := some "dev".toList } ∧
      sampleConfig.withOverrides [] ≠ .ok sampleConfig := by
  have hc : check sampleNamed = .valid sampleConfig := rfl
  have hos : (sampleOverrides.map Prod.fst).Nodup := by decide
  have ho : check (given sampleOverrides) = .valid { branch := some "dev".toList } := rfl
  obtain ⟨heq, hsame⟩ := withOverrides_accepted hc hos ho
  refine ⟨hc, hos, ho, heq.trans (by decide), fun h => ?_⟩
  exact absurd (hsame.mp h) (by decide)

/-- It is not so that overrides keep the settings that they do not name. -/
theorem not_overrides_keep : ¬ ∀ (named overrides : List (Text × Value)) (c o : Config),
    check named = .valid c → (overrides.map Prod.fst).Nodup → check (given overrides) = .valid o →
      c.withOverrides overrides = .ok (c.updated o overrides) := by
  intro h
  have hkept := h sampleNamed sampleOverrides sampleConfig { branch := some "dev".toList } rfl
    (by decide) rfl
  exact absurd hkept (by decide)

end Config

end Emend
