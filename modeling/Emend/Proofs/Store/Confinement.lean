import Emend.Proofs.Act.Likeness
import Emend.Proofs.Disk.NormalForms
import Emend.Proofs.Disk.Ways
import Emend.Proofs.Store.Demands
import Emend.Proofs.Store.LocalTrees

/-!
# Local files stay below their root

A path given to a store of local files means one place, its normal form. If that is not at or below the
root, the store refuses and does nothing. Otherwise it acts at the place, and may make directories on the
way from the root to it. What it answers hangs on what stands on this way and on nothing else, and not on
how the place is spelled, but for the spelling that messages quote.
-/

namespace Emend

/-- The texts are the same, but that one quotes the path `p` where the other quotes `q`. -/
def Text.Respelled (p q t u : Text) : Prop :=
  t = u ∨ ∃ before after, t = before ++ p ++ after ∧ u = before ++ q ++ after

/-- The failures are the same, but that the one concerns the path `p` and the other `q`. -/
inductive Failure.Respelled (p q : Text) : Failure → Failure → Prop
  | same (e : Failure) : Respelled p q e e
  | store (before after : Text) : Respelled p q (.store ⟨before ++ p ++ after, some p⟩)
      (.store ⟨before ++ q ++ after, some q⟩)

/-- The notes are the same, but that one quotes the path `p` where the other quotes `q`. -/
structure Note.Respelled (p q : Text) (n m : Note) : Prop where
  channel : n.channel = m.channel
  isWarning : n.isWarning = m.isWarning
  text : Text.Respelled p q n.text m.text

theorem Text.respelled_self {p t u : Text} : Text.Respelled p p t u ↔ t = u := by
  constructor
  · rintro (h | ⟨before, after, rfl, rfl⟩)
    · exact h
    · rfl
  · exact .inl

theorem Failure.respelled_self {p : Text} {e e' : Failure} : Failure.Respelled p p e e' ↔ e = e' := by
  constructor
  · rintro (_ | _) <;> rfl
  · rintro rfl
    exact .same e

theorem Failure.Respelled.of_eq {p q m m' : Text} (before after : Text) (hm : m = before ++ p ++ after)
    (hm' : m' = before ++ q ++ after) :
    Failure.Respelled p q (.store ⟨m, some p⟩) (.store ⟨m', some q⟩) := by
  rw [hm, hm']
  exact .store before after

theorem Note.Respelled.of_eq {p q t u : Text} (before after : Text) (ht : t = before ++ p ++ after)
    (hu : u = before ++ q ++ after) : Note.Respelled p q (storeNote t) (storeNote u) :=
  ⟨rfl, rfl, .inr ⟨before, after, ht, hu⟩⟩

namespace LocalFiles

open Act Disk Likeness

variable {l : LocalFiles} {d d₁ : Disk} {p q text : Text} {place : Path} {token : Option Token}
  {α β : Type}

/-- The same, but for the spelling of the path, on disks that are the same on the way to a place. -/
def alike (place : Path) (p q : Text) : Likeness Disk Disk :=
  ⟨SameWay place, Failure.Respelled p q, Note.Respelled p q⟩

/-! ## Parts of the operations -/

theorem alike_refuse (h : SameWay place d d₁) (before after : String) :
    (alike place p q).Replies (α := α) Eq (refuse p before after d) (refuse q before after d₁) :=
  replies_fail h (.of_eq (before.toList ++ ['\'']) ('\'' :: after.toList) (by simp) (by simp))

theorem alike_orRefuse_error (h : SameWay place d d₁) (verb : String) (e : OsError) {V : α → β → Prop} :
    (alike place p q).Replies V (orRefuse verb p (.error e) d) (orRefuse verb q (.error e) d₁) :=
  replies_fail h (.of_eq ("Failed to ".toList ++ verb.toList ++ " '".toList) ("': ".toList ++ e.message)
    (by simp) (by simp))

theorem alike_orRefuse (h : SameWay place d d₁) (verb : String) (r : Except OsError α) :
    (alike place p q).Replies Eq (orRefuse verb p r d) (orRefuse verb q r d₁) := by
  cases r with
  | ok a => exact replies_ok h rfl
  | error e => exact alike_orRefuse_error h verb e

/-- An operation on the disk. -/
theorem alike_disk (h : SameWay place d d₁) (verb : String) {r r₁ : Except OsError Disk}
    (hr : SameWayResult place r r₁) :
    (alike place p q).Replies (SameWay place) (orRefuse verb p r d) (orRefuse verb q r₁ d₁) := by
  cases hr with
  | ok hway => exact replies_ok h hway
  | error e => exact alike_orRefuse_error h verb e

theorem alike_look (hplace : place.IsPlain) (h : SameWay place d d₁) :
    (alike place p q).Replies Eq (LocalFiles.look place d) (LocalFiles.look place d₁) := by
  show (alike place p q).Replies Eq ⟨(d.look (.ofPath place)).mapError .os, d, []⟩
    ⟨(d₁.look (.ofPath place)).mapError .os, d₁, []⟩
  rw [h.look hplace]
  cases d₁.look (.ofPath place) with
  | ok e => exact replies_ok h rfl
  | error e => exact replies_fail h (.same _)

theorem alike_read (hplace : place.IsPlain) (h : SameWay place d d₁) :
    (alike place p q).Replies Eq (LocalFiles.read p place d) (LocalFiles.read q place d₁) := by
  rw [LocalFiles.read, LocalFiles.read, get_bind, get_bind, h.readFile hplace]
  exact alike_orRefuse h "read" _

theorem alike_decodeText (h : SameWay place d d₁) (bs : Bytes) :
    (alike place p q).Replies Eq (decodeText p [] bs d) (decodeText q [] bs d₁) := by
  rw [decodeText, decodeText]
  cases Utf8.decode bs with
  | ok t => exact replies_ok h rfl
  | error e =>
      exact replies_fail h (.of_eq ['\''] ('\'' :: " is not valid utf-8 text: ".toList ++ e.message)
        (by simp) (by simp))

/-- What is quoted when the bytes have changed. -/
theorem alike_changed (h : SameWay place d d₁) (t current : Token) :
    (alike place p q).Replies (α := α) Eq
      (Act.refuse ('\'' :: p ++ "' changed since it was fetched (expected ".toList ++ t.take 10 ++
        ", found ".toList ++ current.take 10 ++ ").".toList) (some p) d)
      (Act.refuse ('\'' :: q ++ "' changed since it was fetched (expected ".toList ++ t.take 10 ++
        ", found ".toList ++ current.take 10 ++ ").".toList) (some q) d₁) :=
  replies_fail h (.of_eq ['\''] ("' changed since it was fetched (expected ".toList ++ t.take 10 ++
    ", found ".toList ++ current.take 10 ++ ").".toList) (by simp) (by simp))

theorem alike_checkToken (hplace : place.IsPlain) (token : Option Token) (h : SameWay place d d₁) :
    (alike place p q).Replies Eq (checkToken p place token d) (checkToken q place token d₁) := by
  cases token with
  | none => exact replies_ok h rfl
  | some t =>
      rw [checkToken, checkToken]
      refine (alike_look hplace h).bind fun e _ d d₁ he h => ?_
      subst he
      dsimp only
      split
      · refine (alike_refuse h _ _).bind fun _ _ d d₁ _ h => ?_
        refine (alike_read hplace h).bind fun bs _ d d₁ hbs h => ?_
        subst hbs
        split
        · exact alike_changed h t _
        · exact replies_ok h rfl
      · refine (alike_read hplace h).bind fun bs _ d d₁ hbs h => ?_
        subst hbs
        split
        · exact alike_changed h t _
        · exact replies_ok h rfl

/-! ## The operations -/

theorem alike_fetch (hp : l.resolve p = .ok place) (hq : l.resolve q = .ok place)
    (hplace : place.IsPlain) (h : SameWay place d d₁) :
    (alike place p q).Replies Eq (l.fetch p d) (l.fetch q d₁) := by
  rw [fetch, fetch, ofExcept_bind hp, ofExcept_bind hq]
  refine (alike_look hplace h).bind fun e _ d d₁ he h => ?_
  subst he
  rcases e with _ | bs | _
  · refine (replies_note h ?_).bind fun _ _ d d₁ _ h => replies_ok h rfl
    exact .of_eq "fetch ".toList ": not found".toList rfl rfl
  · refine (alike_read hplace h).bind fun bs _ d d₁ hbs h => ?_
    subst hbs
    refine (alike_decodeText h bs).bind fun t _ d d₁ ht h => ?_
    subst ht
    refine (replies_note h ?_).bind fun _ _ d d₁ _ h => replies_ok h rfl
    exact .of_eq "fetch ".toList (": ".toList ++ byteCount bs) (by simp) (by simp)
  · exact alike_refuse h _ _

theorem alike_write (hp : l.resolve p = .ok place) (hq : l.resolve q = .ok place)
    (hplace : place.IsPlain) (text : Text) (token : Option Token) (h : SameWay place d d₁) :
    (alike place p q).Replies Eq (l.write p text token d) (l.write q text token d₁) := by
  rw [write, write, ofExcept_bind hp, ofExcept_bind hq]
  refine (alike_checkToken hplace token h).bind fun _ _ d d₁ _ h => ?_
  rw [get_bind, get_bind]
  -- the directories are made before it is known whether the text can be written
  have hmade := h.makeDirs hplace
  generalize d.makeDirs (Location.ofPath place).parent = r at hmade
  generalize d₁.makeDirs (Location.ofPath place).parent = r₁ at hmade
  obtain ⟨made, d⟩ := r
  obtain ⟨_, d₁⟩ := r₁
  obtain ⟨rfl, h⟩ := hmade
  refine (replies_set h).bind fun _ _ d d₁ _ h => ?_
  refine (alike_orRefuse h "write" made).bind fun _ _ d d₁ _ h => ?_
  rw [get_bind, get_bind]
  refine (alike_disk h "write" (h.writeFile hplace _)).bind fun _ _ _ _ h _ => ?_
  refine (replies_set h).bind fun _ _ _ _ _ h => ?_
  refine (replies_note h ?_).bind fun _ _ _ _ _ h => replies_ok h rfl
  exact .of_eq "write ".toList (": ".toList ++ byteCount (Utf8.encode text)) (by simp) (by simp)

theorem alike_delete (hp : l.resolve p = .ok place) (hq : l.resolve q = .ok place)
    (hplace : place.IsPlain) (token : Option Token) (h : SameWay place d d₁) :
    (alike place p q).Replies Eq (l.delete p token d) (l.delete q token d₁) := by
  rw [delete, delete, ofExcept_bind hp, ofExcept_bind hq]
  refine (alike_look hplace h).bind fun e _ d d₁ he h => ?_
  subst he
  dsimp only
  split
  · exact alike_refuse h "" " not found for deletion."
  · refine (alike_checkToken hplace token h).bind fun _ _ d d₁ _ h => ?_
    rw [get_bind, get_bind]
    refine (alike_disk h "delete" (h.removeFile hplace)).bind fun _ _ _ _ h _ => ?_
    refine (replies_set h).bind fun _ _ _ _ _ h => replies_note h ?_
    exact .of_eq "delete ".toList [] (by simp) (by simp)

/-- **The same demand for one place**, however it is spelled, fares alike where the way is the same. -/
theorem alike_serve (hp : l.resolve p = .ok place) (hq : l.resolve q = .ok place)
    (hplace : place.IsPlain) (k : Demand) (h : SameWay place d d₁) :
    (alike place p q).Replies Eq (l.store.serve p k d) (l.store.serve q k d₁) := by
  cases k with
  | fetch ref => exact Replies.map (alike_fetch hp hq hplace h) _
  | write text token ref message => exact Replies.map (alike_write hp hq hplace text token h) _
  | delete token ref message => exact Replies.map (alike_delete hp hq hplace token h) _

/-! ## What is left alone -/

theorem spares_of_grows (h : d.Grows place d₁) : d.Spares place d₁ :=
  ⟨fun q _ => h q, h.hasDirectories place⟩

theorem spares_write (hp : l.resolve p = .ok place) (hplace : place.IsPlain) (text : Text)
    (token : Option Token) : d.Spares place (l.write p text token d).state := by
  have hwritten := written_write l p text token d
  generalize l.write p text token d = writing at hwritten
  cases hwritten with
  | untouched e => exact spares_of_grows (.refl place d)
  | stopped place' d₁ e hplace' hdirs =>
      obtain rfl : place = place' := Except.ok.inj (hp.symm.trans hplace')
      subst hdirs
      exact spares_of_grows ((grows_makeDirs hplace.dropLast d).mono (List.dropLast_prefix place))
  | made place' d₁ d₂ ns hplace' hdirs hfile =>
      obtain rfl : place = place' := Except.ok.inj (hp.symm.trans hplace')
      have hleft : (d.makeDirs (.ofPath place.dropLast)).2 = d₁ := congrArg Prod.snd hdirs
      exact (writeFile_spares hplace (hleft ▸ grows_makeDirs hplace.dropLast d) hfile).1

theorem spares_delete (hp : l.resolve p = .ok place) (hplace : place.IsPlain)
    (token : Option Token) : d.Spares place (l.delete p token d).state := by
  have hdeleted := deleted_delete l p token d
  generalize l.delete p token d = deletion at hdeleted
  cases hdeleted with
  | untouched e => exact spares_of_grows (.refl place d)
  | made place' d₁ ns hplace' hremoved =>
      obtain rfl : place = place' := Except.ok.inj (hp.symm.trans hplace')
      exact (removeFile_spares hplace hremoved).1

theorem state_map {σ γ : Type} (f : α → γ) (x : Act σ α) (s : σ) : ((f <$> x) s).state = (x s).state := by
  rw [map_apply]

/-- Away from the place of a path only directories on the way there are made. -/
theorem spares_serve (hp : l.resolve p = .ok place) (hplace : place.IsPlain) (k : Demand) :
    d.Spares place (l.store.serve p k d).state := by
  cases k with
  | fetch ref =>
      have hsame : d = (l.fetch p d).state := keeps_fetch l p d
      show d.Spares place ((Demand.Answer.fetched <$> l.fetch p) d).state
      rw [state_map, ← hsame]
      exact spares_of_grows (.refl place d)
  | write text token ref message =>
      show d.Spares place ((Demand.Answer.written <$> l.write p text token) d).state
      rw [state_map]
      exact spares_write hp hplace text token
  | delete token ref message =>
      show d.Spares place (((fun _ => Demand.Answer.deleted) <$> l.delete p token) d).state
      rw [state_map]
      exact spares_delete hp hplace token

/-! ## Inside and outside the root -/

theorem isNormal_of_rootPlace {t : Text} {root : Path} (hcwd : d.cwd.IsNormal) (hhome : d.home.IsNormal)
    (h : rootPlace d t = .ok root) : root.IsNormal := by
  have hnames : ∀ n ∈ (Location.ofText d.cwd t).names, '/' ∉ n := fun n hn =>
    Text.not_mem_of_mem_splitOn (List.mem_of_mem_filter hn)
  rw [rootPlace] at h
  split at h
  · rename_i user names hfirst
    rw [hfirst] at hnames
    split at h
    · cases h
      exact Path.isNormal_follow hhome fun n hn => hnames n (List.mem_cons_of_mem _ hn)
    · cases h
  · cases h
    refine Path.isNormal_follow ?_ hnames
    exact Path.isNormal_start hcwd t

/-- Every root that is opened on a disk with normal places of its own is normal. -/
theorem isNormal_of_atRoot {t : Text} (hcwd : d.cwd.IsNormal) (hhome : d.home.IsNormal)
    (h : atRoot d t = .ok l) : l.root.IsNormal := by
  rw [atRoot] at h
  obtain ⟨-, -, h⟩ := ok_of_bind h
  obtain ⟨root, hroot, h⟩ := ok_of_bind h
  split at h
  · cases h
  · cases h
    exact isNormal_of_rootPlace hcwd hhome hroot
  · cases h

/-- A path without a null character means what it resolves to, if that is at or below the root. -/
theorem resolve_of_prefix (hnul : p.contains '\x00' = false) (h : l.root <+: Path.resolve l.root p) :
    l.resolve p = .ok (Path.resolve l.root p) := by
  obtain ⟨rest, hrest⟩ := h
  rw [resolve, checkText_of_not_contains hnul]
  dsimp only [bind, Except.bind]
  rw [Path.below?_eq_some_iff.mpr hrest.symm]
  rfl

/-- Otherwise it is refused. -/
theorem resolve_of_escape (hnul : p.contains '\x00' = false)
    (h : ¬ l.root <+: Path.resolve l.root p) :
    l.resolve p = .error (.store ⟨"Path '".toList ++ p ++ "' escapes root '".toList ++ l.root.text ++
      "'.".toList, some p⟩) := by
  have hoff : Path.below? l.root (Path.resolve l.root p) = none := by
    rw [Option.eq_none_iff_forall_ne_some]
    intro rest hrest
    exact h ⟨rest, (Path.below?_eq_some_iff.mp hrest).symm⟩
  rw [resolve, checkText_of_not_contains hnul]
  dsimp only [bind, Except.bind]
  rw [hoff]

theorem serve_of_error {e : Failure} (h : l.resolve p = .error e) (k : Demand) (d : Disk) :
    l.store.serve p k d = ⟨.error e, d, []⟩ := by
  cases k with
  | fetch ref =>
      show (Demand.Answer.fetched <$> l.fetch p) d = _
      rw [map_apply, fetch, ofExcept_bind_error h]
      rfl
  | write text token ref message =>
      show (Demand.Answer.written <$> l.write p text token) d = _
      rw [map_apply, write, ofExcept_bind_error h]
      rfl
  | delete token ref message =>
      show ((fun _ => Demand.Answer.deleted) <$> l.delete p token) d = _
      rw [map_apply, delete, ofExcept_bind_error h]
      rfl

/-- Wherever the disks were the same they are the same still, and the rest is the same but for the
spelling of the path. -/
def unlessSpelling (d d₁ : Disk) (p q : Text) : Likeness Disk Disk where
  state d' d₁' := ∀ r, d.get? r = d₁.get? r → d'.get? r = d₁'.get? r
  failure := Failure.Respelled p q
  note := Note.Respelled p q

/-- What a demand for a path has to do with a place. -/
structure Confines (l : LocalFiles) (p : Text) (k : Demand) (place : Path) : Prop where
  /-- The place is the normal form of the path. -/
  normal : ∀ q, Path.IsNormalForm l.root p q ↔ q = place
  /-- Off the root the demand is refused, and nothing is done. -/
  outside : ¬ l.root <+: place → ∀ d, l.store.serve p k d =
    ⟨.error (.store ⟨"Path '".toList ++ p ++ "' escapes root '".toList ++ l.root.text ++ "'.".toList,
      some p⟩), d, []⟩
  /-- Nothing is changed away from the place, but that directories between the root and the place are
  made. -/
  elsewhere : l.root <+: place → ∀ d : Disk, d.look (.ofPath l.root) = .ok (some .directory) →
    ∀ q, q ≠ place → (l.store.serve p k d).state.get? q = d.get? q ∨
      d.get? q = none ∧ (l.store.serve p k d).state.get? q = some .directory ∧
        l.root <+: q ∧ q ≠ l.root ∧ q <+: place
  /-- Nothing is looked at but what is between the root and the place, and any other path with that
  normal form fares alike. -/
  alike : l.root <+: place → ∀ d d₁ : Disk, d.look (.ofPath l.root) = .ok (some .directory) →
    d₁.look (.ofPath l.root) = .ok (some .directory) →
    (∀ q, l.root <+: q → q <+: place → d.get? q = d₁.get? q) →
    ∀ p₁ : Text, p₁.contains '\x00' = false → Path.IsNormalForm l.root p₁ place →
      (unlessSpelling d d₁ p p₁).Replies Eq (l.store.serve p k d) (l.store.serve p₁ k d₁)

theorem elsewhere_serve (hroot : l.root.IsPlain) (hplace : place.IsPlain) (hp : l.resolve p = .ok place)
    (k : Demand) (hbelow : l.root <+: place) (hd : d.look (.ofPath l.root) = .ok (some .directory))
    {r : Path} (hr : r ≠ place) :
    (l.store.serve p k d).state.get? r = d.get? r ∨
      d.get? r = none ∧ (l.store.serve p k d).state.get? r = some .directory ∧
        l.root <+: r ∧ r ≠ l.root ∧ r <+: place := by
  rcases (spares_serve hp hplace k).others r hr with hsame | ⟨hnone, hmade, hway⟩
  · exact .inl hsame
  · -- what was not there is not above the root
    have hoff : ¬ r <+: l.root := fun habove => by
      cases (isDirectory_of_look hroot hd habove).symm.trans hnone
    have hfrom := (List.prefix_or_prefix_of_prefix hway hbelow).resolve_left hoff
    exact .inr ⟨hnone, hmade, hfrom, fun hsame => hoff (hsame ▸ List.prefix_rfl), hway⟩

theorem unlessSpelling_serve (hplace : place.IsPlain)
    (hp : l.resolve p = .ok place) (hq : l.resolve q = .ok place) (k : Demand)
    (hway : SameWay place d d₁) :
    (unlessSpelling d d₁ p q).Replies Eq (l.store.serve p k d) (l.store.serve q k d₁) := by
  obtain ⟨hresult, hleft, hnotes⟩ := alike_serve hp hq hplace k hway
  refine ⟨hresult.mono fun _ _ h => h, fun r hr => ?_, hnotes⟩
  by_cases hon : r <+: place
  · exact hleft r hon
  -- off the way nothing is done on either disk
  · have hne : r ≠ place := fun h => hon (h ▸ List.prefix_rfl)
    have hoff : ∀ {p : Text} {d : Disk}, l.resolve p = .ok place →
        (l.store.serve p k d).state.get? r = d.get? r := fun hp =>
      ((spares_serve hp hplace k).others r hne).resolve_right fun h => hon h.2.2
    rw [hoff hp, hoff hq, hr]

/-- **Local files stay below their root.** -/
theorem exists_confines (hroot : l.root.IsNormal) (hnul : p.contains '\x00' = false) (k : Demand) :
    ∃ place, Confines l p k place := by
  have hplain := Path.isPlain_resolve hroot.isPlain p
  have hresolve := resolve_of_prefix (l := l) hnul
  refine ⟨Path.resolve l.root p, fun q => ?_, fun hoff d => ?_, fun hbelow d hd q hq => ?_,
    fun hbelow d d₁ hd hd₁ hsame p₁ hnul₁ hform => ?_⟩
  · rw [Path.isNormalForm_iff hroot, eq_comm]
  · exact serve_of_error (resolve_of_escape hnul hoff) k d
  · exact elsewhere_serve hroot.isPlain hplain (hresolve hbelow) k hbelow hd hq
  · have hplace₁ := (Path.isNormalForm_iff hroot).mp hform
    refine unlessSpelling_serve hplain (hresolve hbelow) ?_ k
      (sameWay_of_below hroot.isPlain hd hd₁ hbelow hsame)
    rw [← hplace₁] at hbelow ⊢
    exact resolve_of_prefix hnul₁ hbelow

theorem isNormal_sampleFiles : sampleFiles.root.IsNormal := by
  have hopened : atRoot (sampleDisk none) "/w".toList = .ok sampleFiles := by decide +kernel
  exact isNormal_of_atRoot Path.isNormal_nil Path.isNormal_nil hopened

/-- A path that leaves the root and comes back is confined to its place below the root. -/
theorem confines_detour : sampleFiles.root.IsNormal ∧
    ("../w//./x/../a.txt".toList).contains '\x00' = false ∧ ∃ place,
      Confines sampleFiles "../w//./x/../a.txt".toList (.fetch none) place ∧ place = samplePlace := by
  refine ⟨isNormal_sampleFiles, by decide, ?_⟩
  obtain ⟨place, hconfines⟩ := exists_confines (l := sampleFiles) (p := "../w//./x/../a.txt".toList)
    isNormal_sampleFiles (by decide) (.fetch none)
  have hform : Path.IsNormalForm sampleFiles.root "../w//./x/../a.txt".toList samplePlace :=
    (Path.isNormalForm_iff isNormal_sampleFiles).mpr (by decide +kernel)
  exact ⟨place, hconfines, ((hconfines.normal samplePlace).mp hform).symm⟩

end LocalFiles

end Emend
