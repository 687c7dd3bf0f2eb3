import Emend.Data.Assoc
import Emend.Proofs.Act
import Emend.Proofs.Text.Decimal
import Emend.Store.Hosting

/-!
# Versions on a hosting service

What a store relies on of a hosting service: every version of a file that is stored is given a fresh
identifier, and a change of a file that is meant for another version than the present one is refused.
`Versions` is what is to be seen of a service, `Passes` what may become of it by whatever requests, and
`Hosting.Versioned` what its requests answer and leave.

From a file that has been seen it is known for good that every file with its identifier is that file,
which is what `Knows` says: nothing that passes can take it away.
-/

namespace Emend

variable {ρ : Type}

/-- What is to be seen of a service in a state. -/
structure Versions (ρ : Type) where
  /-- What holds of every state of the service. -/
  inv : ρ → Prop
  /-- The file at a path of a revision. A revision that is absent means the default branch. -/
  file : Option Text → Text → ρ → Option HostedFile
  /-- The identifiers that have been given. -/
  given : ρ → Text → Prop
  /-- The service refuses nothing that it could do. -/
  isUp : ρ → Prop

namespace Versions

variable {V : Versions ρ} {r r' r'' : ρ} {f : HostedFile}

/-- Both states have the same files. -/
def Same (V : Versions ρ) (r r' : ρ) : Prop := ∀ ref p, V.file ref p r' = V.file ref p r

/-- A change that is meant for the version `v` is made: that is the version of the file at the path, and
`left` is what is there afterwards. -/
structure Makes (V : Versions ρ) (ref : Option Text) (p v : Text) (left : Option HostedFile)
    (r r' : ρ) : Prop where
  found : ∃ f, V.file ref p r = some f ∧ f.version = v
  left : V.file ref p r' = left

/-- A change that is meant for the version `v` is refused: every file is left as it is, and if the service
is up, the file at the path is not of that version. -/
structure Refuses (V : Versions ρ) (ref : Option Text) (p v : Text) (r r' : ρ) : Prop where
  same : V.Same r r'
  why : V.isUp r → ∀ f, V.file ref p r = some f → f.version ≠ v

/-- What may become of a state, whoever makes requests: a file that is there afterwards was there before,
maybe elsewhere, or else its version is new and has a fresh identifier. -/
structure Passes (V : Versions ρ) (r r' : ρ) : Prop where
  inv : V.inv r → V.inv r'
  given : ∀ v, V.given r v → V.given r' v
  file : V.inv r → ∀ ref p f, V.file ref p r' = some f →
    (∃ ref' p', V.file ref' p' r = some f) ∨ ¬ V.given r f.version

theorem passes_refl (V : Versions ρ) (r : ρ) : V.Passes r r where
  inv h := h
  given _ h := h
  file _ ref p _ h := .inl ⟨ref, p, h⟩

theorem Passes.trans (h : V.Passes r r') (h' : V.Passes r' r'') : V.Passes r r'' where
  inv hinv := h'.inv (h.inv hinv)
  given v hv := h'.given v (h.given v hv)
  file hinv ref p f hf := by
    rcases h'.file (h.inv hinv) ref p f hf with ⟨ref', p', hf'⟩ | hfresh
    · exact h.file hinv ref' p' f hf'
    · exact .inr fun hgiven => hfresh (h.given _ hgiven)

/-- Every file of the version of `f` is `f`, and the identifier is not given again. -/
structure Knows (V : Versions ρ) (f : HostedFile) (r : ρ) : Prop where
  given : V.given r f.version
  only : ∀ ref p g, V.file ref p r = some g → g.version = f.version → g = f

/-- What is known stays known. -/
theorem Knows.passes (h : V.Knows f r) (hinv : V.inv r) (hpasses : V.Passes r r') : V.Knows f r' where
  given := hpasses.given _ h.given
  only ref p g hg hversion := by
    rcases hpasses.file hinv ref p g hg with ⟨ref', p', hg'⟩ | hfresh
    · exact h.only ref' p' g hg' hversion
    · exact absurd (hversion ▸ h.given) hfresh

end Versions

/-- What may be relied on of a service that tells the versions of its files apart. -/
structure Hosting.Versioned (h : Hosting ρ) (V : Versions ρ) : Prop where
  knows : ∀ {ref p r f}, V.inv r → V.file ref p r = some f → V.Knows f r ∧ f.version ≠ []
  passes_get : ∀ p ref r, V.Passes r (h.getContents p ref r).2
  passes_create : ∀ p m t ref r, V.Passes r (h.createFile p m t ref r).2
  passes_update : ∀ p m t v ref r, V.Passes r (h.updateFile p m t v ref r).2
  passes_delete : ∀ p m v ref r, V.Passes r (h.deleteFile p m v ref r).2
  /-- Looking at a file changes none. -/
  same_get : ∀ p ref r, V.Same r (h.getContents p ref r).2
  get_file : ∀ {p ref r bs v}, V.inv r → (h.getContents p ref r).1 = .ok (.file bs v) →
    V.file ref p r = some ⟨bs, v⟩
  get_unknown : ∀ {p ref r}, V.inv r → (h.getContents p ref r).1 = .error .unknownObject →
    V.file ref p r = none
  get_of_isUp : ∀ {p ref r f}, V.inv r → V.isUp r → V.file ref p r = some f →
    (h.getContents p ref r).1 = .ok (.file f.bytes f.version)
  create_ok : ∀ {p m t ref r c}, V.inv r → (h.createFile p m t ref r).1 = .ok c →
    V.file ref p (h.createFile p m t ref r).2 = some ⟨Utf8.encode t, c.version⟩
  create_error : ∀ {p m t ref r e}, V.inv r → (h.createFile p m t ref r).1 = .error e →
    V.Same r (h.createFile p m t ref r).2
  update_ok : ∀ {p m t v ref r c}, V.inv r → (h.updateFile p m t v ref r).1 = .ok c →
    V.Makes ref p v (some ⟨Utf8.encode t, c.version⟩) r (h.updateFile p m t v ref r).2
  update_error : ∀ {p m t v ref r e}, V.inv r → (h.updateFile p m t v ref r).1 = .error e →
    V.Refuses ref p v r (h.updateFile p m t v ref r).2
  delete_ok : ∀ {p m v ref r u}, V.inv r → (h.deleteFile p m v ref r).1 = .ok u →
    V.Makes ref p v none r (h.deleteFile p m v ref r).2
  delete_error : ∀ {p m v ref r e}, V.inv r → (h.deleteFile p m v ref r).1 = .error e →
    V.Refuses ref p v r (h.deleteFile p m v ref r).2

/-! ## The service in memory -/

namespace Remote

/-- The identifier that the request of that number gives. -/
def versionOf (n : Nat) : Text := "sha-".toList ++ Text.ofNat n

theorem versionOf_inj {n k : Nat} (h : versionOf n = versionOf k) : n = k := by
  have hdigits : Nat.toDigits 10 n = Nat.toDigits 10 k := List.append_cancel_left h
  have hread := Text.foldlM_toDigits n
  rw [hdigits, Text.foldlM_toDigits k] at hread
  exact (Option.some.inj hread).symm

/-- The identifiers of later requests have not been given. -/
def Given (r : Remote) (v : Text) : Prop := ∀ n, r.calls.length < n → v ≠ versionOf n

/-- No directory stands in the way of a file, and the versions are told apart by their identifiers. -/
structure IsTidy (r : Remote) : Prop where
  directories : r.directories = []
  given : ∀ p f, r.get? p = some f → r.Given f.version ∧ f.version ≠ []
  only : ∀ p p' f f', r.get? p = some f → r.get? p' = some f' → f'.version = f.version → f' = f

/-- What is to be seen of the service. It has one branch only. -/
def versions : Versions Remote where
  inv := IsTidy
  file _ p r := r.get? p
  given := Given
  isUp r := r.refusals = []

/-- The repository that has received a request. -/
def heard (r : Remote) (c : HostingCall) : Remote := { r with calls := r.calls ++ [c] }

variable {r : Remote} {c : HostingCall} {p : Text} {bs : Bytes}

theorem length_heard (r : Remote) (c : HostingCall) : (r.heard c).calls.length = r.calls.length + 1 := by
  rw [heard, List.length_append, List.length_singleton]

theorem get?_put (r : Remote) (p : Text) (f : HostedFile) (q : Text) :
    (r.put p f).get? q = if q = p then some f else r.get? q := by
  unfold put get?
  rw [List.lookup_cons]
  by_cases hq : q = p
  · rw [hq, beq_self_eq_true, if_pos rfl]
  · rw [beq_eq_false_iff_ne.mpr hq, if_neg hq]
    exact lookup_filter_ne r.files hq

theorem get?_erase (r : Remote) (p q : Text) :
    (r.erase p).get? q = if q = p then none else r.get? q := by
  unfold erase get?
  by_cases hq : q = p
  · rw [hq, if_pos rfl]
    exact lookup_filter_self r.files p
  · rw [if_neg hq]
    exact lookup_filter_ne r.files hq

theorem Given.of_length {r' : Remote} {v : Text} (h : r.Given v)
    (hlength : r.calls.length ≤ r'.calls.length) : r'.Given v := by
  intro n hn
  exact h n (by omega)

/-- After a request there may be fewer files, but no others. -/
theorem passes_of_get? {r' : Remote} (hdirectories : r'.directories = r.directories)
    (hlength : r.calls.length ≤ r'.calls.length)
    (hfiles : ∀ q f, r'.get? q = some f → r.get? q = some f) : versions.Passes r r' where
  inv h := by
    refine ⟨hdirectories.trans h.directories, fun q f hf => ?_, fun q q' f f' hf hf' => ?_⟩
    · obtain ⟨hgiven, hne⟩ := h.given q f (hfiles q f hf)
      exact ⟨hgiven.of_length hlength, hne⟩
    · exact h.only q q' f f' (hfiles q f hf) (hfiles q' f' hf')
  given _ h := h.of_length hlength
  file _ ref q f hf := .inl ⟨ref, q, hfiles q f hf⟩

/-- A new version has the identifier of the request that stores it. -/
theorem passes_save (r : Remote) (c : HostingCall) (p : Text) (bs : Bytes) :
    versions.Passes r ((r.heard c).put p ⟨bs, (r.heard c).nextVersion⟩) := by
  have hversion : (r.heard c).nextVersion = versionOf (r.calls.length + 1) := by
    rw [nextVersion, length_heard, versionOf]
  rw [hversion]
  have hlength : r.calls.length ≤ (r.heard c).calls.length := by
    rw [length_heard]
    omega
  have hold : ∀ q f, (if q = p then some ⟨bs, versionOf (r.calls.length + 1)⟩ else r.get? q) = some f →
      f = ⟨bs, versionOf (r.calls.length + 1)⟩ ∨ r.get? q = some f := by
    intro q f hf
    split at hf
    · exact .inl (Option.some.inj hf).symm
    · exact .inr hf
  have hget : ∀ q, ((r.heard c).put p ⟨bs, versionOf (r.calls.length + 1)⟩).get? q =
      if q = p then some ⟨bs, versionOf (r.calls.length + 1)⟩ else r.get? q := get?_put (r.heard c) p _
  refine ⟨fun h => ⟨h.directories, fun q f hf => ?_, fun q q' f f' hf hf' hsame => ?_⟩,
    fun v hv => hv.of_length hlength, fun _ ref q f hf => ?_⟩
  · rw [hget] at hf
    rcases hold q f hf with rfl | hf
    · refine ⟨fun n hn heq => ?_, List.cons_ne_nil _ _⟩
      have hn : (r.heard c).calls.length < n := hn
      rw [length_heard, versionOf_inj heq] at hn
      omega
    · obtain ⟨hgiven, hne⟩ := h.given q f hf
      exact ⟨hgiven.of_length hlength, hne⟩
  · rw [hget] at hf hf'
    -- an old version does not have the new identifier
    have hfresh : ∀ q f, r.get? q = some f → f.version ≠ versionOf (r.calls.length + 1) :=
      fun q f hf => (h.given q f hf).1 _ (by omega)
    rcases hold q f hf with rfl | hf
    · rcases hold q' f' hf' with rfl | hf'
      · rfl
      · exact absurd hsame (hfresh q' f' hf')
    · rcases hold q' f' hf' with rfl | hf'
      · exact absurd hsame.symm (hfresh q f hf)
      · exact h.only q q' f f' hf hf' hsame
  · have hf : ((r.heard c).put p ⟨bs, versionOf (r.calls.length + 1)⟩).get? q = some f := hf
    rw [hget] at hf
    rcases hold q f hf with rfl | hf
    · exact .inr fun hgiven => hgiven (r.calls.length + 1) (by omega) rfl
    · exact .inl ⟨ref, q, hf⟩

theorem passes_heard (r : Remote) (c : HostingCall) : versions.Passes r (r.heard c) :=
  passes_of_get? rfl (by rw [length_heard]; omega) fun _ _ h => h

theorem passes_erase (r : Remote) (c : HostingCall) (p : Text) :
    versions.Passes r ((r.heard c).erase p) := by
  refine passes_of_get? rfl ?_ fun q f hf => ?_
  · show r.calls.length ≤ (r.heard c).calls.length
    rw [length_heard]
    omega
  · rw [get?_erase] at hf
    split at hf
    · cases hf
    · exact hf

/-- A request is refused, or is carried out. -/
theorem receive_cases {α : Type} (c : HostingCall) (act : Remote → Except HostingFault α × Remote)
    (r : Remote) :
    (∃ status data, receive c act r = (.error (.refused status data), r.heard c) ∧ r.refusals ≠ []) ∨
      receive c act r = act (r.heard c) := by
  unfold receive
  dsimp only
  cases hlookup : r.refusals.lookup c.method with
  | none => exact .inr rfl
  | some answer =>
      refine .inl ⟨answer.1, answer.2, rfl, fun hnone => ?_⟩
      rw [hnone] at hlookup
      cases hlookup

theorem isAt_iff {r : Remote} {p v : Text} :
    r.isAt p v = true ↔ ∃ f, r.get? p = some f ∧ f.version = v := by
  unfold isAt
  cases r.get? p with
  | none => exact ⟨nofun, fun ⟨_, h, _⟩ => nomatch h⟩
  | some f =>
      show (f.version == v) = true ↔ _
      rw [beq_iff_eq]
      exact ⟨fun h => ⟨f, rfl, h⟩, fun ⟨g, hg, h⟩ => Option.some.inj hg ▸ h⟩

/-- The requests that change a file meant for a version, by what they do to one of that version. -/
theorem receive_guarded {α : Type} (c : HostingCall) (p v : Text)
    (act : Remote → Except HostingFault α × Remote) (r : Remote) :
    let reply := receive c
      (fun r => if r.isAt p v then act r else (.error versionMismatch, r)) r
    (∃ f, r.get? p = some f ∧ f.version = v) ∧ reply = act (r.heard c) ∨
      (∃ e, reply = (.error e, r.heard c)) ∧ ∀ ref, versions.Refuses ref p v r (r.heard c) := by
  intro reply
  rcases receive_cases c (fun r => if r.isAt p v then act r else (.error versionMismatch, r)) r with
    ⟨status, data, hreply, hdown⟩ | hreply
  · exact .inr ⟨⟨_, hreply⟩, fun ref => ⟨fun _ _ => rfl, fun hup => absurd hup hdown⟩⟩
  · by_cases hat : (r.heard c).isAt p v = true
    · exact .inl ⟨isAt_iff.mp hat, hreply.trans (if_pos hat)⟩
    · refine .inr ⟨⟨_, hreply.trans (if_neg hat)⟩, fun ref => ⟨fun _ _ => rfl, fun _ f hf hv => ?_⟩⟩
      exact hat (isAt_iff.mpr ⟨f, hf, hv⟩)

/-- Looking at a file leaves the request only. Where there are no directories it is refused, or tells
what is there. -/
theorem getContents_cases (p : Text) (ref : Option Text) (r : Remote) :
    (∃ c, (hosting.getContents p ref r).2 = r.heard c) ∧
      (r.directories = [] →
        (∃ status data, (hosting.getContents p ref r).1 = .error (.refused status data) ∧
          r.refusals ≠ []) ∨
        (hosting.getContents p ref r).1 =
          (r.get? p).elim (.error .unknownObject) fun f => .ok (.file f.bytes f.version)) := by
  have hget : hosting.getContents p ref = receive { method := .getContents, path := p, ref } fun r =>
      (if r.directories.contains p then .ok .directory
        else (r.get? p).elim (.error .unknownObject) fun f => .ok (.file f.bytes f.version), r) := by
    unfold hosting
    dsimp only
    congr 1
    funext r
    split
    · rfl
    · cases r.get? p <;> rfl
  rw [hget]
  rcases receive_cases { method := .getContents, path := p, ref } _ r with
    ⟨status, data, hreply, hdown⟩ | hreply
  · rw [hreply]
    exact ⟨⟨_, rfl⟩, fun _ => .inl ⟨status, data, rfl, hdown⟩⟩
  · rw [hreply]
    refine ⟨⟨_, rfl⟩, fun hnone => .inr (if_neg ?_)⟩
    show ¬ r.directories.contains p = true
    rw [hnone]
    exact Bool.false_ne_true

/-- Storing a version leaves the request, and the version if it is not refused. -/
theorem createFile_cases (p m t : Text) (ref : Option Text) (r : Remote) : ∃ c,
    (∃ e, hosting.createFile p m t ref r = (.error e, r.heard c)) ∨
      hosting.createFile p m t ref r = save p t (r.heard c) := by
  refine ⟨{ method := .createFile, path := p, message := m, ref }, ?_⟩
  rcases receive_cases { method := .createFile, path := p, message := m, ref } (save p t) r with
    ⟨status, data, hreply, -⟩ | hreply
  · exact .inl ⟨_, hreply⟩
  · exact .inr hreply

/-- The same of an update of the version given, and of no other. -/
theorem updateFile_cases (p m t v : Text) (ref : Option Text) (r : Remote) : ∃ c,
    (∃ f, r.get? p = some f ∧ f.version = v) ∧
        hosting.updateFile p m t v ref r = save p t (r.heard c) ∨
      (∃ e, hosting.updateFile p m t v ref r = (.error e, r.heard c)) ∧
        ∀ ref, versions.Refuses ref p v r (r.heard c) :=
  ⟨_, receive_guarded { method := .updateFile, path := p, message := m, version := v, ref } p v
    (save p t) r⟩

theorem deleteFile_cases (p m v : Text) (ref : Option Text) (r : Remote) : ∃ c,
    (∃ f, r.get? p = some f ∧ f.version = v) ∧
        hosting.deleteFile p m v ref r = (.ok (), (r.heard c).erase p) ∨
      (∃ e, hosting.deleteFile p m v ref r = (.error e, r.heard c)) ∧
        ∀ ref, versions.Refuses ref p v r (r.heard c) :=
  ⟨_, receive_guarded { method := .deleteFile, path := p, message := m, version := v, ref } p v
    (fun r => (.ok (), r.erase p)) r⟩

/-- **The service in memory tells versions apart.** -/
theorem versioned_hosting : hosting.Versioned versions where
  knows {ref p r f} h hf := by
    obtain ⟨hgiven, hne⟩ := h.given p f hf
    exact ⟨⟨hgiven, fun _ q g hg hsame => h.only p q f g hf hg hsame⟩, hne⟩
  passes_get p ref r := by
    obtain ⟨⟨c, hleft⟩, -⟩ := getContents_cases p ref r
    rw [hleft]
    exact passes_heard r c
  passes_create p m t ref r := by
    obtain ⟨c, ⟨e, hreply⟩ | hreply⟩ := createFile_cases p m t ref r
    · rw [hreply]
      exact passes_heard r c
    · rw [hreply]
      exact passes_save r c p _
  passes_update p m t v ref r := by
    obtain ⟨c, ⟨-, hreply⟩ | ⟨⟨e, hreply⟩, -⟩⟩ := updateFile_cases p m t v ref r
    · rw [hreply]
      exact passes_save r c p _
    · rw [hreply]
      exact passes_heard r c
  passes_delete p m v ref r := by
    obtain ⟨c, ⟨-, hreply⟩ | ⟨⟨e, hreply⟩, -⟩⟩ := deleteFile_cases p m v ref r
    · rw [hreply]
      exact passes_erase r c p
    · rw [hreply]
      exact passes_heard r c
  same_get p ref r := by
    obtain ⟨⟨c, hleft⟩, -⟩ := getContents_cases p ref r
    rw [hleft]
    exact fun _ _ => rfl
  get_file {p ref r bs v} h hreply := by
    rcases (getContents_cases p ref r).2 h.directories with ⟨status, data, hrefused, -⟩ | hanswer
    · cases hrefused.symm.trans hreply
    · rw [hanswer] at hreply
      show r.get? p = _
      cases hfile : r.get? p with
      | none =>
          rw [hfile] at hreply
          cases hreply
      | some f =>
          rw [hfile] at hreply
          cases hreply
          rfl
  get_unknown {p ref r} h hreply := by
    rcases (getContents_cases p ref r).2 h.directories with ⟨status, data, hrefused, -⟩ | hanswer
    · cases hrefused.symm.trans hreply
    · rw [hanswer] at hreply
      show r.get? p = _
      cases hfile : r.get? p with
      | none => rfl
      | some f =>
          rw [hfile] at hreply
          cases hreply
  get_of_isUp {p ref r f} h hup hf := by
    have hf : r.get? p = some f := hf
    rcases (getContents_cases p ref r).2 h.directories with ⟨status, data, -, hdown⟩ | hanswer
    · exact absurd hup hdown
    · rw [hanswer, hf]
      rfl
  create_ok {p m t ref r answer} _ hreply := by
    obtain ⟨c, ⟨e, hrefused⟩ | hsaved⟩ := createFile_cases p m t ref r
    · rw [hrefused] at hreply
      cases hreply
    · rw [hsaved] at hreply ⊢
      cases hreply
      exact (get?_put (r.heard c) p _ p).trans (if_pos rfl)
  create_error {p m t ref r e} _ hreply := by
    obtain ⟨c, ⟨e', hrefused⟩ | hsaved⟩ := createFile_cases p m t ref r
    · rw [hrefused]
      exact fun _ _ => rfl
    · rw [hsaved] at hreply
      cases hreply
  update_ok {p m t v ref r answer} _ hreply := by
    obtain ⟨c, ⟨hfound, hsaved⟩ | ⟨⟨e, hrefused⟩, -⟩⟩ := updateFile_cases p m t v ref r
    · rw [hsaved] at hreply ⊢
      cases hreply
      exact ⟨hfound, (get?_put (r.heard c) p _ p).trans (if_pos rfl)⟩
    · rw [hrefused] at hreply
      cases hreply
  update_error {p m t v ref r e} _ hreply := by
    obtain ⟨c, ⟨-, hsaved⟩ | ⟨⟨e', hrefused⟩, hrefuses⟩⟩ := updateFile_cases p m t v ref r
    · rw [hsaved] at hreply
      cases hreply
    · rw [hrefused]
      exact hrefuses ref
  delete_ok {p m v ref r u} _ hreply := by
    obtain ⟨c, ⟨hfound, herased⟩ | ⟨⟨e, hrefused⟩, -⟩⟩ := deleteFile_cases p m v ref r
    · rw [herased]
      exact ⟨hfound, (get?_erase (r.heard c) p p).trans (if_pos rfl)⟩
    · rw [hrefused] at hreply
      cases hreply
  delete_error {p m v ref r e} _ hreply := by
    obtain ⟨c, ⟨-, herased⟩ | ⟨⟨e', hrefused⟩, hrefuses⟩⟩ := deleteFile_cases p m v ref r
    · rw [herased] at hreply
      cases hreply
    · rw [hrefused]
      exact hrefuses ref

end Remote

end Emend
