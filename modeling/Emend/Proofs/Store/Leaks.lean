import Emend.Proofs.Act.Leaks
import Emend.Proofs.Store.Traffic
import Emend.Store.Configured

/-!
# What stores leak

A store refuses what it cannot do, and refusals are reported. What it leaks is what the operating system
refuses while a place is looked at, a revision that cannot be read, and when it is opened a home directory
that nobody knows.
-/

namespace Emend

open Act

variable {ρ σ α : Type} {ks : List Leak}

/-! ## The host -/

theorem Location.among_of_checkNames {l : Location} {e : Failure} (h : l.checkNames = .error e) :
    e.Among ks := by
  rw [checkNames] at h
  split at h
  · cases h
    exact Failure.among_of_isReported rfl
  · cases h

namespace Host

variable (hdisk : .disk ∈ ks)

include hdisk

theorem leaksOnly_examine (f : Disk → Except OsError α) : (examine f).LeaksOnly ks :=
  leaksOnly_reading fun _ _ he => Failure.among_of_mapError he (Failure.among_os hdisk)

theorem leaksOnly_alter (f : Disk → Except OsError Disk) : (alter f).LeaksOnly ks := by
  intro h e he
  rw [alter] at he
  split at he
  · cases he
  · rename_i o _
    cases he
    exact Failure.among_os hdisk o

theorem leaksOnly_makeDirs (l : Location) : (makeDirs l).LeaksOnly ks :=
  fun _ _ he => Failure.among_of_mapError he (Failure.among_os hdisk)

theorem leaksOnly_isThere (l : Location) : (isThere l).LeaksOnly ks := by
  rw [isThere]
  split
  · exact leaksOnly_pure _
  · exact leaksOnly_examine hdisk _

theorem leaksOnly_bytesAt (l : Location) : (bytesAt l).LeaksOnly ks :=
  (leaksOnly_ofExcept fun _ => Location.among_of_checkNames).bind fun _ => leaksOnly_examine hdisk _

omit hdisk

theorem leaksOnly_place (path : Text) : (place path).LeaksOnly ks :=
  leaksOnly_reading fun _ _ h => nomatch h

theorem leaksOnly_supplied {f : Supply → Except Failure α × Supply}
    (h : ∀ s e, (f s).1 = .error e → e.Among ks) : (supplied f).LeaksOnly ks :=
  fun host e he => h host.supply e he

end Host

open Host

/-! ## Finding a store -/

theorem LocalFiles.among_of_checkText {t : Text} {e : Failure} (h : LocalFiles.checkText t = .error e) :
    e.Among ks := by
  rw [LocalFiles.checkText] at h
  split at h
  · cases h
    exact Failure.among_of_isReported rfl
  · cases h

theorem LocalFiles.among_of_atRoot (hdisk : .disk ∈ ks) (hhome : .home ∈ ks) {d : Disk} {t : Text}
    {e : Failure} (h : LocalFiles.atRoot d t = .error e) : e.Among ks := by
  rw [LocalFiles.atRoot] at h
  rcases error_of_steps h with hcheck | ⟨_, -, h⟩
  · exact LocalFiles.among_of_checkText hcheck
  rcases error_of_steps h with hroot | ⟨root, -, h⟩
  · rw [LocalFiles.rootPlace] at hroot
    split at hroot
    · split at hroot
      · cases hroot
      · cases hroot
        exact Failure.among_of_mem rfl hhome
    · cases hroot
  · split at h
    · rename_i o _
      cases h
      exact Failure.among_os hdisk o
    · cases h
    · cases h
      exact Failure.among_of_isReported rfl

theorem GitWorktree.among_of_atRoot (hdisk : .disk ∈ ks) (hhome : .home ∈ ks) {d : Disk}
    {r : Option Git.Repository} {t : Text} {e : Failure} (h : GitWorktree.atRoot d r t = .error e) :
    e.Among ks := by
  rw [GitWorktree.atRoot] at h
  rcases error_of_steps h with hfiles | ⟨files, -, h⟩
  · exact LocalFiles.among_of_atRoot hdisk hhome hfiles
  · dsimp only at h
    split at h
    · cases h
      exact Failure.among_of_isReported rfl
    · split at h
      · cases h
      · split at h <;> cases h <;> exact Failure.among_of_isReported rfl

theorem Config.among_of_openGitHub {c : Config} {environment : Text → Option Text} {e : Failure}
    (h : c.openGitHub environment = .error e) : e.Among ks := by
  rw [Config.openGitHub] at h
  split at h
  · cases h
    exact Failure.among_of_isReported rfl
  · rcases error_of_steps h with hname | ⟨g, -, h⟩
    · rw [GitHub.ofName] at hname
      split at hname <;> cases hname
      exact Failure.among_of_isReported rfl
    rcases error_of_steps h with htoken | ⟨_, -, h⟩
    · rw [GitHub.accessToken] at htoken
      split at htoken <;> cases htoken
      exact Failure.among_of_isReported rfl
    · cases h

theorem Config.among_of_openStore (hdisk : .disk ∈ ks) (hhome : .home ∈ ks) {c : Config} {w : World ρ}
    {e : Failure} (h : c.openStore w = .error e) : e.Among ks := by
  have hmap : ∀ {γ : Type} {r : Except Failure γ} {f : γ → OpenStore}, f <$> r = .error e →
      r = .error e := by
    intro γ r f hr
    cases r with
    | error e' =>
        cases hr
        rfl
    | ok a => cases hr
  rw [Config.openStore] at h
  split at h
  · exact LocalFiles.among_of_atRoot hdisk hhome (hmap h)
  · exact GitWorktree.among_of_atRoot hdisk hhome (hmap h)
  · exact Config.among_of_openGitHub (hmap h)

/-! ## Stores -/

namespace LocalFiles

theorem among_of_resolve {s : LocalFiles} {path : Text} {e : Failure} (h : s.resolve path = .error e) :
    e.Among ks := by
  rw [resolve] at h
  rcases error_of_steps h with hcheck | ⟨_, -, h⟩
  · exact among_of_checkText hcheck
  · dsimp only at h
    split at h
    · cases h
    · cases h
      exact Failure.among_of_isReported rfl

theorem leaksOnly_resolve (s : LocalFiles) (path : Text) :
    (ofExcept (s.resolve path) : Act σ Path).LeaksOnly ks := leaksOnly_ofExcept fun _ => among_of_resolve

theorem leaksOnly_orRefuse (verb : String) (path : Text) (r : Except OsError α) :
    (orRefuse verb path r).LeaksOnly ks := by
  cases r with
  | ok a => exact leaksOnly_pure a
  | error e => exact leaksOnly_refuse _ _

theorem leaksOnly_read (path : Text) (place : Path) : (read path place).LeaksOnly ks :=
  leaksOnly_get.bind fun _ => leaksOnly_orRefuse _ _ _

theorem leaksOnly_decodeText (path origin : Text) (bs : Bytes) :
    (decodeText path origin bs : Act σ Text).LeaksOnly ks := by
  rw [decodeText]
  split
  · exact leaksOnly_pure _
  · exact leaksOnly_refuse _ _

variable (hdisk : .disk ∈ ks)

include hdisk

theorem leaksOnly_look (place : Path) : (look place).LeaksOnly ks :=
  leaksOnly_reading fun _ _ he => Failure.among_of_mapError he (Failure.among_os hdisk)

theorem leaksOnly_checkToken (path : Text) (place : Path) (token : Option Token) :
    (checkToken path place token).LeaksOnly ks := by
  cases token with
  | none => exact leaksOnly_pure _
  | some token =>
    refine (leaksOnly_look hdisk place).bind fun found => ?_
    have hcompare : ∀ {token : Token}, (do
        let current := Digest.blobId (← read path place)
        if current != token then
          Act.refuse ('\'' :: path ++ "' changed since it was fetched (expected ".toList ++
            token.take 10 ++ ", found ".toList ++ current.take 10 ++ ").".toList) (some path) :
        Act Disk Unit).LeaksOnly ks := by
      refine (leaksOnly_read path place).bind fun bs => ?_
      dsimp only
      split
      · exact leaksOnly_refuse _ _
      · exact leaksOnly_pure _
    split
    · exact (leaksOnly_refuse _ _).bind fun _ => hcompare
    · exact hcompare

theorem leaksOnly_fetch (s : LocalFiles) (path : Text) : (s.fetch path).LeaksOnly ks := by
  refine (s.leaksOnly_resolve path).bind fun place => (leaksOnly_look hdisk place).bind fun found => ?_
  split
  · exact (leaksOnly_note _).bind fun _ => leaksOnly_pure _
  · exact leaksOnly_refuse _ _
  · refine (leaksOnly_read path place).bind fun bs => (leaksOnly_decodeText path [] bs).bind fun t => ?_
    exact (leaksOnly_note _).bind fun _ => leaksOnly_pure _

theorem leaksOnly_write (s : LocalFiles) (path text : Text) (token : Option Token) :
    (s.write path text token).LeaksOnly ks := by
  refine (s.leaksOnly_resolve path).bind fun place => ?_
  refine (leaksOnly_checkToken hdisk path place token).bind fun _ => leaksOnly_get.bind fun d => ?_
  refine (leaksOnly_set _).bind fun _ => (leaksOnly_orRefuse _ _ _).bind fun _ => ?_
  refine leaksOnly_get.bind fun d' => (leaksOnly_orRefuse _ _ _).bind fun d'' => ?_
  exact (leaksOnly_set d'').bind fun _ => (leaksOnly_note _).bind fun _ => leaksOnly_pure _

theorem leaksOnly_delete (s : LocalFiles) (path : Text) (token : Option Token) :
    (s.delete path token).LeaksOnly ks := by
  refine (s.leaksOnly_resolve path).bind fun place => (leaksOnly_look hdisk place).bind fun found => ?_
  have hremove : (do
      checkToken path place token
      Act.set (← orRefuse "delete" path ((← Act.get).removeFile (.ofPath place)))
      Act.note (storeNote ("delete ".toList ++ path)) : Act Disk Unit).LeaksOnly ks :=
    (leaksOnly_checkToken hdisk path place token).bind fun _ => leaksOnly_get.bind fun d =>
      (leaksOnly_orRefuse _ _ _).bind fun d' => (leaksOnly_set d').bind fun _ => leaksOnly_note _
  split
  · exact (leaksOnly_refuse _ _).bind fun _ => hremove
  · exact hremove

end LocalFiles

namespace GitWorktree

theorem leaksOnly_names (s : GitWorktree) (path : Text) :
    (ofExcept (s.names path) : Act σ Path).LeaksOnly ks := by
  refine leaksOnly_ofExcept fun e he => ?_
  rw [names] at he
  rcases error_of_steps he with hplace | ⟨place, -, hnever⟩
  · exact LocalFiles.among_of_resolve hplace
  · cases hnever

theorem leaksOnly_orFail (r : Except Text Unit) : (orFail r).LeaksOnly ks :=
  leaksOnly_ofExcept fun _ he =>
    Failure.among_of_mapError he fun _ => Failure.among_of_isReported rfl

theorem leaksOnly_inspect : Worktree.inspect.LeaksOnly ks :=
  leaksOnly_get.bind fun _ => leaksOnly_pure _

theorem among_of_commitAt (hrevision : .revision ∈ ks) {r : Git.Repository} {path ref : Text}
    {e : Failure} (h : commitAt r path ref = .error e) : e.Among ks := by
  rw [commitAt] at h
  split at h
  · cases h
  · cases h
    exact Failure.among_of_isReported rfl
  · cases h
    exact Failure.among_of_mem rfl hrevision

theorem leaksOnly_fetchAt (hrevision : .revision ∈ ks) (s : GitWorktree) (path ref : Text) :
    (s.fetchAt path ref).LeaksOnly ks := by
  refine (s.leaksOnly_names path).bind fun names => leaksOnly_inspect.bind fun r => ?_
  refine (leaksOnly_ofExcept fun _ => among_of_commitAt hrevision).bind fun c => ?_
  split
  · exact (leaksOnly_note _).bind fun _ => leaksOnly_pure _
  · refine (LocalFiles.leaksOnly_decodeText _ _ _).bind fun text => ?_
    exact (leaksOnly_note _).bind fun _ => leaksOnly_pure _

theorem leaksOnly_fetch (hdisk : .disk ∈ ks) (hrevision : .revision ∈ ks) (s : GitWorktree)
    (path : Text) (ref : Option Text) : (s.fetch path ref).LeaksOnly ks := by
  cases ref with
  | none => exact (s.files.leaksOnly_fetch hdisk path).focus _ _
  | some ref => exact s.leaksOnly_fetchAt hrevision path ref

theorem leaksOnly_write (hdisk : .disk ∈ ks) (s : GitWorktree) (path text : Text)
    (token : Option Token) : (s.write path text token).LeaksOnly ks := by
  refine ((s.files.leaksOnly_write hdisk path text token).focus _ _).bind fun made => ?_
  refine (s.leaksOnly_names path).bind fun names => (leaksOnly_orFail _).bind fun _ => ?_
  exact (leaksOnly_modify _).bind fun _ => leaksOnly_pure _

theorem leaksOnly_unlist (path listed : Text) : (unlist path listed).LeaksOnly ks := by
  refine leaksOnly_get.bind fun w => ?_
  dsimp only
  split
  · exact leaksOnly_modify _
  · exact leaksOnly_refuse _ _

theorem leaksOnly_delete (hdisk : .disk ∈ ks) (s : GitWorktree) (path : Text) (token : Option Token) :
    (s.delete path token).LeaksOnly ks := by
  refine (s.leaksOnly_names path).bind fun names => leaksOnly_get.bind fun w => ?_
  refine ((s.files.leaksOnly_delete hdisk path token).focus _ _).bind fun _ => ?_
  split
  · exact leaksOnly_unlist _ _
  · exact leaksOnly_pure _

/-- Committing the index leaks nothing. -/
theorem leaksOnly_commit (message : Text) (person : Option Git.Person) :
    (commit message person).LeaksOnly ks := by
  refine leaksOnly_inspect.bind fun r => ?_
  split
  · exact leaksOnly_refuse _ _
  · refine (leaksOnly_modify _).bind fun _ => ?_
    have hperson : (person.forM fun p => orFail p.check).LeaksOnly ks := by
      cases person with
      | none => exact leaksOnly_pure _
      | some p => exact leaksOnly_orFail _
    refine hperson.bind fun _ => leaksOnly_get.bind fun w => (leaksOnly_set _).bind fun _ => ?_
    exact (leaksOnly_note _).bind fun _ => leaksOnly_pure _

end GitWorktree

namespace GitHub

variable (service : Hosting ρ)

theorem leaksOnly_request (call : ρ → Except HostingFault α × ρ) : (request call).LeaksOnly ks :=
  fun _ _ h => nomatch h

theorem leaksOnly_fetch (path : Text) (ref : Option Text) : (fetch service path ref).LeaksOnly ks := by
  refine (leaksOnly_request _).bind fun answer => ?_
  split
  · exact (leaksOnly_note _).bind fun _ => leaksOnly_pure _
  · exact leaksOnly_refuse _ _
  · exact leaksOnly_refuse _ _
  · split
    · exact leaksOnly_refuse _ _
    · exact (leaksOnly_note _).bind fun _ => leaksOnly_pure _

theorem leaksOnly_send (path text : Text) (token ref message : Option Text) :
    (send service path text token ref message).LeaksOnly ks := by
  refine (leaksOnly_request _).bind fun made => ?_
  split
  · exact leaksOnly_refuse _ _
  · exact (leaksOnly_note _).bind fun _ => leaksOnly_pure _

theorem leaksOnly_write (path text : Text) (token ref message : Option Text) :
    (write service path text token ref message).LeaksOnly ks := by
  cases token with
  | some t =>
      rw [write_some]
      exact leaksOnly_send service _ _ _ _ _
  | none =>
      rw [write_none]
      exact (leaksOnly_fetch service path ref).bind fun _ => leaksOnly_send service _ _ _ _ _

theorem leaksOnly_delete (path : Text) (token ref message : Option Text) :
    (delete service path token ref message).LeaksOnly ks := by
  rw [delete]
  split
  · exact leaksOnly_refuse _ _
  · refine (leaksOnly_request _).bind fun answer => ?_
    split
    · exact leaksOnly_refuse _ _
    · exact leaksOnly_note _

end GitHub

/-- A store that leaks nothing but failures of some kinds. -/
structure Store.LeaksOnly (ks : List Leak) (s : Store σ) : Prop where
  fetch : ∀ path ref, (s.fetch path ref).LeaksOnly ks
  write : ∀ path text token ref message, (s.write path text token ref message).LeaksOnly ks
  delete : ∀ path token ref message, (s.delete path token ref message).LeaksOnly ks

theorem Store.LeaksOnly.recording {s : Store σ} (h : s.LeaksOnly ks) (record : Note → σ → σ) :
    (s.recording record).LeaksOnly ks where
  fetch path ref := (h.fetch path ref).recording record
  write path text token ref message := (h.write path text token ref message).recording record
  delete path token ref message := (h.delete path token ref message).recording record

/-- Each store that can be configured leaks what the operating system refuses and revisions that cannot be
read. -/
theorem OpenStore.leaksOnly_store (hdisk : .disk ∈ ks) (hrevision : .revision ∈ ks)
    (service : Hosting ρ) (s : OpenStore) : (s.store service).LeaksOnly ks := by
  cases s with
  | localFiles s => exact
      { fetch := fun path _ => (s.leaksOnly_fetch hdisk path).focus _ _
        write := fun path text token _ _ => (s.leaksOnly_write hdisk path text token).focus _ _
        delete := fun path token _ _ => (s.leaksOnly_delete hdisk path token).focus _ _ }
  | git s => exact
      { fetch := fun path ref => (s.leaksOnly_fetch hdisk hrevision path ref).focus _ _
        write := fun path text token _ _ => (s.leaksOnly_write hdisk path text token).focus _ _
        delete := fun path token _ _ => (s.leaksOnly_delete hdisk path token).focus _ _ }
  | github g => exact
      { fetch := fun path ref => (GitHub.leaksOnly_fetch service path ref).focus _ _
        write := fun path text token ref message =>
          (GitHub.leaksOnly_write service path text token ref message).focus _ _
        delete := fun path token ref message =>
          (GitHub.leaksOnly_delete service path token ref message).focus _ _ }

end Emend
