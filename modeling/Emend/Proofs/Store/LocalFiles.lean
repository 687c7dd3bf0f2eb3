import Emend.Proofs.Act
import Emend.Proofs.Disk.Files
import Emend.Store.LocalFiles

/-!
# What the store of local files does

One law for each operation, told by what stands at the place that the path means. A fetch that finds a
file gives it the identifier of its bytes as token. A write or delete with a token is made if the bytes
at the place still have that identifier, and then it is not refused for anything else, since the way
there is open. In every other case it is refused, and the disk stays as it is. Without a token nothing
is checked.
-/

namespace Emend.LocalFiles

open Act Disk

variable {l : LocalFiles} {d : Disk} {path text : Text} {place : Path} {token : Option Token}
  {t : Token} {bs : Bytes} {α β : Type}

/-- The action refuses for a reason that it gives for the path, and leaves the disk alone. -/
def Refuses (x : Act Disk α) (path : Text) (d : Disk) : Prop :=
  ∃ e, x d = ⟨.error (.store e), d, []⟩ ∧ e.path = some path ∧ e.message ≠ []

theorem Refuses.bind {x : Act Disk α} (h : Refuses x path d) (f : α → Act Disk β) :
    Refuses (x >>= f) path d := by
  obtain ⟨e, hx, he⟩ := h
  exact ⟨e, bind_of_error hx, he⟩

theorem Refuses.of_eq {x y : Act Disk α} (h : x d = y d) (hy : Refuses y path d) :
    Refuses x path d := by
  rwa [Refuses, h]

theorem refuses_orRefuse (verb : String) (path : Text) (e : OsError) (d : Disk) :
    Refuses (orRefuse verb path (.error e) : Act Disk α) path d :=
  ⟨_, rfl, rfl, by simp⟩

/-! ## Parts of the operations -/

theorem look_bind {e : Option Entry} (h : d.look (.ofPath place) = .ok e)
    (f : Option Entry → Act Disk α) : (LocalFiles.look place >>= f) d = f e d :=
  bind_of_ok (by rw [LocalFiles.look, reading, h]; rfl)

theorem look_of_error {e : OsError} (h : d.look (.ofPath place) = .error e) :
    LocalFiles.look place d = ⟨.error (.os e), d, []⟩ := by
  rw [LocalFiles.look, reading, h]
  rfl

theorem read_bind (h : d.fileAt place = some bs) (f : Bytes → Act Disk α) :
    (LocalFiles.read path place >>= f) d = f bs d := by
  refine bind_of_ok ?_
  rw [LocalFiles.read, get_bind, readFile_of_fileAt h]
  rfl

theorem refuses_read (path : Text) (h : d.fileAt place = none) : Refuses (LocalFiles.read path place) path d := by
  cases hread : d.readFile (.ofPath place) with
  | ok bs =>
      rw [fileAt, hread] at h
      cases h
  | error e =>
      have heq : LocalFiles.read path place d = orRefuse "read" path (.error e) d := by
        rw [LocalFiles.read, get_bind, hread]
      obtain ⟨e, hrefused⟩ := refuses_orRefuse (α := Bytes) "read" path e d
      exact ⟨e, heq ▸ hrefused⟩

theorem reads_read (path : Text) (place : Path) : (LocalFiles.read path place).Reads :=
  reads_get.bind fun d => by
    cases d.readFile (.ofPath place) with
    | ok bs => exact reads_pure bs
    | error e => exact reads_fail _

theorem reads_decodeText {σ : Type} (path origin : Text) (bs : Bytes) :
    (decodeText path origin bs : Act σ Text).Reads := by
  rw [decodeText]
  cases Utf8.decode bs with
  | ok t => exact reads_pure t
  | error e => exact reads_fail _

/-! ## Tokens -/

/-- The token, if there is one, is that of the bytes at the place. -/
def Matches (d : Disk) (place : Path) (token : Option Token) : Prop :=
  ∀ t ∈ token, ∃ bs, d.fileAt place = some bs ∧ Digest.blobId bs = t

/-- The disk is only looked at. -/
theorem reads_checkToken (path : Text) (place : Path) (token : Option Token) :
    (checkToken path place token).Reads := by
  cases token with
  | none => exact reads_pure ()
  | some t =>
      have hcompare : ∀ (bs : Bytes) (e : Failure),
          (if Digest.blobId bs != t then fail e else pure () : Act Disk Unit).Reads := by
        intro bs e
        split
        · exact reads_fail e
        · exact reads_pure ()
      rw [checkToken]
      refine (reads_reading _).bind fun entry => ?_
      dsimp only
      split
      · exact (reads_fail _).bind fun _ => (reads_read path place).bind fun bs => hcompare bs _
      · exact (reads_read path place).bind fun bs => hcompare bs _

/-! ## Fetching -/

/-- Where there is nothing, nothing is found. -/
theorem fetch_of_look_none (hplace : l.resolve path = .ok place)
    (hlook : d.look (.ofPath place) = .ok none) : (l.fetch path d).result = .ok none := by
  rw [fetch, ofExcept_bind hplace, look_bind hlook]
  rfl

/-- A file that spells a text is fetched. -/
theorem fetch_of_fileAt (hplace : l.resolve path = .ok place) (hfile : d.fileAt place = some bs)
    (htext : Utf8.decode bs = .ok text) :
    (l.fetch path d).result = .ok (some ⟨text, Digest.blobId bs⟩) := by
  obtain ⟨p, hfind⟩ := find_of_fileAt hfile
  rw [fetch, ofExcept_bind hplace, look_bind (look_of_find hfind)]
  dsimp only
  rw [read_bind hfile, decodeText, htext]
  rfl

/-- A fetch changes nothing. -/
theorem keeps_fetch (l : LocalFiles) (path : Text) : (l.fetch path).Keeps Eq := by
  rw [fetch]
  refine (reads_ofExcept _).keeps.bind fun place => (reads_reading _).keeps.bind fun entry => ?_
  rcases entry with _ | bs | _
  · exact (keeps_note _).bind fun _ => (reads_pure _).keeps
  · exact (reads_read path place).keeps.bind fun bs => (reads_decodeText path [] bs).keeps.bind
      fun t => (keeps_note _).bind fun _ => (reads_pure _).keeps
  · exact (reads_fail _).keeps

/-- What a fetch finds at the place that a path means. -/
inductive Found (l : LocalFiles) (path : Text) (d : Disk) : Option Fetched → Prop
  | nothing (place : Path) (hplace : l.resolve path = .ok place)
      (hlook : d.look (.ofPath place) = .ok none) : Found l path d none
  | file (place : Path) (bs : Bytes) (text : Text) (hplace : l.resolve path = .ok place)
      (hfile : d.fileAt place = some bs) : Found l path d (some ⟨text, Digest.blobId bs⟩)

/-- A fetch that answers has found something or nothing. -/
theorem found_of_fetch {found : Option Fetched} (h : (l.fetch path d).result = .ok found) :
    Found l path d found := by
  rw [fetch] at h
  cases hplace : l.resolve path with
  | error e =>
      rw [ofExcept_bind_error hplace] at h
      cases h
  | ok place =>
      rw [ofExcept_bind hplace] at h
      cases hlook : d.look (.ofPath place) with
      | error e =>
          rw [bind_of_error (look_of_error hlook)] at h
          cases h
      | ok entry =>
          rw [look_bind hlook] at h
          rcases entry with _ | _ | _
          · cases h
            exact .nothing place hplace hlook
          · dsimp only at h
            cases hfile : d.fileAt place with
            | none =>
                obtain ⟨e, hrefused, -⟩ := refuses_read path hfile
                rw [bind_of_error hrefused] at h
                cases h
            | some bs =>
                rw [read_bind hfile, decodeText] at h
                cases htext : Utf8.decode bs with
                | error e =>
                    rw [htext] at h
                    cases h
                | ok text =>
                    rw [htext] at h
                    cases h
                    exact .file place bs text hplace hfile
          · cases h

/-! ## Writing -/

/-- Once its token has passed, a write makes the directories on the way and then the file. -/
theorem write_of_checked (hplace : l.resolve path = .ok place)
    (hcheck : checkToken path place token d = ⟨.ok (), d, []⟩) :
    l.write path text token d =
      (orRefuse "write" path (d.makeDirs (Location.ofPath place).parent).1 >>= fun _ => do
        set (← orRefuse "write" path ((← get).writeFile (.ofPath place) (Utf8.encode text)))
        note (storeNote ("write ".toList ++ path ++ ": ".toList ++ byteCount (Utf8.encode text)))
        return Digest.blobId (Utf8.encode text)) (d.makeDirs (Location.ofPath place).parent).2 := by
  rw [write, ofExcept_bind hplace, bind_of_ok hcheck, get_bind]
  rfl

/-- What a write comes to. -/
inductive Written (l : LocalFiles) (path text : Text) (d : Disk) : Reply Disk Token → Prop
  | untouched (e : Failure) : Written l path text d ⟨.error e, d, []⟩
  | stopped (place : Path) (d₁ : Disk) (e : Failure) (hplace : l.resolve path = .ok place)
      (hdirs : (d.makeDirs (Location.ofPath place).parent).2 = d₁) :
      Written l path text d ⟨.error e, d₁, []⟩
  | made (place : Path) (d₁ d₂ : Disk) (ns : List Note) (hplace : l.resolve path = .ok place)
      (hdirs : d.makeDirs (Location.ofPath place).parent = (.ok (), d₁))
      (hfile : d₁.writeFile (.ofPath place) (Utf8.encode text) = .ok d₂) :
      Written l path text d ⟨.ok (Digest.blobId (Utf8.encode text)), d₂, ns⟩

/-- Nothing else becomes of a write. -/
theorem written_write (l : LocalFiles) (path text : Text) (token : Option Token) (d : Disk) :
    Written l path text d (l.write path text token d) := by
  cases hplace : l.resolve path with
  | error e =>
      rw [write, ofExcept_bind_error hplace]
      exact .untouched e
  | ok place =>
      obtain ⟨r, hcheck⟩ := reads_checkToken path place token d
      cases r with
      | error e =>
          rw [write, ofExcept_bind hplace, bind_of_error hcheck]
          exact .untouched e
      | ok =>
          rw [write_of_checked hplace hcheck]
          obtain ⟨⟨made, d₁⟩, hdirs⟩ : ∃ left, d.makeDirs (Location.ofPath place).parent = left := ⟨_, rfl⟩
          have hleft : (d.makeDirs (Location.ofPath place).parent).2 = d₁ := congrArg Prod.snd hdirs
          rw [hdirs]
          dsimp only
          -- from here on a failure leaves the directories that were made
          cases made with
          | error e =>
              obtain ⟨e', hrefused, -⟩ := refuses_orRefuse (α := Unit) "write" path e d₁
              rw [bind_of_error hrefused]
              exact .stopped place d₁ _ hplace hleft
          | ok =>
              rw [orRefuse, pure_bind_apply, get_bind]
              cases hfile : d₁.writeFile (.ofPath place) (Utf8.encode text) with
              | error e =>
                  obtain ⟨e', hrefused, -⟩ := refuses_orRefuse (α := Disk) "write" path e d₁
                  rw [bind_of_error hrefused]
                  exact .stopped place d₁ _ hplace hleft
              | ok d₂ => exact .made place d₁ d₂ _ hplace hdirs hfile

/-- What a deletion comes to. -/
inductive Deleted (l : LocalFiles) (path : Text) (d : Disk) : Reply Disk Unit → Prop
  | untouched (e : Failure) : Deleted l path d ⟨.error e, d, []⟩
  | made (place : Path) (d₁ : Disk) (ns : List Note) (hplace : l.resolve path = .ok place)
      (hremoved : d.removeFile (.ofPath place) = .ok d₁) : Deleted l path d ⟨.ok (), d₁, ns⟩

/-- Nothing else becomes of a deletion. -/
theorem deleted_delete (l : LocalFiles) (path : Text) (token : Option Token) (d : Disk) :
    Deleted l path d (l.delete path token d) := by
  rw [delete]
  cases hplace : l.resolve path with
  | error e => exact .untouched e
  | ok place =>
      rw [ofExcept_bind rfl]
      cases hlook : d.look (.ofPath place) with
      | error e =>
          rw [bind_of_error (look_of_error hlook)]
          exact .untouched _
      | ok entry =>
          rw [look_bind hlook]
          cases entry with
          | none => exact .untouched _
          | some entry =>
              dsimp only
              rw [if_neg (by exact Bool.false_ne_true)]
              obtain ⟨r, hcheck⟩ := reads_checkToken path place token d
              cases r with
              | error e =>
                  rw [bind_of_error hcheck]
                  exact .untouched e
              | ok =>
                  rw [bind_of_ok hcheck, get_bind]
                  cases hremoved : d.removeFile (.ofPath place) with
                  | error e =>
                      obtain ⟨e', hrefused, -⟩ := refuses_orRefuse (α := Disk) "delete" path e d
                      rw [bind_of_error hrefused]
                      exact .untouched _
                  | ok d₁ => exact .made place d₁ _ hplace hremoved

/-! ## A root for samples -/

def sampleRoot : Path := ["w".toList]

def sampleFiles : LocalFiles := ⟨sampleRoot⟩

/-- A file below the root. -/
def samplePlace : Path := sampleRoot ++ ["a.txt".toList]

/-- A disk on which there is that file with a text, or is not, and nothing else. -/
def sampleDisk (text : Option String) : Disk where
  entries := (sampleRoot, .directory) ::
    text.toList.map fun t => (samplePlace, .file (Utf8.encode t.toList))
  cwd := []
  home := []

end Emend.LocalFiles
