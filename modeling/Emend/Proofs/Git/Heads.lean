import Emend.Git.Revision
import Emend.Proofs.Digest.Identifiers
import Emend.Proofs.Git.Layout
import Emend.Proofs.Git.Snapshots

/-!
# Where HEAD leads

A commit is made on the reference that `HEAD` names, or on `HEAD` itself, and then `HEAD` leads to it, also
when the repository's own files have been written to a disk and are read back from there. What `HEAD`
leads to is what the revision `HEAD` names.
-/

namespace Emend.Git

variable {fs fs' : OwnFiles} {names names' : Path} {name : Text} {bs : Bytes} {id : ObjectId} {c : Commit}

namespace Reference

theorem read_congr (h : fs.lookup (Text.splitOn '/' name) = fs'.lookup (Text.splitOn '/' name)) :
    read fs name = read fs' name := by
  rw [read, read, h]

theorem isName_of_read {p : Pointer} (h : read fs name = .ok p) : isName name = true := by
  cases hname : isName name with
  | true => rfl
  | false =>
      rw [read, hname] at h
      cases h

/-- What a reference holds itself is where it leads. -/
theorem dereference_of_object {fuel : Nat} (h : read fs name = .ok (.object id)) :
    dereference fs name (fuel + 1) = .ok id := by
  rw [dereference, h]
  rfl

/-- What a reference names leads where it leads. -/
theorem dereference_of_reference {target : Text} {fuel : Nat}
    (h : read fs name = .ok (.reference target)) :
    dereference fs name (fuel + 1) = dereference fs target fuel := by
  rw [dereference, h]
  rfl

theorem isName_of_dereference {fuel : Nat} (h : dereference fs name fuel = .ok id) :
    isName name = true := by
  cases fuel with
  | zero => cases h
  | succ fuel =>
      rw [dereference] at h
      cases hread : read fs name with
      | error e =>
          rw [hread] at h
          cases h
      | ok p => exact isName_of_read hread

end Reference

namespace OwnFiles

/-- There is a file of the name, and it begins with a line of the identifier. -/
def Tells (fs : OwnFiles) (names : Path) (id : ObjectId) : Prop :=
  ∃ rest, fs.Holds names (Utf8.encode (id ++ '\n' :: rest))

/-- It begins like this still when a line has been added to any file. -/
theorem Tells.addLine (h : fs.Tells names id) (names' : Path) (line : Text) :
    (fs.addLine names' line).Tells names id := by
  obtain ⟨rest, hholds⟩ := h
  by_cases hnames : names = names'
  · subst hnames
    refine ⟨rest ++ (line ++ ['\n']), ?_⟩
    have hbytes : Utf8.encode (id ++ '\n' :: (rest ++ (line ++ ['\n']))) =
        Utf8.encode (id ++ '\n' :: rest) ++ Utf8.encode (line ++ ['\n']) := by
      rw [← List.cons_append, ← List.append_assoc, Utf8.encode, List.flatMap_append]
      rfl
    rw [OwnFiles.addLine, hholds.lookup, hbytes]
    exact holds_put _ _ _
  · exact ⟨rest, hholds.put hnames _⟩

end OwnFiles

namespace Repository

variable {r : Repository} {d : Disk}

/-! ## Moving HEAD -/

/-- The names that lead to the file of `HEAD`. -/
theorem fileNames_headName : fileNames headName = [headName] := by decide

theorem fileNames_inj {n m : Text} (h : fileNames n = fileNames m) : n = m := by
  rw [← Path.relativeText_splitOn n, ← Path.relativeText_splitOn m]
  exact congrArg Path.relativeText h

/-- Unless commits are made on `HEAD` itself, it names the reference that they are made on. -/
theorem read_headName (h : r.target ≠ headName) :
    Reference.read r.ownFiles headName = .ok (.reference r.target) := by
  rw [target] at h ⊢
  split at h
  · rename_i name hread
    rw [hread]
  · exact absurd rfl h

/-- The files after a move: the reference's, and lines in two logs. -/
theorem ownFiles_moveHead (r : Repository) (id : ObjectId) (c : Commit) :
    ∃ branchLine headLine, (r.moveHead id c).ownFiles =
      OwnFiles.addLine (if r.target = headName then
          r.ownFiles.put (fileNames r.target) (Utf8.encode (id ++ ['\n']))
        else OwnFiles.addLine (r.ownFiles.put (fileNames r.target) (Utf8.encode (id ++ ['\n'])))
          ("logs".toList :: fileNames r.target) branchLine)
        ("logs".toList :: fileNames headName) headLine := by
  rw [moveHead]
  cases r.head? with
  | none => exact ⟨_, _, rfl⟩
  | some head => exact ⟨_, _, rfl⟩

/-- The reference that commits are made on holds the identifier. -/
theorem tells_moveHead (r : Repository) (id : ObjectId) (c : Commit) :
    (r.moveHead id c).ownFiles.Tells (fileNames r.target) id := by
  obtain ⟨branchLine, headLine, hfiles⟩ := ownFiles_moveHead r id c
  have hput : (r.ownFiles.put (fileNames r.target) (Utf8.encode (id ++ ['\n']))).Tells
      (fileNames r.target) id := ⟨[], OwnFiles.holds_put _ _ _⟩
  rw [hfiles]
  refine OwnFiles.Tells.addLine ?_ _ _
  split
  · exact hput
  · exact hput.addLine _ _

/-- `HEAD` itself stays as it is if commits are made on another reference. -/
theorem holds_moveHead (hne : r.target ≠ headName) (h : r.ownFiles.Holds (fileNames headName) bs)
    (id : ObjectId) (c : Commit) : (r.moveHead id c).ownFiles.Holds (fileNames headName) bs := by
  obtain ⟨branchLine, headLine, hfiles⟩ := ownFiles_moveHead r id c
  have hlog : ∀ names, fileNames headName ≠ "logs".toList :: names := by
    rw [fileNames_headName]
    intro names hnames
    exact absurd (List.cons.inj hnames).1 (by decide)
  rw [hfiles, if_neg hne]
  refine OwnFiles.Holds.put (OwnFiles.Holds.put (h.put ?_ _) (hlog _) _) (hlog _) _
  exact fun hnames => hne (fileNames_inj hnames).symm

/-- **HEAD leads to the last commit**, once the repository's own files have been written to a disk. -/
theorem dereference_moveHead {old : ObjectId} (hkeys : (r.ownFiles.map (·.1)).Nodup)
    (hhead : r.dereference headName = .ok old) (hid : IsWritten id) (c : Commit) {r₁ : Repository}
    (hfiles : r₁.ownFiles = (r.moveHead id c).ownFiles) (d : Disk) :
    (r₁.readBack (r₁.writeBack d)).dereference headName = .ok id := by
  have hread : ∀ {names bs}, (r.moveHead id c).ownFiles.Holds names bs →
      (r₁.readBack (r₁.writeBack d)).ownFiles.lookup names = some bs := fun h =>
    lookup_readBack r₁ (get?_writeBack d (hfiles ▸ h))
  obtain ⟨rest, htells⟩ := tells_moveHead r id c
  rw [dereference, show Reference.maxChain = 998 + 1 + 1 from rfl] at hhead ⊢
  by_cases hne : r.target = headName
  · rw [hne] at htells
    exact Reference.dereference_of_object (hid.read (by decide) (hread htells))
  · have hpointer := read_headName hne
    rw [Reference.dereference_of_reference hpointer] at hhead
    have htarget := Reference.isName_of_dereference hhead
    obtain ⟨bs, hbs⟩ : ∃ bs, r.ownFiles.lookup (fileNames headName) = some bs := by
      cases hlookup : r.ownFiles.lookup (fileNames headName) with
      | some bs => exact ⟨bs, rfl⟩
      | none =>
          rw [fileNames] at hlookup
          rw [Reference.read, Reference.isName_of_read hpointer, hlookup] at hpointer
          cases hpointer
    have hkept := hread (holds_moveHead hne (OwnFiles.holds_of_lookup hkeys hbs) id c)
    have hpointer' : Reference.read (r₁.readBack (r₁.writeBack d)).ownFiles headName =
        .ok (.reference r.target) := by
      rw [← hpointer]
      exact Reference.read_congr (hkept.trans hbs.symm)
    rw [Reference.dereference_of_reference hpointer']
    exact Reference.dereference_of_object (hid.read htarget (hread htells))

/-! ## The revision HEAD -/

theorem head?_eq_some :
    r.head? = some (id, c) ↔ r.dereference headName = .ok id ∧ r.commits.lookup id = some c := by
  rw [head?]
  cases r.dereference headName with
  | error e => exact iff_of_false nofun fun h => nomatch h.1
  | ok id' =>
      show (r.commits.lookup id' >>= fun c' => some (id', c')) = some (id, c) ↔ _
      cases hlookup : r.commits.lookup id' with
      | none =>
          refine iff_of_false nofun ?_
          rintro ⟨hid, hc⟩
          cases hid
          cases hlookup.symm.trans hc
      | some c' =>
          constructor
          · intro h
            cases h
            exact ⟨rfl, hlookup⟩
          · rintro ⟨hid, hc⟩
            cases hid
            cases hlookup.symm.trans hc
            rfl

theorem lookup_objects (h : r.commits.lookup id = some c) :
    r.objects.lookup id = some (.commit id c) := by
  have hcommits : (r.commits.map fun e => (e.1, Object.commit e.1 e.2)).lookup id =
      some (.commit id c) := by
    revert h
    induction r.commits with
    | nil => exact nofun
    | cons e es ih =>
        intro h
        rw [List.lookup_cons] at h
        rw [List.map_cons, List.lookup_cons]
        by_cases hid : id = e.1
        · subst hid
          rw [beq_self_eq_true] at h ⊢
          cases h
          rfl
        · rw [beq_eq_false_iff_ne.mpr hid] at h ⊢
          exact ih h
  rw [objects, List.append_assoc, List.lookup_append]
  exact congrArg (Option.or · _) hcommits

/-- A name that leads to a commit is a reference to it. -/
theorem reference?_go_of_dereference {n : Text} (h : r.dereference n = .ok id) (ns : List Text) :
    reference?.go r (n :: ns) = .ok (some (n, id)) := by
  rw [reference?.go, h]

/-- The name `HEAD` stands for the commit that it leads to. -/
theorem named_headName (h : r.head? = some (c.id, c)) : r.named headName = .ok (.commit c.id c) := by
  obtain ⟨hhead, hcommit⟩ := head?_eq_some.mp h
  have hreference : r.reference? headName = .ok (some (headName, c.id)) :=
    reference?_go_of_dereference hhead _
  have hobject : r.objectOf c.id = .ok (.commit c.id c) := by
    rw [objectOf, (isWritten_id c).map_toLower, lookup_objects hcommit]
  have hdigits : idDigits? headName = none := by decide
  have hdescribed : describedDigits? headName = none := by decide
  rw [named, if_neg (by decide), hdigits, hdescribed]
  dsimp only [Option.bind_none]
  rw [if_neg (by decide), hreference]
  exact hobject

/-- **The revision HEAD** is the last commit. -/
theorem revision_headName (h : r.head? = some (c.id, c)) : r.revision headName = .ok c := by
  have hfind : r.find headName = .ok (.commit c.id c) := by
    show (r.named headName >>= fun o => r.followSteps headName (headName.length + 1) o []) = _
    rw [named_headName h]
    rfl
  rw [revision, hfind]
  rfl

end Repository

end Emend.Git
