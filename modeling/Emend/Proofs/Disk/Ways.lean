import Emend.Proofs.Disk.Trees

/-!
# The way to a place

What an operation at a plain place does hangs on the way there: on what stands at the place and at the
paths that lead to it. Two disks that are the same on the way answer every operation alike, and are the
same on the way afterwards, whatever they hold elsewhere. So nothing else is ever looked at.
-/

namespace Emend.Disk

variable {d d₁ : Disk} {place p q : Path} {bs : Bytes}

/-- The disks are the same on the way to a place. -/
def SameWay (place : Path) (d d₁ : Disk) : Prop := ∀ q, q <+: place → d.get? q = d₁.get? q

/-- A result on either disk: the same fault, or disks that are the same on the way. -/
inductive SameWayResult (place : Path) : Except OsError Disk → Except OsError Disk → Prop
  | ok {d₂ d₃ : Disk} (h : SameWay place d₂ d₃) : SameWayResult place (.ok d₂) (.ok d₃)
  | error (e : OsError) : SameWayResult place (.error e) (.error e)

/-- The same answer on either disk, and the disks left are the same on the way. -/
structure SameWayMade (place : Path) (r r₁ : Except OsError Unit × Disk) : Prop where
  answer : r.1 = r₁.1
  way : SameWay place r.2 r₁.2

/-! ## Looking -/

theorem walk_congr {start : Path} {ns : List Text} (hns : Path.IsPlain ns)
    (h : ∀ q, q <+: ns → d.get? (start ++ q) = d₁.get? (start ++ q)) :
    d.walk start ns = d₁.walk start ns := by
  induction ns generalizing start with
  | nil => rfl
  | cons n ns ih =>
      have hstart : d.get? start = d₁.get? start := by
        have := h [] List.nil_prefix
        rwa [List.append_nil] at this
      have hrest : ∀ q, q <+: ns → d.get? (start ++ [n] ++ q) = d₁.get? (start ++ [n] ++ q) := by
        intro q hq
        rw [List.append_assoc, List.singleton_append]
        exact h (n :: q) (List.cons_prefix_cons.mpr ⟨rfl, hq⟩)
      have hup : ¬ Path.isUp n = true := Bool.eq_false_iff.mp (hns n List.mem_cons_self)
      rw [walk, walk, hstart, if_neg hup, if_neg hup,
        ih (fun m hm => hns m (List.mem_cons_of_mem n hm)) hrest]

namespace SameWay

theorem of_prefix (h : SameWay place d d₁) (hp : p <+: place) : SameWay p d d₁ :=
  fun q hq => h q (hq.trans hp)

/-- The same is found. -/
theorem find (h : SameWay place d d₁) (hplace : place.IsPlain) :
    d.find (.ofPath place) = d₁.find (.ofPath place) := by
  have hwalk : d.walk [] place = d₁.walk [] place := walk_congr hplace fun q hq => by
    rw [List.nil_append]
    exact h q hq
  show (if _ then _ else (d.walk [] place >>= _)) = if _ then _ else (d₁.walk [] place >>= _)
  rw [← hwalk]
  cases hend : d.walk [] place with
  | error e => rfl
  | ok p =>
      obtain rfl : p = place := walk_of_isPlain hplace hend
      show (if _ then _ else Except.ok (p, d.get? p)) = if _ then _ else Except.ok (p, d₁.get? p)
      rw [h p List.prefix_rfl]

theorem look (h : SameWay place d d₁) (hplace : place.IsPlain) :
    d.look (.ofPath place) = d₁.look (.ofPath place) := by
  rw [Disk.look, Disk.look, h.find hplace]

theorem readFile (h : SameWay place d d₁) (hplace : place.IsPlain) :
    d.readFile (.ofPath place) = d₁.readFile (.ofPath place) := by
  rw [Disk.readFile, Disk.readFile, h.find hplace]

/-! ## Changing -/

theorem put (h : SameWay place d d₁) (hp : p ≠ []) (e : Entry) :
    SameWay place (d.put p e) (d₁.put p e) := by
  intro q hq
  by_cases hqp : q = p
  · subst hqp
    rw [get?_put_self d e hp, get?_put_self d₁ e hp]
  · rw [get?_put_of_ne d e hqp, get?_put_of_ne d₁ e hqp]
    exact h q hq

theorem erase (h : SameWay place d d₁) (hp : p ≠ []) : SameWay place (d.erase p) (d₁.erase p) := by
  intro q hq
  by_cases hqp : q = p
  · subst hqp
    rw [get?_erase_self d hp, get?_erase_self d₁ hp]
  · rw [get?_erase_of_ne d hqp, get?_erase_of_ne d₁ hqp]
    exact h q hq

theorem writeFile (h : SameWay place d d₁) (hplace : place.IsPlain) (bs : Bytes) :
    SameWayResult place (d.writeFile (.ofPath place) bs) (d₁.writeFile (.ofPath place) bs) := by
  rw [Disk.writeFile, Disk.writeFile, ← h.find hplace]
  cases hfind : d.find (.ofPath place) with
  | error e => exact .error _
  | ok found =>
      obtain ⟨p, e⟩ := found
      obtain ⟨rfl, hget⟩ := find_of_isPlain hplace hfind
      rcases e with _ | bs' | _
      · exact .ok (h.put (ne_nil_of_get?_eq_none hget) _)
      · exact .ok (h.put (ne_nil_of_get?_eq_file hget) _)
      · exact .error _

theorem removeFile (h : SameWay place d d₁) (hplace : place.IsPlain) :
    SameWayResult place (d.removeFile (.ofPath place)) (d₁.removeFile (.ofPath place)) := by
  rw [Disk.removeFile, Disk.removeFile, ← h.find hplace]
  cases hfind : d.find (.ofPath place) with
  | error e => exact .error _
  | ok found =>
      obtain ⟨p, e⟩ := found
      obtain ⟨rfl, hget⟩ := find_of_isPlain hplace hfind
      rcases e with _ | bs | _
      · exact .error _
      · exact .ok (h.erase (ne_nil_of_get?_eq_file hget))
      · exact .error _

theorem ensureDir (h : SameWay place d d₁) (hplace : place.IsPlain) (hq : q <+: place) :
    SameWayMade place (d.ensureDir (.ofPath q)) (d₁.ensureDir (.ofPath q)) := by
  have hplain : q.IsPlain := hplace.of_prefix hq
  have hsame := (h.of_prefix hq).find hplain
  rw [Disk.ensureDir, Disk.ensureDir, makeDir, makeDir, ← hsame]
  cases hfind : d.find (.ofPath q) with
  | error e => exact ⟨rfl, h⟩
  | ok found =>
      obtain ⟨p, e⟩ := found
      obtain ⟨rfl, hget⟩ := find_of_isPlain hplain hfind
      rcases e with _ | bs | _
      · exact ⟨rfl, h.put (ne_nil_of_get?_eq_none hget) _⟩
      · exact ⟨rfl, h⟩
      · exact ⟨rfl, h⟩

theorem makeDirsUpTo (h : SameWay place d d₁) (hplace : place.IsPlain) (hq : q <+: place)
    (above : Nat) :
    SameWayMade place (d.makeDirsUpTo (.ofPath q) above) (d₁.makeDirsUpTo (.ofPath q) above) := by
  -- on the directories above, as in the function
  induction above generalizing q d d₁ with
  | zero => exact h.ensureDir hplace hq
  | succ above ih =>
      have hfirst := h.ensureDir hplace hq
      rw [Disk.makeDirsUpTo, Disk.makeDirsUpTo]
      generalize d.ensureDir (.ofPath q) = first at hfirst
      generalize d₁.ensureDir (.ofPath q) = first₁ at hfirst
      obtain ⟨made, d'⟩ := first
      obtain ⟨_, d₁'⟩ := first₁
      obtain ⟨rfl, hway⟩ := hfirst
      rcases made with e | _
      · dsimp only
        split
        · have habove := ih hway ((List.dropLast_prefix q).trans hq)
          have hparent : (Location.ofPath q).parent = .ofPath q.dropLast := rfl
          rw [hparent]
          generalize d'.makeDirsUpTo (.ofPath q.dropLast) above = second at habove
          generalize d₁'.makeDirsUpTo (.ofPath q.dropLast) above = second₁ at habove
          obtain ⟨made, d''⟩ := second
          obtain ⟨_, d₁''⟩ := second₁
          obtain ⟨rfl, hway⟩ := habove
          rcases made with e | _
          · exact ⟨rfl, hway⟩
          · exact SameWay.ensureDir hway hplace hq
        · exact ⟨rfl, hway⟩
      · exact ⟨rfl, hway⟩

theorem makeDirs (h : SameWay place d d₁) (hplace : place.IsPlain) :
    SameWayMade place (d.makeDirs (Location.ofPath place).parent)
      (d₁.makeDirs (Location.ofPath place).parent) :=
  h.makeDirsUpTo (q := place.dropLast) hplace (List.dropLast_prefix place) _

end SameWay

/-! ## Ways from a directory on -/

/-- A directory that is seen is there with all that hold it. -/
theorem isDirectory_of_look (hplace : place.IsPlain)
    (h : d.look (.ofPath place) = .ok (some .directory)) (hq : q <+: place) :
    d.get? q = some .directory := by
  rw [look] at h
  split at h
  · rename_i p e hfind
    cases h
    exact isDirectory_of_find hplace hfind hq
  · cases h
  · cases h

/-- From a directory that both disks have, only the way from there on is left to compare. -/
theorem sameWay_of_below {root : Path} (hroot : root.IsPlain)
    (hd : d.look (.ofPath root) = .ok (some .directory))
    (hd₁ : d₁.look (.ofPath root) = .ok (some .directory)) (hplace : root <+: place)
    (h : ∀ q, root <+: q → q <+: place → d.get? q = d₁.get? q) : SameWay place d d₁ := by
  intro q hq
  rcases List.prefix_or_prefix_of_prefix hq hplace with habove | hbelow
  · rw [isDirectory_of_look hroot hd habove, isDirectory_of_look hroot hd₁ habove]
  · exact h q hbelow hq

end Emend.Disk
