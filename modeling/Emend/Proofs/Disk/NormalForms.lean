import Emend.Proofs.Disk.Places
import Emend.Proofs.Text.Lines
import Mathlib.Logic.Relation

/-!
# Normal forms of paths

What a text means as a path is told twice. `Path.resolve` follows the names from a base. The other way
the names stand in a row from the root directory on, and are crossed out: a name that means the place at
hand, a name together with the one that leads up again, and a name that leads up from the root directory.
What is left when nothing can be crossed out is the normal form.

Following the names from the root directory gives the same before and after anything is crossed out, and
a normal row is followed to itself. So a text has one normal form, and it is the path that the text
resolves to.
-/

namespace Emend.Path

variable {base p q : Path} {n t : Text} {ns ms : List Text}

/-- The name leads from a directory to something in it. -/
def IsName (n : Text) : Prop := isHere n = false ∧ isUp n = false ∧ '/' ∉ n

instance (n : Text) : Decidable (IsName n) := inferInstanceAs (Decidable (_ ∧ _))

/-- Every name of the path leads on. -/
def IsNormal (p : Path) : Prop := ∀ n ∈ p, IsName n

instance (p : Path) : Decidable p.IsNormal := List.decidableBAll _ p

theorem isNormal_nil : IsNormal [] := fun _ hn => absurd hn List.not_mem_nil

theorem IsNormal.isPlain (h : p.IsNormal) : p.IsPlain := fun n hn => (h n hn).2.1

theorem IsNormal.dropLast (h : p.IsNormal) : IsNormal p.dropLast :=
  fun n hn => h n (List.mem_of_mem_dropLast hn)

theorem IsNormal.of_prefix (h : p.IsNormal) (hq : q <+: p) : q.IsNormal :=
  fun n hn => h n (hq.subset hn)

theorem isNormal_concat (h : p.IsNormal) (hn : IsName n) : IsNormal (p ++ [n]) := by
  intro m hm
  rcases List.mem_append.mp hm with hm | hm
  · exact h m hm
  · rwa [List.mem_singleton.mp hm]

theorem isNormal_append : IsNormal (p ++ q) ↔ p.IsNormal ∧ q.IsNormal := List.forall_mem_append

/-! ## Following names -/

theorem follow_here (h : isHere n = true) : follow base (n :: ns) = follow base ns := by
  rw [follow, if_pos h]

theorem follow_up (h : isUp n = true) : follow base (n :: ns) = follow base.dropLast ns := by
  have hhere : isHere n = false := by
    obtain rfl : n = ['.', '.'] := by simpa only [isUp, beq_iff_eq] using h
    rfl
  rw [follow, if_neg (Bool.eq_false_iff.mp hhere), if_pos h]

theorem follow_name (h : IsName n) : follow base (n :: ns) = follow (base ++ [n]) ns := by
  rw [follow, if_neg (Bool.eq_false_iff.mp h.1), if_neg (Bool.eq_false_iff.mp h.2.1)]

/-- A name between slashes means the place at hand, or the one above, or it leads on. -/
theorem here_or_up_or_name (h : '/' ∉ n) : isHere n = true ∨ isUp n = true ∨ IsName n := by
  cases hhere : isHere n with
  | true => exact .inl rfl
  | false =>
      cases hup : isUp n with
      | true => exact .inr (.inl rfl)
      | false => exact .inr (.inr ⟨hhere, hup, h⟩)

theorem follow_append (base : Path) (ns ms : List Text) :
    follow base (ns ++ ms) = follow (follow base ns) ms := by
  induction ns generalizing base with
  | nil => rfl
  | cons n ns ih =>
      rw [List.cons_append, follow, follow]
      split
      · exact ih base
      · split
        · exact ih base.dropLast
        · exact ih (base ++ [n])

/-- A normal path is followed as it stands. -/
theorem follow_of_isNormal (base : Path) (h : IsNormal ns) : follow base ns = base ++ ns := by
  induction ns generalizing base with
  | nil => exact (List.append_nil base).symm
  | cons n ns ih =>
      rw [follow_name (h n List.mem_cons_self), ih _ fun m hm => h m (List.mem_cons_of_mem n hm),
        List.append_assoc, List.singleton_append]

/-- Names without slashes lead from a normal path to a normal path. -/
theorem isNormal_follow (hbase : base.IsNormal) (hns : ∀ n ∈ ns, '/' ∉ n) :
    (follow base ns).IsNormal := by
  induction ns generalizing base with
  | nil => exact hbase
  | cons n ns ih =>
      have hrest : ∀ m ∈ ns, '/' ∉ m := fun m hm => hns m (List.mem_cons_of_mem n hm)
      rcases here_or_up_or_name (hns n List.mem_cons_self) with h | h | h
      · rw [follow_here h]
        exact ih hbase hrest
      · rw [follow_up h]
        exact ih hbase.dropLast hrest
      · rw [follow_name h]
        exact ih (isNormal_concat hbase h) hrest

/-! ## Crossing out -/

/-- The names that lead from the root directory to what a text means, none crossed out yet. -/
def row (base : Path) (t : Text) : List Text :=
  (if isAbsolute t then [] else base) ++ Text.splitOn '/' t

/-- Something is crossed out in a row of names. -/
inductive Crosses : List Text → List Text → Prop
  | here (ns ms : List Text) {h : Text} (hh : isHere h = true) : Crosses (ns ++ h :: ms) (ns ++ ms)
  | up (ns ms : List Text) {m u : Text} (hm : IsName m) (hu : isUp u = true) :
      Crosses (ns ++ m :: u :: ms) (ns ++ ms)
  | top (ms : List Text) {u : Text} (hu : isUp u = true) : Crosses (u :: ms) ms

/-- The path is what is left of a text once everything has been crossed out that can be. -/
def IsNormalForm (base : Path) (t : Text) (p : Path) : Prop :=
  p.IsNormal ∧ Relation.ReflTransGen Crosses (row base t) p

theorem Crosses.follow_eq (h : Crosses ns ms) : follow [] ns = follow [] ms := by
  cases h with
  | here ns ms hh => rw [follow_append, follow_append, follow_here hh]
  | up ns ms hm hu => rw [follow_append, follow_append, follow_name hm, follow_up hu, List.dropLast_concat]
  | top ms hu => rw [follow_up hu, List.dropLast_nil]

theorem follow_eq_of_crosses (h : Relation.ReflTransGen Crosses ns ms) :
    follow [] ns = follow [] ms := by
  induction h with
  | refl => rfl
  | tail _ hstep ih => exact ih.trans hstep.follow_eq

/-- A row is crossed out to where its names lead. -/
theorem crosses_follow (hbase : base.IsNormal) (hns : ∀ n ∈ ns, '/' ∉ n) :
    Relation.ReflTransGen Crosses (base ++ ns) (follow base ns) := by
  induction ns generalizing base with
  | nil =>
      rw [List.append_nil, follow]
  | cons n ns ih =>
      have hrest : ∀ m ∈ ns, '/' ∉ m := fun m hm => hns m (List.mem_cons_of_mem n hm)
      rcases here_or_up_or_name (hns n List.mem_cons_self) with h | h | h
      · rw [follow_here h]
        exact .head (.here base ns h) (ih hbase hrest)
      · rw [follow_up h]
        -- at the root directory the step up leads nowhere
        rcases List.eq_nil_or_concat base with rfl | ⟨above, m, hlast⟩
        · exact .head (.top ns h) (ih isNormal_nil hrest)
        · obtain rfl : base = above ++ [m] := hlast.trans List.concat_eq_append
          have hm : IsName m := hbase m (List.mem_append_right above List.mem_cons_self)
          rw [List.dropLast_concat, List.append_assoc, List.singleton_append]
          exact .head (.up above ns hm h) (ih (isNormal_append.mp hbase).1 hrest)
      · rw [follow_name h]
        have hrow : base ++ n :: ns = (base ++ [n]) ++ ns := by
          rw [List.append_assoc, List.singleton_append]
        rw [hrow]
        exact ih (isNormal_concat hbase h) hrest

theorem isNormal_start (hbase : base.IsNormal) (t : Text) :
    IsNormal (if isAbsolute t then [] else base) := by
  split
  · exact isNormal_nil
  · exact hbase

theorem isNormal_resolve (hbase : base.IsNormal) (t : Text) : (resolve base t).IsNormal :=
  isNormal_follow (isNormal_start hbase t) fun _ => Text.not_mem_of_mem_splitOn

/-- **What a text resolves to is its one normal form.** -/
theorem isNormalForm_iff (hbase : base.IsNormal) : IsNormalForm base t p ↔ resolve base t = p := by
  have hpieces : ∀ n ∈ Text.splitOn '/' t, '/' ∉ n := fun _ => Text.not_mem_of_mem_splitOn
  have hcrossed := crosses_follow (isNormal_start hbase t) hpieces
  constructor
  · rintro ⟨hp, hrow⟩
    have hends := (follow_eq_of_crosses hcrossed).symm.trans (follow_eq_of_crosses hrow)
    rw [follow_of_isNormal [] hp] at hends
    rw [resolve, ← List.nil_append p, ← hends]
    exact (follow_of_isNormal [] (isNormal_resolve hbase t)).symm
  · rintro rfl
    exact ⟨isNormal_resolve hbase t, hcrossed⟩

end Emend.Path
