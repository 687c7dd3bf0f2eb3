import Emend.Git.Pathspec
import Emend.Proofs.Git.Snapshots
import Emend.Proofs.Text.Bytes
import Mathlib.Data.List.TakeWhile

/-!
# Paths that pick their own file

A path is read as a pathspec when a file is taken out of an index. If no character of it has a meaning
there (`IsOrdinary`) and no file is listed below it, it picks the file of that path and no other, so that
file alone is taken out (`removal_of_isOrdinary`).
-/

namespace Emend

namespace Git

open Text

variable {p q : Text} {top : Path} {s : Snapshot}

namespace Pathspec

/-- The path leads down name by name, and as a pathspec it means no other path. -/
structure IsOrdinary (p : Text) : Prop where
  names : Path.IsNormal (splitOn '/' p)
  noSign : p.head? ≠ some ':'
  noWild : ∀ c ∈ p, isWild c = false

namespace IsOrdinary

theorem ne_nil (h : IsOrdinary p) : p ≠ [] := by
  rintro rfl
  exact absurd (h.names [] List.mem_cons_self).1 (by decide)

theorem isAbsolute (h : IsOrdinary p) : Path.isAbsolute p = false := by
  cases p with
  | nil => rfl
  | cons c t =>
      refine decide_eq_false fun hc => ?_
      obtain rfl : c = '/' := Option.some.inj hc
      exact absurd (h.names [] (by rw [splitOn, if_pos rfl]; exact List.mem_cons_self)).1 (by decide)

/-- No slash ends the path, for the last name is not empty. -/
theorem getLast?_ne (h : IsOrdinary p) : p.getLast? ≠ some '/' := by
  intro hlast
  obtain ⟨t, rfl⟩ := List.getLast?_eq_some_iff.mp hlast
  refine absurd (h.names [] ?_).1 (by decide)
  rw [splitOn_append]
  exact List.mem_append_right _ List.mem_cons_self

/-- The path is read as it stands. -/
theorem read_eq (h : IsOrdinary p) (top : Path) : Pathspec.read top p = .ok { pattern := p } := by
  have hplace : Path.resolve top p = top ++ splitOn '/' p := by
    rw [Path.resolve, h.isAbsolute, if_neg (by decide)]
    exact Path.follow_of_isNormal top h.names
  have hplaced : placed top p { pattern := p } = .ok { pattern := p } := by
    rw [placed]
    dsimp only
    rw [if_neg (show ¬ (false || (none : Option Nat).isSome) = true from Bool.false_ne_true), hplace,
      Path.below?_eq_some_iff.mpr rfl]
    dsimp only
    rw [Path.relativeText_splitOn]
  rw [Pathspec.read]
  · show (placed top p { pattern := p } >>= fun s =>
      if (Utf8.encode s.pattern).length < s.fixedFront.getD 0 then
        Except.error "error initializing pathspec_item".toList
      else pure s) = _
    rw [hplaced]
    show (if (Utf8.encode p).length < 0 then Except.error "error initializing pathspec_item".toList
      else Except.ok ({ pattern := p } : Pathspec)) = _
    rw [if_neg (Nat.not_lt_zero _)]
  · rintro t rfl
    exact h.noSign rfl
  · rintro t rfl
    exact h.noSign rfl

/-- No byte of the path stands for anything else. -/
theorem wildcards_eq (h : IsOrdinary p) : wildcards { pattern := p } = (byteChars p, none) := by
  have hplain : (byteChars p).takeWhile (!isWild ·) = byteChars p := by
    refine List.takeWhile_eq_self_iff.mpr fun c hc => ?_
    cases hwild : isWild c with
    | false => rfl
    | true =>
        have hascii : c.toNat < 0x80 := by
          simp only [isWild, Bool.or_eq_true, decide_eq_true_eq] at hwild
          rcases hwild with ((rfl | rfl) | rfl) | rfl <;> decide
        rw [h.noWild c (mem_of_mem_byteChars hc hascii)] at hwild
        cases hwild
  rw [wildcards]
  dsimp only
  rw [hplain, if_neg Bool.false_ne_true, Option.getD_none, Nat.max_zero, List.take_length,
    if_neg (Nat.lt_irrefl _)]

/-- The path picks its own file, and the files below it. -/
theorem picks_eq (h : IsOrdinary p) (q : Text) : picks { pattern := p } q =
    if byteChars p = byteChars q then some .exact
    else if (byteChars p).isPrefixOf (byteChars q) && ((byteChars q)[(byteChars p).length]? = some '/' ||
      (byteChars p).getLast? = some '/') then some .below
    else none := by
  have hempty : ¬ (byteChars p).isEmpty = true := by
    rw [List.isEmpty_iff, byteChars, List.map_eq_nil_iff]
    exact Disk.encode_ne_nil h.ne_nil
  have hfits : ¬ (!attributesFit { pattern := p }) = true := Bool.false_ne_true
  rw [picks, h.wildcards_eq]
  dsimp only
  rw [if_neg hfits, Bool.false_and, if_neg Bool.false_ne_true, if_neg hempty, Option.bind_none,
    Option.any_none, Bool.and_false, if_neg Bool.false_ne_true]
  rfl

theorem picks_self (h : IsOrdinary p) : picks { pattern := p } p = some .exact := by
  rw [h.picks_eq, if_pos rfl]

/-- It picks no other file, unless that is listed below it. -/
theorem picks_of_ne (h : IsOrdinary p) (hne : q ≠ p) (hbelow : ¬ p ++ ['/'] <+: q) :
    picks { pattern := p } q = none := by
  have hsame : ¬ byteChars p = byteChars q := fun hbytes => hne (byteChars_inj.mp hbytes).symm
  rw [h.picks_eq, if_neg hsame, if_neg]
  rw [Bool.and_eq_true, Bool.or_eq_true, decide_eq_true_eq, decide_eq_true_eq, List.isPrefixOf_iff_prefix]
  rintro ⟨⟨rest, hrest⟩, hslash | hlast⟩
  · -- a slash follows in the bytes, hence in the text
    rw [← hrest, List.getElem?_append_right (Nat.le_refl _), Nat.sub_self] at hslash
    refine hbelow (prefix_of_byteChars ?_)
    cases rest with
    | nil => cases hslash
    | cons c rest =>
        obtain rfl : c = '/' := Option.some.inj hslash
        rw [byteChars_append, byteChars_slash, ← hrest]
        exact ⟨rest, List.append_assoc ..⟩
  · exact h.getLast?_ne (getLast?_of_byteChars hlast)

/-- Of files of which none is below the path it picks its own alone. -/
theorem pick_eq (h : IsOrdinary p) {files : List Text} (hlisted : p ∈ files)
    (hbelow : ∀ q ∈ files, ¬ p ++ ['/'] <+: q) : pick { pattern := p } files = ([p], some .exact) := by
  induction files with
  | nil => cases hlisted
  | cons q files ih =>
      rw [pick]
      by_cases hq : q = p
      · rw [hq, h.picks_self]
      · rw [h.picks_of_ne hq (hbelow q List.mem_cons_self)]
        refine ih ?_ fun q hq => hbelow q (List.mem_cons_of_mem _ hq)
        exact (List.mem_cons.mp hlisted).resolve_left fun hp => hq hp.symm

end IsOrdinary

end Pathspec

namespace Snapshot

/-- **A file is taken out alone** if its path is an ordinary one and nothing is listed below it. -/
theorem removal_of_isOrdinary (h : Pathspec.IsOrdinary p) (top : Path) {id : ObjectId}
    (hlisted : s.lookup p = some id) (hbelow : ∀ e ∈ s, ¬ p ++ ['/'] <+: e.1) :
    s.removal top p = .ok (s.filter (·.1 != p)) := by
  have hfiles : ∀ q, q ∈ (s.map (·.1)).mergeSort isInOrder ↔ q ∈ s.map (·.1) := fun q =>
    List.mem_mergeSort
  have hpick := h.pick_eq ((hfiles p).mpr (List.mem_map.mpr ⟨_, mem_of_lookup hlisted, rfl⟩))
    fun q hq => by
      obtain ⟨e, he, rfl⟩ := List.mem_map.mp ((hfiles q).mp hq)
      exact hbelow e he
  have hkept : s.removal top p = .ok (s.filter fun e => !List.contains [p] e.1) := by
    rw [removal, h.read_eq top]
    dsimp only [bind, Except.bind]
    rw [if_neg Bool.false_ne_true, hpick]
  rw [hkept]
  refine congrArg Except.ok (List.filter_congr fun e _ => ?_)
  rw [List.contains_cons, List.contains_nil, Bool.or_false]
  rfl

end Snapshot

end Git

end Emend
