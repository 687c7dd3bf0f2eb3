import Emend.Git.Object
import Emend.Data.Assoc
import Emend.Proofs.Disk.NormalForms
import Emend.Proofs.Text.Lines
import Mathlib.Data.List.Nodup

/-!
# What snapshots have at their paths

A snapshot lists files by path, and what names lead to in it is found directory by directory. A file that
is listed is found by the names of its path if no file stands on the way, and where nothing is listed at
or below the names nothing is found. Both go down with `below`, which takes the first name off all paths.
-/

namespace Emend

namespace Path

variable {n t : Text} {ns : Path}

/-- The pieces of a text with slashes between them are the text. -/
theorem relativeText_splitOn (t : Text) : relativeText (Text.splitOn '/' t) = t := by
  induction t with
  | nil => rfl
  | cons c t ih =>
      rw [Text.splitOn]
      split
      · rename_i hc
        subst hc
        cases hrest : Text.splitOn '/' t with
        | nil => exact absurd hrest (Text.splitOn_ne_nil '/' t)
        | cons l ls =>
            rw [hrest] at ih
            rw [← ih]
            rfl
      · cases hrest : Text.splitOn '/' t with
        | nil => exact absurd hrest (Text.splitOn_ne_nil '/' t)
        | cons l ls =>
            rw [hrest] at ih
            rw [← ih]
            cases ls <;> rfl

theorem relativeText_cons (n : Text) (h : ns ≠ []) :
    relativeText (n :: ns) = n ++ '/' :: relativeText ns := by
  cases ns with
  | nil => exact absurd rfl h
  | cons m ns => rfl

/-- Names without slashes are the pieces of the text that they make. -/
theorem splitOn_relativeText (hne : ns ≠ []) (h : ∀ n ∈ ns, '/' ∉ n) :
    Text.splitOn '/' (relativeText ns) = ns := by
  induction ns with
  | nil => exact absurd rfl hne
  | cons n ns ih =>
      have hn := h n List.mem_cons_self
      cases ns with
      | nil => exact Text.splitOn_of_not_mem hn
      | cons m ns =>
          rw [relativeText_cons n (List.cons_ne_nil m ns), Text.splitOn_append_cons hn,
            ih (List.cons_ne_nil m ns) fun k hk => h k (List.mem_cons_of_mem n hk)]

/-- A text is cut behind its first name. -/
theorem splitOn_eq_cons {rest : Path} (hrest : rest ≠ [])
    (h : Text.splitOn '/' t = n :: rest) : t = n ++ '/' :: relativeText rest := by
  rw [← relativeText_splitOn t, h, relativeText_cons n hrest]

end Path

namespace Git.Snapshot

variable {s : Snapshot} {n p q t : Text} {ns : Path} {id : ObjectId}

/-- A file is listed under its path, and the others as before. -/
theorem lookup_put (s : Snapshot) (p : Text) (id : ObjectId) (q : Text) :
    (s.put p id).lookup q = if q = p then some id else s.lookup q := by
  rw [put, List.lookup_cons]
  by_cases hq : q = p
  · subst hq
    rw [beq_self_eq_true, if_pos rfl]
  · rw [beq_eq_false_iff_ne.mpr hq, if_neg hq, lookup_filter_ne s hq]

theorem nodup_put (h : (s.map (·.1)).Nodup) (p : Text) (id : ObjectId) :
    ((s.put p id).map (·.1)).Nodup := by
  rw [put, List.map_cons, List.nodup_cons]
  constructor
  · intro hp
    obtain ⟨e, he, hep⟩ := List.mem_map.mp hp
    exact bne_iff_ne.mp (List.mem_filter.mp he).2 hep
  · exact h.sublist (List.filter_sublist.map _)

/-- Each path is listed once, so what is in the list is what is found. -/
theorem lookup_of_nodup (h : (s.map (·.1)).Nodup) (hmem : (p, id) ∈ s) : s.lookup p = some id :=
  lookup_of_mem hmem fun _ hid =>
    congrArg Prod.snd (List.inj_on_of_nodup_map h hid hmem rfl)

/-- **Two snapshots agree** if each path is listed once in either and has the same file in both. -/
theorem agrees_iff {t : Snapshot} (hs : (s.map (·.1)).Nodup) (ht : (t.map (·.1)).Nodup) :
    s.agrees t = true ↔ ∀ p, s.lookup p = t.lookup p := by
  have hwithin : ∀ {s t : Snapshot}, (s.map (·.1)).Nodup →
      (s.within t = true ↔ ∀ p id, s.lookup p = some id → t.lookup p = some id) := by
    intro s t hs
    rw [within, List.all_eq_true]
    constructor
    · exact fun h p id hp => beq_iff_eq.mp (h (p, id) (mem_of_lookup hp))
    · exact fun h e he => beq_iff_eq.mpr (h e.1 e.2 (lookup_of_nodup hs he))
  rw [agrees, Bool.and_eq_true, hwithin hs, hwithin ht]
  constructor
  · rintro ⟨hst, hts⟩ p
    refine Option.ext fun id => ⟨hst p id, hts p id⟩
  · intro h
    exact ⟨fun p id hp => (h p) ▸ hp, fun p id hp => (h p).symm ▸ hp⟩

/-! ## Below a directory -/

theorem below_singleton (s : Snapshot) (n : Text) : s.below [n] = s.filterMap fun (p, id) =>
    match Text.splitOn '/' p with
    | m :: k :: ks => if n = m then some (Path.relativeText (k :: ks), id) else none
    | _ => none := by
  rw [below, byNames, List.filterMap_map]
  refine List.filterMap_congr fun e _ => ?_
  obtain ⟨p, id⟩ := e
  dsimp only [Function.comp]
  rcases Text.splitOn '/' p with _ | ⟨m, _ | ⟨k, ks⟩⟩
  · rfl
  · by_cases hm : n = m
    · rw [Path.below?, if_pos hm]
      rfl
    · rw [Path.below?, if_neg hm]
  · by_cases hm : n = m
    · rw [Path.below?, if_pos hm]
      exact (if_pos hm).symm
    · rw [Path.below?, if_neg hm]
      exact (if_neg hm).symm

/-- Below a directory the paths of its files are without its name. -/
theorem lookup_below (hn : '/' ∉ n) (t : Text) :
    (s.below [n]).lookup t = s.lookup (n ++ '/' :: t) := by
  rw [below_singleton]
  induction s with
  | nil => rfl
  | cons e s ih =>
      obtain ⟨p, id⟩ := e
      rw [List.filterMap_cons, List.lookup_cons]
      by_cases hp : n ++ '/' :: t = p
      · have hpieces : Text.splitOn '/' p = n :: Text.splitOn '/' t := by
          rw [← hp, Text.splitOn_append_cons hn]
        dsimp only
        rw [hpieces, beq_iff_eq.mpr hp]
        cases hrest : Text.splitOn '/' t with
        | nil => exact absurd hrest (Text.splitOn_ne_nil '/' t)
        | cons k ks =>
            dsimp only
            rw [if_pos rfl, ← hrest, Path.relativeText_splitOn, List.lookup_cons, beq_self_eq_true]
      · rw [beq_eq_false_iff_ne.mpr hp]
        dsimp only
        rw [← ih]
        split
        · rfl
        · rename_i e' he'
          split at he'
          · rename_i m k ks hpieces
            split at he'
            · rename_i hm
              subst hm
              cases he'
              have hne : t ≠ Path.relativeText (k :: ks) := by
                rintro rfl
                exact hp (Path.splitOn_eq_cons (List.cons_ne_nil k ks) hpieces).symm
              rw [List.lookup_cons, beq_eq_false_iff_ne.mpr hne]
            · cases he'
          · cases he'

/-- What is below a directory stands in the snapshot behind its name. -/
theorem mem_of_mem_below (hmem : (t, id) ∈ s.below [n]) :
    ∃ p, (p, id) ∈ s ∧ Text.splitOn '/' p = n :: Text.splitOn '/' t := by
  rw [below_singleton] at hmem
  obtain ⟨⟨p, id'⟩, hp, he⟩ := List.mem_filterMap.mp hmem
  dsimp only at he
  split at he
  · rename_i m k ks hpieces
    split at he
    · rename_i hm
      cases he
      have hparts : ∀ x ∈ k :: ks, '/' ∉ x := fun x hx =>
        Text.not_mem_of_mem_splitOn (hpieces ▸ List.mem_cons_of_mem m hx)
      exact ⟨p, hp, by rw [hpieces, hm, Path.splitOn_relativeText (List.cons_ne_nil k ks) hparts]⟩
    · cases he
  · cases he

/-! ## Following names -/

/-- A file that is listed is found if no file stands on the way. -/
theorem follow_of_lookup (whole : Text) (hne : ns ≠ []) (hns : ∀ n ∈ ns, '/' ∉ n)
    (hway : ∀ m, m <+: ns → m ≠ [] → m ≠ ns → s.lookup (Path.relativeText m) = none)
    (hfile : s.lookup (Path.relativeText ns) = some id) : s.follow whole ns = .ok (.blob id) := by
  induction ns generalizing s with
  | nil => exact absurd rfl hne
  | cons n ns ih =>
      have hn := hns n List.mem_cons_self
      cases ns with
      | nil =>
          have hentry : s.entry? n = some (.blob id) := by
            rw [ entry?, show s.lookup n = some id from hfile]
          rw [follow, hentry]
          rfl
      | cons k ks =>
          have hnone : s.lookup n = none := hway [n] (List.cons_prefix_cons.mpr ⟨rfl, List.nil_prefix⟩)
            (List.cons_ne_nil n []) (by simp)
          have hinside : (s.below [n]).lookup (Path.relativeText (k :: ks)) = some id := by
            rw [lookup_below hn, ← Path.relativeText_cons n (List.cons_ne_nil k ks), hfile]
          have hentry : s.entry? n = some (.tree (s.below [n]) true) := by
            rw [ entry?, hnone]
            cases hbelow : s.below [n] with
            | nil =>
                rw [hbelow] at hinside
                cases hinside
            | cons e es => rfl
          rw [follow, hentry]
          refine ih (List.cons_ne_nil k ks) (fun m hm => hns m (List.mem_cons_of_mem n hm)) ?_ hinside
          intro m hm hnil hne
          rw [lookup_below hn, ← Path.relativeText_cons n hnil]
          exact hway (n :: m) (List.cons_prefix_cons.mpr ⟨rfl, hm⟩) (List.cons_ne_nil n m)
            fun h => hne (List.cons.inj h).2

/-- Where no file is listed at or below the names nothing is found. -/
theorem follow_of_empty (whole : Text) (hne : ns ≠ []) (hns : ∀ n ∈ ns, '/' ∉ n)
    (hempty : ∀ e ∈ s, ¬ ns <+: Text.splitOn '/' e.1) : ∃ t, s.follow whole ns = .error t := by
  induction ns generalizing s with
  | nil => exact absurd rfl hne
  | cons n ns ih =>
      have hn := hns n List.mem_cons_self
      rw [follow, entry?]
      cases hlookup : s.lookup n with
      | some id =>
          cases ns with
          | nil =>
              refine absurd ?_ (hempty (n, id) (mem_of_lookup hlookup))
              rw [Text.splitOn_of_not_mem hn]
          | cons k ks => exact ⟨whole, rfl⟩
      | none =>
          cases hbelow : s.below [n] with
          | nil => exact ⟨n, rfl⟩
          | cons e es =>
              dsimp only
              rw [← hbelow]
              cases ns with
              | nil =>
                  obtain ⟨p, hp, hpieces⟩ := mem_of_mem_below
                    (show (e.1, e.2) ∈ s.below [n] from hbelow ▸ List.mem_cons_self)
                  refine absurd ?_ (hempty _ hp)
                  rw [hpieces]
                  exact List.cons_prefix_cons.mpr ⟨rfl, List.nil_prefix⟩
              | cons k ks =>
                  refine ih (List.cons_ne_nil k ks) (fun m hm => hns m (List.mem_cons_of_mem n hm)) ?_
                  intro e he hprefix
                  obtain ⟨p, hp, hpieces⟩ := mem_of_mem_below (show (e.1, e.2) ∈ s.below [n] from he)
                  refine hempty _ hp ?_
                  rw [hpieces]
                  exact List.cons_prefix_cons.mpr ⟨rfl, hprefix⟩

end Git.Snapshot

end Emend
