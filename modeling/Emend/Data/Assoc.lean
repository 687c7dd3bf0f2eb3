/-!
# Lists of keys and values

Files on a disk and files in memory are lists of pairs that are read with `List.lookup`. Taking keys
out of such a list is a filter on the first parts.
-/

namespace Emend

/-- A key that is kept is found as before, and one that is taken out is not found. -/
theorem lookup_filter_key {α β : Type} [BEq α] [LawfulBEq α] (keeps : α → Bool) (q : α)
    (es : List (α × β)) :
    (es.filter fun e => keeps e.1).lookup q = if keeps q then es.lookup q else none := by
  induction es with
  | nil => simp
  | cons e es ih =>
      obtain ⟨p, b⟩ := e
      rw [List.filter_cons]
      by_cases hq : q = p
      · subst hq
        cases hkeeps : keeps q <;> simp [hkeeps, ih]
      · have hne : (q == p) = false := beq_eq_false_iff_ne.mpr hq
        cases keeps p <;> simp [List.lookup_cons, hne, ih]

theorem lookup_filter_ne {α β : Type} [BEq α] [LawfulBEq α] (es : List (α × β)) {p q : α} (h : q ≠ p) :
    (es.filter (·.1 != p)).lookup q = es.lookup q := by
  rw [lookup_filter_key (· != p), if_pos (bne_iff_ne.mpr h)]

theorem lookup_filter_self {α β : Type} [BEq α] [LawfulBEq α] (es : List (α × β)) (p : α) :
    (es.filter (·.1 != p)).lookup p = none := by
  rw [lookup_filter_key (· != p), if_neg (by simp)]

theorem mem_of_lookup {α β : Type} [BEq α] [LawfulBEq α] {es : List (α × β)} {p : α} {b : β}
    (h : es.lookup p = some b) : (p, b) ∈ es := by
  obtain ⟨front, rest, hes, -⟩ := List.lookup_eq_some_iff.mp h
  exact hes ▸ List.mem_append_right front List.mem_cons_self

/-- If all pairs of a key have one value, that value is found. -/
theorem lookup_of_mem {α β : Type} [BEq α] [LawfulBEq α] {es : List (α × β)} {p : α} {b : β}
    (hmem : (p, b) ∈ es) (hall : ∀ c, (p, c) ∈ es → c = b) : es.lookup p = some b := by
  cases hfound : es.lookup p with
  | none =>
      have := List.lookup_eq_none_iff.mp hfound (p, b) hmem
      simp at this
  | some c => rw [hall c (mem_of_lookup hfound)]

theorem lookup_eq_none_iff_not_mem {α β : Type} [BEq α] [LawfulBEq α] {es : List (α × β)} {p : α} :
    es.lookup p = none ↔ p ∉ es.map Prod.fst := by
  rw [List.lookup_eq_none_iff, List.mem_map]
  constructor
  · rintro h ⟨e, he, rfl⟩
    simpa using h e he
  · intro h e he
    exact bne_iff_ne.mpr fun hp => h ⟨e, he, hp.symm⟩

/-- Where the value of a key is replaced in its place, that value is found, and the others as before. -/
theorem lookup_replace {α β : Type} [BEq α] [LawfulBEq α] [DecidableEq α] (es : List (α × β)) (p q : α)
    (b : β) :
    (es.map fun (k, c) => (k, if k = p then b else c)).lookup q =
      (es.lookup q).map fun c => if q = p then b else c := by
  induction es with
  | nil => rfl
  | cons e es ih =>
      rw [List.map_cons, List.lookup_cons, List.lookup_cons, ih]
      by_cases hq : q = e.1
      · simp [hq]
      · have hne : (q == e.1) = false := beq_eq_false_iff_ne.mpr hq
        simp [hne]

end Emend
