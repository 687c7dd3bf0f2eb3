import Emend.Text.Template
import Mathlib.Data.List.TakeWhile

/-!
# Filling plain templates

A template whose places are plain names, each with a text, is filled by putting the texts in place of
the names.
-/

namespace Emend.Template

variable {values : List (Text × Text)} {nested : Text → Except Error Text}

/-- A character that stands for itself in a template. -/
def isLiteral (c : Char) : Bool := c != '{' && c != '}'

/-- A character that does not end a field name or open a part of it. -/
def isPlain (c : Char) : Bool := isLiteral c && c != ':' && c != '!' && c != '[' && c != '.'

theorem isLiteral_iff {c : Char} : isLiteral c = true ↔ c ≠ '{' ∧ c ≠ '}' := by
  rw [isLiteral, Bool.and_eq_true, bne_iff_ne, bne_iff_ne]

theorem isPlain_iff {c : Char} :
    isPlain c = true ↔ c ≠ '{' ∧ c ≠ '}' ∧ c ≠ ':' ∧ c ≠ '!' ∧ c ≠ '[' ∧ c ≠ '.' := by
  simp only [isPlain, isLiteral, Bool.and_eq_true, bne_iff_ne, and_assoc]

theorem nextPiece_literal {c : Char} (hopen : c ≠ '{') (hclose : c ≠ '}') (t : Text) :
    nextPiece (c :: t) = .ok (some (.literal c, t)) := by
  rw [nextPiece]
  all_goals simp [hopen, hclose]

/-- What is not in braces stands for itself. -/
theorem fillPieces_literals {l : Text} (hl : l.all isLiteral = true) (fuel : Nat) (t : Text) :
    fillPieces values nested (l.length + fuel) (l ++ t) =
      (l ++ ·) <$> fillPieces values nested fuel t := by
  induction l with
  | nil =>
      rw [List.length_nil, Nat.zero_add]
      exact (id_map _).symm
  | cons c l ih =>
      rw [List.all_cons, Bool.and_eq_true, isLiteral_iff] at hl
      obtain ⟨⟨hopen, hclose⟩, hl⟩ := hl
      have hfuel : (c :: l).length + fuel = (l.length + fuel) + 1 := by
        rw [List.length_cons]
        omega
      rw [hfuel, List.cons_append, fillPieces, nextPiece_literal hopen hclose]
      change ((c :: ·) <$> fillPieces values nested (l.length + fuel) (l ++ t) : Except _ _) = _
      rw [ih hl]
      cases fillPieces values nested fuel t <;> rfl

theorem readField_plain {name : Text} (hname : name.all isPlain = true) (t : Text) :
    readField false (name ++ '}' :: t) = .ok (name, '}', t) := by
  induction name with
  | nil => rfl
  | cons c name ih =>
      rw [List.all_cons, Bool.and_eq_true, isPlain_iff] at hname
      obtain ⟨⟨hopen, hclose, hcolon, hbang, hbracket, -⟩, hname⟩ := hname
      rw [List.cons_append, readField, if_neg hopen, if_neg (by simp [hclose, hcolon, hbang]),
        beq_eq_false_iff_ne.mpr hbracket, ih hname]
      rfl

theorem fieldValue_plain {name v : Text} (hname : name.all isPlain = true) (hne : name ≠ [])
    (hnumber : number? name = .ok none) (hv : values.lookup name = some v) :
    fieldValue values name = .ok (.text v) := by
  have htake : name.takeWhile (fun c => c != '.' && c != '[') = name := by
    refine List.takeWhile_eq_self_iff.mpr fun c hc => ?_
    obtain ⟨-, -, -, -, hbracket, hdot⟩ := isPlain_iff.mp (List.all_eq_true.mp hname c hc)
    rw [Bool.and_eq_true, bne_iff_ne, bne_iff_ne]
    exact ⟨hdot, hbracket⟩
  rw [fieldValue, htake, List.drop_length, if_neg (by rw [List.isEmpty_iff]; exact hne), hnumber]
  rw [hv]
  rfl

/-- A plain name in braces stands for its text. -/
theorem fillPieces_plain {name v : Text} (hname : name.all isPlain = true) (hne : name ≠ [])
    (hnumber : number? name = .ok none) (hv : values.lookup name = some v) (fuel : Nat) (t : Text) :
    fillPieces values nested (fuel + 1) ('{' :: (name ++ '}' :: t)) =
      (v ++ ·) <$> fillPieces values nested fuel t := by
  have hpiece : nextPiece ('{' :: (name ++ '}' :: t)) = .ok (some (.place { field := name }, t)) := by
    have hread : readPlace (name ++ '}' :: t) = .ok ({ field := name }, t) := by
      rw [readPlace, readField_plain hname]
      rfl
    obtain ⟨c, rest, rfl⟩ := List.exists_cons_of_ne_nil hne
    have hopen : c ≠ '{' := (isPlain_iff.mp (List.all_eq_true.mp hname c List.mem_cons_self)).1
    rw [List.cons_append, nextPiece, ← List.cons_append, hread]
    · rfl
    · intro t' h
      exact hopen (List.cons.inj h).1
    · exact List.cons_ne_nil _ _
  have hvalue := fieldValue_plain hname hne hnumber hv
  rw [fillPieces, hpiece]
  change (do
    let value ← fieldValue values name
    let value ← convert value none
    let shown ← layOut value []
    return shown ++ (← fillPieces values nested fuel t)) = _
  rw [hvalue]
  cases fillPieces values nested fuel t <;> rfl

end Emend.Template
