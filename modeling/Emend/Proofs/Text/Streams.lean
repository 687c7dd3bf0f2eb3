import Emend.Proofs.Text.Encoding

/-!
# Texts of streams

A stream is decoded in blocks, and a block may end inside a character. Where the bytes are those of a
text the cuts do not show: what is read so far goes on from the character under way (`scan_append`), so
the whole text comes out, with line feeds for all line ends (`decodeStream_encode`).
-/

namespace Emend.Utf8

/-- A byte either takes the reader from one state to another, wherever it stands, or is refused. -/
theorem scan_cons (p : Option Pending) (b : UInt8) :
    (∃ u m, ∀ pos bs, scan pos p (b :: bs) =
        (u ++ (scan (pos + 1) m bs).1, (scan (pos + 1) m bs).2)) ∨
      ∀ pos bs, ∃ e, (scan pos p (b :: bs)).2.2 = some e := by
  cases p with
  | none =>
      by_cases hascii : b.toNat < 0x80
      · exact Or.inl ⟨[Char.ofNat b.toNat], none, fun pos bs => by rw [scan, if_pos hascii]; rfl⟩
      · cases hlead : Pending.ofLead? b with
        | none => exact Or.inr fun pos bs => ⟨_, by rw [scan, if_neg hascii, hlead]⟩
        | some m => exact Or.inl ⟨[], some m, fun pos bs => by rw [scan, if_neg hascii, hlead]; rfl⟩
  | some p =>
      by_cases hrange : p.low ≤ b.toNat ∧ b.toNat ≤ p.high
      · by_cases howed : p.owed ≤ 1
        · exact Or.inl ⟨[_], none, fun pos bs => by rw [scan, if_pos hrange, if_pos howed]; rfl⟩
        · exact Or.inl ⟨[], some _, fun pos bs => by rw [scan, if_pos hrange, if_neg howed]; rfl⟩
      · exact Or.inr fun pos bs => ⟨_, by rw [scan, if_neg hrange]⟩

/-- A byte that is not refused is read, and the rest from there on. -/
theorem exists_of_scan_cons {pos : Nat} {p q : Option Pending} {b : UInt8} {bs : Bytes} {t : Text}
    (h : scan pos p (b :: bs) = (t, q, none)) :
    ∃ u m v, (∀ pos bs, scan pos p (b :: bs) =
        (u ++ (scan (pos + 1) m bs).1, (scan (pos + 1) m bs).2)) ∧
      scan (pos + 1) m bs = (v, q, none) ∧ t = u ++ v := by
  rcases scan_cons p b with ⟨u, m, hstep⟩ | hrefused
  · rw [hstep] at h
    obtain ⟨ht, hrest⟩ := Prod.mk.inj h
    exact ⟨u, m, (scan (pos + 1) m bs).1, hstep, Prod.ext rfl hrest, ht.symm⟩
  · obtain ⟨e, he⟩ := hrefused pos bs
    rw [h] at he
    cases he

/-- Where bytes stand matters for a refusal only. -/
theorem scan_position {pos : Nat} {p q : Option Pending} {bs : Bytes} {t : Text}
    (h : scan pos p bs = (t, q, none)) (pos' : Nat) : scan pos' p bs = (t, q, none) := by
  induction bs generalizing pos pos' p t with
  | nil =>
      rw [scan] at h ⊢
      exact h
  | cons b bs ih =>
      obtain ⟨u, m, v, hstep, hrest, rfl⟩ := exists_of_scan_cons h
      rw [hstep, ih hrest (pos' + 1)]

/-- Bytes without a refusal are read in two parts, the second from the character under way. -/
theorem scan_append {pos : Nat} {p q : Option Pending} {a b : Bytes} {t : Text}
    (h : scan pos p (a ++ b) = (t, q, none)) :
    ∃ u m v, scan pos p a = (u, m, none) ∧ scan (pos + a.length) m b = (v, q, none) ∧ t = u ++ v := by
  induction a generalizing pos p t with
  | nil => exact ⟨[], p, t, by rw [scan], h, rfl⟩
  | cons c a ih =>
      obtain ⟨w, m, t', hstep, hrest, rfl⟩ := exists_of_scan_cons h
      obtain ⟨u, m', v, hfirst, hsecond, rfl⟩ := ih hrest
      refine ⟨w ++ u, m', v, ?_, ?_, (List.append_assoc ..).symm⟩
      · rw [hstep, hfirst]
      · have hlength : pos + (c :: a).length = pos + 1 + a.length := by
          rw [List.length_cons]
          omega
        rw [hlength]
        exact hsecond

/-- Bytes that end with a whole character come out as their text, whatever the size of the blocks. -/
theorem decodeBlocks_of_scan {size : Progress → Nat} (hsize : ∀ r, 0 < size r) {fuel pos : Nat}
    {p : Option Pending} {bs : Bytes} {t : Text} (hfuel : bs.length < fuel)
    (h : scan pos p bs = (t, none, none)) (r : Progress) :
    decodeBlocks size fuel r (.ok p) bs = (t, none) := by
  induction fuel generalizing pos p bs t r with
  | zero => omega
  | succ fuel ih =>
      rw [decodeBlocks]
      cases bs with
      | nil =>
          rw [scan] at h
          obtain ⟨rfl, hrest⟩ := Prod.mk.inj h
          obtain ⟨rfl, -⟩ := Prod.mk.inj hrest
          rfl
      | cons b bs =>
          rw [if_neg (by simp)]
          have hpos := hsize r
          -- the block and what is behind it are read one after the other
          have hsplit := List.take_append_drop (size r) (b :: bs)
          rw [← hsplit] at h
          obtain ⟨u, m, v, hblock, hrest, rfl⟩ := scan_append h
          have hdecoded : decodeBlock p ((b :: bs).take (size r)) = .ok (u, .ok m) := by
            rw [decodeBlock]
            simp only [scan_position hblock]
          have hshort : ((b :: bs).drop (size r)).length < fuel := by
            rw [List.length_drop, List.length_cons]
            rw [List.length_cons] at hfuel
            omega
          simp only [hdecoded]
          rw [ih hshort hrest]

/-- Bytes that are read in two parts without a refusal are read as a whole. -/
theorem scan_append_eq {pos : Nat} {p m q : Option Pending} {a b : Bytes} {u v : Text}
    (ha : scan pos p a = (u, m, none)) (hb : scan (pos + a.length) m b = (v, q, none)) :
    scan pos p (a ++ b) = (u ++ v, q, none) := by
  induction a generalizing pos p u with
  | nil =>
      rw [scan] at ha
      cases ha
      exact hb
  | cons c a ih =>
      obtain ⟨w, m', u', hstep, hrest, rfl⟩ := exists_of_scan_cons ha
      have hlength : pos + (c :: a).length = pos + 1 + a.length := by
        rw [List.length_cons]
        omega
      rw [hlength] at hb
      rw [List.cons_append, hstep, ih hrest hb, List.append_assoc]

/-- What comes out of blocks without a refusal is what the bytes spell as a whole. -/
theorem scan_of_decodeBlocks {size : Progress → Nat} (hsize : ∀ r, 0 < size r) {fuel : Nat}
    {r : Progress} {p : Option Pending} {bs : Bytes} {t : Text} (hfuel : bs.length < fuel)
    (h : decodeBlocks size fuel r (.ok p) bs = (t, none)) : scan 0 p bs = (t, none, none) := by
  induction fuel generalizing r p bs t with
  | zero => omega
  | succ fuel ih =>
      rw [decodeBlocks] at h
      cases bs with
      | nil =>
          cases p with
          | none => cases h; rfl
          | some p => cases h
      | cons b bs =>
          rw [if_neg (by simp)] at h
          dsimp only at h
          have hpos := hsize r
          have hshort : ((b :: bs).drop (size r)).length < fuel := by
            rw [List.length_drop, List.length_cons]
            rw [List.length_cons] at hfuel
            omega
          cases hblock : decodeBlock p ((b :: bs).take (size r)) with
          | error e => rw [hblock] at h; cases h
          | ok q =>
              obtain ⟨u, q⟩ := q
              rw [hblock] at h
              dsimp only at h
              cases q with
              | error e =>
                  obtain ⟨fuel, rfl⟩ : ∃ k, fuel = k + 1 := ⟨fuel - 1, by omega⟩
                  cases h
              | ok m =>
                  obtain ⟨rfl, hrefusal⟩ := Prod.mk.inj h
                  have hrest := ih hshort (Prod.ext rfl hrefusal)
                  have hfirst : scan 0 p ((b :: bs).take (size r)) = (u, m, none) := by
                    rw [decodeBlock] at hblock
                    split at hblock
                    · rename_i hscan
                      cases hblock
                      exact scan_position hscan 0
                    · split at hblock <;> cases hblock
                  have hwhole := scan_append_eq hfirst (scan_position hrest _)
                  rwa [List.take_append_drop] at hwhole

/-- **A text comes out of a stream as it was written**, but for its line ends. -/
theorem decodeStream_encode {size : Progress → Nat} (hsize : ∀ r, 0 < size r) (t : Text) :
    decodeStream size (encode t) = (Text.universalNewlines t, none) := by
  rw [decodeStream, decodeBlocks_of_scan hsize (by omega) (scan_encode 0 t)]

/-- A stream without a refusal is written text. -/
theorem exists_of_decodeStream {size : Progress → Nat} (hsize : ∀ r, 0 < size r) {bs : Bytes} {t : Text}
    (h : decodeStream size bs = (t, none)) : ∃ u, bs = encode u ∧ t = Text.universalNewlines u := by
  rw [decodeStream] at h
  split at h
  · rename_i u hblocks
    obtain ⟨rfl, -⟩ := Prod.mk.inj h
    exact ⟨u, (encode_of_scan (scan_of_decodeBlocks hsize (by omega) hblocks)).symm, rfl⟩
  · cases h

end Emend.Utf8

namespace Emend.Text

/-- Line feeds alone are left as they are. -/
theorem universalNewlines_of_not_mem {t : Text} (h : '\r' ∉ t) : universalNewlines t = t := by
  induction t with
  | nil => rfl
  | cons c t ih =>
      have hc : c ≠ '\r' := (List.ne_of_not_mem_cons h).symm
      rw [universalNewlines]
      · rw [ih (List.not_mem_of_not_mem_cons h)]
      · exact fun _ hcons => absurd hcons hc
      · exact hc

/-- Two texts have their line ends apart unless a line feed begins the second. -/
theorem universalNewlines_append {t : Text} {c : Char} (hc : c ≠ '\n') (u : Text) :
    universalNewlines (t ++ c :: u) = universalNewlines t ++ universalNewlines (c :: u) := by
  fun_induction universalNewlines t with
  | case1 => rfl
  | case2 t ih =>
      show '\n' :: universalNewlines (t ++ c :: u) = _
      rw [ih]
      rfl
  | case3 t hfeed ih =>
      have hnext : ∀ v, t ++ c :: u ≠ '\n' :: v := by
        intro v hv
        cases t with
        | nil => exact hc (List.cons.inj hv).1
        | cons d t => exact hfeed t (by rw [(List.cons.inj hv).1])
      rw [List.cons_append, universalNewlines, ih]
      · rfl
      · exact hnext
  | case4 d t hreturn hd ih =>
      rw [List.cons_append, universalNewlines, ih]
      · rfl
      · exact fun _ hd' => absurd hd' hd
      · exact hd

end Emend.Text
