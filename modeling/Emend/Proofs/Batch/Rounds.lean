import Emend.Proofs.Batch.Course
import Emend.Proofs.Batch.Halts
import Emend.Proofs.Batch.Watched

/-!
# Committing again and again

A commit that a failure ends can be made again, and nothing keeps a batch from being committed more often
than that. `Batch.commitAll` commits a batch in one round after another. What the rounds do is kept in a
ledger with a page for each round, and on each page a row for each change: the change afterwards, and the
calls that were made for it.

The one thing to know about a round is `Treated`, which says what may stand in a row. Everything else is
read off the ledger: a change that is settled stays as it is and is not given to the store again, so each
change is made at most once.
-/

namespace Emend

variable {σ : Type}

/-- One commit of a batch: the session that makes it, and the revision. -/
structure Round (σ : Type) where
  session : Session σ
  ref : Option Text

/-- Commits a batch in one round after another. A round that a failure ends leaves the batch as far as it
got, and the next goes on from there. Answers the batch after each round, with the failure that ended the
round if one did. -/
def Batch.commitAll (b : Batch) : List (Round σ) → Act σ (List (Batch × Option Failure))
  | [] => return []
  | r :: rs => do
    let answer ← r.session.commit b r.ref
    return answer :: (← answer.1.commitAll rs)

/-! ## One round -/

/-- The call that stores a change. -/
def Change.call (c : Change) (isAnswered : Bool) : Call where
  method := if c.isDeletion then .delete else .write
  path := c.path
  isAnswered

/-- What a round makes of a change, and the calls for it. `failure` is what ended the round, if anything
did. -/
inductive Treated (failure : Option Failure) (c : Change) : Change × List Call → Prop
  /-- The change was not pending, or the round ended before a call was made for it. -/
  | kept (why : c.status ≠ .pending ∨ failure.isSome) : Treated failure c (c, [])
  | made (token : Option Token) (status : c.status = .pending) :
      Treated failure c ({ c with status := .success, token }, [c.call true])
  | refused (e : StoreError) (status : c.status = .pending) :
      Treated failure c (c.stopped (.notStored e), [c.call false])
  /-- The call failed for another reason, which ended the round. -/
  | broken (e : Failure) (status : c.status = .pending) (other : ∀ r, e ≠ .store r)
      (ended : failure = some e) : Treated failure c (c, [c.call false])

/-- What may become of a change that is committed: nothing, or it is made, or it is refused. Only a pending
change becomes another, and then only its status, its token and its problem do. -/
inductive Change.Advances (c : Change) : Change → Prop
  | kept : c.Advances c
  | made (token : Option Token) (status : c.status = .pending) :
      c.Advances { c with status := .success, token }
  | refused (e : StoreError) (status : c.status = .pending) : c.Advances (c.stopped (.notStored e))

theorem Change.Advances.eq_of_settled {c c' : Change} (h : c.Advances c') (hc : c.status ≠ .pending) :
    c' = c := by
  cases h with
  | kept => rfl
  | made _ status | refused _ status => exact absurd status hc

/-- A change that was made or refused does not advance any further. -/
theorem Change.Advances.trans {c c' c'' : Change} (h : c.Advances c') (h' : c'.Advances c'') :
    c.Advances c'' := by
  cases h with
  | kept => exact h'
  | made token status =>
      rw [h'.eq_of_settled nofun]
      exact .made token status
  | refused e status =>
      rw [h'.eq_of_settled nofun]
      exact .refused e status

theorem forall₂_advances_trans {cs cs' cs'' : List Change} (h : List.Forall₂ Change.Advances cs cs')
    (h' : List.Forall₂ Change.Advances cs' cs'') : List.Forall₂ Change.Advances cs cs'' := by
  induction h generalizing cs'' with
  | nil => exact h'
  | cons hhead _ ih =>
      cases h' with
      | cons hhead' htail' => exact .cons (hhead.trans hhead') (ih htail')

theorem Treated.advances {failure : Option Failure} {c : Change} {row : Change × List Call}
    (h : Treated failure c row) : c.Advances row.1 := by
  cases h with
  | kept | broken => exact .kept
  | made token status => exact .made token status
  | refused e status => exact .refused e status

/-- A change that is not pending is not given to the store. -/
theorem Treated.eq_of_settled {failure : Option Failure} {c : Change} {row : Change × List Call}
    (h : Treated failure c row) (hc : c.status ≠ .pending) : row = (c, []) := by
  cases h with
  | kept => rfl
  | made _ status | refused _ status | broken _ status => exact absurd status hc

theorem rows_of_settled {failure : Option Failure} {cs : List Change} {rows : List (Change × List Call)}
    (h : List.Forall₂ (Treated failure) cs rows) (hcs : ∀ c ∈ cs, c.status ≠ .pending) :
    rows = cs.map fun c => (c, []) := by
  induction h with
  | nil => rfl
  | cons hhead _ ih =>
      rw [List.map_cons, hhead.eq_of_settled (hcs _ List.mem_cons_self),
        ih fun c hc => hcs c (List.mem_cons_of_mem _ hc)]

/-- A round that came to its end has settled the change. -/
theorem Treated.settled {c : Change} {row : Change × List Call} (h : Treated none c row) :
    row.1.status ≠ .pending := by
  cases h with
  | kept why => exact why.resolve_right nofun
  | made => exact nofun
  | refused => exact nofun
  | broken _ _ _ ended => cases ended

/-- Of the calls of a round for a change that was not settled by it, none was answered. -/
theorem Treated.unanswered {failure : Option Failure} {c : Change} {row : Change × List Call}
    (h : Treated failure c row) (hrow : row.1.status = .pending) :
    row.2.countP (·.isAnswered) = 0 := by
  cases h with
  | kept => rfl
  | broken => rfl
  | made => cases hrow
  | refused => cases hrow

theorem Treated.countP_le {failure : Option Failure} {c : Change} {row : Change × List Call}
    (h : Treated failure c row) : row.2.countP (·.isAnswered) ≤ 1 := by
  cases h with
  | kept => exact Nat.zero_le 1
  | made => exact Nat.le_refl 1
  | refused | broken => exact Nat.zero_le 1

/-! ## The ledger -/

/-- What one round leaves in the ledger: a row for each change, and the failure that ended the round if
one did. -/
structure Page where
  rows : List (Change × List Call)
  failure : Option Failure

namespace Page

/-- The changes after the round. -/
def changes (page : Page) : List Change := page.rows.map (·.1)

/-- The calls of the round. -/
def calls (page : Page) : List Call := page.rows.flatMap (·.2)

/-- The calls of the round for the change at a place in the batch. -/
def callsAt (page : Page) (i : Nat) : List Call := (page.rows[i]?.map (·.2)).getD []

theorem getElem?_changes {page : Page} {i : Nat} {row : Change × List Call}
    (h : page.rows[i]? = some row) : page.changes[i]? = some row.1 := by
  rw [changes, List.getElem?_map, h]
  rfl

theorem callsAt_of_some {page : Page} {i : Nat} {row : Change × List Call}
    (h : page.rows[i]? = some row) : page.callsAt i = row.2 := by
  rw [callsAt, h]
  rfl

theorem callsAt_of_none {page : Page} {i : Nat} (h : page.rows[i]? = none) : page.callsAt i = [] := by
  rw [callsAt, h]
  rfl

end Page

/-- The pages of rounds that begin with the changes `cs`. Each page goes on from the one before it, and a
round is ended by a failure only where a change was pending. -/
inductive Ledger : List Change → List Page → Prop
  | nil {cs : List Change} : Ledger cs []
  | cons {cs : List Change} {page : Page} {pages : List Page}
      (rows : List.Forall₂ (Treated page.failure) cs page.rows)
      (halts : page.failure.isSome → ∃ c ∈ cs, c.status = .pending)
      (rest : Ledger page.changes pages) : Ledger cs (page :: pages)

/-- Where two lists are related in order, what stands at a place in the second is related to what stands
there in the first. -/
theorem exists_getElem?_of_forall₂ {α β : Type} {R : α → β → Prop} {as : List α} {bs : List β}
    (h : List.Forall₂ R as bs) {i : Nat} {b : β} (hb : bs[i]? = some b) :
    ∃ a, as[i]? = some a ∧ R a b := by
  induction h generalizing i with
  | nil => cases hb
  | cons hhead _ ih =>
      cases i with
      | zero =>
          cases hb
          exact ⟨_, rfl, hhead⟩
      | succ i => exact ih hb

namespace Ledger

variable {cs : List Change} {pages : List Page}

/-- A change that is settled stays as it is, and there are no more calls for it. -/
theorem row_of_settled (h : Ledger cs pages) {i : Nat} {c : Change} (hc : cs[i]? = some c)
    (hstatus : c.status ≠ .pending) : ∀ page ∈ pages, page.rows[i]? = some (c, []) := by
  induction h with
  | nil => exact fun page hpage => absurd hpage List.not_mem_nil
  | @cons cs page pages rows _ _ ih =>
      have hlength : i < page.rows.length := by
        rw [← rows.length_eq]
        exact (List.getElem?_eq_some_iff.mp hc).1
      obtain ⟨d, hd, htreated⟩ :=
        exists_getElem?_of_forall₂ rows (List.getElem?_eq_getElem hlength)
      rw [hc] at hd
      cases hd
      have hrow : page.rows[i]? = some (c, []) := by
        rw [List.getElem?_eq_getElem hlength, htreated.eq_of_settled hstatus]
      intro page' hpage'
      rcases List.mem_cons.mp hpage' with rfl | hpage'
      · exact hrow
      · exact ih (Page.getElem?_changes hrow) page' hpage'

/-- What is settled on one page stands unchanged on every later one. -/
theorem pairwise_settled (h : Ledger cs pages) :
    pages.Pairwise fun page later => ∀ (i : Nat) (c : Change) (calls : List Call),
      page.rows[i]? = some (c, calls) → c.status ≠ .pending → later.rows[i]? = some (c, []) := by
  induction h with
  | nil => exact .nil
  | cons _ _ rest ih =>
      refine .cons (fun later hlater i c calls hrow hstatus => ?_) ih
      exact rest.row_of_settled (Page.getElem?_changes hrow) hstatus later hlater

/-- **A change is made at most once**: of all the calls for it, in whatever round, no more than one was
answered. -/
theorem countP_callsAt_le (h : Ledger cs pages) (i : Nat) :
    (pages.flatMap (·.callsAt i)).countP (·.isAnswered) ≤ 1 := by
  induction h with
  | nil => exact Nat.zero_le 1
  | @cons cs page pages rows _ rest ih =>
      rw [List.flatMap_cons, List.countP_append]
      cases hrow : page.rows[i]? with
      | none =>
          rw [Page.callsAt_of_none hrow, List.countP_nil, Nat.zero_add]
          exact ih
      | some row =>
          obtain ⟨c, -, htreated⟩ := exists_getElem?_of_forall₂ rows hrow
          rw [Page.callsAt_of_some hrow]
          by_cases hstatus : row.1.status = .pending
          · rw [htreated.unanswered hstatus, Nat.zero_add]
            exact ih
          · -- settled in this round, so that there are no calls in the others
            have hnone : pages.flatMap (·.callsAt i) = [] := by
              refine List.flatMap_eq_nil_iff.mpr fun later hlater => ?_
              exact Page.callsAt_of_some
                (rest.row_of_settled (Page.getElem?_changes hrow) hstatus later hlater)
            rw [hnone, List.countP_nil, Nat.add_zero]
            exact htreated.countP_le

/-- From each of its stages to every later one, a batch advances. -/
theorem pairwise_advances (h : Ledger cs pages) :
    (cs :: pages.map Page.changes).Pairwise (List.Forall₂ Change.Advances) := by
  induction h with
  | nil => exact List.pairwise_singleton _ _
  | @cons cs page pages rows _ _ ih =>
      have hfirst : List.Forall₂ Change.Advances cs page.changes :=
        List.forall₂_map_right_iff.mpr (rows.imp fun _ _ => Treated.advances)
      rw [List.map_cons]
      refine .cons (fun later hlater => ?_) ih
      rcases List.mem_cons.mp hlater with rfl | hlater
      · exact hfirst
      · exact forall₂_advances_trans hfirst ((List.pairwise_cons.mp ih).1 later hlater)

/-- A round that came to its end has settled every change. -/
theorem settled_of_done (h : Ledger cs pages) :
    ∀ page ∈ pages, page.failure = none → ∀ c ∈ page.changes, c.status ≠ .pending := by
  induction h with
  | nil => exact fun page hpage => absurd hpage List.not_mem_nil
  | @cons cs page pages rows _ _ ih =>
      intro page' hpage' hdone
      rcases List.mem_cons.mp hpage' with rfl | hpage'
      · rw [hdone] at rows
        intro c hc
        obtain ⟨row, hrow, rfl⟩ := List.mem_map.mp hc
        obtain ⟨i, hi⟩ := List.mem_iff_getElem?.mp hrow
        obtain ⟨_, -, htreated⟩ := exists_getElem?_of_forall₂ rows hi
        exact htreated.settled
      · exact ih page' hpage' hdone

/-- Where every change is settled, a round makes no call and changes nothing. -/
theorem idle_of_settled (h : Ledger cs pages) (hcs : ∀ c ∈ cs, c.status ≠ .pending) :
    ∀ page ∈ pages, page.failure = none ∧ page.changes = cs ∧ page.calls = [] := by
  induction h with
  | nil => exact fun page hpage => absurd hpage List.not_mem_nil
  | @cons cs page pages rows halts _ ih =>
      have hdone : page.failure = none := by
        cases hfailure : page.failure with
        | none => rfl
        | some e =>
            obtain ⟨c, hc, hpending⟩ := halts (by rw [hfailure]; rfl)
            exact absurd hpending (hcs c hc)
      have hrows : page.rows = cs.map fun c => (c, []) := rows_of_settled rows hcs
      have hchanges : page.changes = cs := by
        rw [Page.changes, hrows, List.map_map]
        exact List.map_id cs
      have hcalls : page.calls = [] := by
        rw [Page.calls, hrows, List.flatMap_map]
        exact List.flatMap_eq_nil_iff.mpr fun _ _ => rfl
      rw [hchanges] at ih
      intro page' hpage'
      rcases List.mem_cons.mp hpage' with rfl | hpage'
      · exact ⟨hdone, hchanges, hcalls⟩
      · exact ih hcs page' hpage'

/-- After a round that came to its end the others have nothing to do. -/
theorem pairwise_idle (h : Ledger cs pages) :
    pages.Pairwise fun page later => page.failure = none →
      later.failure = none ∧ later.changes = page.changes ∧ later.calls = [] := by
  have hdone := h.settled_of_done
  induction h with
  | nil => exact .nil
  | @cons cs page pages _ _ rest ih =>
      refine .cons (fun later hlater hpage => ?_)
        (ih fun later hlater => hdone later (List.mem_cons_of_mem page hlater))
      exact rest.idle_of_settled (hdone page List.mem_cons_self hpage) later hlater

end Ledger

namespace Session

open Act

theorem isOk_map {ε α β : Type} (f : α → β) (r : Except ε α) : (r.map f).isOk = r.isOk := by
  cases r <;> rfl

/-- A note is no call. -/
theorem calls_note (s : Session σ) (ns : List Note) (st : σ × List Call) :
    (s.watched.note ns st).state.2 = st.2 := by
  rw [note, watched]
  cases s.journal with
  | none => rfl
  | some record =>
      show (ns.foldl (fun s n => (record n s.1, s.2)) st).2 = st.2
      induction ns generalizing st with
      | nil => rfl
      | cons n ns ih => exact ih (record n st.1, st.2)

/-- The call that stores a change is recorded, and nothing else is. -/
theorem calls_storeChange (s : Session σ) (ref : Option Text) (c : Change) (message : Text)
    (st : σ × List Call) :
    (s.watched.storeChange ref c message st).state.2 =
      st.2 ++ [c.call (s.watched.storeChange ref c message st).result.isOk] := by
  by_cases hdeletion : c.isDeletion = true
  · rw [storeChange_of_isDeletion hdeletion, map_apply]
    show st.2 ++ [_] = st.2 ++ [_]
    rw [Change.call, if_pos hdeletion, isOk_map]
    rfl
  · have hwrites : c.isDeletion = false := Bool.eq_false_iff.mpr hdeletion
    rw [storeChange_of_writes hwrites, map_apply]
    show st.2 ++ [_] = st.2 ++ [_]
    rw [Change.call, if_neg hdeletion, isOk_map]
    rfl

/-- One change that is committed makes a row of the ledger. -/
theorem gives_commitChange_treated (s : Session σ) (ref : Option Text) {c : Change}
    (hstatus : c.status = .pending) (st : σ × List Call) :
    (s.watched.commitChange ref c).outcome.Gives st fun r st' =>
      ∃ logged, st'.2 = st.2 ++ logged ∧
        match r with
        | .ok c' => ∀ failure, Treated failure c (c', logged)
        | .error e => Treated (some e) c (c, logged) := by
  refine gives_commitChange_outcome ?_ ?_ ?_
  · intro e _
    -- the message cannot be filled, and there is no call
    exact ⟨[], (List.append_nil _).symm, .kept (.inr rfl)⟩
  · intro message _
    have hcall : (s.watched.storeChange ref c message).outcome.Gives st fun r st' =>
        st'.2 = st.2 ++ [c.call r.isOk] := ⟨_, rfl, s.calls_storeChange ref c message st⟩
    refine hcall.outcome_attempt ?_ ?_ ?_
    · intro token st' hcalls
      exact ⟨_, hcalls, fun _ => .made token hstatus⟩
    · intro e st' hcalls
      exact ⟨_, hcalls, fun _ => .refused e hstatus⟩
    · intro e st' hother hcalls
      exact ⟨_, hcalls, .broken e hstatus hother rfl⟩
  · rintro r ns st' ⟨logged, hlogged, hrow⟩
    exact ⟨logged, (s.calls_note ns st').trans hlogged, hrow⟩

/-- One commit makes a page of the ledger. -/
theorem gives_commit_page (s : Session σ) (b : Batch) (ref : Option Text) (st : σ × List Call) :
    (s.watched.commit b ref).Gives st fun answer st' => ∃ page : Page,
      answer = ({ b with changes := page.changes }, page.failure) ∧ st'.2 = st.2 ++ page.calls ∧
        List.Forall₂ (Treated page.failure) b.changes page.rows ∧
        (page.failure.isSome → ∃ c ∈ b.changes, c.status = .pending) := by
  have hrows := gives_commitChanges_rows s.watched (s.activeRef ref) Prod.snd
    (fun _ _ => True) Treated (fun _ _ _ _ => .kept)
    (fun c st hstatus _ => (s.gives_commitChange_treated _ hstatus st).mono fun r st' h =>
      ⟨h, fun _ => id⟩) b.changes st fun _ _ => trivial
  have hhalt := gives_commitChanges_halt s.watched (s.activeRef ref) b.changes st
  refine (hrows.and hhalt).bind ?_
  rintro ⟨cs, failure⟩ st' ⟨⟨rows, rfl, hcalls, htreated⟩, hpending⟩
  refine gives_pure ⟨⟨rows, failure⟩, rfl, hcalls, htreated, fun hfailure => ?_⟩
  obtain ⟨e, he⟩ := Option.isSome_iff_exists.mp hfailure
  obtain ⟨c, hc, hstatus, -⟩ := hpending e he
  exact ⟨c, hc, hstatus⟩

theorem under_commit (s : Session σ) (b : Batch) (ref : Option Text) :
    (s.watched.commit b ref).Under (s.commit b ref) :=
  (s.under_commitChanges _ b.changes).bind fun _ => under_pure _

end Session

/-! ## All rounds -/

/-- The round over the session's store watched. -/
def Round.watched (r : Round σ) : Round (σ × List Call) := { session := r.session.watched, ref := r.ref }

/-- The batch after each round that has a page. -/
def Batch.stages (b : Batch) (pages : List Page) : List (Batch × Option Failure) :=
  pages.map fun page => ({ b with changes := page.changes }, page.failure)

/-- The rounds of a batch make a ledger. -/
theorem Batch.gives_commitAll_ledger (rs : List (Round σ)) (b : Batch) (st : σ × List Call) :
    (b.commitAll (rs.map Round.watched)).Gives st fun stages st' => ∃ pages : List Page,
      pages.length = rs.length ∧ stages = b.stages pages ∧ st'.2 = st.2 ++ pages.flatMap Page.calls ∧
        Ledger b.changes pages := by
  induction rs generalizing b st with
  | nil => exact Act.gives_pure ⟨[], rfl, rfl, (List.append_nil _).symm, .nil⟩
  | cons r rs ih =>
      rw [List.map_cons, commitAll]
      refine (r.session.gives_commit_page b r.ref st).bind ?_
      rintro _ st' ⟨page, rfl, hcalls, htreated, hhalts⟩
      refine (ih _ st').bind ?_
      rintro _ st'' ⟨pages, hlength, rfl, hcalls', hledger⟩
      refine Act.gives_pure ⟨page :: pages, congrArg Nat.succ hlength, rfl, ?_, ?_⟩
      · rw [hcalls', hcalls, List.flatMap_cons, List.append_assoc]
      · exact .cons htreated hhalts hledger

theorem Batch.under_commitAll (rs : List (Round σ)) (b : Batch) :
    (b.commitAll (rs.map Round.watched)).Under (b.commitAll rs) := by
  induction rs generalizing b with
  | nil => exact Act.under_pure _
  | cons r rs ih =>
      exact (r.session.under_commit b r.ref).bind fun answer =>
        (ih answer.1).bind fun _ => Act.under_pure _

/-- The rounds never fail, and what they do to the batch stands in a ledger. -/
theorem Batch.exists_ledger (rs : List (Round σ)) (b : Batch) (st : σ) :
    ∃ pages : List Page, pages.length = rs.length ∧
      (b.commitAll rs st).result = .ok (b.stages pages) ∧ Ledger b.changes pages := by
  obtain ⟨_, hresult, pages, hlength, rfl, -, hledger⟩ := b.gives_commitAll_ledger rs (st, [])
  obtain ⟨hsame, -, -⟩ := b.under_commitAll rs st []
  exact ⟨pages, hlength, hsame.symm.trans hresult, hledger⟩

/-- **A batch may be committed as often as one likes**, over whatever stores. The rounds never fail, and
keep a ledger of all the calls there are, in which each change has at most one call that is answered. A
change that is settled stays as it is and has no more calls; a change that is pending is made or refused,
or left as it is. Once a round has come to its end no change is pending, and further rounds make no call
and leave the batch as it is. -/
theorem Batch.commitAll_once (rs : List (Round σ)) (b : Batch) (st : σ) :
    ∃ pages : List Page, pages.length = rs.length ∧
      (b.commitAll rs st).result = .ok (b.stages pages) ∧
      (b.commitAll (rs.map Round.watched) (st, [])).result = .ok (b.stages pages) ∧
      (b.commitAll (rs.map Round.watched) (st, [])).state =
        ((b.commitAll rs st).state, pages.flatMap Page.calls) ∧
      Ledger b.changes pages ∧
      (∀ i, (pages.flatMap (·.callsAt i)).countP (·.isAnswered) ≤ 1) ∧
      (∀ page ∈ pages, ∀ (i : Nat) (c : Change), b.changes[i]? = some c → c.status ≠ .pending →
        page.rows[i]? = some (c, [])) ∧
      (pages.Pairwise fun page later => ∀ (i : Nat) (c : Change) (calls : List Call),
        page.rows[i]? = some (c, calls) → c.status ≠ .pending → later.rows[i]? = some (c, [])) ∧
      (b.changes :: pages.map Page.changes).Pairwise (List.Forall₂ Change.Advances) ∧
      (∀ page ∈ pages, page.failure = none → ∀ c ∈ page.changes, c.status ≠ .pending) ∧
      pages.Pairwise fun page later => page.failure = none →
        later.failure = none ∧ later.changes = page.changes ∧ later.calls = [] := by
  obtain ⟨stages, hresult, pages, hlength, rfl, hcalls, hledger⟩ :=
    b.gives_commitAll_ledger rs (st, [])
  obtain ⟨hsame, hstate, -⟩ := b.under_commitAll rs st []
  refine ⟨pages, hlength, hsame.symm.trans hresult, hresult, Prod.ext hstate hcalls, hledger,
    hledger.countP_callsAt_le, ?_, hledger.pairwise_settled, hledger.pairwise_advances,
    hledger.settled_of_done, hledger.pairwise_idle⟩
  intro page hpage i c hc hstatus
  exact hledger.row_of_settled hc hstatus page hpage

end Emend
