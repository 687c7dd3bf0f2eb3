import Emend.Proofs.Batch.Course
import Emend.Proofs.Batch.Ready
import Emend.Proofs.Store.Shared

/-!
# Sessions over a shared store

What a session does and answers over a store that others use as well, told by the calls that it makes.
`Looked` says which call a prepared change was made from, `Handled` which call made a change of a batch
and what it came to. Each change has at most one of each, and every call is one for a change.
-/

namespace Emend

variable {σ : Type}

/-- The visit fetched the file at a path, and the fetch came to `r`. -/
structure Visit.Fetches (v : Visit σ) (s : Session σ) (ref : Option Text) (p : Text)
    (r : Except Failure (Option Fetched)) : Prop where
  method : v.method = .fetch
  path : v.path = p
  result : (s.store.fetch p ref v.found).result = r

/-- The visit wrote or deleted the file of a change, and that came to `r`. -/
structure Visit.Stores (v : Visit σ) (s : Session σ) (ref : Option Text) (c : Change)
    (r : Except Failure (Option Token)) : Prop where
  method : v.method = if c.isDeletion then .delete else .write
  path : v.path = c.path
  call : ∃ message, (s.storeChange ref c message v.found).result = r ∧
    (s.storeChange ref c message v.found).state = v.left

/-- The visits for a path. -/
def visitsAt (vs : List (Visit σ)) (p : Text) : List (Visit σ) := vs.filter (·.path = p)

theorem visitsAt_append_left {vs vs' : List (Visit σ)} {p : Text} (h : ∀ v ∈ vs, v.path = p)
    (h' : ∀ v ∈ vs', v.path ≠ p) : visitsAt (vs ++ vs') p = vs := by
  have hall : vs.filter (·.path = p) = vs :=
    List.filter_eq_self.mpr fun v hv => decide_eq_true (h v hv)
  have hnone : vs'.filter (·.path = p) = [] :=
    List.filter_eq_nil_iff.mpr fun v hv => by
      rw [decide_eq_true_iff]
      exact h' v hv
  rw [visitsAt, List.filter_append, hall, hnone, List.append_nil]

theorem visitsAt_append_right {vs : List (Visit σ)} {p q : Text} (h : ∀ v ∈ vs, v.path = p)
    (hne : q ≠ p) (vs' : List (Visit σ)) : visitsAt (vs ++ vs') q = visitsAt vs' q := by
  have hnone : vs.filter (·.path = q) = [] :=
    List.filter_eq_nil_iff.mpr fun v hv => by
      rw [decide_eq_true_iff, h v hv]
      exact hne.symm
  rw [visitsAt, List.filter_append, hnone, List.nil_append, visitsAt]

/-- The calls for the file of a change that has been prepared. -/
inductive Looked (s : Session σ) (ref : Option Text) (c : Change) : List (Visit σ) → Prop
  /-- The file is only created, so it was not fetched. -/
  | unlooked (existed : c.existed = false) (token : c.token = none) : Looked s ref c []
  | refused (v : Visit σ) (e : StoreError) (fetch : v.Fetches s ref c.path (.error (.store e)))
      (existed : c.existed = false) : Looked s ref c [v]
  | missing (v : Visit σ) (fetch : v.Fetches s ref c.path (.ok none)) (existed : c.existed = false)
      (token : c.token = none) : Looked s ref c [v]
  | found (v : Visit σ) (f : Fetched) (fetch : v.Fetches s ref c.path (.ok (some f)))
      (existed : c.existed = true) (token : c.token = some f.token) : Looked s ref c [v]

theorem Looked.path_of_mem {s : Session σ} {ref : Option Text} {c : Change} {vs : List (Visit σ)}
    (h : Looked s ref c vs) : ∀ v ∈ vs, v.path = c.path := by
  intro v hv
  cases h with
  | unlooked => exact absurd hv List.not_mem_nil
  | refused _ _ fetch | missing _ fetch | found _ _ fetch =>
      rw [List.mem_singleton.mp hv]
      exact fetch.path

/-- Changes of different paths, and the calls that they were prepared from. -/
structure LookedAll (s : Session σ) (ref : Option Text) (paths : List Text) (cs : List Change)
    (vs : List (Visit σ)) : Prop where
  path_mem : ∀ v ∈ vs, v.path ∈ paths
  each : ∀ c ∈ cs, c.path ∈ paths ∧ Looked s ref c (visitsAt vs c.path)

/-- The calls for a change of another path come before those for the rest. -/
theorem LookedAll.cons {s : Session σ} {ref : Option Text} {paths : List Text} {c : Change}
    {cs : List Change} {vs vs' : List (Visit σ)} (hnotin : c.path ∉ paths) (h : Looked s ref c vs)
    (hs : LookedAll s ref paths cs vs') : LookedAll s ref (c.path :: paths) (c :: cs) (vs ++ vs') where
  path_mem v hv := by
    rcases List.mem_append.mp hv with hv | hv
    · exact h.path_of_mem v hv ▸ List.mem_cons_self
    · exact List.mem_cons_of_mem _ (hs.path_mem v hv)
  each d hd := by
    rcases List.mem_cons.mp hd with rfl | hd
    · refine ⟨List.mem_cons_self, ?_⟩
      rwa [visitsAt_append_left h.path_of_mem fun v hv hsame => hnotin (hsame ▸ hs.path_mem v hv)]
    · obtain ⟨hmem, hlooked⟩ := hs.each d hd
      refine ⟨List.mem_cons_of_mem _ hmem, ?_⟩
      rwa [visitsAt_append_right h.path_of_mem fun hsame => hnotin (hsame ▸ hmem)]

/-- What a commit makes of one change of a batch, and the calls for the change's file. `failure` is what
ended the commit, if anything did. -/
inductive Handled (s : Session σ) (ref : Option Text) (failure : Option Failure) (c : Change) :
    Change → List (Visit σ) → Prop
  /-- The change was not pending, or the commit ended before a call was made for it. -/
  | kept (why : c.status ≠ .pending ∨ failure.isSome) : Handled s ref failure c c []
  | stored (v : Visit σ) (token : Option Token) (status : c.status = .pending)
      (call : v.Stores s ref c (.ok token)) :
      Handled s ref failure c { c with status := .success, token } [v]
  | refused (v : Visit σ) (e : StoreError) (status : c.status = .pending)
      (call : v.Stores s ref c (.error (.store e))) :
      Handled s ref failure c (c.stopped (.notStored e)) [v]
  /-- The call failed for another reason, which ended the commit. -/
  | broken (v : Visit σ) (e : Failure) (status : c.status = .pending)
      (call : v.Stores s ref c (.error e)) (other : ∀ e', e ≠ .store e') (ended : failure = some e) :
      Handled s ref failure c c [v]

theorem Handled.path {s : Session σ} {ref : Option Text} {failure : Option Failure} {c c' : Change}
    {vs : List (Visit σ)} (h : Handled s ref failure c c' vs) : c'.path = c.path := by
  cases h <;> rfl

theorem Handled.path_of_mem {s : Session σ} {ref : Option Text} {failure : Option Failure}
    {c c' : Change} {vs : List (Visit σ)} (h : Handled s ref failure c c' vs) :
    ∀ v ∈ vs, v.path = c.path := by
  intro v hv
  cases h with
  | kept => exact absurd hv List.not_mem_nil
  | stored _ _ _ call | refused _ _ _ call | broken _ _ _ call =>
      rw [List.mem_singleton.mp hv]
      exact call.path

/-- What a commit makes of changes of different paths, and its calls. -/
structure HandledAll (s : Session σ) (ref : Option Text) (failure : Option Failure)
    (cs cs' : List Change) (vs : List (Visit σ)) : Prop where
  path_mem : ∀ v ∈ vs, v.path ∈ cs.map (·.path)
  each : List.Forall₂ (fun c c' => Handled s ref failure c c' (visitsAt vs c.path)) cs cs'

/-- The calls for a change of another path come before those for the rest. -/
theorem HandledAll.cons {s : Session σ} {ref : Option Text} {failure : Option Failure} {c c' : Change}
    {cs cs' : List Change} {vs vs' : List (Visit σ)} (hnotin : c.path ∉ cs.map (·.path))
    (h : Handled s ref failure c c' vs) (hs : HandledAll s ref failure cs cs' vs') :
    HandledAll s ref failure (c :: cs) (c' :: cs') (vs ++ vs') where
  path_mem v hv := by
    rcases List.mem_append.mp hv with hv | hv
    · exact h.path_of_mem v hv ▸ List.mem_cons_self
    · exact List.mem_cons_of_mem _ (hs.path_mem v hv)
  each := by
    refine .cons ?_ ?_
    · rwa [visitsAt_append_left h.path_of_mem fun v hv hsame => hnotin (hsame ▸ hs.path_mem v hv)]
    · have hne : ∀ d ∈ cs, d.path ≠ c.path := fun d hd hsame =>
        hnotin (hsame ▸ List.mem_map_of_mem hd)
      refine ((List.forall₂_and_left _ _).mpr ⟨hne, hs.each⟩).imp ?_
      rintro d d' ⟨hd, hhandled⟩
      rwa [visitsAt_append_right h.path_of_mem hd]

namespace Session

open Act

variable {s : Session σ} {st : Shared σ}

/-- The session over its store as others use it as well. -/
def amid (s : Session σ) : Session (Shared σ) where
  store := s.store.amid
  config := s.config
  journal := s.journal.map fun record n st => { st with state := record n st.state }

end Session

end Emend
