import Emend.Data.Assoc
import Emend.Proofs.Act
import Emend.Store.Memory
import Mathlib.Logic.Function.Basic

/-!
# Stores that are maps

A store is like a map when its states hold texts by path, fetching reads the map, writing and deleting
change it at one path, and the token of a text is its identifier. Such a store may refuse a call for two
reasons: the token is stale, or the call is one of those that can fail. A refused call changes nothing.
-/

namespace Emend

variable {σ : Type}

/-- The token of a text. -/
def tokenOf (t : Text) : Token := Digest.blobId (Utf8.encode t)

namespace Store

/-- A write that comes with a token is refused when the token is not that of the text there. -/
def IsStaleWrite (token : Option Token) (now : Option Text) : Prop :=
  token.isSome ∧ token ≠ now.map tokenOf

/-- A deletion is refused when its token is not that of the text there. -/
def IsStaleDelete (token : Option Token) (now : Option Text) : Prop := token ≠ now.map tokenOf

/-- **The store is a map from paths to texts.** `files` reads the map off a state, `inv` holds of the
states in which the store is used, and `out` says which calls can fail for no reason of their own. -/
structure MapLike (store : Store σ) (inv : σ → Prop) (files : σ → Text → Option Text)
    (out : StoreMethod → Text → Prop) : Prop where
  fetch : ∀ s path ref, inv s → (store.fetch path ref).attempt.Gives s fun answer s' =>
    inv s' ∧ files s' = files s ∧
      match answer with
      | .ok found => found = (files s path).map fun t => ⟨t, tokenOf t⟩
      | .error _ => out .fetch path
  write : ∀ s path text token ref message, inv s →
    (store.write path text token ref message).attempt.Gives s fun answer s' =>
      inv s' ∧
        match answer with
        | .ok token' => ¬ IsStaleWrite token (files s path) ∧ token' = tokenOf text ∧
            files s' = Function.update (files s) path (some text)
        | .error _ => files s' = files s ∧ (out .write path ∨ IsStaleWrite token (files s path))
  delete : ∀ s path token ref message, inv s →
    (store.delete path token ref message).attempt.Gives s fun answer s' =>
      inv s' ∧
        match answer with
        | .ok _ => ¬ IsStaleDelete token (files s path) ∧
            files s' = Function.update (files s) path none
        | .error _ => files s' = files s ∧ (out .delete path ∨ IsStaleDelete token (files s path))

end Store

/-! ## The store in memory -/

namespace Memory

theorem get?_put (m : Memory) (path text : Text) :
    (m.put path text).get? = Function.update m.get? path (some text) := by
  funext p
  rw [get?, put, List.lookup_cons]
  by_cases hp : p = path
  · rw [hp, Function.update_self, beq_self_eq_true]
  · rw [Function.update_of_ne hp, beq_eq_false_iff_ne.mpr hp]
    exact lookup_filter_ne m.files hp

theorem get?_erase (m : Memory) (path : Text) :
    (m.erase path).get? = Function.update m.get? path none := by
  funext p
  rw [get?, erase]
  by_cases hp : p = path
  · rw [hp, Function.update_self]
    exact lookup_filter_self m.files path
  · rw [Function.update_of_ne hp]
    exact lookup_filter_ne m.files hp

/-- The memory that has received one more call. -/
def received (m : Memory) (c : StoreCall) : Memory := { m with calls := m.calls ++ [c] }

/-- The refusal of a call that is meant to fail. -/
def unavailable (c : StoreCall) : StoreError :=
  ⟨c.method.name.toList ++ " unavailable".toList, some c.path⟩

/-- The refusal of a call whose token is stale. -/
def changed (path : Text) : StoreError :=
  ⟨'\'' :: path ++ "' changed since it was fetched.".toList, some path⟩

theorem receive_of_isOut {c : StoreCall} {m : Memory} (hout : m.isOut c.method c.path = true) :
    receive c m = ⟨.error (.store (unavailable c)), m.received c, []⟩ := by
  have hout' : (m.received c).isOut c.method c.path = true := hout
  rw [receive, Act.modify_bind, Act.get_bind]
  exact congrFun (if_pos hout') _

theorem receive_of_not_isOut {c : StoreCall} {m : Memory} (hout : ¬ m.isOut c.method c.path = true) :
    receive c m = ⟨.ok (), m.received c, []⟩ := by
  have hout' : ¬ (m.received c).isOut c.method c.path = true := hout
  rw [receive, Act.modify_bind, Act.get_bind]
  exact congrFun (if_neg hout') _

/-- What fetching does in the memory. -/
theorem fetch_apply (m : Memory) (path : Text) (ref : Option Text) :
    let c : StoreCall := { method := .fetch, path, ref }
    store.fetch path ref m =
      if m.isOut .fetch path then ⟨.error (.store (unavailable c)), m.received c, []⟩
      else ⟨.ok ((m.get? path).map fun t => ⟨t, tokenOf t⟩), m.received c, []⟩ := by
  intro c
  by_cases hout : m.isOut c.method c.path = true
  · rw [if_pos hout]
    exact Act.bind_of_error (receive_of_isOut hout)
  · rw [if_neg hout]
    exact Act.bind_of_ok (receive_of_not_isOut hout)

/-- What writing does in the memory. -/
theorem write_apply (m : Memory) (path text : Text) (token ref message : Option Text) :
    let c : StoreCall := { method := .write, path, token, ref, message }
    store.write path text token ref message m =
      if m.isOut .write path then ⟨.error (.store (unavailable c)), m.received c, []⟩
      else if token.isSome ∧ token ≠ m.token? path then
        ⟨.error (.store (changed path)), m.received c, []⟩
      else ⟨.ok (tokenOf text), (m.received c).put path text, []⟩ := by
  intro c
  by_cases hout : m.isOut c.method c.path = true
  · rw [if_pos hout]
    exact Act.bind_of_error (receive_of_isOut hout)
  · rw [if_neg hout]
    refine (Act.bind_of_ok (receive_of_not_isOut hout)).trans ?_
    rw [Act.get_bind]
    by_cases hstale : token.isSome ∧ token ≠ m.token? path
    · have hstale' : token.isSome ∧ token ≠ (m.received c).token? path := hstale
      rw [if_pos hstale, if_pos hstale']
      rfl
    · have hstale' : ¬ (token.isSome ∧ token ≠ (m.received c).token? path) := hstale
      rw [if_neg hstale, if_neg hstale']
      rfl

/-- What deleting does in the memory. -/
theorem delete_apply (m : Memory) (path : Text) (token ref message : Option Text) :
    let c : StoreCall := { method := .delete, path, token, ref, message }
    store.delete path token ref message m =
      if m.isOut .delete path then ⟨.error (.store (unavailable c)), m.received c, []⟩
      else if token ≠ m.token? path then ⟨.error (.store (changed path)), m.received c, []⟩
      else ⟨.ok (), (m.received c).erase path, []⟩ := by
  intro c
  by_cases hout : m.isOut c.method c.path = true
  · rw [if_pos hout]
    exact Act.bind_of_error (receive_of_isOut hout)
  · rw [if_neg hout]
    refine (Act.bind_of_ok (receive_of_not_isOut hout)).trans ?_
    rw [Act.get_bind]
    by_cases hstale : token ≠ m.token? path
    · have hstale' : token ≠ (m.received c).token? path := hstale
      rw [if_pos hstale, if_pos hstale']
      rfl
    · have hstale' : ¬ token ≠ (m.received c).token? path := hstale
      rw [if_neg hstale, if_neg hstale']
      rfl

theorem isOut_iff {m : Memory} {method : StoreMethod} {path : Text} :
    m.isOut method path = true ↔ (method, path) ∈ m.outages ∨ (method, ['*']) ∈ m.outages := by
  rw [isOut, Bool.or_eq_true, List.contains_iff_mem, List.contains_iff_mem]

/-- The memory is like a map whose calls can fail at its outages. -/
theorem mapLike_store (outages : List (StoreMethod × Text)) :
    store.MapLike (·.outages = outages) get? fun method path =>
      (method, path) ∈ outages ∨ (method, ['*']) ∈ outages where
  fetch m path ref hm := by
    have happly := fetch_apply m path ref
    split at happly
    · rename_i hout
      exact Act.gives_attempt_of_refused happly ⟨hm, rfl, hm ▸ isOut_iff.mp hout⟩
    · exact Act.gives_attempt_of_ok happly ⟨hm, rfl, rfl⟩
  write m path text token ref message hm := by
    have happly := write_apply m path text token ref message
    split at happly
    · rename_i hout
      exact Act.gives_attempt_of_refused happly ⟨hm, rfl, .inl (hm ▸ isOut_iff.mp hout)⟩
    · split at happly
      · rename_i hstale
        exact Act.gives_attempt_of_refused happly ⟨hm, rfl, .inr hstale⟩
      · rename_i hstale
        exact Act.gives_attempt_of_ok happly ⟨hm, hstale, rfl, get?_put _ path text⟩
  delete m path token ref message hm := by
    have happly := delete_apply m path token ref message
    split at happly
    · rename_i hout
      exact Act.gives_attempt_of_refused happly ⟨hm, rfl, .inl (hm ▸ isOut_iff.mp hout)⟩
    · split at happly
      · rename_i hstale
        exact Act.gives_attempt_of_refused happly ⟨hm, rfl, .inr hstale⟩
      · rename_i hstale
        exact Act.gives_attempt_of_ok happly ⟨hm, hstale, get?_erase _ path⟩

end Memory

end Emend
