import Emend.Proofs.Store.Versions
import Emend.Store.GitHub

/-!
# A hosted repository that others work on

`Hosting.amid` is a service of which others make requests as well: before every request they may have
done anything that a service may come to pass. Each request is one exchange, kept with the state it found
and the one it left.

Over such a service a store sends one request for a fetch, and one for a write or a delete that is meant
for a version. A write that is meant for none first looks for a version, and then is meant for the one it
found.
-/

namespace Emend

variable {ρ α : Type}

/-- A request that has been answered. -/
structure Exchange (ρ : Type) where
  call : HostingCall
  /-- The state of the service in which the request arrived. -/
  found : ρ
  /-- The state in which it left the service. -/
  left : ρ

/-- A service and the exchanges with it so far. -/
structure Traffic (ρ : Type) where
  state : ρ
  exchanges : List (Exchange ρ) := []

/-- Makes a request after what others do before it. `others n` is what they do before request number
`n`. -/
def Traffic.exchange (others : Nat → ρ → ρ) (call : HostingCall)
    (act : ρ → Except HostingFault α × ρ) (t : Traffic ρ) : Except HostingFault α × Traffic ρ :=
  let found := others t.exchanges.length t.state
  let (answer, left) := act found
  (answer, { state := left, exchanges := t.exchanges ++ [⟨call, found, left⟩] })

/-- The service as others make requests of it as well. -/
def Hosting.amid (h : Hosting ρ) (others : Nat → ρ → ρ) : Hosting (Traffic ρ) where
  getContents path ref :=
    Traffic.exchange others { method := .getContents, path, ref } (h.getContents path ref)
  createFile path message text branch :=
    Traffic.exchange others { method := .createFile, path, message, ref := branch }
      (h.createFile path message text branch)
  updateFile path message text version branch :=
    Traffic.exchange others { method := .updateFile, path, message, version, ref := branch }
      (h.updateFile path message text version branch)
  deleteFile path message version branch :=
    Traffic.exchange others { method := .deleteFile, path, message, version, ref := branch }
      (h.deleteFile path message version branch)

/-- Between `t` and `t'` there was the exchange `x` for the request `call`. -/
structure Exchanged (V : Versions ρ) (call : HostingCall) (t : Traffic ρ) (x : Exchange ρ)
    (t' : Traffic ρ) : Prop where
  call : x.call = call
  before : V.Passes t.state x.found
  during : V.Passes x.found x.left
  state : t'.state = x.left
  exchanges : t'.exchanges = t.exchanges ++ [x]

theorem Exchanged.passes {V : Versions ρ} {call : HostingCall} {t t' : Traffic ρ} {x : Exchange ρ}
    (h : Exchanged V call t x t') : V.Passes t.state t'.state := by
  rw [h.state]
  exact h.before.trans h.during

/-- The request `y` goes with what `x` found at the path: an update of the version that was there, or the
creation of a file that was not. -/
def Exchange.Follows (V : Versions ρ) (ref : Option Text) (p : Text) (x y : Exchange ρ) : Prop :=
  y.call.path = p ∧
    match V.file ref p x.found with
    | some f => y.call.method = .updateFile ∧ y.call.version = some f.version
    | none => y.call.method = .createFile

namespace GitHub

open Act

/-- A request is one exchange, and what follows it goes by the answer. -/
theorem gives_request_bind {β : Type} {V : Versions ρ} {others : Nat → ρ → ρ}
    (hothers : ∀ n r, V.Passes r (others n r)) {act : ρ → Except HostingFault α × ρ}
    (hact : ∀ r, V.Passes r (act r).2) {call : HostingCall} {t : Traffic ρ} (hinv : V.inv t.state)
    {f : Except HostingFault α → Act (Traffic ρ) β} {post : Except Failure β → Traffic ρ → Prop}
    (h : ∀ x t', Exchanged V call t x t' → V.inv x.found → x.left = (act x.found).2 →
      (f (act x.found).1).outcome.Gives t' post) :
    (request (Traffic.exchange others call act) >>= f).outcome.Gives t post := by
  have hpasses := hothers t.exchanges.length t.state
  exact h ⟨call, others t.exchanges.length t.state, (act (others t.exchanges.length t.state)).2⟩ _
    ⟨rfl, hpasses, hact _, rfl, rfl⟩ (hpasses.inv hinv) rfl

/-- An action that comes to nothing but a refusal. -/
theorem gives_outcome_refuse {σ : Type} {verb : String} {path : Text} {f : HostingFault} {st : σ}
    {post : Except Failure α → σ → Prop} (h : ∀ e, post (.error (.store e)) st) :
    (refuse verb path f : Act σ α).outcome.Gives st post := ⟨_, rfl, h _⟩

/-- An answer after a note. -/
theorem gives_outcome_noted {σ : Type} {n : Note} {a : α} {st : σ}
    {post : Except Failure α → σ → Prop} (h : post (.ok a) st) :
    (Act.note n >>= fun _ => pure a : Act σ α).outcome.Gives st post := ⟨_, rfl, h⟩

section

variable {V : Versions ρ} {h : Hosting ρ} {others : Nat → ρ → ρ} {t : Traffic ρ}

/-- What a fetch comes to. -/
def Fetches (V : Versions ρ) (ref : Option Text) (path : Text) (found : ρ) :
    Except Failure (Option Fetched) → Prop
  | .ok (some f) => ∃ g, V.file ref path found = some g ∧ f.token = g.version ∧
      Utf8.decode g.bytes = .ok f.text
  | .ok none => V.file ref path found = none
  | .error e => (∃ refusal, e = .store refusal) ∧
      (V.isUp found → ∀ g, V.file ref path found = some g → ∀ text, Utf8.decode g.bytes ≠ .ok text)

/-- A fetch is one request. It is refused only if there is no text to be read, or the service is not
up. -/
theorem gives_fetch (hV : h.Versioned V) (hothers : ∀ n r, V.Passes r (others n r))
    (hinv : V.inv t.state) (path : Text) (ref : Option Text) :
    (fetch (h.amid others) path ref).outcome.Gives t fun answer t' => ∃ x,
      Exchanged V { method := .getContents, path, ref := named ref } t x t' ∧ V.Same x.found x.left ∧
        Fetches V (named ref) path x.found answer := by
  refine gives_request_bind hothers (hV.passes_get path (named ref)) hinv ?_
  intro x t' hx hfound hleft
  have hsame : V.Same x.found x.left := hleft ▸ hV.same_get path (named ref) x.found
  cases hanswer : (h.getContents path (named ref) x.found).1 with
  | error f =>
      cases f with
      | unknownObject => exact gives_outcome_noted ⟨x, hx, hsame, hV.get_unknown hfound hanswer⟩
      | refused status data =>
          refine gives_outcome_refuse fun e => ⟨x, hx, hsame, ⟨e, rfl⟩, fun hup g hg => ?_⟩
          cases hanswer.symm.trans (hV.get_of_isUp hfound hup hg)
  | ok content =>
      cases content with
      | directory =>
          refine ⟨_, rfl, x, hx, hsame, ⟨_, rfl⟩, fun hup g hg => ?_⟩
          cases hanswer.symm.trans (hV.get_of_isUp hfound hup hg)
      | file bs version =>
          have hfile : V.file (named ref) path x.found = some ⟨bs, version⟩ :=
            hV.get_file hfound hanswer
          dsimp only
          cases hdecode : Utf8.decode bs with
          | error e =>
              refine ⟨_, rfl, x, hx, hsame, ⟨_, rfl⟩, fun _ g hg text htext => ?_⟩
              rw [hfile] at hg
              cases hg
              cases hdecode.symm.trans htext
          | ok text => exact gives_outcome_noted ⟨x, hx, hsame, _, hfile, rfl, hdecode⟩

/-- What a change that is meant for the version `v` comes to. `left` is what it leaves. -/
def Changes (V : Versions ρ) (ref : Option Text) (path v : Text) (left : α → Option HostedFile)
    (found after : ρ) : Except Failure α → Prop
  | .ok a => V.Makes ref path v (left a) found after
  | .error e => (∃ refusal, e = .store refusal) ∧ V.Refuses ref path v found after

/-- The request of a write once it is settled which version it is meant for. -/
def send (h : Hosting α) (path text : Text) (token ref message : Option Text) : Act α Token := do
  let made ← request (match token with
    | none => h.createFile path (commitMessage "Create" path message) text (named ref)
    | some t => h.updateFile path (commitMessage "Update" path message) text t (named ref))
  match made with
  | .error f => refuse "write" path f
  | .ok c =>
    Act.note (operationNote "write" path ref
      (": sha=".toList ++ c.version ++ " commit=".toList ++ c.commit))
    return c.version

theorem write_some (h : Hosting α) (path text v : Text) (ref message : Option Text) :
    write h path text (some v) ref message = send h path text (some v) ref message := pure_bind _ _

/-- A write that is meant for no version is meant for the one that a fetch finds. -/
theorem write_none (h : Hosting α) (path text : Text) (ref message : Option Text) :
    write h path text none ref message =
      fetch h path ref >>= fun found => send h path text (found.map (·.token)) ref message :=
  bind_congr fun _ => pure_bind _ _

/-- An update is one request. -/
theorem gives_send_some (hV : h.Versioned V) (hothers : ∀ n r, V.Passes r (others n r))
    (hinv : V.inv t.state) (path : Text) (ref message : Option Text) (text v : Text) :
    (send (h.amid others) path text (some v) ref message).outcome.Gives t fun answer t' => ∃ x,
      Exchanged V
        { method := .updateFile, path, message := commitMessage "Update" path message, version := v,
          ref := named ref } t x t' ∧
      Changes V (named ref) path v (fun token => some ⟨Utf8.encode text, token⟩) x.found x.left
        answer := by
  refine gives_request_bind hothers (hV.passes_update path _ text v (named ref)) hinv ?_
  intro x t' hx hfound hleft
  cases hanswer : (h.updateFile path (commitMessage "Update" path message) text v (named ref)
      x.found).1 with
  | error f =>
      refine gives_outcome_refuse fun e => ⟨x, hx, ⟨e, rfl⟩, ?_⟩
      rw [hleft]
      exact hV.update_error hfound hanswer
  | ok c =>
      refine gives_outcome_noted ⟨x, hx, ?_⟩
      show V.Makes (named ref) path v _ x.found x.left
      rw [hleft]
      exact hV.update_ok hfound hanswer

/-- The creation of a file is one request. -/
theorem gives_send_none (hV : h.Versioned V) (hothers : ∀ n r, V.Passes r (others n r))
    (hinv : V.inv t.state) (path : Text) (ref message : Option Text) (text : Text) :
    (send (h.amid others) path text none ref message).outcome.Gives t fun answer t' => ∃ x,
      Exchanged V
        { method := .createFile, path, message := commitMessage "Create" path message,
          ref := named ref } t x t' ∧
      match answer with
      | .ok token => V.file (named ref) path x.left = some ⟨Utf8.encode text, token⟩
      | .error e => (∃ refusal, e = .store refusal) ∧ V.Same x.found x.left := by
  refine gives_request_bind hothers (hV.passes_create path _ text (named ref)) hinv ?_
  intro x t' hx hfound hleft
  cases hanswer : (h.createFile path (commitMessage "Create" path message) text (named ref)
      x.found).1 with
  | error f =>
      refine gives_outcome_refuse fun e => ⟨x, hx, ⟨e, rfl⟩, ?_⟩
      rw [hleft]
      exact hV.create_error hfound hanswer
  | ok c =>
      refine gives_outcome_noted ⟨x, hx, ?_⟩
      show V.file (named ref) path x.left = _
      rw [hleft]
      exact hV.create_ok hfound hanswer

/-- A write that is meant for no version looks first. Then it sends what goes with what it found, if there
was something to be read, or nothing at all. -/
theorem gives_write_none (hV : h.Versioned V) (hothers : ∀ n r, V.Passes r (others n r))
    (hinv : V.inv t.state) (path : Text) (ref message : Option Text) (text : Text) :
    (write (h.amid others) path text none ref message).outcome.Gives t fun answer t' => ∃ x t₁,
      Exchanged V { method := .getContents, path, ref := named ref } t x t₁ ∧ V.Same x.found x.left ∧
        ((∃ e, answer = .error (.store e) ∧ t' = t₁ ∧
            Fetches V (named ref) path x.found (.error (.store e))) ∨
          ∃ y call, Exchanged V call t₁ y t' ∧ x.Follows V (named ref) path y ∧
            match answer with
            | .ok token => V.file (named ref) path y.left = some ⟨Utf8.encode text, token⟩
            | .error e => (∃ refusal, e = .store refusal) ∧ V.Same y.found y.left) := by
  rw [write_none]
  refine (gives_fetch hV hothers hinv path ref).outcome_bind ?_ ?_
  · rintro e t₁ ⟨x, hx, hsame, hfetch⟩
    obtain ⟨refusal, rfl⟩ := hfetch.1
    exact ⟨x, t₁, hx, hsame, .inl ⟨refusal, rfl, rfl, hfetch⟩⟩
  · rintro found t₁ ⟨x, hx, hsame, hfetch⟩
    have hinv₁ : V.inv t₁.state := hx.passes.inv hinv
    cases found with
    | none =>
        have hmissing : V.file (named ref) path x.found = none := hfetch
        refine (gives_send_none hV hothers hinv₁ path ref message text).mono ?_
        rintro answer t' ⟨y, hy, hanswer⟩
        refine ⟨x, t₁, hx, hsame, .inr ⟨y, _, hy, ?_, hanswer⟩⟩
        rw [Exchange.Follows, hmissing, hy.call]
        exact ⟨rfl, rfl⟩
    | some f =>
        obtain ⟨g, hg, htoken, -⟩ := hfetch
        refine (gives_send_some hV hothers hinv₁ path ref message text f.token).mono ?_
        rintro answer t' ⟨y, hy, hchanges⟩
        refine ⟨x, t₁, hx, hsame, .inr ⟨y, _, hy, ?_, ?_⟩⟩
        · rw [Exchange.Follows, hg, hy.call, htoken]
          exact ⟨rfl, rfl, rfl⟩
        · cases answer with
          | ok token => exact hchanges.left
          | error e => exact ⟨hchanges.1, hchanges.2.same⟩

theorem delete_of_ne_nil {h : Hosting α} {path v : Text} {ref message : Option Text} (hv : v ≠ []) :
    delete h path (some v) ref message =
      (do match ← request (h.deleteFile path (commitMessage "Delete" path message) v (named ref)) with
          | .error f => refuse "delete" path f
          | .ok () => Act.note (operationNote "delete" path ref [])) := by
  cases v with
  | nil => exact absurd rfl hv
  | cons c v => rfl

/-- A delete that is meant for a version is one request. -/
theorem gives_delete (hV : h.Versioned V) (hothers : ∀ n r, V.Passes r (others n r))
    (hinv : V.inv t.state) (path : Text) (ref message : Option Text) {v : Text} (hv : v ≠ []) :
    (delete (h.amid others) path (some v) ref message).outcome.Gives t fun answer t' => ∃ x,
      Exchanged V
        { method := .deleteFile, path, message := commitMessage "Delete" path message, version := v,
          ref := named ref } t x t' ∧
      Changes V (named ref) path v (fun _ => none) x.found x.left answer := by
  rw [delete_of_ne_nil hv]
  refine gives_request_bind hothers (hV.passes_delete path _ v (named ref)) hinv ?_
  intro x t' hx hfound hleft
  cases hanswer : (h.deleteFile path (commitMessage "Delete" path message) v (named ref)
      x.found).1 with
  | error f =>
      refine gives_outcome_refuse fun e => ⟨x, hx, ⟨e, rfl⟩, ?_⟩
      rw [hleft]
      exact hV.delete_error hfound hanswer
  | ok u =>
      refine ⟨_, rfl, x, hx, ?_⟩
      show V.Makes (named ref) path v _ x.found x.left
      rw [hleft]
      exact hV.delete_ok hfound hanswer

/-- **The present version may be changed**: as long as the service is up, a write or a delete that is
meant for it is made. -/
theorem accepts (hV : h.Versioned V) {r : ρ} (hinv : V.inv r) (hup : V.isUp r) {f : HostedFile}
    {path : Text} {ref message : Option Text} (hfile : V.file (named ref) path r = some f) (text : Text) :
    (∃ token, (write h path text (some f.version) ref message r).result = .ok token) ∧
      (delete h path (some f.version) ref message r).result = .ok () := by
  constructor
  · rw [write_some, send, bind_apply]
    unfold request
    dsimp only
    cases hanswer : (h.updateFile path (commitMessage "Update" path message) text f.version (named ref)
        r).1 with
    | error e => exact absurd rfl ((hV.update_error hinv hanswer).why hup f hfile)
    | ok c => exact ⟨_, rfl⟩
  · have hne : f.version ≠ [] := (hV.knows hinv hfile).2
    cases hanswer : (h.deleteFile path (commitMessage "Delete" path message) f.version (named ref)
        r).1 with
    | error e => exact absurd rfl ((hV.delete_error hinv hanswer).why hup f hfile)
    | ok u =>
        rw [delete_of_ne_nil hne, bind_apply]
        unfold request
        dsimp only
        rw [hanswer]
        rfl

end

end GitHub

end Emend
