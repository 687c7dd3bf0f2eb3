import Emend.Proofs.Batch.Course
import Emend.Proofs.Batch.Ready
import Emend.Proofs.Store.Traffic

/-!
# What a commit does to the versions of others

Between the preparing and the making of a change others may change its file in a hosted repository, and
even between two requests of one write. A change of a file that was found is meant for the version found:
it is one request, which is made on that very version and refused on any other. A change of a file that
was not found, or not looked for, looks for a version first, and is meant for the one it finds.

What others do is any course of requests, of which no more is assumed than that a version that is stored
has a fresh identifier.
-/

namespace Emend

variable {ρ : Type}

/-- The request of the exchange is to change the version `v` of the file at a path. -/
structure Exchange.IsMeant (x : Exchange ρ) (method : HostingMethod) (p v : Text) : Prop where
  method : x.call.method = method
  path : x.call.path = p
  version : x.call.version = some v

/-- What becomes of a change that was prepared from the file `fetched`, and the exchanges for it.
`failure` is what ended the commit, if anything did. -/
inductive Meant (V : Versions ρ) (ref : Option Text) (fetched : HostedFile) (failure : Option Failure)
    (c : Change) : Change × List (Exchange ρ) → Prop
  /-- No request was made for the change, and it stands where it stood. -/
  | untouched (why : c.status ≠ .pending ∨ failure.isSome) : Meant V ref fetched failure c (c, [])
  /-- The version fetched was still the one at the path, and the change's text has taken its place. -/
  | written (x : Exchange ρ) (text version : Text) (status : c.status = .pending)
      (result : c.result = some text) (request : x.IsMeant .updateFile c.path fetched.version)
      (found : V.file ref c.path x.found = some fetched)
      (left : V.file ref c.path x.left = some ⟨Utf8.encode text, version⟩) (inv : V.inv x.left) :
      Meant V ref fetched failure c ({ c with status := .success, token := some version }, [x])
  | deleted (x : Exchange ρ) (status : c.status = .pending) (result : c.result = none)
      (request : x.IsMeant .deleteFile c.path fetched.version)
      (found : V.file ref c.path x.found = some fetched) (left : V.file ref c.path x.left = none) :
      Meant V ref fetched failure c ({ c with status := .success, token := none }, [x])
  /-- It was not, or the service was not up, and every file was left as it was. -/
  | refused (x : Exchange ρ) (e : StoreError) (status : c.status = .pending)
      (found : V.isUp x.found → V.file ref c.path x.found ≠ some fetched)
      (left : V.Same x.found x.left) :
      Meant V ref fetched failure c (c.stopped (.notStored e), [x])

/-- What becomes of a change that is meant for no version, and the exchanges for it. -/
inductive Unmeant (V : Versions ρ) (ref : Option Text) (failure : Option Failure) (c : Change) :
    Change × List (Exchange ρ) → Prop
  | untouched (why : c.status ≠ .pending ∨ failure.isSome) : Unmeant V ref failure c (c, [])
  /-- There was something at the path that is no text, or the service was not up, and nothing was sent. -/
  | unread (x : Exchange ρ) (e : StoreError) (status : c.status = .pending)
      (request : x.call.method = .getContents ∧ x.call.path = c.path)
      (found : V.isUp x.found → ∀ f, V.file ref c.path x.found = some f →
        ∀ text, Utf8.decode f.bytes ≠ .ok text) (left : V.Same x.found x.left) :
      Unmeant V ref failure c (c.stopped (.notStored e), [x])
  /-- The change's text was sent for what was found, and is at the path now. -/
  | written (x y : Exchange ρ) (text version : Text) (status : c.status = .pending)
      (result : c.result = some text)
      (request : x.call.method = .getContents ∧ x.call.path = c.path)
      (follows : x.Follows V ref c.path y) (same : V.Same x.found x.left)
      (left : V.file ref c.path y.left = some ⟨Utf8.encode text, version⟩) (inv : V.inv y.left) :
      Unmeant V ref failure c ({ c with status := .success, token := some version }, [x, y])
  | refused (x y : Exchange ρ) (e : StoreError) (status : c.status = .pending)
      (request : x.call.method = .getContents ∧ x.call.path = c.path)
      (follows : x.Follows V ref c.path y) (same : V.Same x.found x.left)
      (left : V.Same y.found y.left) :
      Unmeant V ref failure c (c.stopped (.notStored e), [x, y])

/-- The change was prepared from the file `fetched`, which one of the exchanges found. -/
structure Change.ComesFrom (V : Versions ρ) (ref : Option Text) (xs : List (Exchange ρ)) (c : Change)
    (fetched : HostedFile) : Prop where
  exchange : ∃ x ∈ xs, x.call.method = .getContents ∧ x.call.path = c.path ∧
    V.file ref c.path x.found = some fetched
  before : ∃ text, c.before = some text ∧ Utf8.decode fetched.bytes = .ok text
  token : c.token = some fetched.version

/-- What is known of a prepared change before its turn: the version that it is meant for, if any, and
that whatever has its identifier is that version. -/
structure Change.Stands (V : Versions ρ) (ref : Option Text) (xs : List (Exchange ρ)) (c : Change)
    (r : ρ) : Prop where
  inv : V.inv r
  unseen : c.existed = false → c.token = none
  seen : c.existed = true → ∃ fetched, c.ComesFrom V ref xs fetched ∧ V.Knows fetched r ∧
    fetched.version ≠ []

namespace Change

variable {V : Versions ρ} {ref : Option Text} {xs ys : List (Exchange ρ)} {c : Change} {r r' : ρ}

/-- More exchanges, of whomever, take nothing of it away. -/
theorem Stands.passes (h : c.Stands V ref xs r) (hpasses : V.Passes r r') (hxs : xs ⊆ ys) :
    c.Stands V ref ys r' where
  inv := hpasses.inv h.inv
  unseen := h.unseen
  seen hexisted := by
    obtain ⟨fetched, ⟨⟨x, hx, hmethod, hpath, hfile⟩, hbefore, htoken⟩, hknows, hne⟩ := h.seen hexisted
    exact ⟨fetched, ⟨⟨x, hxs hx, hmethod, hpath, hfile⟩, hbefore, htoken⟩,
      hknows.passes h.inv hpasses, hne⟩

end Change

namespace Session

open Act

variable {V : Versions ρ} {h : Hosting ρ} {others : Nat → ρ → ρ} {g : GitHub} {s : Session (Traffic ρ)}
  {t : Traffic ρ} {ref : Option Text} {c : Change}

/-- Notes that no one records leave everything as it is. -/
theorem state_note {σ : Type} {s : Session σ} (hjournal : s.journal = none) (ns : List Note) (st : σ) :
    (s.note ns st).state = st := by
  rw [note, hjournal]
  rfl

/-! ## Preparing -/

theorem ensures_merge_stands {xs : List (Exchange ρ)} (hjournal : s.journal = none)
    (hstands : c.Stands V ref xs t.state) :
    (s.merge c).Ensures t fun c' t' => t' = t ∧ c'.Stands V ref xs t'.state := by
  have hnote : ∀ ns, (s.note ns).Ensures t fun _ t' => t' = t := fun ns _ _ => state_note hjournal ns t
  refine (hnote _).bind ?_
  rintro _ _ rfl
  refine ensures_pure ⟨rfl, ?_⟩
  obtain ⟨hpath, -, hexisted, htoken⟩ := merged_keeps c (s.merger.applyAll c.instructions c.before)
  have hbefore := before_merged c (s.merger.applyAll c.instructions c.before)
  refine ⟨hstands.inv, ?_, ?_⟩
  · rw [hexisted, htoken]
    exact hstands.unseen
  · intro hfound
    obtain ⟨fetched, ⟨hexchange, htext, hversion⟩, hknows⟩ := hstands.seen (hexisted ▸ hfound)
    refine ⟨fetched, ⟨hpath ▸ hexchange, ?_, htoken.trans hversion⟩, hknows⟩
    rwa [hbefore]

theorem ensures_prepareFile_stands (hstore : s.store = g.store (h.amid others))
    (hjournal : s.journal = none) (hV : h.Versioned V) (hothers : ∀ n r, V.Passes r (others n r))
    (hinv : V.inv t.state) (ref : Option Text) (path : Text) (is : List Instruction) :
    (s.prepareFile ref path is).Ensures t fun c t' => V.Passes t.state t'.state ∧
      t.exchanges ⊆ t'.exchanges ∧ c.Stands V (GitHub.named ref) t'.exchanges t'.state := by
  have hfresh : ∀ {c : Change} {t' : Traffic ρ}, c.existed = false → c.token = none →
      V.inv t'.state → c.Stands V (GitHub.named ref) t'.exchanges t'.state := fun hexisted htoken hinv' =>
    ⟨hinv', fun _ => htoken, fun hfound => absurd (hexisted.symm.trans hfound) nofun⟩
  unfold prepareFile
  split
  · refine (ensures_merge_stands hjournal (hfresh rfl rfl hinv)).mono ?_
    rintro c _ ⟨rfl, hstands⟩
    exact ⟨V.passes_refl _, fun _ hx => hx, hstands⟩
  · rw [hstore]
    refine (GitHub.gives_fetch hV hothers hinv path ref).ensures_attempt.bind ?_
    rintro answer t' ⟨x, hx, -, hfetch⟩
    have hpasses : V.Passes t.state t'.state := hx.passes
    have hinv' : V.inv t'.state := hpasses.inv hinv
    have hsub : t.exchanges ⊆ t'.exchanges := by
      rw [hx.exchanges]
      exact List.subset_append_left _ _
    rcases answer with e | _ | f
    · exact ensures_pure ⟨hpasses, hsub, hfresh rfl rfl hinv'⟩
    · refine (ensures_merge_stands hjournal (hfresh rfl rfl hinv')).mono ?_
      rintro c _ ⟨rfl, hstands⟩
      exact ⟨hpasses, hsub, hstands⟩
    · obtain ⟨fetched, hfile, htoken, htext⟩ := hfetch
      obtain ⟨hknows, hne⟩ := hV.knows (hx.before.inv hinv) hfile
      have hmem : x ∈ t'.exchanges := by
        rw [hx.exchanges]
        exact List.mem_append_right _ (List.mem_singleton_self x)
      have hafter : V.Knows fetched t'.state := by
        rw [hx.state]
        exact hknows.passes (hx.before.inv hinv) hx.during
      have hstands : Change.Stands V (GitHub.named ref) t'.exchanges
          { path, instructions := is, existed := true, before := some f.text, token := some f.token }
          t'.state := by
        refine ⟨hinv', fun hmissing => Bool.noConfusion (hmissing : true = false), fun _ => ?_⟩
        refine ⟨fetched, ⟨⟨x, hmem, ?_, ?_, hfile⟩, ⟨f.text, rfl, htext⟩, ?_⟩, hafter, hne⟩
        · rw [hx.call]
        · rw [hx.call]
        · exact congrArg some htoken
      refine (ensures_merge_stands hjournal hstands).mono ?_
      rintro c _ ⟨rfl, hstands⟩
      exact ⟨hpasses, hsub, hstands⟩

theorem ensures_prepareFiles_stands (hstore : s.store = g.store (h.amid others))
    (hjournal : s.journal = none) (hV : h.Versioned V) (hothers : ∀ n r, V.Passes r (others n r))
    (hinv : V.inv t.state) (ref : Option Text) (gs : List (Text × List Instruction)) :
    (s.prepareFiles ref gs).Ensures t fun cs t' => V.Passes t.state t'.state ∧
      t.exchanges ⊆ t'.exchanges ∧
      ∀ c ∈ cs, c.Stands V (GitHub.named ref) t'.exchanges t'.state := by
  induction gs generalizing t with
  | nil => exact ensures_pure ⟨V.passes_refl _, fun _ hx => hx, fun c hc => absurd hc List.not_mem_nil⟩
  | cons g gs ih =>
      refine (ensures_prepareFile_stands hstore hjournal hV hothers hinv ref g.1 g.2).bind ?_
      rintro c t₁ ⟨hpasses₁, hsub₁, hstands⟩
      have hnote : ∀ ns, (s.note ns).Ensures t₁ fun _ t' => t' = t₁ :=
        fun ns _ _ => state_note hjournal ns t₁
      refine (hnote _).bind ?_
      rintro _ _ rfl
      refine (ih hstands.inv).bind ?_
      rintro cs t₂ ⟨hpasses₂, hsub₂, hall⟩
      refine ensures_pure ⟨hpasses₁.trans hpasses₂, fun x hx => hsub₂ (hsub₁ hx), fun d hd => ?_⟩
      rcases List.mem_cons.mp hd with rfl | hd
      · exact hstands.passes hpasses₂ hsub₂
      · exact hall d hd

/-! ## Committing -/

/-- A change that is meant for a version is one exchange. -/
theorem gives_storeChange_meant (hstore : s.store = g.store (h.amid others)) (hV : h.Versioned V)
    (hothers : ∀ n r, V.Passes r (others n r)) (hinv : V.inv t.state) {fetched : HostedFile}
    (hknows : V.Knows fetched t.state) (hne : fetched.version ≠ [])
    (htoken : c.token = some fetched.version) (htext : c.isDeletion = false → c.after.isSome)
    (hstatus : c.status = .pending) (message : Text) :
    (s.storeChange ref c message).outcome.Gives t fun answer t' => V.Passes t.state t'.state ∧ ∃ x,
      t'.exchanges = t.exchanges ++ [x] ∧
        match answer with
        | .ok token => ∀ failure, Meant V (GitHub.named ref) fetched failure c
            ({ c with status := .success, token }, [x])
        | .error e => ∃ refusal, e = .store refusal ∧ ∀ failure,
            Meant V (GitHub.named ref) fetched failure c (c.stopped (.notStored refusal), [x]) := by
  -- of the version that the request is meant for there is only the file that was fetched
  have hfetched : ∀ {x : Exchange ρ} {left : Option HostedFile}, V.Passes t.state x.found →
      V.Makes (GitHub.named ref) c.path fetched.version left x.found x.left →
      V.file (GitHub.named ref) c.path x.found = some fetched := by
    intro x left hbefore hmakes
    obtain ⟨f, hf, hversion⟩ := hmakes.found
    rw [hf, (hknows.passes hinv hbefore).only _ _ f hf hversion]
  have hrefused : ∀ {x : Exchange ρ} {e : StoreError} {failure : Option Failure},
      V.Refuses (GitHub.named ref) c.path fetched.version x.found x.left →
      Meant V (GitHub.named ref) fetched failure c (c.stopped (.notStored e), [x]) := by
    intro x e failure hrefuses
    exact .refused x e hstatus (fun hup hfile => hrefuses.why hup fetched hfile rfl) hrefuses.same
  by_cases hdeletion : c.isDeletion = true
  · have hresult : c.result = none := by rw [Change.result, if_pos hdeletion]
    rw [storeChange_of_isDeletion hdeletion, hstore, htoken]
    refine Gives.outcome_map ?_
    refine (GitHub.gives_delete hV hothers hinv c.path ref (some message) hne).mono ?_
    rintro answer t' ⟨x, hx, hchanges⟩
    refine ⟨hx.passes, x, hx.exchanges, ?_⟩
    cases answer with
    | error e =>
        obtain ⟨⟨refusal, rfl⟩, hrefuses⟩ := hchanges
        exact ⟨refusal, rfl, fun failure => hrefused hrefuses⟩
    | ok u =>
        intro failure
        refine .deleted x hstatus hresult ⟨?_, ?_, ?_⟩ (hfetched hx.before hchanges) hchanges.left
        · rw [hx.call]
        · rw [hx.call]
        · rw [hx.call]
  · have hwrites : c.isDeletion = false := Bool.eq_false_iff.mpr hdeletion
    obtain ⟨text, hafter⟩ := Option.isSome_iff_exists.mp (htext hwrites)
    have hresult : c.result = some text := by rw [Change.result, if_neg hdeletion, hafter]
    have hsent : c.after.getD [] = text := by rw [hafter, Option.getD_some]
    rw [storeChange_of_writes hwrites, hstore, htoken, hsent]
    refine Gives.outcome_map ?_
    show Gives (outcome (GitHub.write (h.amid others) c.path text _ ref _)) t _
    rw [GitHub.write_some]
    refine (GitHub.gives_send_some hV hothers hinv c.path ref (some message) text
      fetched.version).mono ?_
    rintro answer t' ⟨x, hx, hchanges⟩
    refine ⟨hx.passes, x, hx.exchanges, ?_⟩
    cases answer with
    | error e =>
        obtain ⟨⟨refusal, rfl⟩, hrefuses⟩ := hchanges
        exact ⟨refusal, rfl, fun failure => hrefused hrefuses⟩
    | ok version =>
        intro failure
        refine .written x text version hstatus hresult ⟨?_, ?_, ?_⟩ (hfetched hx.before hchanges)
          hchanges.left (hx.during.inv (hx.before.inv hinv))
        · rw [hx.call]
        · rw [hx.call]
        · rw [hx.call]

/-- A change that is meant for no version looks for one, and sends its text for the one it finds. -/
theorem gives_storeChange_unmeant (hstore : s.store = g.store (h.amid others)) (hV : h.Versioned V)
    (hothers : ∀ n r, V.Passes r (others n r)) (hinv : V.inv t.state) (htoken : c.token = none)
    (hdeletion : c.isDeletion = false) (htext : c.after.isSome) (hstatus : c.status = .pending)
    (message : Text) :
    (s.storeChange ref c message).outcome.Gives t fun answer t' => V.Passes t.state t'.state ∧ ∃ xs,
      t'.exchanges = t.exchanges ++ xs ∧
        match answer with
        | .ok token => ∀ failure, Unmeant V (GitHub.named ref) failure c
            ({ c with status := .success, token }, xs)
        | .error e => ∃ refusal, e = .store refusal ∧ ∀ failure,
            Unmeant V (GitHub.named ref) failure c (c.stopped (.notStored refusal), xs) := by
  obtain ⟨text, hafter⟩ := Option.isSome_iff_exists.mp htext
  have hresult : c.result = some text := by
    rw [Change.result, if_neg (by rw [hdeletion]; exact Bool.false_ne_true), hafter]
  have hsent : c.after.getD [] = text := by rw [hafter, Option.getD_some]
  rw [storeChange_of_writes hdeletion, hstore, htoken, hsent]
  refine Gives.outcome_map ?_
  refine (GitHub.gives_write_none hV hothers hinv c.path ref (some message) text).mono ?_
  rintro answer t' ⟨x, t₁, hx, hsame, hrest⟩
  have hrequest : x.call.method = .getContents ∧ x.call.path = c.path := by
    rw [hx.call]
    exact ⟨rfl, rfl⟩
  rcases hrest with ⟨e, rfl, rfl, -, hunread⟩ | ⟨y, call, hy, hfollows, hanswer⟩
  · refine ⟨hx.passes, [x], hx.exchanges, e, rfl, fun failure => ?_⟩
    exact .unread x e hstatus hrequest hunread hsame
  · refine ⟨hx.passes.trans hy.passes, [x, y], ?_, ?_⟩
    · rw [hy.exchanges, hx.exchanges, List.append_assoc]
      rfl
    · cases answer with
      | error e =>
          obtain ⟨⟨refusal, rfl⟩, hleft⟩ := hanswer
          exact ⟨refusal, rfl, fun failure => .refused x y refusal hstatus hrequest hfollows hsame hleft⟩
      | ok version =>
          exact fun failure =>
            .written x y text version hstatus hresult hrequest hfollows hsame hanswer
              (hy.during.inv (hy.before.inv (hx.passes.inv hinv)))

/-- What becomes of a prepared change in a commit. `xs` are the exchanges that it was prepared from. -/
def Becomes (V : Versions ρ) (ref ref' : Option Text) (xs : List (Exchange ρ))
    (failure : Option Failure) (c : Change) (row : Change × List (Exchange ρ)) : Prop :=
  (c.existed = true → ∃ fetched, c.ComesFrom V ref xs fetched ∧ Meant V ref' fetched failure c row) ∧
    (c.existed = false → Unmeant V ref' failure c row)

/-- A change to which no call is made. -/
theorem becomes_kept {ref' : Option Text} {xs : List (Exchange ρ)} {failure : Option Failure} {r : ρ}
    (hstands : c.Stands V ref xs r) (why : c.status ≠ .pending ∨ failure.isSome) :
    Becomes V ref ref' xs failure c (c, []) := by
  refine ⟨fun hexisted => ?_, fun _ => .untouched why⟩
  obtain ⟨fetched, hcomes, -⟩ := hstands.seen hexisted
  exact ⟨fetched, hcomes, .untouched why⟩

theorem gives_storeChange_becomes (hstore : s.store = g.store (h.amid others)) (hV : h.Versioned V)
    (hothers : ∀ n r, V.Passes r (others n r)) {ref' : Option Text} {xs : List (Exchange ρ)}
    (hready : c.IsReady) (hstands : c.Stands V ref xs t.state) (hstatus : c.status = .pending)
    (message : Text) :
    (s.storeChange ref' c message).outcome.Gives t fun answer t' => V.Passes t.state t'.state ∧
      ∃ logged, t'.exchanges = t.exchanges ++ logged ∧
        match answer with
        | .ok token => ∀ failure, Becomes V ref (GitHub.named ref') xs failure c
            ({ c with status := .success, token }, logged)
        | .error e => ∃ refusal, e = .store refusal ∧ ∀ failure,
            Becomes V ref (GitHub.named ref') xs failure c (c.stopped (.notStored refusal), logged) := by
  by_cases hexisted : c.existed = true
  · obtain ⟨fetched, hcomes, hknows, hne⟩ := hstands.seen hexisted
    have hrow : ∀ {failure row}, Meant V (GitHub.named ref') fetched failure c row →
        Becomes V ref (GitHub.named ref') xs failure c row := fun hmeant =>
      ⟨fun _ => ⟨fetched, hcomes, hmeant⟩, fun hmissing => absurd (hexisted.symm.trans hmissing) nofun⟩
    refine (gives_storeChange_meant hstore hV hothers hstands.inv hknows hne hcomes.token
      (hready.writing hstatus) hstatus message).mono ?_
    rintro answer t' ⟨hpasses, x, hexchanges, hanswer⟩
    refine ⟨hpasses, [x], hexchanges, ?_⟩
    cases answer with
    | ok token => exact fun failure => hrow (hanswer failure)
    | error e =>
        obtain ⟨refusal, rfl, hmeant⟩ := hanswer
        exact ⟨refusal, rfl, fun failure => hrow (hmeant failure)⟩
  · have hmissing : c.existed = false := Bool.eq_false_iff.mpr hexisted
    -- nothing is deleted that was missing
    have hdeletion : c.isDeletion = false := by
      cases hcase : c.isDeletion with
      | false => rfl
      | true => exact absurd (hready.deletion hcase) hexisted
    have hrow : ∀ {failure row}, Unmeant V (GitHub.named ref') failure c row →
        Becomes V ref (GitHub.named ref') xs failure c row := fun hunmeant =>
      ⟨fun hfound => absurd hfound hexisted, fun _ => hunmeant⟩
    refine (gives_storeChange_unmeant hstore hV hothers hstands.inv (hstands.unseen hmissing) hdeletion
      (hready.writing hstatus hdeletion) hstatus message).mono ?_
    rintro answer t' ⟨hpasses, logged, hexchanges, hanswer⟩
    refine ⟨hpasses, logged, hexchanges, ?_⟩
    cases answer with
    | ok token => exact fun failure => hrow (hanswer failure)
    | error e =>
        obtain ⟨refusal, rfl, hunmeant⟩ := hanswer
        exact ⟨refusal, rfl, fun failure => hrow (hunmeant failure)⟩

/-- A pending change whose turn it is. -/
theorem gives_commitChange_becomes (hstore : s.store = g.store (h.amid others))
    (hjournal : s.journal = none) (hV : h.Versioned V) (hothers : ∀ n r, V.Passes r (others n r))
    {ref' : Option Text} {xs : List (Exchange ρ)} (hready : c.IsReady)
    (hstands : c.Stands V ref xs t.state) (hstatus : c.status = .pending) :
    (s.commitChange ref' c).outcome.Gives t fun r t' => V.Passes t.state t'.state ∧
      ∃ logged, t'.exchanges = t.exchanges ++ logged ∧
        match r with
        | .ok c' => ∀ failure, Becomes V ref (GitHub.named ref') xs failure c (c', logged)
        | .error e => Becomes V ref (GitHub.named ref') xs (some e) c (c, logged) := by
  refine gives_commitChange_outcome ?_ ?_ ?_
  · intro e _
    exact ⟨V.passes_refl _, [], (List.append_nil _).symm, becomes_kept hstands (.inr rfl)⟩
  · intro message _
    refine (gives_storeChange_becomes hstore hV hothers hready hstands hstatus message).outcome_attempt
      ?_ ?_ ?_
    · rintro token t' ⟨hpasses, logged, hexchanges, hrow⟩
      exact ⟨hpasses, logged, hexchanges, hrow⟩
    · rintro e t' ⟨hpasses, logged, hexchanges, refusal, hrefused, hrow⟩
      cases hrefused
      exact ⟨hpasses, logged, hexchanges, hrow⟩
    · rintro e t' hother ⟨-, _, -, refusal, hrefused, -⟩
      exact absurd hrefused (hother refusal)
  · intro r ns t' hpost
    rwa [state_note hjournal]

/-- **No version that others stored is lost**, whatever they do at whatever time. A change of a file that
was found is one request for the version found: it is made if that version is still at the path, and is
refused if not, with every file left as it was. A change of a file that was not found looks for a version
first, and updates that one if there is a text; only where there was nothing does it create the file. When
a change has been written, its token is the identifier of the version at its path, and whoever has the
identifier of the version at a path can change it, as long as the service is up. -/
theorem commit_versions {h : Hosting ρ} {V : Versions ρ} (hV : h.Versioned V)
    {others : Nat → ρ → ρ} (hothers : ∀ n r, V.Passes r (others n r)) (g : GitHub) (config : Config)
    (message : Text) (ref ref' : Option Text) (selection : Option (List Int)) (r : ρ) (hr : V.inv r)
    (b : Batch) :
    let s : Session (Traffic ρ) := { store := g.store (h.amid others), config }
    let prepared := s.prepare message ref selection { state := r }
    let committed := s.commit b ref' prepared.state
    prepared.result = .ok b →
      (∃ rows failure, committed.result = .ok ({ b with changes := rows.map Prod.fst }, failure) ∧
        committed.state.exchanges = prepared.state.exchanges ++ rows.flatMap Prod.snd ∧
        List.Forall₂ (Becomes V (GitHub.named (s.activeRef ref)) (GitHub.named (s.activeRef ref'))
          prepared.state.exchanges failure) b.changes rows) ∧
      ∀ path ref note text f r, V.inv r → V.isUp r → V.file (GitHub.named ref) path r = some f →
        (∃ token, ((g.store h).write path text (some f.version) ref note r).result = .ok token) ∧
          ((g.store h).delete path (some f.version) ref note r).result = .ok () := by
  intro s prepared committed hprepared
  have hready : ∀ c ∈ b.changes, c.IsReady := (s.ensures_prepare message ref selection b hprepared).2
  have hnote : ∀ ns (t : Traffic ρ), V.inv t.state → (s.note ns).Ensures t fun _ t' => V.inv t'.state := by
    intro ns t hinv _ _
    rwa [state_note rfl]
  have hstands : ∀ c ∈ b.changes,
      c.Stands V (GitHub.named (s.activeRef ref)) prepared.state.exchanges prepared.state.state := by
    refine ensures_prepare_of (fun t : Traffic ρ => V.inv t.state) (fun cs t => ∀ c ∈ cs,
      c.Stands V (GitHub.named (s.activeRef ref)) t.exchanges t.state) hr hnote ?_ b hprepared
    intro is t hinv
    refine (ensures_prepareFiles_stands rfl rfl hV hothers hinv (s.activeRef ref) _).mono ?_
    rintro cs t' ⟨-, -, hall⟩
    exact hall
  refine ⟨?_, fun path ref note text f r hinv hup hfile => GitHub.accepts hV hinv hup hfile text⟩
  -- whatever passes while the others are made, each change stands until its turn
  have hrows := gives_commitChanges_rows s (s.activeRef ref') Traffic.exchanges
    (fun c t => c.IsReady ∧
      c.Stands V (GitHub.named (s.activeRef ref)) prepared.state.exchanges t.state)
    (Becomes V (GitHub.named (s.activeRef ref)) (GitHub.named (s.activeRef ref'))
      prepared.state.exchanges)
    (fun failure c t hknown why => becomes_kept hknown.2 why)
    (fun c t hstatus hknown =>
      (gives_commitChange_becomes rfl rfl hV hothers hknown.1 hknown.2 hstatus).mono
        fun answer t' hpost => ⟨hpost.2, fun d hd =>
          ⟨hd.1, hd.2.passes hpost.1 fun _ hx => hx⟩⟩)
    b.changes prepared.state fun c hc => ⟨hready c hc, hstands c hc⟩
  have hcommit : (s.commit b ref').Gives prepared.state fun answer t' => ∃ rows,
      answer.1 = { b with changes := rows.map Prod.fst } ∧
        t'.exchanges = prepared.state.exchanges ++ rows.flatMap Prod.snd ∧
        List.Forall₂ (Becomes V (GitHub.named (s.activeRef ref)) (GitHub.named (s.activeRef ref'))
          prepared.state.exchanges answer.2) b.changes rows := by
    refine hrows.bind ?_
    rintro ⟨_, failure⟩ t' ⟨rows, rfl, hexchanges, hall⟩
    exact gives_pure ⟨rows, rfl, hexchanges, hall⟩
  obtain ⟨⟨_, failure⟩, hresult, rows, rfl, hexchanges, hall⟩ := hcommit
  exact ⟨rows, failure, hresult, hexchanges, hall⟩

/-! ## A repository with one file -/

/-- A repository with one file. -/
def sampleRemote (text : String) : Remote where
  files := [("a.txt".toList, ⟨Utf8.encode text.toList, "v1".toList⟩)]

theorem isTidy_sampleRemote (text : String) : (sampleRemote text).IsTidy := by
  have hget : ∀ p f, (sampleRemote text).get? p = some f →
      f = ⟨Utf8.encode text.toList, "v1".toList⟩ := by
    intro p f hf
    have hmem : (p, f) ∈ [("a.txt".toList, (⟨Utf8.encode text.toList, "v1".toList⟩ : HostedFile))] :=
      mem_of_lookup hf
    exact congrArg Prod.snd (List.mem_singleton.mp hmem)
  refine ⟨rfl, fun p f hf => ?_, fun p p' f f' hf hf' _ => (hget p' f' hf').trans (hget p f hf).symm⟩
  rw [hget p f hf]
  refine ⟨fun n _ h => ?_, List.cons_ne_nil _ _⟩
  cases h

/-- What another writer leaves who makes the file's text `theirs`. -/
def sampleUpdate (r : Remote) : Remote :=
  (Remote.hosting.updateFile "a.txt".toList "m".toList "theirs".toList "v1".toList none r).2

/-- Another writer comes between the first request and the second. -/
def sampleOthers (n : Nat) (r : Remote) : Remote := if n = 1 then sampleUpdate r else r

theorem passes_sampleOthers (n : Nat) (r : Remote) : Remote.versions.Passes r (sampleOthers n r) := by
  unfold sampleOthers
  split
  · exact Remote.versioned_hosting.passes_update _ _ _ _ _ r
  · exact Remote.versions.passes_refl r

/-- Makes the file's text `mine`. -/
def sampleReplacement : Text := "[FILE] a.txt\n[REPLACE]mine[/REPLACE]".toList

/-- The file that was found is updated by another writer before the change is made. The change is
refused, and the other writer's text stays. -/
theorem commit_versions_updated :
    let s : Session (Traffic Remote) :=
      { store := (GitHub.mk "o/r".toList).store (Remote.hosting.amid sampleOthers), config := {} }
    let prepared := s.prepare sampleReplacement none none { state := sampleRemote "old" }
    ∃ b, prepared.result = .ok b ∧
      b.changes.map (fun c => (c.existed, c.status)) = [(true, .pending)] ∧
      let committed := s.commit b none prepared.state
      (∃ rows failure, committed.result = .ok ({ b with changes := rows.map Prod.fst }, failure) ∧
        rows.map (fun row => row.1.status) = [.failed] ∧
        List.Forall₂ (Becomes Remote.versions (GitHub.named (s.activeRef none))
          (GitHub.named (s.activeRef none)) prepared.state.exchanges failure) b.changes rows) ∧
      (committed.state.state.get? "a.txt".toList).map (·.bytes) = some (Utf8.encode "theirs".toList) := by
  intro s prepared
  obtain ⟨b, hb, hpending, hstatuses, htheirs⟩ : ∃ b, prepared.result = .ok b ∧
      b.changes.map (fun c => (c.existed, c.status)) = [(true, .pending)] ∧
      let committed := s.commit b none prepared.state
      committed.result.toOption.map (fun answer => answer.1.changes.map (·.status)) = some [.failed] ∧
        (committed.state.state.get? "a.txt".toList).map (·.bytes) =
          some (Utf8.encode "theirs".toList) := exists_of_answer (by decide +kernel)
  refine ⟨b, hb, hpending, ?_, htheirs⟩
  obtain ⟨⟨rows, failure, hresult, -, hrows⟩, -⟩ :=
    commit_versions Remote.versioned_hosting passes_sampleOthers (GitHub.mk "o/r".toList) {}
      sampleReplacement none none none (sampleRemote "old") (isTidy_sampleRemote "old") b hb
  refine ⟨rows, failure, hresult, ?_, ?_⟩
  · rw [hresult] at hstatuses
    have hstatuses : (rows.map Prod.fst).map (·.status) = [.failed] := Option.some.inj hstatuses
    rwa [List.map_map] at hstatuses
  · simpa only [s, prepared] using hrows

/-- A change that leaves the text as it was found is settled beforehand: it stays so, and no request is
made for it, when another writer has updated the file in between. -/
theorem commit_leaves_unchanged :
    let s : Session (Traffic Remote) :=
      { store := (GitHub.mk "o/r".toList).store (Remote.hosting.amid sampleOthers), config := {} }
    let prepared := s.prepare sampleReplacement none none { state := sampleRemote "mine" }
    let updated : Traffic Remote :=
      { prepared.state with state := sampleUpdate prepared.state.state }
    ∃ b, prepared.result = .ok b ∧ b.changes.map (·.existed) = [true] ∧
      (prepared.state.state.get? "a.txt".toList).map (·.version) = some "v1".toList ∧
      (updated.state.get? "a.txt".toList).map (·.version) = some "sha-2".toList ∧
      let committed := s.commit b none updated
      committed.result.toOption.map (fun answer => answer.1.changes.map (·.status)) =
          some [.skipped] ∧
        committed.state.exchanges.length = updated.exchanges.length :=
  exists_of_answer (by decide +kernel)

end Session

end Emend
