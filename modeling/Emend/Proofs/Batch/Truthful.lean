import Emend.Proofs.Batch.Ready
import Emend.Proofs.Store.LocalTrees
import Emend.Proofs.Text.Encoding

/-!
# What a reported success is worth

After a run over local files that nobody else uses, a change that is reported as made can be read back:
the file that was written has the change's text, and the file that was deleted is not found. Changes
of one batch can undo each other, since they are told apart by the text of their paths and not by the
places that these mean. So this is said of a change unless a later one was made at the same place, and
of a deletion unless the store was given a later change below it, which makes a directory of its place.

`Turn` says what may become of the disk while one change has its turn, and everything else follows from
it along the turns of a batch.
-/

namespace Emend

/-- The store was given the change, whether or not it made it. -/
def Change.WasPassed (c : Change) : Prop := c.status = .success ∨ ∃ e, c.problem = some (.notStored e)

namespace LocalFiles

open Act Disk

variable {l : LocalFiles} {d d₁ d₂ : Disk} {c : Change} {cs : List Change} {path : Text} {place : Path}
  {bs : Bytes}

/-- The place that one path means is below the place that another means. -/
def IsBelow (l : LocalFiles) (inner outer : Text) : Prop :=
  ∃ p q, l.resolve outer = .ok p ∧ l.resolve inner = .ok q ∧ p <+: q ∧ p ≠ q

/-! ## Turns -/

/-- The change was made on the one disk and left the other. -/
inductive Made (l : LocalFiles) (c : Change) (d d₁ : Disk) : Prop
  | written (place : Path) (text : Text) (isDeletion : c.isDeletion = false)
      (after : c.after = some text) (resolved : l.resolve c.path = .ok place)
      (spares : d.Spares place d₁) (file : d₁.fileAt place = some (Utf8.encode text))
  | deleted (place : Path) (isDeletion : c.isDeletion = true)
      (resolved : l.resolve c.path = .ok place) (spares : d.Spares place d₁)
      (gone : d₁.get? place = none) (short : (Location.ofPath place).IsShort)

/-- What may become of the disk while a change has its turn that stands, afterwards, as `c` does. -/
inductive Turn (l : LocalFiles) (c : Change) (d : Disk) : Disk → Prop
  | idle (unmade : c.status ≠ .success) : Turn l c d d
  /-- Directories may have been made by then. -/
  | stopped (place : Path) (d₁ : Disk) (unmade : c.status ≠ .success) (passed : c.WasPassed)
      (resolved : l.resolve c.path = .ok place) (grows : d.Grows place.dropLast d₁) : Turn l c d d₁
  | made (d₁ : Disk) (status : c.status = .success) (made : Made l c d d₁) : Turn l c d d₁

/-- The changes have had their turns one after the other. -/
inductive Turns (l : LocalFiles) : Disk → List Change → Disk → Prop
  | nil (d : Disk) : Turns l d [] d
  | cons {c : Change} {cs : List Change} {d d₁ d₂ : Disk} (turn : Turn l c d d₁)
      (rest : Turns l d₁ cs d₂) : Turns l d (c :: cs) d₂

/-- What a turn comes to at a place where no change is made by it: nothing, directories that lead to
the place of the change, or a change at some other place. -/
theorem Turn.elsewhere (h : Turn l c d d₁)
    (hother : c.status = .success → l.resolve c.path ≠ .ok place) :
    d₁ = d ∨ (∃ q, c.WasPassed ∧ l.resolve c.path = .ok q ∧ d.Grows q.dropLast d₁) ∨
      ∃ q, c.status = .success ∧ l.resolve c.path = .ok q ∧ place ≠ q ∧ d.Spares q d₁ := by
  cases h with
  | idle => exact .inl rfl
  | stopped q _ _ passed resolved grows => exact .inr (.inl ⟨q, passed, resolved, grows⟩)
  | made _ status made =>
      cases made with
      | written q _ _ _ resolved spares | deleted q _ resolved spares =>
          exact .inr (.inr ⟨q, status, resolved, fun hq => hother status (hq ▸ resolved), spares⟩)

/-- A file is not changed by a turn unless a change is made at its place. -/
theorem Turn.fileAt (h : Turn l c d d₁) (hplace : place.IsPlain) (hfile : d.fileAt place = some bs)
    (hother : c.status = .success → l.resolve c.path ≠ .ok place) : d₁.fileAt place = some bs := by
  rcases h.elsewhere hother with rfl | ⟨q, -, -, grows⟩ | ⟨q, -, -, hne, spares⟩
  · exact hfile
  · exact grows.fileAt hplace hfile
  · exact spares.fileAt hplace hne hfile

/-- Where nothing is, a turn leaves nothing unless a change is made there or passed below. -/
theorem Turn.get?_eq_none (h : Turn l c d d₁) (hnone : d.get? place = none)
    (hother : c.status = .success → l.resolve c.path ≠ .ok place)
    (hbelow : c.WasPassed → ∀ q, l.resolve c.path = .ok q → place <+: q → place = q) :
    d₁.get? place = none := by
  rcases h.elsewhere hother with rfl | ⟨q, passed, resolved, grows⟩ |
    ⟨q, status, resolved, hne, spares⟩
  · exact hnone
  · rcases grows place with hsame | ⟨-, -, hway⟩
    · exact hsame.trans hnone
    · -- a place on the way to the directory that holds `q` is strictly above `q`
      obtain rfl := hbelow passed q resolved (hway.trans (List.dropLast_prefix q))
      have hlength := hway.length_le
      rw [List.length_dropLast] at hlength
      have hsome := List.length_pos_iff.mpr (ne_nil_of_get?_eq_none hnone)
      omega
  · have hoff : ¬ place <+: q := fun hway => hne (hbelow (.inl status) q resolved hway)
    exact spares.get?_eq_none hne hoff hnone

theorem Turns.fileAt (h : Turns l d cs d₁) (hplace : place.IsPlain) (hfile : d.fileAt place = some bs)
    (hother : ∀ c ∈ cs, c.status = .success → l.resolve c.path ≠ .ok place) :
    d₁.fileAt place = some bs := by
  induction h with
  | nil => exact hfile
  | cons turn _ ih =>
      refine ih ?_ fun c hc => hother c (List.mem_cons_of_mem _ hc)
      exact turn.fileAt hplace hfile (hother _ List.mem_cons_self)

theorem Turns.get?_eq_none (h : Turns l d cs d₁) (hnone : d.get? place = none)
    (hother : ∀ c ∈ cs, c.status = .success → l.resolve c.path ≠ .ok place)
    (hbelow : ∀ c ∈ cs, c.WasPassed → ∀ q, l.resolve c.path = .ok q → place <+: q → place = q) :
    d₁.get? place = none := by
  induction h with
  | nil => exact hnone
  | cons turn _ ih =>
      refine ih ?_ (fun c hc => hother c (List.mem_cons_of_mem _ hc)) fun c hc =>
        hbelow c (List.mem_cons_of_mem _ hc)
      exact turn.get?_eq_none hnone (hother _ List.mem_cons_self) (hbelow _ List.mem_cons_self)

/-- The turn of one change among others. -/
theorem Turns.split {cs₁ cs₂ : List Change} (h : Turns l d (cs₁ ++ c :: cs₂) d₁) :
    ∃ d₂ d₃, Turn l c d₂ d₃ ∧ Turns l d₃ cs₂ d₁ := by
  induction cs₁ generalizing d with
  | nil =>
      cases h with
      | cons turn rest => exact ⟨_, _, turn, rest⟩
  | cons c' cs₁ ih =>
      cases h with
      | cons turn rest => exact ih rest

/-- Changes that are not made leave the disk as it is. -/
theorem turns_of_isReady (l : LocalFiles) (hready : ∀ c ∈ cs, c.IsReady) (d : Disk) :
    Turns l d cs d := by
  induction cs with
  | nil => exact .nil d
  | cons c cs ih =>
      have hhead := hready c List.mem_cons_self
      exact .cons (.idle hhead.unmade) (ih fun c hc => hready c (List.mem_cons_of_mem _ hc))

/-! ## The turns of a run -/

section
variable {s : Session Disk} {ref : Option Text}

/-- A change that is stored is made, and one that is not has left at most directories. -/
theorem made_of_storeChange (hstore : s.store = l.store) (hroot : l.root.IsPlain)
    (htext : c.isDeletion = false → c.after.isSome) (message : Text) (d : Disk) :
    let reply := s.storeChange ref c message d
    (∀ token, reply.result = .ok token → Made l c d reply.state) ∧
      ∀ e, reply.result = .error e → reply.state = d ∨
        ∃ place, l.resolve c.path = .ok place ∧ d.Grows place.dropLast reply.state := by
  intro reply
  by_cases hdeletion : c.isDeletion = true
  · have hreply : reply = ((fun _ => none) <$> l.delete c.path c.token : Act Disk (Option Token)) d := by
      change s.storeChange ref c message d = _
      rw [Session.storeChange_of_isDeletion hdeletion, hstore]
      rfl
    have hdeleted := deleted_delete l c.path c.token d
    rw [hreply, map_apply]
    -- from here on only what the deletion came to counts
    generalize l.delete c.path c.token d = deletion at hdeleted
    cases hdeleted with
    | untouched e => exact ⟨nofun, fun _ _ => .inl rfl⟩
    | made place d₁ ns hplace hremoved =>
        have hplain := isPlain_of_resolve hroot hplace
        obtain ⟨hspares, hgone, hshort⟩ := removeFile_spares hplain hremoved
        exact ⟨fun _ _ => .deleted place hdeletion hplace hspares hgone hshort, nofun⟩
  · have hdeletion := Bool.eq_false_iff.mpr hdeletion
    obtain ⟨text, hafter⟩ := Option.isSome_iff_exists.mp (htext hdeletion)
    have hreply : reply = (some <$> l.write c.path text c.token : Act Disk (Option Token)) d := by
      change s.storeChange ref c message d = _
      rw [Session.storeChange_of_writes hdeletion, hstore, hafter]
      rfl
    have hwritten := written_write l c.path text c.token d
    rw [hreply, map_apply]
    generalize l.write c.path text c.token d = writing at hwritten
    cases hwritten with
    | untouched e => exact ⟨nofun, fun _ _ => .inl rfl⟩
    | stopped place d₁ e hplace hdirs =>
        have hgrows := grows_makeDirs (isPlain_of_resolve hroot hplace).dropLast d
        exact ⟨nofun, fun _ _ => .inr ⟨place, hplace, hdirs ▸ hgrows⟩⟩
    | made place d₁ d₂ ns hplace hdirs hfile =>
        have hplain := isPlain_of_resolve hroot hplace
        have hleft : (d.makeDirs (.ofPath place.dropLast)).2 = d₁ := congrArg Prod.snd hdirs
        have hgrows : d.Grows place.dropLast d₁ := hleft ▸ grows_makeDirs hplain.dropLast d
        obtain ⟨hspares, hthere⟩ := writeFile_spares hplain hgrows hfile
        exact ⟨fun _ _ => .written place text hdeletion hafter hplace hspares hthere, nofun⟩

/-- A change that is committed has had its turn. -/
theorem turn_of_commitChange (hstore : s.store = l.store) (hjournal : s.journal = none)
    (hroot : l.root.IsPlain) (hready : c.IsReady) (hstatus : c.status = .pending) (d : Disk) :
    (s.commitChange ref c).Ensures d fun c' d' => Turn l c' d d' := by
  have hnoted : ∀ (ns : List Note) (d : Disk), (s.note ns).Ensures d fun _ d' => d' = d := by
    intro ns d
    rw [Session.note, hjournal]
    exact fun _ _ => rfl
  have hformed : ∀ r : Except Failure Text, (ofExcept r).Ensures d fun _ d' => d' = d :=
    fun r _ _ => rfl
  -- notes go nowhere, so the call for the change is all that touches the disk
  rw [Session.commitChange]
  refine (hformed _).bind ?_
  rintro message d₀ hd₀
  obtain rfl : d = d₀ := hd₀.symm
  obtain ⟨hmade, hstopped⟩ := made_of_storeChange hstore hroot (hready.writing hstatus) message d
  refine (ensures_attempt _ _).bind ?_
  rintro answer d₁ ⟨hresult, rfl⟩
  cases answer with
  | error e =>
      refine (hnoted _ _).bind ?_
      rintro - _ rfl
      refine ensures_pure ?_
      rcases hstopped _ hresult with hsame | ⟨place, hplace, hgrows⟩
      · rw [hsame]
        exact .idle nofun
      · exact .stopped place _ nofun (.inr ⟨e, rfl⟩) hplace hgrows
  | ok token =>
      refine (hnoted _ _).bind ?_
      rintro - _ rfl
      refine ensures_pure (.made _ rfl ?_)
      cases hmade _ hresult with
      | written place text isDeletion after resolved spares file =>
          exact .written place text isDeletion after resolved spares file
      | deleted place isDeletion resolved spares gone short =>
          exact .deleted place isDeletion resolved spares gone short

/-- The changes of a batch have their turns in order, if nothing ends the commit. -/
theorem turns_of_commitChanges (hstore : s.store = l.store) (hjournal : s.journal = none)
    (hroot : l.root.IsPlain) (hready : ∀ c ∈ cs, c.IsReady) (d : Disk) :
    (s.commitChanges ref cs).Ensures d fun answer d' => answer.2 = none → Turns l d answer.1 d' := by
  induction cs generalizing d with
  | nil => exact ensures_pure fun _ => .nil d
  | cons c cs ih =>
      have hhead := hready c List.mem_cons_self
      have hrest := ih fun c hc => hready c (List.mem_cons_of_mem _ hc)
      rw [Session.commitChanges]
      by_cases hstatus : c.status = .pending
      · rw [if_pos hstatus]
        refine (gives_outcome _ d).ensures.bind ?_
        rintro r d₁ ⟨hresult, rfl⟩
        cases r with
        | error e => exact ensures_pure nofun
        | ok c' =>
            have hturn := turn_of_commitChange hstore hjournal hroot hhead hstatus d c' hresult.symm
            refine (hrest _).bind ?_
            exact fun answer d' hturns => ensures_pure fun hended => .cons hturn (hturns hended)
      · rw [if_neg hstatus]
        refine (hrest d).bind ?_
        exact fun answer d' hturns => ensures_pure fun hended =>
          .cons (.idle hhead.unmade) (hturns hended)

/-- **A run is the turns of its changes**; those of a dry run are idle. -/
theorem turns_of_run (hstore : s.store = l.store) (hjournal : s.journal = none)
    (hroot : l.root.IsPlain) (message : Text) (isDry : Bool) (d : Disk) :
    (s.run message ref isDry).Ensures d fun b d' => ∃ d₁, Turns l d₁ b.changes d' := by
  refine (Session.ensures_prepare message ref none).bind ?_
  rintro b d₁ ⟨-, hready⟩
  split
  · exact ensures_pure ⟨d₁, turns_of_isReady l hready d₁⟩
  · have hcommit : (s.commit b ref).Ensures d₁ fun answer d' =>
        answer.2 = none → Turns l d₁ answer.1.changes d' :=
      (turns_of_commitChanges hstore hjournal hroot hready d₁).bind fun answer d' hturns =>
        ensures_pure hturns
    refine hcommit.bind ?_
    rintro ⟨b', _ | e⟩ d₂ hturns
    · exact ensures_pure ⟨d₁, hturns rfl⟩
    · exact nofun

end

end LocalFiles

open LocalFiles

/-- **A reported success is truthful.** After a run over local files, below a root that is plain as
every root is that is opened, a change that is reported as made can be read back, if none that comes
later in the batch was made at the same place: a written file has the change's text, and a deleted one
is not found, if also no later change below it was passed to the store. -/
theorem Session.run_truthful (l : LocalFiles) (hroot : l.root.IsPlain) (config : Config) (message : Text)
    (ref : Option Text) (isDry : Bool) (d : Disk) (b : Batch) :
    let s : Session Disk := { store := l.store, config }
    (s.run message ref isDry d).result = .ok b →
    let d' := (s.run message ref isDry d).state
    ∀ cs₁ c cs₂, b.changes = cs₁ ++ c :: cs₂ → c.status = .success →
      (∀ c' ∈ cs₂, c'.status = .success → l.resolve c'.path ≠ l.resolve c.path) →
      if c.isDeletion then
        (∀ c' ∈ cs₂, c'.WasPassed → ¬ l.IsBelow c'.path c.path) →
          (l.fetch c.path d').result = .ok none
      else ∃ text token, c.after = some text ∧ (l.fetch c.path d').result = .ok (some ⟨text, token⟩) := by
  intro s hrun d' cs₁ c cs₂ hchanges hstatus hother
  obtain ⟨d₁, hturns⟩ := turns_of_run (s := s) (l := l) rfl rfl hroot message isDry d b hrun
  rw [hchanges] at hturns
  obtain ⟨d₂, d₃, hturn, hrest⟩ := hturns.split
  cases hturn with
  | idle unmade => exact absurd hstatus unmade
  | stopped _ _ unmade => exact absurd hstatus unmade
  | made _ _ made =>
      cases made with
      | written place text isDeletion after resolved spares file =>
          have hplain := isPlain_of_resolve hroot resolved
          -- the later turns are made elsewhere and leave the file
          have hfile : d'.fileAt place = some (Utf8.encode text) :=
            hrest.fileAt hplain file fun c' hc' hmade hsame =>
              hother c' hc' hmade (hsame.trans resolved.symm)
          rw [if_neg (by rw [isDeletion]; exact Bool.false_ne_true)]
          exact ⟨text, _, after, fetch_of_fileAt resolved hfile (Utf8.decode_encode text)⟩
      | deleted place isDeletion resolved spares gone short =>
          have hplain := isPlain_of_resolve hroot resolved
          rw [if_pos isDeletion]
          intro hbelow
          have hgone : d'.get? place = none := by
            refine hrest.get?_eq_none gone (fun c' hc' hmade hsame =>
              hother c' hc' hmade (hsame.trans resolved.symm)) fun c' hc' hpassed q hq hway => ?_
            by_contra hne
            exact hbelow c' hc' hpassed ⟨place, q, resolved, hq, hway, hne⟩
          exact fetch_of_look_none resolved (Disk.look_of_get?_eq_none hplain short hgone)

/-- Deletes one file and creates another. -/
def sampleChanges : Text := "[FILE] a.txt\n[DELETE_FILE]\n[FILE] b/c.txt\n[CREATE]two[/CREATE]".toList

/-- Both changes are made and can be read back. -/
theorem Session.run_truthful_sample :
    let s : Session Disk := { store := sampleFiles.store }
    let r := s.run sampleChanges none false (sampleDisk (some "old"))
    ∃ b c₁ c₂ token, r.result = .ok b ∧ b.changes = [c₁, c₂] ∧
      (sampleFiles.fetch c₁.path r.state).result = .ok none ∧
      (sampleFiles.fetch c₂.path r.state).result = .ok (some ⟨c₂.after.getD [], token⟩) := by
  dsimp only
  have hroot := isPlain_sampleFiles
  obtain ⟨b, hb, hchanges⟩ :
      let s : Session Disk := { store := sampleFiles.store }
      let r := s.run sampleChanges none false (sampleDisk (some "old"))
      ∃ b, r.result = .ok b ∧
        b.changes.map (fun c => (c.path, c.isDeletion, c.status)) =
          [("a.txt".toList, true, .success), ("b/c.txt".toList, false, .success)] :=
    Act.exists_of_answer (by decide +kernel)
  obtain ⟨c₁, c₂, hlist⟩ : ∃ c₁ c₂, b.changes = [c₁, c₂] := List.length_eq_two.mp (by
    rw [← List.length_map, hchanges]
    rfl)
  rw [hlist] at hchanges
  simp only [List.map_cons, List.map_nil, List.cons.injEq, Prod.mk.injEq, and_true] at hchanges
  obtain ⟨⟨hpath₁, hdeletion₁, hstatus₁⟩, hpath₂, hdeletion₂, hstatus₂⟩ := hchanges
  have hplace₁ : sampleFiles.resolve c₁.path = .ok samplePlace := by
    rw [hpath₁]
    decide +kernel
  have hplace₂ : sampleFiles.resolve c₂.path = .ok (sampleRoot ++ ["b".toList, "c.txt".toList]) := by
    rw [hpath₂]
    decide +kernel
  have hdeleted := run_truthful sampleFiles hroot {} sampleChanges none false (sampleDisk (some "old")) b
    hb [] c₁ [c₂] hlist hstatus₁ fun c hc _ => by
      rw [List.mem_singleton.mp hc, hplace₁, hplace₂]
      decide +kernel
  rw [if_pos hdeletion₁] at hdeleted
  have hwritten := run_truthful sampleFiles hroot {} sampleChanges none false (sampleDisk (some "old")) b
    hb [c₁] c₂ [] hlist hstatus₂ fun c hc => absurd hc List.not_mem_nil
  rw [if_neg (by rw [hdeletion₂]; exact Bool.false_ne_true)] at hwritten
  obtain ⟨text, token, hafter, hfetched⟩ := hwritten
  refine ⟨b, c₁, c₂, token, hb, hlist, hdeleted fun c hc _ hbelow => ?_, ?_⟩
  · obtain ⟨p, q, hp, hq, hway, -⟩ := hbelow
    rw [hplace₁] at hp
    rw [List.mem_singleton.mp hc, hplace₂] at hq
    cases hp
    cases hq
    exact absurd hway (by decide +kernel)
  · rw [hafter]
    exact hfetched

/-- Changes of one batch undo each other where their places meet: a later change below a deleted file
makes a directory of it, and of two changes at one place the later stays, all of them reported as
made. -/
theorem Session.run_undoes :
    let s : Session Disk := { store := sampleFiles.store }
    let nested := s.run "[FILE] a.txt\n[DELETE_FILE]\n[FILE] a.txt/b\n[CREATE]two[/CREATE]".toList none false
      (sampleDisk (some "old"))
    let aliased := s.run "[FILE] a.txt\n[CREATE]one[/CREATE]\n[FILE] ./a.txt\n[CREATE]two[/CREATE]".toList
      none false (sampleDisk none)
    nested.result.toOption.map (fun b => b.changes.map fun c => (c.path, c.isDeletion, c.status)) =
      some [("a.txt".toList, true, .success), ("a.txt/b".toList, false, .success)] ∧
    (sampleFiles.fetch "a.txt".toList nested.state).result.toOption = none ∧
    aliased.result.toOption.map (fun b => b.changes.map fun c => (c.path, c.after, c.status)) =
      some [("a.txt".toList, some "one".toList, .success),
        ("./a.txt".toList, some "two".toList, .success)] ∧
    (sampleFiles.fetch "a.txt".toList aliased.state).result.toOption.map (fun f => f.map (·.text)) =
      some (some "two".toList) := by
  decide +kernel

end Emend
