import Emend.Batch.RunLog
import Emend.Proofs.Act
import Emend.Proofs.Disk.Places

/-!
# What a log writes

The files of a log are the ones that are held open. Starting a log makes the directories on the way to
them and changes nothing else, and so does adding a note, whatever comes of it.
-/

namespace Emend

namespace Disk

variable {d d₁ d₂ : Disk} {l : Location} {name : Text} {bs : Bytes}

/-- The files that are held open. -/
def held (d : Disk) : List Path := d.streams.map (·.2)

/-- From the one disk to the other nothing has changed but that there are directories where nothing
was. -/
structure Furnished (d d₁ : Disk) : Prop where
  streams : d₁.streams = d.streams
  entries : ∀ p, d₁.get? p = d.get? p ∨ d.get? p = none ∧ d₁.get? p = some .directory

theorem Furnished.trans (h : d.Furnished d₁) (h' : d₁.Furnished d₂) : d.Furnished d₂ := by
  refine ⟨h'.streams.trans h.streams, fun p => ?_⟩
  rcases h.entries p with hsame | ⟨hnone, hmade⟩
  · rw [← hsame]
    exact h'.entries p
  · rcases h'.entries p with hsame' | ⟨hnone', -⟩
    · exact .inr ⟨hnone, hsame'.trans hmade⟩
    · cases hmade.symm.trans hnone'

instance : Std.Refl Furnished := ⟨fun _ => ⟨rfl, fun _ => .inl rfl⟩⟩

instance : IsTrans Disk Furnished := ⟨fun _ _ _ => Furnished.trans⟩

theorem furnished_makeDirs (d : Disk) (l : Location) : d.Furnished (d.makeDirs l).2 := by
  refine makeDirsUpTo_rel (P := fun _ => True) (fun _ _ => trivial) (fun l _ d => ?_) _ l trivial d
  rcases ensureDir_cases d l with hsame | ⟨p, hfind, hput⟩
  · rw [hsame]
    exact refl_of Furnished d
  · have hnone := (find_eq_ok.mp hfind).2.2
    rw [hput]
    refine ⟨rfl, fun q => ?_⟩
    by_cases hq : q = p
    · rw [hq]
      exact .inr ⟨hnone, get?_put_self d _ (ne_nil_of_get?_eq_none hnone)⟩
    · exact .inl (get?_put_of_ne d _ hq)

/-- From the one disk to the other nothing has changed but files that are held open now, and that there
are directories where nothing was. -/
def Logged (d d₁ : Disk) : Prop :=
  ∀ p ∉ d₁.held, d₁.get? p = d.get? p ∨ d.get? p = none ∧ d₁.get? p = some .directory

/-- Opening a stream changes the file that it holds. -/
theorem Logged.openStream (h : d.Logged d₁) (hopen : d₁.openStream name l = .ok d₂) :
    d.Logged d₂ ∧ ∃ p, d₂.streams = (name, p) :: d₁.streams := by
  rw [Disk.openStream] at hopen
  obtain ⟨d', happend, hopen⟩ := Act.ok_of_bind hopen
  have hput : ∃ p bs, d' = d₁.put p (.file bs) ∧ d'.find l = .ok (p, some (.file bs)) := by
    rw [appendFile] at happend
    split at happend
    · cases happend
    · cases happend
    · rename_i p before hfind
      cases happend
      exact ⟨p, _, rfl, find_put hfind nofun _⟩
    · rename_i p hfind
      cases happend
      exact ⟨p, _, rfl, find_put hfind nofun _⟩
  obtain ⟨p, bs, rfl, hfind⟩ := hput
  rw [hfind] at hopen
  cases hopen
  refine ⟨fun q hq => ?_, p, rfl⟩
  have hheld : q ∉ p :: d₁.held := hq
  rw [List.mem_cons, not_or] at hheld
  have hget : (d₁.put p (.file bs)).get? q = d₁.get? q := get?_put_of_ne d₁ _ hheld.1
  exact hget ▸ h q hheld.2

/-- Adding to a stream changes the file that it holds. -/
theorem addTo_spares (d : Disk) (name : Text) (bs : Bytes) :
    (d.addTo name bs).streams = d.streams ∧ ∀ p ∉ d.held, (d.addTo name bs).get? p = d.get? p := by
  rw [addTo]
  cases hstream : d.streams.lookup name with
  | none => exact ⟨rfl, fun _ _ => rfl⟩
  | some q =>
      obtain ⟨before, after, hsplit, -⟩ := List.lookup_eq_some_iff.mp hstream
      have hq : q ∈ d.held := by
        rw [held, hsplit]
        exact List.mem_map.mpr ⟨(name, q), List.mem_append_right _ List.mem_cons_self, rfl⟩
      dsimp only
      split
      · refine ⟨rfl, fun p hp => get?_put_of_ne d _ ?_⟩
        rintro rfl
        exact hp hq
      · exact ⟨rfl, fun _ _ => rfl⟩

end Disk

namespace RunLog

open Act Disk

variable {h : Host}

/-- Opens the file of a channel. -/
def openChannel (log : RunLog) (c : Channel) : Act Host Unit := do
  Act.modify fun h => { h with disk := h.disk.closeStream (fileName c).toList }
  Host.alter (·.openStream (fileName c).toList (log.fileAt (fileName c)))

/-- The files of channels that are not open yet are opened. -/
theorem leaves_openChannels (log : RunLog) {d : Disk} (cs : List Channel)
    (hnodup : (cs.map fileName).Nodup) (hlogged : d.Logged h.disk)
    (hfresh : ∀ s ∈ h.disk.streams, ∀ c ∈ cs, s.1 ≠ (fileName c).toList) :
    (cs.forM log.openChannel).Leaves h fun h' => d.Logged h'.disk := by
  induction cs generalizing h with
  | nil => exact hlogged
  | cons c cs ih =>
      rw [List.map_cons, List.nodup_cons] at hnodup
      have hclosed : h.disk.closeStream (fileName c).toList = h.disk := by
        have hall : h.disk.streams.filter (·.1 != (fileName c).toList) = h.disk.streams :=
          List.filter_eq_self.mpr fun s hs => bne_iff_ne.mpr (hfresh s hs c List.mem_cons_self)
        rw [closeStream, hall]
      have hrest : ∀ s ∈ h.disk.streams, ∀ c' ∈ cs, s.1 ≠ (fileName c').toList :=
        fun s hs c' hc' => hfresh s hs c' (List.mem_cons_of_mem c hc')
      -- the streams of the state that is left are kept in view: the next file must not be among them
      have hfirst : (log.openChannel c).Leaves h fun h' => d.Logged h'.disk ∧
          ∀ s ∈ h'.disk.streams, ∀ c' ∈ cs, s.1 ≠ (fileName c').toList := by
        have hstate : log.openChannel c h =
            Host.alter (·.openStream (fileName c).toList (log.fileAt (fileName c))) h := by
          rw [openChannel, modify_bind, hclosed]
        rw [Leaves, hstate, Host.alter]
        cases hopen : h.disk.openStream (fileName c).toList (log.fileAt (fileName c)) with
        | error e => exact ⟨hlogged, hrest⟩
        | ok d₁ =>
            obtain ⟨hlogged', p, hstreams⟩ := hlogged.openStream hopen
            refine ⟨hlogged', fun s hs c' hc' => ?_⟩
            rw [hstreams] at hs
            rcases List.mem_cons.mp hs with rfl | hs
            · intro hsame
              exact hnodup.1 (List.mem_map.mpr ⟨c', hc', (String.toList_inj.mp hsame).symm⟩)
            · exact hrest s hs c' hc'
      exact hfirst.bind (fun h' h => h.1) fun _ h' hleft => ih hnodup.2 hleft.1 hleft.2

/-- **Starting a log** changes the files that it holds open and makes directories, and nothing else,
whatever comes of it. -/
theorem leaves_start (runId logsRoot : Option Text) (hstreams : h.disk.streams = []) :
    (start runId logsRoot).Leaves h fun h' => h.disk.Logged h'.disk := by
  let R : Host → Host → Prop := fun h h' => h.disk.Furnished h'.disk
  have hrefl : Std.Refl R := ⟨fun h => refl_of Furnished h.disk⟩
  have hlogged : ∀ h', R h h' → h.disk.Logged h'.disk := fun h' hR p _ => hR.entries p
  -- up to the files only directories are made
  have hthen : ∀ {α : Type} {x : Act Host α} {f : α → Act Host RunLog} {h₁ : Host}, R h h₁ →
      x.Keeps R → (∀ a h', R h h' → (f a).Leaves h' fun h' => h.disk.Logged h'.disk) →
      (x >>= f).Leaves h₁ fun h' => h.disk.Logged h'.disk := by
    intro α x f h₁ hR hx hf
    have hfirst : x.Leaves h₁ (R h) := hR.trans (hx h₁)
    exact hfirst.bind hlogged hf
  have hdirs : ∀ l, (Host.makeDirs l).Keeps R := fun l h => furnished_makeDirs h.disk l
  have hsupplied : ∀ {α : Type} (f : Supply → Except Failure α × Supply),
      (Host.supplied f).Keeps R := fun f h => hrefl.refl h
  have hfiles : ∀ (log : RunLog) (h' : Host), R h h' →
      ((channels.forM log.openChannel) >>= fun _ => pure log).Leaves h' fun h' =>
        h.disk.Logged h'.disk := by
    intro log h' hR
    refine Leaves.bind (leaves_openChannels log channels (by decide) (hlogged h' hR) ?_)
      (fun _ h => h) fun _ _ h => h
    rw [hR.streams, hstreams]
    exact fun s hs => absurd hs List.not_mem_nil
  rw [start]
  refine hthen (hrefl.refl h) (reads_reading _).keeps fun root h₁ h₁R => ?_
  refine hthen h₁R (hdirs _) fun _ h₂ h₂R => ?_
  have hrest : ∀ runId h₃, R h h₃ → (do
      let now ← Host.readClock
      let below := (Location.ofText root (now.nameText ++ '-' :: runId.take 6)).names
      let log : RunLog := { runId, root, directory := .ofPath (root ++ below) }
      Act.ofExcept log.directory.checkNames
      Host.makeDirs log.directory
      channels.forM log.openChannel
      return log : Act Host RunLog).Leaves h₃ fun h' => h.disk.Logged h'.disk := by
    intro runId h₃ h₃R
    refine hthen h₃R (hsupplied _) fun now h₄ h₄R => ?_
    refine hthen h₄R (reads_ofExcept _).keeps fun _ h₅ h₅R => ?_
    exact hthen h₅R (hdirs _) fun _ h₆ h₆R => hfiles _ h₆ h₆R
  split
  · exact hthen h₂R (hsupplied _) fun runId h₃ h₃R => hrest runId h₃ h₃R
  · exact hrest _ h₂ h₂R

end RunLog

end Emend
