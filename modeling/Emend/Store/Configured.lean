import Emend.Config.Basic
import Emend.Host
import Emend.Store.GitHub
import Emend.Store.GitWorktree

/-!
# The configured store

`World` is everything that the program works on: the machine, the repository whose working tree is on
its disk, a hosting service in a state of type `ρ`, and the environment. `Config.openStore` finds the
store that a configuration names in it; an `OpenStore` is then used as a store in that world.
-/

namespace Emend

/-- Everything that the program works on. -/
structure World (ρ : Type) where
  host : Host
  repository : Option Git.Repository := none
  remote : ρ
  environment : Text → Option Text := fun _ => none

namespace World

variable {ρ α : Type}

/-- Runs an action on the host. -/
def onHost (x : Act Host α) : Act (World ρ) α := x.focus (·.host) fun h w => { w with host := h }

/-- The world with another disk. -/
def withDisk (w : World ρ) (d : Disk) : World ρ := { w with host := { w.host with disk := d } }

/-- The disk with the repository on it. -/
def worktree (w : World ρ) : Worktree := ⟨w.host.disk, w.repository.getD default⟩

/-- The world with another disk and repository. -/
def withWorktree (t : Worktree) (w : World ρ) : World ρ :=
  { w.withDisk t.disk with repository := some t.repository }

/-- Runs an action on the working tree. -/
def onWorktree (x : Act Worktree α) : Act (World ρ) α := x.focus worktree withWorktree

end World

/-- A store that has been found. -/
inductive OpenStore where
  | localFiles (s : LocalFiles)
  | git (s : GitWorktree)
  | github (g : GitHub)
  deriving DecidableEq, Repr

/-- The store in the world, the hosting service being `service`. -/
def OpenStore.store {ρ : Type} (service : Hosting ρ) : OpenStore → Store (World ρ)
  | localFiles s => s.store.focus (·.host.disk) fun d w => w.withDisk d
  | git s => s.store.focus World.worktree World.withWorktree
  | github g => (g.store service).focus (·.remote) fun r w => { w with remote := r }

/-- The store is a working tree, whose index can be committed. -/
def OpenStore.isGit : OpenStore → Bool
  | git _ => true
  | _ => false

/-- The kind of store of that name. -/
def StoreKind.named (t : Text) : Except Failure StoreKind :=
  match StoreKind.ofName? t with
  | some k => .ok k
  | none => .error (.store ⟨"Unsupported store '".toList ++ t ++
      "'. Choose 'local', 'git', or 'github'.".toList, none⟩)

namespace Config

variable {ρ : Type}

/-- The hosted repository that the configuration names, if there is an access token for it. -/
def openGitHub (c : Config) (environment : Text → Option Text) : Except Failure GitHub := do
  match c.repository.getD [] with
  | [] =>
    .error (.store ⟨"The github store needs 'repository' (owner/name) in the configuration.".toList,
      none⟩)
  | name =>
    let g ← GitHub.ofName name
    let _ ← GitHub.accessToken none environment c.tokenEnvVar
    return g

/-- The store that the configuration names. -/
def openStore (c : Config) (w : World ρ) : Except Failure OpenStore :=
  match c.store with
  | .localFiles => .localFiles <$> LocalFiles.atRoot w.host.disk c.root
  | .git => .git <$> GitWorktree.atRoot w.host.disk w.repository c.root
  | .github => .github <$> c.openGitHub w.environment

end Config

end Emend
