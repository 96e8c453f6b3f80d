import Annals.Files.Tree
import Annals.Repository.Basic

/-!
# The registry of backends

Backends are registered under kinds, in the order in which they are tried. Registering a kind again
replaces its backend and keeps its place. A backend recognises the top directory of its repositories by
an item that a certain path leads to from there, the marker.
-/

namespace Annals

/-- The item by which the top directory of a repository is recognised. -/
structure Marker where
  path : Path
  isDir : Bool
  deriving DecidableEq, Repr

structure Factory where
  kind : Text
  marker : Marker
  backend : Backend
  deriving DecidableEq, Repr

def Backend.marker : Backend → Marker
  | bitkeeper => ⟨.ofText ".bk", true⟩
  | git => ⟨.ofText ".git", false⟩

def Factory.ofBackend (b : Backend) : Factory := ⟨b.kind, b.marker, b⟩

/-- Whether a path leads to a directory with a marker. -/
def Marker.isAt (m : Marker) (fs : Files) (dir : Path) : Except PathFault Bool :=
  if m.isDir then fs.hasDir (dir.join m.path) else fs.has (dir.join m.path)

/-- The registered backends in the order in which they are tried. -/
abbrev Registry := Assoc Text Factory

structure Found where
  kind : Text
  repository : Repository
  /-- The kind that its backend is registered under. -/
  registeredKind : Text
  deriving DecidableEq, Repr

/-- The note about a repository that was found. -/
def Found.note (f : Found) : Note :=
  .debug .registry (f.repository.root.toText ++ " is a " ++ f.registeredKind ++ " repository")

namespace Registry

/-- The registry at the start of the program. -/
def builtin : Registry :=
  [(Backend.bitkeeper.kind, .ofBackend .bitkeeper), (Backend.git.kind, .ofBackend .git)]

def register (reg : Registry) (kind : Text) (factory : Factory) : Registry :=
  Assoc.put kind factory reg

def unregister (reg : Registry) (kind : Text) : Registry := Assoc.remove kind reg

/-- The registered kinds in the order in which they are tried. -/
def kinds (reg : Registry) : List Text := Assoc.keys reg

def factory (reg : Registry) (kind : Text) : Except Failure Factory :=
  match Assoc.get? kind reg with
  | some f => .ok f
  | none => .error (.unknownKind kind)

/-- The first backend whose marker is in a directory, with the kind that it is registered under. -/
def matching? (reg : Registry) (fs : Files) (dir : Path) :
    Except PathFault (Option (Text × Factory)) :=
  reg.findM? fun f => f.2.marker.isAt fs dir

/-- The repository whose top directory a path leads to. -/
def repositoryFor (reg : Registry) (fs : Files) (config : Config) (dir : Path) :
    Except PathFault (Option Found) := do
  match ← reg.matching? fs dir with
  | none => return none
  | some (kind, factory) => return some ⟨factory.kind, ⟨factory.backend, dir, config⟩, kind⟩

end Registry

end Annals
