import Annals.Discovery.Registry

/-!
# Finding repositories

Upwards: the innermost repository that holds a path is the first among the path itself, if it is a
directory, and the directories above it. Downwards: all repositories below a directory, in an order in
which every directory comes before what it holds and siblings come by name. Links to directories are
not entered, nor are the directories in which tools keep their own files, nor those that lie so deep that
their path is too long.
-/

namespace Annals

/-- The names of directories that are not entered. -/
def skippedNames : List Text := [".git", ".bk", ".hg", ".svn"]

/-- The groups in the order of their names, put together. -/
def inNameOrder {α : Type} (groups : List (Text × List α)) : List α :=
  (groups.mergeSort fun a b => Text.le a.1 b.1).flatMap (·.2)

namespace Listing

/-- For each directory of a listing that is entered, its name and the names that lead to it and to the
directories below it. -/
def entered : Listing → List (Text × List (List Text))
  | nil => []
  | file _ _ rest => entered rest
  | link _ _ rest => entered rest
  | dir name inside rest =>
    if skippedNames.contains name then entered rest
    else (name, [name] :: (inNameOrder (entered inside)).map (name :: ·)) :: entered rest

/-- The names that lead to a directory and to the directories below it that are entered. -/
def visited (top : Listing) : List (List Text) := [] :: inNameOrder top.entered

end Listing

namespace Path

/-- The path that names lead to from a directory. -/
def descend (root : Path) (names : List Text) : Path := ⟨root.anchor, root.parts ++ names⟩

/-- The text by which a directory is visited, behind the one of the directory above it. -/
def visitChild (above name : Text) : Text :=
  if above.getLast? = some '/' then above ++ name else above ++ '/' :: name

/-- The text by which a directory is visited that names lead to from another one. A dot in front stays. -/
def visitText (root : Path) (names : List Text) : Text := names.foldl visitChild root.toText

/-- Whether a directory can be visited that names lead to from another one. -/
def canVisit (root : Path) (names : List Text) : Bool := !exceeds maxPathBytes (root.visitText names)

end Path

/-- The directories below a path in the order in which they are visited; none if it is no directory or
too long. -/
def Files.visited (fs : Files) (root : Path) : Except PathFault (List Path) :=
  match fs.lookUp root.toText with
  | .ok (some (.dir inside)) => .ok ((inside.visited.filter root.canVisit).map root.descend)
  | .error .holdsNul => .error .holdsNul
  | _ => .ok []

/-- What a search for repositories has come to. -/
structure Discovery where
  /-- The repositories in the order in which they were found. -/
  found : List Found := []
  /-- What ended the search before it was through. -/
  fault? : Option PathFault := none
  deriving DecidableEq, Repr

namespace Discovery

/-- The repositories that a search has found that was not ended early. -/
def result (d : Discovery) : Except PathFault (List Found) :=
  match d.fault? with
  | none => .ok d.found
  | some fault => .error fault

/-- The notes about a search below a directory. -/
def notes (d : Discovery) (root : Path) : List Note :=
  d.found.map Found.note ++
    match d.fault? with
    | none =>
      [.debug .registry
        ("Discovered " ++ Text.ofNat d.found.length ++ " repositories under " ++ root.toText)]
    | some _ => []

end Discovery

namespace Registry

/-- The directories that may be the top of the repository of a path, innermost first. -/
def candidates (fs : Files) (file : Path) : Except PathFault (List Path) := do
  let start := fs.absolute file
  return (if ← fs.hasDir start then [start] else []) ++ start.parents

def findRepository (reg : Registry) (fs : Files) (config : Config) (file : Path) :
    Except PathFault (Option Found) := do
  (← candidates fs file).findSomeM? (reg.repositoryFor fs config)

/-- The directories among some that are the top of a repository, up to the first that cannot be looked
at. -/
def discoverAmong (reg : Registry) (fs : Files) (config : Config) : List Path → Discovery
  | [] => {}
  | dir :: dirs =>
    match reg.repositoryFor fs config dir with
    | .error fault => { fault? := some fault }
    | .ok found? =>
      let rest := discoverAmong reg fs config dirs
      { rest with found := found?.toList ++ rest.found }

def discover (reg : Registry) (fs : Files) (config : Config) (root : Path) : Discovery :=
  match fs.visited root with
  | .error fault => { fault? := some fault }
  | .ok dirs => reg.discoverAmong fs config dirs

variable {σ : Type}

/-- The search among some directories with someone who is told of each repository as it is found; with
it comes what that one has come to. -/
def discoverAmongTelling (reg : Registry) (fs : Files) (config : Config) (onFound : σ → Found → σ) :
    σ → List Path → σ × Discovery
  | told, [] => (told, {})
  | told, dir :: dirs =>
    match reg.repositoryFor fs config dir with
    | .error fault => (told, { fault? := some fault })
    | .ok none => discoverAmongTelling reg fs config onFound told dirs
    | .ok (some found) =>
      let (told, rest) := discoverAmongTelling reg fs config onFound (onFound told found) dirs
      (told, { rest with found := found :: rest.found })

def discoverTelling (reg : Registry) (fs : Files) (config : Config) (root : Path)
    (onFound : σ → Found → σ) (told : σ) : σ × Discovery :=
  match fs.visited root with
  | .error fault => (told, { fault? := some fault })
  | .ok dirs => reg.discoverAmongTelling fs config onFound told dirs

end Registry

end Annals
