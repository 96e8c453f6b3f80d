import Annals.Text.Basic

/-!
# Paths

A path is a sequence of names behind an anchor: nothing for a relative path, one slash, or two. Names
that are empty or a single dot do not count; two dots do, since what they mean depends on the tree.
-/

namespace Annals

structure Path where
  /-- The slashes at the front that count: none, one or two. -/
  anchor : Text
  parts : List Text
  deriving DecidableEq, Repr

namespace Path

/-- The pieces between slashes that are neither empty nor a single dot. -/
def namesIn (t : Text) : List Text := (Text.fields '/' t).filter fun p => p ≠ [] && p ≠ ['.']

/-- The path that a text writes. Two slashes at its front are kept, three or more count as one. -/
def ofText (t : Text) : Path :=
  let anchor : Text :=
    match t.takeWhile (· = '/') with
    | [] => []
    | ['/', '/'] => ['/', '/']
    | _ => ['/']
  ⟨anchor, namesIn t⟩

/-- The text of a path; a path without anchor and names is a dot. -/
def toText (p : Path) : Text :=
  match p.anchor, p.parts with
  | [], [] => ['.']
  | a, ps => a ++ Text.join ['/'] ps

def root : Path := ⟨['/'], []⟩

/-- Whether the path starts at the top of the tree. -/
def isAbsolute (p : Path) : Bool := !p.anchor.isEmpty

/-- The second path as seen from the first. -/
def join (p q : Path) : Path := if q.isAbsolute then q else ⟨p.anchor, p.parts ++ q.parts⟩

def child (p : Path) (name : Text) : Path := ⟨p.anchor, p.parts ++ [name]⟩

/-- The last name of a path, empty if it has none. -/
def name (p : Path) : Text := p.parts.getLast?.getD []

def parent (p : Path) : Path := ⟨p.anchor, p.parts.dropLast⟩

/-- The paths with fewer and fewer names, nearest first. -/
def parents (p : Path) : List Path :=
  (List.range p.parts.length).map fun k => ⟨p.anchor, p.parts.take (p.parts.length - 1 - k)⟩

end Path

end Annals
