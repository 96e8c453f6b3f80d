import Annals.Assoc
import Annals.Files.Path
import Annals.Text.Quoted
import Annals.Text.Utf8

/-!
# Trees of files

The content of a directory is a listing of named files, links and directories; the whole tree is the
listing of its top. Finding out what a path leads to takes one name after another: two dots lead to the
directory above, a link is replaced by its target, and after too many links the path leads nowhere. A
path or a name that is too long, and a path with a NUL in it, cannot be looked up at all. Everything in a
tree may be looked at and read, and a tree does not change while it is looked at.

`Files.lookUp` finds what a path leads to, `Files.canonical` the path without links and dots.
-/

namespace Annals

inductive Listing where
  | nil
  | file (name : Text) (content : Bytes) (rest : Listing)
  | link (name target : Text) (rest : Listing)
  | dir (name : Text) (inside rest : Listing)
  deriving DecidableEq, Repr

inductive Item where
  | file (content : Bytes)
  | link (target : Text)
  | dir (inside : Listing)
  deriving DecidableEq, Repr

def thisDir : Text := ['.']

def upDir : Text := ['.', '.']

namespace Listing

/-- What a name stands for in a directory. -/
def item? (name : Text) : Listing → Option Item
  | nil => none
  | file n content rest => if n = name then some (.file content) else item? name rest
  | link n target rest => if n = name then some (.link target) else item? name rest
  | dir n inside rest => if n = name then some (.dir inside) else item? name rest

/-- What names lead to, one inside the other. -/
def at? (top : Listing) : List Text → Option Item
  | [] => some (.dir top)
  | [name] => top.item? name
  | name :: names =>
    match top.item? name with
    | some (.dir inside) => at? inside names
    | _ => none

def single (name : Text) : Item → Listing
  | .file content => file name content nil
  | .link target => link name target nil
  | .dir inside => dir name inside nil

/-- The content of a file that an item is put in the place of: a file has a new content, and anything
else leaves the file as it is. -/
def contentAfter (content : Bytes) : Item → Bytes
  | .file new => new
  | _ => content

/-- The listing with an item added at its end. An item of the same name stays, but a file takes on the
content of a file. -/
def add (name : Text) (item : Item) : Listing → Listing
  | nil => single name item
  | file n content rest =>
    if n = name then file n (contentAfter content item) rest else file n content (add name item rest)
  | link n target rest => if n = name then link n target rest else link n target (add name item rest)
  | dir n inside rest => if n = name then dir n inside rest else dir n inside (add name item rest)

/-- The listing with the content of a directory changed. -/
def within (name : Text) (f : Listing → Listing) : Listing → Listing
  | nil => nil
  | file n content rest => file n content (within name f rest)
  | link n target rest => link n target (within name f rest)
  | dir n inside rest => if n = name then dir n (f inside) rest else dir n inside (within name f rest)

/-- The listing with an item at the end of a chain of directories, which are added as needed. -/
def place (item : Item) : List Text → Listing → Listing
  | [], top => top
  | [name], top => top.add name item
  | name :: names, top => within name (place item names) (top.add name (.dir nil))

end Listing

inductive PathFault where
  /-- The path, or a name that was looked for on the way, is too long. -/
  | tooLong (path : Text)
  | holdsNul
  deriving DecidableEq, Repr

def PathFault.message : PathFault → Text
  | tooLong path => "[Errno 36] File name too long: " ++ path.quoted
  | holdsNul => "embedded null byte"

/-- The most bytes that a name may have. -/
def maxNameBytes : Nat := 255

/-- The most bytes that a path may have. -/
def maxPathBytes : Nat := 4095

/-- Whether a text takes more bytes than a number. -/
def exceeds (limit : Nat) (t : Text) : Bool := limit < (Utf8.encode t).length

inductive Trail where
  | arrived (names : List Text)
  /-- A link was met in a directory, with these names left after it. -/
  | met (here : List Text) (target : Text) (left : List Text)
  | lost
  | tooLong
  deriving DecidableEq, Repr

structure Files where
  top : Listing := .nil
  current : Path := Path.root
  deriving DecidableEq, Repr

namespace Files

/-- Where a link leads from a directory, as the directory to start in and the names to follow. -/
def followLink (here : List Text) (target : Text) (left : List Text) : List Text × List Text :=
  (if Text.startsWith ['/'] target then [] else here, Text.fields '/' target ++ left)

/-- Follows names from a directory up to the first link. -/
def follow (top : Listing) (here : List Text) : List Text → Trail
  | [] => .arrived here
  | name :: left =>
    match top.at? here with
    | some (.dir inside) =>
      if name = [] ∨ name = thisDir then follow top here left
      else if name = upDir then follow top here.dropLast left
      else if exceeds maxNameBytes name then .tooLong
      else
        match inside.item? name with
        | none => .lost
        | some (.link target) => .met here target left
        | some _ => follow top (here ++ [name]) left
    | _ => .lost

/-- Follows names from a directory through links, at most the given number of them. -/
def arrive (top : Listing) : (links : Nat) → (here names : List Text) → Trail
  | links, here, names =>
    match follow top here names with
    | .met here target left =>
      match links with
      | 0 => .lost
      | links + 1 =>
        let (here, names) := followLink here target left
        arrive top links here names
    | trail => trail

/-- The most links that are followed on the way to one item. -/
def maxLinks : Nat := 40

/-- What a path text leads to. An empty text leads nowhere, and a slash at the end asks for a
directory. -/
def lookUp (fs : Files) (t : Text) : Except PathFault (Option Item) :=
  if t.contains '\x00' then .error .holdsNul
  else if exceeds maxPathBytes t then .error (.tooLong t)
  else if t.isEmpty then .ok none
  else
    let here := if Text.startsWith ['/'] t then [] else fs.current.parts
    match arrive fs.top maxLinks here (Text.fields '/' t) with
    | .arrived names => .ok (fs.top.at? names)
    | .tooLong => .error (.tooLong t)
    | _ => .ok none

/-- What a path leads to. A path with a NUL leads nowhere. -/
def item? (fs : Files) (p : Path) : Except PathFault (Option Item) :=
  match fs.lookUp p.toText with
  | .error .holdsNul => .ok none
  | found => found

def has (fs : Files) (p : Path) : Except PathFault Bool := return (← fs.item? p).isSome

def isDir : Option Item → Bool
  | some (.dir _) => true
  | _ => false

def hasDir (fs : Files) (p : Path) : Except PathFault Bool := return isDir (← fs.item? p)

/-- The path from the top of the tree; dots in it stay. -/
def absolute (fs : Files) (p : Path) : Path := fs.current.join p

/-- Follows names from a directory up to the first link. Names that stand for nothing are kept. -/
def trace (top : Listing) (here : List Text) : List Text → Trail
  | [] => .arrived here
  | name :: left =>
    if name = [] ∨ name = thisDir then trace top here left
    else if name = upDir then trace top here.dropLast left
    else
      match top.at? (here ++ [name]) with
      | some (.link target) => .met here target left
      | _ => trace top (here ++ [name]) left

/-- The names without links and dots that names lead to, after at most the given number of links. -/
def settle (top : Listing) : (links : Nat) → (here names : List Text) → List Text
  | links, here, names =>
    match trace top here names with
    | .arrived there => there
    | .lost | .tooLong => here
    | .met here target left =>
      match links with
      | 0 => here ++ left
      | links + 1 =>
        let (here, names) := followLink here target left
        settle top links here names

/-- The path from the top of the tree without links and dots. -/
def canonical (fs : Files) (p : Path) : Path :=
  ⟨['/'], settle fs.top maxLinks [] (fs.absolute p).parts⟩

/-- The path from the top of the tree without links and dots, unless it holds a NUL. -/
def resolve (fs : Files) (p : Path) : Except PathFault Path :=
  if p.toText.contains '\x00' then .error .holdsNul else .ok (fs.canonical p)

/-- The names that a new item at a path gets. A link at the end of the path leads on, but not to a place
for another link. -/
def placeNames (fs : Files) (p : Path) : Item → List Text
  | .link _ => (fs.canonical p.parent).parts ++ p.parts.getLast?.toList
  | _ => (fs.canonical p).parts

/-- The tree with an item at a path, and the directories above it added as needed. -/
def place (fs : Files) (p : Path) (item : Item) : Files :=
  let names := fs.placeNames p item
  { fs with top := fs.top.place item names }

end Files

end Annals
