import Annals.Date.Pattern
import Annals.Text.Quoted

/-!
# Date patterns as regular expressions

Every item of a date pattern stands for a piece of a regular expression, and the pattern for the pieces
in a row. An item that sets a field is a group named by its letter; the item of an offset has two more
groups inside. A name may be given to one group only, so a pattern may not repeat such an item.

`DatePattern.repetition?` finds the first item that is repeated, and where it stands in the expression.
-/

namespace Annals

/-- Whether a character has a meaning of its own in an expression, so that a backslash stands before it
where it is meant literally. -/
def isMeta (c : Char) : Bool := "\\.^$*+?()\x7b\x7d[]|".toList.contains c

namespace DateItem

/-- The letter of an item that sets a field. -/
def letter? : DateItem → Option Char
  | year => some 'Y'
  | month => some 'm'
  | day => some 'd'
  | hour => some 'H'
  | minute => some 'M'
  | second => some 'S'
  | zone => some 'z'
  | blanks | literal _ => none

def alternatives : DateItem → Text
  | year => "\\d\\d\\d\\d"
  | month => "1[0-2]|0[1-9]|[1-9]"
  | day => "3[0-1]|[1-2]\\d|0[1-9]|[1-9]| [1-9]"
  | hour => "2[0-3]|[0-1]\\d|\\d"
  | minute => "[0-5]\\d|\\d"
  | second => "6[0-1]|[0-5]\\d|\\d"
  | zone => "[+-]\\d\\d:?[0-5]\\d(:?[0-5]\\d(\\.\\d\x7b1,6\x7d)?)?|(?-i:Z)"
  | blanks => "\\s+"
  | literal c => if isMeta c then ['\\', c] else [c]

/-- What stands in an expression before the name of a group. -/
def groupStart : Text := "(?P<"

/-- The regular expression that an item stands for. -/
def expression (item : DateItem) : Text :=
  match item.letter? with
  | some l => groupStart ++ (l :: '>' :: item.alternatives) ++ ")"
  | none => item.alternatives

/-- The number of groups in the expression of an item. -/
def groupCount : DateItem → Nat
  | zone => 3
  | blanks | literal _ => 0
  | _ => 1

end DateItem

/-- An item that occurs a second time in a pattern. -/
structure Repetition where
  letter : Char
  /-- The number that its group would have. -/
  group : Nat
  /-- The number of the group that has its name. -/
  firstGroup : Nat
  /-- Where its name stands in the expression of the pattern. -/
  position : Nat
  deriving DecidableEq, Repr

/-- The wording of the fault in an expression. -/
def Repetition.message (r : Repetition) : Text :=
  "redefinition of group name " ++ Text.quoted [r.letter] ++ " as group " ++ Text.ofNat r.group ++
    "; was group " ++ Text.ofNat r.firstGroup ++ " at position " ++ Text.ofNat r.position

namespace DatePattern

/-- The first item that is repeated, given the groups that have a name, the number of all groups and the
length of the expression so far. -/
def repetitionAfter? (named : List (Char × Nat)) (groups position : Nat) :
    DatePattern → Option Repetition
  | [] => none
  | item :: items =>
    let next (named : List (Char × Nat)) : Option Repetition :=
      repetitionAfter? named (groups + item.groupCount) (position + item.expression.length) items
    match item.letter? with
    | none => next named
    | some l =>
      match named.lookup l with
      | some first => some ⟨l, groups + 1, first, position + DateItem.groupStart.length⟩
      | none => next ((l, groups + 1) :: named)

/-- The first item of a pattern that is repeated. -/
def repetition? (p : DatePattern) : Option Repetition := repetitionAfter? [] 0 0 p

end DatePattern

end Annals
