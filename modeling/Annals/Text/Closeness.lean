import Annals.Text.Basic

/-!
# Closeness of words

Two words are compared by the characters that they share in order: the longest run that they have in
common, then likewise what stands before it and what stands after it. A word is close to another if the
shared characters make up at least three fifths of the two. `closeWords` picks the closest of some words.
-/

namespace Annals.Text

/-- The length of the longest beginning that two texts have in common. -/
def commonStart : Text → Text → Nat
  | a :: as, b :: bs => if a = b then commonStart as bs + 1 else 0
  | _, _ => 0

/-- A run that two texts have in common: where it starts in each, and its length. -/
structure CommonRun where
  left : Nat
  right : Nat
  length : Nat
  deriving DecidableEq, Repr

/-- The longest run that two texts have in common: the first in the one, then the first in the
other. -/
def longestRun (a b : Text) : CommonRun :=
  (List.range a.length).foldl
    (fun best i =>
      (List.range b.length).foldl
        (fun best j =>
          let n := commonStart (a.drop i) (b.drop j)
          if best.length < n then ⟨i, j, n⟩ else best)
        best)
    ⟨0, 0, 0⟩

/-- The number of characters that two texts share in order, where `fuel` is at least the length of the
first. -/
def sharedFrom : (fuel : Nat) → Text → Text → Nat
  | 0, _, _ => 0
  | fuel + 1, a, b =>
    let run := longestRun a b
    if run.length = 0 then 0
    else
      run.length + sharedFrom fuel (a.take run.left) (b.take run.right) +
        sharedFrom fuel (a.drop (run.left + run.length)) (b.drop (run.right + run.length))

/-- The number of characters that two texts share in order. -/
def shared (a b : Text) : Nat := sharedFrom a.length a b

def isClose (a b : Text) : Bool := 3 * (a.length + b.length) ≤ 10 * shared a b

/-- Whether the first of two words is closer to a word than the second is; of equally close words the
later by name counts as closer. -/
def isCloser (word a b : Text) : Bool :=
  let p := shared a word * (b.length + word.length)
  let q := shared b word * (a.length + word.length)
  if p = q then le b a else q < p

/-- The words that are close to a word, at most three, by name. -/
def closeWords (word : Text) (words : List Text) : List Text :=
  let close := (words.filter fun w => isClose w word).mergeSort (isCloser word)
  (close.take 3).mergeSort le

end Annals.Text
