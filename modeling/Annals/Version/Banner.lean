import Annals.Version.Basic

/-!
# Version banners

Tools announce their version inside a line of other text. A banner form says where the version stands;
`Banner.version` reads it and falls back to the oldest version.
-/

namespace Annals

/-- Where a version stands in the text that a tool prints. -/
inductive Banner where
  /-- After the last dash of a line that is followed by a digit, behind the words "version is". -/
  | afterDash
  | afterName
  | wholeWord
  deriving DecidableEq, Repr

namespace Banner

/-- The longest run of digits with single dots between them at the front of a text. -/
def dottedRun : Text → Text
  | [] => []
  | c :: cs =>
    if isDigit c then c :: dottedRun cs
    else if c = '.' then
      match cs with
      | d :: ds => if isDigit d then '.' :: dottedRun (d :: ds) else []
      | [] => []
    else []

/-- The dotted run at the front of a text, if it begins with a digit. -/
def dottedStart? : Text → Option Text
  | [] => none
  | c :: cs => if isDigit c then some (dottedRun (c :: cs)) else none

/-- The dotted run after the last dash that is followed by a digit. -/
def afterLastDash? : Text → Option Text
  | [] => none
  | c :: cs =>
    match afterLastDash? cs with
    | some t => some t
    | none => if c = '-' then dottedStart? cs else none

/-- The version text at the front of a text, if the banner stands there. -/
def here? (b : Banner) (t : Text) : Option Text :=
  match b with
  | afterDash =>
    (Text.after? "version is " t).bind fun rest => afterLastDash? (rest.takeWhile (· ≠ '\n'))
  | afterName => (Text.after? "git version " t).bind dottedStart?
  | wholeWord =>
    (Text.after? "git version " t).bind fun rest =>
      match rest.takeWhile (!isBlank ·) with
      | [] => none
      | w => some w

/-- The version text at the first place where the banner stands. -/
def find? (b : Banner) (t : Text) : Option Text := t.tails.findSome? b.here?

/-- The version that a text announces, if it can be read. -/
def version? (b : Banner) (t : Text) : Option Version :=
  (b.find? t).bind fun v =>
    match Version.parse v with
    | .ok v => some v
    | .error _ => none

/-- The version that a text announces, or the oldest version. -/
def version (b : Banner) (t : Text) : Version := (b.version? t).getD Version.oldest

end Banner

end Annals
