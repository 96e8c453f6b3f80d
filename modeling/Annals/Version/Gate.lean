import Annals.Note
import Annals.Once
import Annals.Text.Quoted
import Annals.Version.Banner

/-!
# Version gates

A tool changed its formats at some version. Whether the tool works and which version it has is found out
from what it prints when asked; from then on a threshold chooses between the new and the old format.
-/

namespace Annals

/-- What is known of a tool. -/
structure ToolStatus where
  working : Bool
  version : Version
  deriving DecidableEq

namespace ToolStatus

/-- What the text that a tool printed tells about it. A tool that printed nothing usable does not
work. -/
def ofOutput (b : Banner) : Option Text → ToolStatus
  | none => ⟨false, .oldest⟩
  | some t => ⟨true, b.version t⟩

/-- The notes about the text that a tool printed. -/
def remarks (b : Banner) : Option Text → List Note
  | none => []
  | some t =>
    match b.version? t with
    | some _ => []
    | none =>
      [.debug .versions
        ("No version number in " ++ t.quoted ++ ", assuming " ++ Version.oldest.toText)]

/-- Whether the version is at or above a threshold. -/
def supports (s : ToolStatus) (threshold : Version) : Bool := decide (threshold ≤ s.version)

/-- The format that fits the version: the new one from the threshold on. -/
def select (s : ToolStatus) (threshold : Version) (new old : Text) : Text :=
  if s.supports threshold then new else old

end ToolStatus

end Annals
