import Annals.Assoc
import Annals.Text.Basic

/-!
# Environment variables

The variables that are set, with their values. A variable that is set to the empty text counts, for most
purposes, as one that is not set.
-/

namespace Annals

abbrev Environment := Assoc Text Text

/-- A text, unless it is empty. -/
def Text.nonEmpty? (t : Text) : Option Text := if t.isEmpty then none else some t

theorem Text.eq_of_nonEmpty?_eq_some {t u : Text} (h : t.nonEmpty? = some u) : u = t := by
  unfold nonEmpty? at h
  split at h
  · exact nomatch h
  · exact (Option.some.inj h).symm

def Environment.lookup (env : Environment) (name : Text) : Option Text := Assoc.get? name env

/-- The value of a variable, unless it is empty. -/
def Environment.value? (env : Environment) (name : Text) : Option Text :=
  (env.lookup name).bind Text.nonEmpty?

end Annals
