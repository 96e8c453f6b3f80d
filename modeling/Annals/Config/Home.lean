import Annals.Environment
import Annals.Failure

/-!
# Home directories

A path may begin with a tilde, which stands for the home directory of the user, or with a tilde and the
name of an account. The home directory of the user is the value of a variable, or the one of the account
that the program runs for if the variable is not set. Which home directories accounts have is told by the
system (`Homes`).
-/

namespace Annals

/-- The home directories of the accounts that the system knows. -/
structure Homes where
  /-- That of the account that the program runs for, if the system knows it. -/
  own? : Option Text := none
  /-- Those of accounts by their names. -/
  accounts : Assoc Text Text := []
  deriving DecidableEq, Repr

/-- The variable that holds the home directory of the user. -/
def homeVariable : Text := "HOME"

/-- The home directory of an account, or of the user if no name is given. It does not end in slashes,
unless it is the top of the tree. -/
def homeOf? (env : Environment) (homes : Homes) (account : Text) : Option Text :=
  let home? :=
    if account.isEmpty then (env.lookup homeVariable).or homes.own?
    else homes.accounts.get? account
  home?.map fun home =>
    let home := dropEndWhile (· = '/') home
    if home.isEmpty then "/" else home

/-- The path with a tilde at its front, and the name of an account behind it, replaced by the home
directory. A home directory that begins with a tilde itself is none. -/
def expandHome (env : Environment) (homes : Homes) (p : Path) : Except Failure Path :=
  match p.anchor, p.parts with
  | [], ('~' :: account) :: rest =>
    match homeOf? env homes account with
    | none => .error .noHome
    | some home =>
      if Text.startsWith ['~'] home then .error .noHome
      else
        let home := Path.ofText home
        .ok ⟨home.anchor, home.parts ++ rest⟩
  | _, _ => .ok p

end Annals
