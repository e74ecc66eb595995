import Amalgam.Disk

/-!
# Home directories

A tilde in front of a path stands for a home directory: of the user if a slash or nothing follows
it, and otherwise of the account whose name follows it.
-/

set_option autoImplicit false

namespace Amalgam

/-- The home directory of the user, and those of the accounts by their names. -/
structure Homes where
  own : String
  accounts : List (String × String)
  deriving DecidableEq, Repr

namespace Homes

/-- The home directory that a name behind a tilde stands for; no name stands for the user. -/
def ofName? (homes : Homes) (name : String) : Option String :=
  if name.isEmpty then some homes.own else homes.accounts.lookup name

/-- What is left of a path behind its first name, put below a directory. -/
def below (directory : String) (rest : List Char) : String :=
  let path := (directory.toList.reverse.dropWhile (· == '/')).reverse ++ rest
  if path.isEmpty then "/" else String.ofList path

/-- A path with the home directory in the place of a tilde and the name behind it.  A name that no
account has stays as it is, and one that holds a NUL character cannot be looked up. -/
def expand (homes : Homes) (path : String) : Except OpenError String :=
  match path.toList with
  | '~' :: cs =>
    let name := cs.takeWhile (· != '/')
    if name.contains '\x00' then .error ⟨.notPath, path⟩
    else
      match homes.ofName? (String.ofList name) with
      | none => .ok path
      | some directory => .ok (below directory (cs.dropWhile (· != '/')))
  | _ => .ok path

/-- The first of the paths at which something stands.  Paths behind it are not looked at. -/
def locate (homes : Homes) (disk : Disk) : List String → Except OpenError (Option String)
  | [] => .ok none
  | path :: paths =>
    match homes.expand path with
    | .error e => .error e
    | .ok path => if disk.pathExists path then .ok (some path) else locate homes disk paths

end Homes

end Amalgam
