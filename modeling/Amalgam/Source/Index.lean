import Amalgam.Source.File

/-!
# Looking up an include

An include may be written with a path or without one, and the names of the files may or may not have
one.  A name is therefore looked up as it is written first, and by its basename otherwise.  Of
several files the last one counts.
-/

set_option autoImplicit false

namespace Amalgam

/-- The last element with a property. -/
def findLast? {α : Type} (p : α → Bool) (xs : List α) : Option α := xs.reverse.find? p

/-- The files that includes are looked up in. -/
structure Index where
  files : List Placed

namespace Index

def ofFiles (files : List TextFile) : Index := ⟨place files⟩

/-- The last file of this name. -/
def byName? (index : Index) (name : String) : Option Placed :=
  findLast? (fun p => p.file.name == name) index.files

/-- The last file of this basename. -/
def byBasename? (index : Index) (base : String) : Option Placed :=
  findLast? (fun p => basename p.file.name == base) index.files

/-- The file that an include of `name` means. -/
def target? (index : Index) (name : String) : Option Placed :=
  (index.byName? name).or (index.byBasename? (basename name))

/-- The names of the files, each once. -/
def names (index : Index) : List String := (index.files.map fun p => p.file.name).eraseDups

/-- The basenames of the files, each once. -/
def basenames (index : Index) : List String :=
  (index.files.map fun p => basename p.file.name).eraseDups

/-- The number of different names. -/
def size (index : Index) : Nat := index.names.length

/-- Each name with the position of the file it stands for. -/
def nameTable (index : Index) : List (String × Nat) :=
  index.names.filterMap fun n => (index.byName? n).map fun p => (n, p.position)

/-- Each basename with the position of the file it stands for. -/
def basenameTable (index : Index) : List (String × Nat) :=
  index.basenames.filterMap fun b => (index.byBasename? b).map fun p => (b, p.position)

end Index

end Amalgam
