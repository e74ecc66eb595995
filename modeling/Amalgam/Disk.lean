import Amalgam.Text.Beginning
import Amalgam.Text.Quoted
import Amalgam.Text.Utf8

/-!
# The disk

The disk is a tree of files with a working directory.  A path is walked part by part from there, or
from the root if it starts with a slash.
-/

set_option autoImplicit false

namespace Amalgam

/-- What stands at a place on the disk. -/
inductive Node where
  | file (bytes : List UInt8)
  | directory
  deriving DecidableEq, Repr

/-- Why a path cannot be opened. -/
inductive OpenCause where
  | missing
  | notDirectory
  | isDirectory
  /-- The path, or a name in it, has too many bytes. -/
  | tooLong
  /-- The path holds a NUL character. -/
  | notPath
  deriving DecidableEq, Repr

/-- A path that cannot be opened. -/
structure OpenError where
  cause : OpenCause
  path : String
  deriving DecidableEq, Repr

/-- The text of an error. -/
def OpenError.message (e : OpenError) : String :=
  match e.cause with
  | .missing => "[Errno 2] No such file or directory: " ++ quoted e.path
  | .notDirectory => "[Errno 20] Not a directory: " ++ quoted e.path
  | .isDirectory => "[Errno 21] Is a directory: " ++ quoted e.path
  | .tooLong => "[Errno 36] File name too long: " ++ quoted e.path
  | .notPath => "embedded null byte"

/-- Files and directories by the parts of their paths from the root, and the working directory. -/
structure Disk where
  entries : List (List String × Node)
  here : List String
  deriving DecidableEq, Repr

namespace Disk

/-- The parts of a path between its slashes. -/
def partsOf (path : String) : List String := (cutAt '/' path.toList).map String.ofList

/-- Whether a name has more bytes than names may have. -/
def isLongName (part : String) : Bool := 255 < part.utf8ByteSize

/-- Whether a path has more bytes than paths may have. -/
def isLongPath (path : String) : Bool := 4096 ≤ path.utf8ByteSize

/-- What stands at a place: every part of a known path but the last is a directory. -/
def node? (disk : Disk) (place : List String) : Option Node :=
  match disk.entries.find? fun e => e.1 == place with
  | some e => some e.2
  | none =>
    if place.isPrefixOf disk.here || disk.entries.any fun e => place.isPrefixOf e.1 then
      some .directory
    else none

/-- Puts a node at a place. -/
def put (disk : Disk) (place : List String) (node : Node) : Disk :=
  if disk.entries.any fun e => e.1 == place then
    { disk with entries := disk.entries.map fun e => if e.1 == place then (place, node) else e }
  else { disk with entries := disk.entries ++ [(place, node)] }

/-- The disk with these files and directories, given by their paths from the working directory. -/
def ofList (here : List String) (entries : List (String × Node)) : Disk :=
  entries.foldl (fun disk e =>
    disk.put (here ++ (partsOf e.1).filter fun p => p != "" && p != ".") e.2) ⟨[], here⟩

/-- The place one part further. -/
def next (disk : Disk) (place : List String) (part : String) : Except OpenCause (List String) :=
  match disk.node? place with
  | none => .error .missing
  | some (.file _) => .error .notDirectory
  | some .directory =>
    if part == "" || part == "." then .ok place
    else if part == ".." then .ok place.dropLast
    else if isLongName part then .error .tooLong
    else if (disk.node? (place ++ [part])).isSome then .ok (place ++ [part])
    else .error .missing

/-- The place after some parts. -/
def walk (disk : Disk) : (place : List String) → List String → Except OpenCause (List String)
  | place, [] => .ok place
  | place, part :: parts =>
    match disk.next place part with
    | .error e => .error e
    | .ok place => walk disk place parts

/-- Where a path starts. -/
def start (disk : Disk) (path : String) : List String :=
  if beginsWith "/" path then [] else disk.here

/-- What stands at a path. -/
def find (disk : Disk) (path : String) : Except OpenCause Node :=
  if path.toList.contains '\x00' then .error .notPath
  else if path.isEmpty then .error .missing
  else if isLongPath path then .error .tooLong
  else
    match disk.walk (disk.start path) (partsOf path) with
    | .error e => .error e
    | .ok place =>
      match disk.node? place with
      | none => .error .missing
      | some node => .ok node

/-- Whether something stands at a path. -/
def pathExists (disk : Disk) (path : String) : Bool := (disk.find path).toOption.isSome

/-- The bytes of the file at a path. -/
def read (disk : Disk) (path : String) : Except OpenError (List UInt8) :=
  match disk.find path with
  | .error cause => .error ⟨cause, path⟩
  | .ok .directory => .error ⟨.isDirectory, path⟩
  | .ok (.file bytes) => .ok bytes

/-- The last part of a path with a name, the parts before it, and whether a slash follows it. -/
def splitTarget (path : String) : List String × String × Bool :=
  let reversed := (partsOf path).reverse
  match reversed.dropWhile (· == "") with
  | [] => ([], "", true)
  | last :: before => (before.reverse, last, reversed.head? == some "")

/-- The disk after writing a file. -/
def write (disk : Disk) (path : String) (bytes : List UInt8) : Except OpenError Disk :=
  if path.toList.contains '\x00' then .error ⟨.notPath, path⟩
  else if path.isEmpty then .error ⟨.missing, path⟩
  else if isLongPath path then .error ⟨.tooLong, path⟩
  else
    let (before, last, slash) := splitTarget path
    match disk.walk (disk.start path) before with
    | .error cause => .error ⟨cause, path⟩
    | .ok place =>
      match disk.node? place with
      | none => .error ⟨.missing, path⟩
      | some (.file _) => .error ⟨.notDirectory, path⟩
      | some .directory =>
        let target := place ++ [last]
        if slash || last == "." || last == ".." then .error ⟨.isDirectory, path⟩
        else if isLongName last then .error ⟨.tooLong, path⟩
        else if disk.node? target == some .directory then .error ⟨.isDirectory, path⟩
        else .ok (disk.put target (.file bytes))

/-- The path of a place: from the working directory if it lies below it, else from the root. -/
def pathTo (disk : Disk) (place : List String) : String :=
  if disk.here.isPrefixOf place then "/".intercalate (place.drop disk.here.length)
  else "/" ++ "/".intercalate place

/-- The files of `after` that are new or different from those of `before`, sorted by path. -/
def changes (before after : Disk) : List (String × List UInt8) :=
  let changed := after.entries.filterMap fun e =>
    match e.2 with
    | .directory => none
    | .file bytes =>
      if before.node? e.1 == some (.file bytes) then none else some (after.pathTo e.1, bytes)
  changed.mergeSort fun a b => a.1 ≤ b.1

end Disk

end Amalgam
