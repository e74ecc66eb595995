import Amalgam.Cli.Command

/-!
# The program

The thin layer around `Cli.invoke`: it looks at the paths that the arguments name and at the places
of the settings, runs the command on what it found, and carries out what the command leaves behind.
There is no transport here, so every remote service is out of reach.
-/

set_option autoImplicit false

namespace Amalgam

/-- What stands at a path of the real disk. -/
def probe (path : String) : IO (Option Node) := do
  try
    let bytes ← IO.FS.readBinFile path
    return some (.file bytes.toList)
  catch
    | .noFileOrDirectory .. => return none
    | _ => return some .directory

/-- Adds to a disk what stands at a place and at the places on the way to it. -/
def lookAt (place : List String) : List String → Disk → IO Disk
  | [], disk => return disk
  | part :: parts, disk => do
    let place := if part == ".." then place.dropLast
      else if part == "" || part == "." then place
      else place ++ [part]
    match ← probe ("/" ++ "/".intercalate place) with
    | none => return disk
    | some node => lookAt place parts (disk.put place node)

/-- Adds to a disk what stands at some paths. -/
def lookAtAll : List String → Disk → IO Disk
  | [], disk => return disk
  | path :: paths, disk => do
    let disk ← lookAt (disk.start path) (Disk.partsOf path) disk
    lookAtAll paths disk

/-- The paths that arguments may name. -/
def mentioned (args : List String) : List String :=
  args.flatMap fun arg =>
    let behind := ((Cli.splitEquals arg).2).toList
    arg :: String.ofList (arg.toList.drop 2) :: behind

/-- How deep the program lets things nest. -/
def mainDepths : Depths := ⟨900, 900, 900⟩

/-- Carries out what is seen of the program; there are no calls to make. -/
def showEffect : Effect → IO Unit
  | .out text => IO.print text
  | .err text => IO.eprint text.display
  | .call _ => return ()

end Amalgam

open Amalgam in
def main (args : List String) : IO UInt32 := do
  let here := (Disk.partsOf (← IO.currentDir).toString).filter (· != "")
  let homes : Homes := ⟨(← IO.getEnv "HOME").getD "", []⟩
  let paths := mentioned args ++ Settings.defaultPaths.filterMap fun p => (homes.expand p).toOption
  let disk ← lookAtAll paths ⟨[], here⟩
  let world : World :=
    { disk := disk
      homes := homes
      key := ← IO.getEnv keyVariable
      transport := fun _ => .unreachable
      depths := mainDepths }
  let outcome := Cli.invoke world args
  for (path, bytes) in disk.changes outcome.disk do
    IO.FS.writeBinFile path ⟨bytes.toArray⟩
  outcome.effects.forM showEffect
  match outcome.exit with
  | .ok code => return code.toUInt32
  | .error fault =>
    IO.eprintln fault.message
    return 1
