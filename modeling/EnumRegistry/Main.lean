import EnumRegistry.CommandLine.Outcome

/-!
The program, run on the machine's own files.
-/

namespace EnumRegistry

def FileFailure.ofSystem : IO.Error → FileFailure
  | .noFileOrDirectory _ _ _ => missing
  | .alreadyExists _ _ _ => occupied
  | .inappropriateType _ 21 _ => isDirectory
  | .inappropriateType _ _ _ => notDirectory
  | .invalidArgument _ 36 _ => nameTooLong
  | .permissionDenied _ 13 _ => other "Permission denied (os error 13)"
  | e => other (toString e)

def attempt {α : Type} (act : IO α) : IO (Except FileFailure α) := do
  return (← act.toBaseIO).mapError .ofSystem

def isDirectory (path : String) : IO Bool := do
  try (← IO.FS.realPath path).isDir
  catch _ => return false

/-- Makes a directory, unless it is there, in one that is there. -/
def makeDirectory (path : String) : IO Unit := do
  try IO.FS.createDir path
  catch e => unless ← isDirectory path do throw e

/-- Makes the first directory of a list in which each is in the next. -/
def makeDirectories : List String → IO Unit
  | [] => return
  | path :: outer => do
    try makeDirectory path
    catch
      | .noFileOrDirectory _ _ _ => makeDirectories outer; makeDirectory path
      | e => throw e

/-- The directories on the way to a path, innermost first. -/
def directoriesTo (path : String) : List String :=
  let names := (path.splitOn "/").dropLast
  let paths := (List.range (names.length + 1)).map fun n => "/".intercalate (names.take n)
  (paths.filter (!·.isEmpty)).reverse

def machineFiles : FileStore IO where
  read path := attempt do return (← IO.FS.readBinFile path).toList
  write path content := attempt do
    makeDirectories (directoriesTo path)
    IO.FS.writeFile path content

end EnumRegistry

def main (arguments : List String) : IO UInt32 := do
  let outcome ← EnumRegistry.Outcome.ofArguments EnumRegistry.machineFiles arguments
  (← IO.getStdout).putStr outcome.stdout
  (← IO.getStderr).putStr outcome.stderr
  return outcome.code.toUInt32
