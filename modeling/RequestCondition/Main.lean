import RequestCondition.CommandLine.Basic
import RequestCondition.FileSystem.Probe

/-!
# The program

The program fetches what a command needs and delivers what it reports; what a command does is
`Command.run`.

The paths that a condition asks about are not known before it is evaluated, and they may depend on
what was found at others.  So the command is run in the file system that has been probed so far, and
each path that it then asks about for the first time is probed, until there is none.
-/

set_option autoImplicit false

namespace RequestCondition

/-- The error that the system reports by a number, which may come with its sign turned. -/
def fileErrorOfCode (code : UInt32) : FileError :=
  match (if code < 0x80000000 then code else 0 - code).toNat with
  | 13 => .denied
  | 20 => .notDirectory
  | 21 => .isDirectory
  | 22 => .nulInPath
  | 36 => .nameTooLong
  | 40 => .tooManyLinks
  | _ => .notFound

/-- The reason why a file cannot be read. -/
def fileErrorOf : IO.Error → FileError
  | .permissionDenied _ _ _ => .denied
  | .inappropriateType _ code _ => fileErrorOfCode code
  | .invalidArgument _ code _ => fileErrorOfCode code
  | .otherError code _ => fileErrorOfCode code
  | _ => .notFound

/-- What the system says about a file. -/
def statusOf (m : IO.FS.Metadata) : FileStatus :=
  match m.type with
  | .file => .file m.byteSize.toNat
  | .dir => .directory
  | _ => .special

/-- Looks at a path. -/
def probe (path : String) : IO Probe := do
  if path = "" then return .missing
  let entry : IO.FS.DirEntry := ⟨".", path⟩
  let status? ← try
      let m ← entry.path.metadata
      pure (some (statusOf m))
    catch _ => pure none
  let isLink ← try
      let m ← entry.path.symlinkMetadata
      pure (match m.type with | .symlink => true | _ => false)
    catch _ => pure false
  let contents ← if status? == some .special then pure (.ok [])
    else try
      let bytes ← IO.FS.readBinFile path
      pure (.ok bytes.toList)
    catch e => pure (.error (fileErrorOf e))
  return ⟨status?, isLink, contents⟩

/-- Runs a command once every path that it asks about has been probed. -/
partial def runProbing (command : Command) (input : List UInt8) (probes : List (String × Probe)) :
    IO RunReport := do
  let fs := FileSystem.ofProbes probes
  match (command.paths fs input).find? fun path ↦ (probes.lookup path).isNone with
  | none => return command.run fs input
  | some path => runProbing command input ((path, ← probe path) :: probes)

/-- The bytes of the standard input, unless it is a terminal. -/
partial def readInput : IO (List UInt8) := do
  let stdin ← IO.getStdin
  if ← stdin.isTty then return []
  let rec collect (bytes : ByteArray) : IO ByteArray := do
    let more ← stdin.read 65536
    if more.isEmpty then return bytes else collect (bytes ++ more)
  return (← collect .empty).toList

end RequestCondition

open RequestCondition in
/-- Runs the program on its arguments. -/
def main (arguments : List String) : IO UInt32 := do
  let report ← match Command.ofArguments arguments with
    | .error e => pure (RunReport.misuse e)
    | .ok command => do
      let input ← if command.readsInput then readInput else pure []
      runProbing command input []
  (← IO.getStdout).putStr report.output
  (← IO.getStderr).putStr report.errors
  return report.exitCode
