import TreeQuery.CommandLine.Transcript

/-!
# The program

Reads the files that the arguments name, leaves all the rest to the command line over
those files, and writes down its transcript.
-/

set_option autoImplicit false

namespace TreeQuery.CommandLine

/-- The number of an error of the operating system, which is sometimes given as its
complement. -/
def errorNumber (code : UInt32) : Nat :=
  if code.toNat < 0x80000000 then code.toNat else UInt32.size - code.toNat

/-- Why a file could not be read. -/
def unavailabilityOf : IO.Error → Unavailability
  | .noFileOrDirectory _ _ _ => .notFound
  | .permissionDenied _ _ _ => .other "Permission denied (os error 13)"
  | .inappropriateType _ code description =>
      if errorNumber code = 21 then .isDirectory
      else if errorNumber code = 20 then .notDirectory
      else .other description
  | .invalidArgument _ code description =>
      if errorNumber code = 36 then .nameTooLong else .other description
  | error => .other (toString error)

/-- The text of a file. -/
def readText (path : String) : IO (Except Unavailability String) := do
  if path.toList.contains '\x00' then return .error .nullInName
  try
    match String.fromUTF8? (← IO.FS.readBinFile path) with
    | some content => return .ok content
    | none => return .error .notText
  catch error => return .error (unavailabilityOf error)

/-- The files at some paths. -/
def readFiles (paths : List String) : IO (List (String × Except Unavailability String)) :=
  paths.mapM fun path => do return (path, ← readText path)

/-- The files that an invocation can come to. -/
def filesFor (invocation : Invocation) : IO Files := do
  match invocation.source with
  | .given query => return .ofContents (← readFiles (invocation.documentPaths query))
  | .file path =>
      let content ← readText path
      let paths := match content with
        | .ok query => invocation.documentPaths query
        | .error _ => []
      return .ofContents ((path, content) :: (← readFiles paths))

end TreeQuery.CommandLine

open TreeQuery.CommandLine in
/-- Runs the program. -/
def main (arguments : List String) : IO UInt32 := do
  let files ← match Invocation.ofArguments arguments with
    | .ok invocation => filesFor invocation
    | .error _ => pure (.ofContents [])
  let result := transcript files arguments
  (← IO.getStderr).putStr result.diagnostics
  (← IO.getStdout).putStr result.output
  return UInt32.ofNat result.exitCode
