import TreeQuery.CommandLine.Command

/-!
# Transcripts

A transcript is what the program leaves behind: what it writes to its output and to its
diagnostics, and the code it exits with.  A command that fails says so by the code alone;
arguments that ask for nothing that can be done have a code of their own.
-/

set_option autoImplicit false

namespace TreeQuery.CommandLine

/-- What the program leaves behind. -/
structure Transcript where
  exitCode : Nat
  output : String
  diagnostics : String
  deriving DecidableEq

/-- The text of whole lines: every line is ended. -/
def endLines (lines : List String) : String :=
  String.join (lines.map (· ++ "\n"))

/-- The transcript of a command that has been run. -/
def Report.transcript (report : Report) : Transcript :=
  let diagnostics := endLines report.phases
  match report.result with
  | .ok text => ⟨0, if text.isEmpty then "" else text ++ "\n", diagnostics⟩
  | .error _ => ⟨1, "", diagnostics⟩

/-- The name and the version of the program. -/
def versionText : String := "xjoin 0.1.0"

/-- What the program can be asked for. -/
def usageText : String :=
  endLines
    ["Usage: xjoin [-v] [--base-dir DIR] COMMAND",
      "",
      "Commands:",
      "  xpath     evaluate a document path",
      "  xquery    evaluate a query, with --optimize through joins",
      "  optimize  print the renamed and optimized form of a query",
      "  format    print a query in its layout",
      "  help      print this text"]

/-- The transcript of arguments that ask for nothing that can be done. -/
def UsageProblem.transcript : UsageProblem → Transcript
  | .helpWanted => ⟨0, usageText, ""⟩
  | .versionWanted => ⟨0, versionText ++ "\n", ""⟩
  | _ => ⟨2, "", usageText⟩

/-- The transcript of the program on its arguments, over files. -/
def transcript (files : Files) (arguments : List String) : Transcript :=
  match Invocation.ofArguments arguments with
  | .ok invocation => (invocation.run files).transcript
  | .error problem => problem.transcript

/-- The paths of the files that a request can come to, once its query is known. -/
def Invocation.documentPaths (invocation : Invocation) (query : String) : List String :=
  match invocation.command with
  | .evaluatePath _ | .evaluateQuery _ _ _ =>
      (Query.documentsIn query).map (joinPath invocation.baseDirectory)
  | .optimize _ _ | .format => []

end TreeQuery.CommandLine
