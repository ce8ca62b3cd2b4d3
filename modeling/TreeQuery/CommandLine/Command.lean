import TreeQuery.CommandLine.Arguments
import TreeQuery.CommandLine.Rendering
import TreeQuery.Document.Files
import TreeQuery.Query.Documents

/-!
# Commands

A command is what a request asks for, with everything that it needs: where the query
comes from, how its result is rendered, and what else is to be shown.  Running a command
over files yields a text or a complaint; the phases that were shown before are kept in
both cases.

Documents are files below the base directory.  They are read before the evaluation; one
that cannot be read counts only if the evaluation comes to it.
-/

set_option autoImplicit false

namespace TreeQuery.CommandLine

/-- Where a query comes from. -/
inductive QuerySource where
  | given (query : String)
  | file (path : String)
  deriving DecidableEq

/-- What is to be done. -/
inductive Command where
  /-- Evaluate a document path. -/
  | evaluatePath (rendering : Rendering)
  /-- Evaluate a query, perhaps after optimizing it, perhaps showing what becomes of it. -/
  | evaluateQuery (optimizing showingPhases : Bool) (rendering : Rendering)
  /-- Optimize a query. -/
  | optimize (showingPhases : Bool) (format : OutputFormat)
  /-- Format a query. -/
  | format
  deriving DecidableEq

/-- A command with its query, and what applies to all commands. -/
structure Invocation where
  verbosity : Nat
  baseDirectory : String
  source : QuerySource
  command : Command
  deriving DecidableEq

/-! ## From requests to commands -/

namespace Request

variable (request : Request)

/-- The format that is asked for: text unless a format is given. -/
def format : OutputFormat :=
  if request.after.value? .format = some "json" then .json else .text

/-- The rendering that is asked for. -/
def rendering : Rendering :=
  ⟨request.after.has .verboseOutput, request.after.has .compact, request.format⟩

/-- The command that is asked for. -/
def command : Command :=
  match request.verb with
  | .xpath => .evaluatePath request.rendering
  | .xquery =>
      .evaluateQuery (request.after.has .optimize) (request.after.has .showPhases)
        request.rendering
  | .optimize => .optimize (request.after.has .showPhases) request.format
  | .format => .format

/-- Where the query comes from.  Every request names one of the two places. -/
def source : QuerySource :=
  match request.after.value? .file with
  | some path => .file path
  | none => .given (request.after.query.getD "")

/-- All that is asked for. -/
def invocation : Invocation :=
  ⟨request.verbosity, request.baseDirectory, request.source, request.command⟩

end Request

/-- Reads the arguments of the program. -/
def Invocation.ofArguments (arguments : List String) : Except UsageProblem Invocation :=
  (Request.ofArguments arguments).map (·.invocation)

/-! ## Running commands -/

/-- Why a command yields no text. -/
inductive Complaint where
  | unreadable (file : String)
  | failed (failure : Failure)
  deriving DecidableEq

/-- A complaint in words. -/
def Complaint.message : Complaint → String
  | .unreadable file => "cannot read query file " ++ file
  | .failed failure => failure.message

/-- A computation that shows phases and can fail; what was shown stays shown. -/
abbrev Running : Type → Type := EStateM Complaint (List String)

namespace Running

/-- Shows a phase. -/
def display (phase : String) : Running Unit :=
  modify (· ++ [phase])

/-- Goes on with a result, or fails as it does. -/
def attempt {α : Type} (result : Except Failure α) : Running α :=
  match result with
  | .ok value => return value
  | .error failure => throw (.failed failure)

end Running

open Running

/-- The text of a query. -/
def QuerySource.read (files : Files) : QuerySource → Running String
  | .given query => return query
  | .file path =>
      match files path with
      | .ok query => return query
      | .error _ => throw (.unreadable path)

/-- The processor over the documents that a query names below a base directory. -/
def processorFor (files : Files) (baseDirectory query : String) : Processor :=
  ⟨.ofLibrary (files.shelf baseDirectory (Query.documentsIn query)).library, .plain⟩

/-- The rendered result of an evaluation. -/
def renderOutcome (processor : Processor) (rendering : Rendering) (outcome : Outcome) : String :=
  rendering.render (processor.resolver.library.view outcome.constructed) outcome.items

/-- Runs a command on a query. -/
def Command.run (processor : Processor) (query : String) : Command → Running String
  | .evaluatePath rendering => do
      let outcome ← attempt (processor.evaluatePath query)
      return renderOutcome processor rendering outcome
  | .evaluateQuery optimizing showingPhases rendering => do
      if optimizing || showingPhases then
        let optimization ← attempt (processor.optimize query)
        if showingPhases then
          display (renamingPhase optimization)
          display (optimizingPhase optimization)
        let outcome ← attempt (processor.evaluate optimization.optimized)
        return renderOutcome processor rendering outcome
      else
        let outcome ← attempt (processor.evaluateSource query)
        return renderOutcome processor rendering outcome
  | .optimize showingPhases outputFormat => do
      let optimization ← attempt (processor.optimize query)
      if showingPhases then display (renamingPhase optimization)
      match outputFormat with
      | .text => return optimization.optimized.pretty
      | .json => return renderOptimization optimization
  | .format => do
      let query ← attempt (Query.parse query)
      return query.pretty

/-- Runs all that is asked for. -/
def Invocation.running (files : Files) (invocation : Invocation) : Running String := do
  let query ← invocation.source.read files
  invocation.command.run (processorFor files invocation.baseDirectory query) query

/-- What running a command has shown, and how it has ended. -/
structure Report where
  phases : List String
  result : Except Complaint String

/-- Runs all that is asked for, over files. -/
def Invocation.run (files : Files) (invocation : Invocation) : Report :=
  match (invocation.running files).run [] with
  | .ok text phases => ⟨phases, .ok text⟩
  | .error complaint phases => ⟨phases, .error complaint⟩

end TreeQuery.CommandLine
