import TreeQuery.CommandLine.Switch

/-!
# Reading arguments

Arguments are read from left to right.  A switch that takes a value takes what is
attached to it, or else the argument after it unless that is a switch itself.  A value
that is an argument of its own is judged only when something else comes up after it, so
that an argument which nothing knows is reported before it.  Behind two dashes every
argument is a query.

What is given after the verb is judged before what is given in front of it.  A switch
that can stand on both sides counts where it is given last.
-/

set_option autoImplicit false

namespace TreeQuery.CommandLine

/-- Why arguments ask for nothing that can be done. -/
inductive UsageProblem where
  | unknownArgument
  | unknownVerb
  | noVerb
  | nothingGiven
  | noQuery
  | conflict
  | invalidValue
  | superfluousValue
  | helpWanted
  | versionWanted
  deriving DecidableEq

/-- What the arguments before the verb, or those after it, have given so far. -/
structure Given where
  verbosity : Nat
  flags : List Switch
  values : List (Switch × String)
  query : Option String
  deriving DecidableEq

namespace Given

/-- Nothing is given yet. -/
def nothing : Given := ⟨0, [], [], none⟩

/-- Whether nothing is given. -/
def isNothing (given : Given) : Bool :=
  given = nothing

/-- The value that is given for a switch. -/
def value? (given : Given) (switch : Switch) : Option String :=
  given.values.lookup switch

/-- Whether a switch without a value is given. -/
def has (given : Given) (switch : Switch) : Bool :=
  given.flags.contains switch

/-- The greatest verbosity. -/
def greatestVerbosity : Nat := 255

/-- Gives a switch without a value. -/
def addFlag (given : Given) (switch : Switch) : Except UsageProblem Given :=
  match switch with
  | .help => .error .helpWanted
  | .version => .error .versionWanted
  | .verbose => .ok { given with verbosity := min greatestVerbosity (given.verbosity + 1) }
  | _ =>
      if given.has switch then .error .conflict
      else .ok { given with flags := given.flags ++ [switch] }

/-- Gives a switch with its value. -/
def addValue (given : Given) (switch : Switch) (value : String) : Except UsageProblem Given :=
  if (given.value? switch).isSome then .error .conflict
  else if switch.accepts value then .ok { given with values := given.values ++ [(switch, value)] }
  else .error .invalidValue

/-- Gives the query; there is only one. -/
def addQuery (given : Given) (query : String) : Except UsageProblem Given :=
  match given.query with
  | none => .ok { given with query := some query }
  | some _ => .error .unknownArgument

end Given

/-- What is given, and a switch whose value has not been judged yet or is still to come. -/
structure Progress where
  given : Given
  pending : Option (Switch × Option String)

namespace Progress

/-- Before the first argument. -/
def start : Progress := ⟨.nothing, none⟩

/-- Whether a value is to come. -/
def awaitsValue (progress : Progress) : Bool :=
  match progress.pending with
  | some (_, none) => true
  | _ => false

/-- Judges a value that has not been judged yet. -/
def settle (progress : Progress) : Except UsageProblem Given :=
  match progress.pending with
  | none => .ok progress.given
  | some (_, none) => .error .invalidValue
  | some (switch, some value) => progress.given.addValue switch value

/-- Reads a switch without a value. -/
def readFlag (progress : Progress) (switch : Switch) : Except UsageProblem Progress := do
  let given ← progress.settle
  return ⟨← given.addFlag switch, none⟩

/-- Reads a switch with the value attached to it. -/
def readAttached (progress : Progress) (switch : Switch) (value : String) :
    Except UsageProblem Progress := do
  let given ← progress.settle
  return ⟨← given.addValue switch value, none⟩

/-- Reads a switch whose value is to come. -/
def readAwaiting (progress : Progress) (switch : Switch) : Except UsageProblem Progress := do
  let given ← progress.settle
  return ⟨given, some (switch, none)⟩

/-- Reads a query. -/
def readQuery (progress : Progress) (query : String) : Except UsageProblem Progress := do
  if progress.given.query.isSome then throw .unknownArgument
  let given ← progress.settle
  return ⟨← given.addQuery query, none⟩

/-- Reads a switch given by its word, with the value attached to it if there is one. -/
def readWord (switches : List Switch) (progress : Progress) (word : String)
    (attached : Option String) : Except UsageProblem Progress :=
  match switches.find? (·.word == word) with
  | none => .error .unknownArgument
  | some switch =>
      match attached, switch.takesValue with
      | none, false => progress.readFlag switch
      | none, true => progress.readAwaiting switch
      | some _, false => .error .superfluousValue
      | some value, true => progress.readAttached switch value

/-- Reads switches given by their letters.  The first that takes a value takes all that
follows its letter. -/
def readLetters (switches : List Switch) (progress : Progress) :
    List Char → Except UsageProblem Progress
  | [] => .ok progress
  | letter :: rest =>
      match switches.find? (·.letter? == some letter) with
      | none => .error .unknownArgument
      | some switch =>
          if switch.takesValue then
            match rest with
            | [] => progress.readAwaiting switch
            | '=' :: value => progress.readAttached switch (String.ofList value)
            | value => progress.readAttached switch (String.ofList value)
          else do readLetters switches (← progress.readFlag switch) rest

/-- Reads an argument that begins like a switch; there is no result if it does not. -/
def readSwitch? (switches : List Switch) (progress : Progress) (argument : String) :
    Option (Except UsageProblem Progress) :=
  match argument.toList with
  | '-' :: '-' :: [] => none
  | '-' :: '-' :: body =>
      let attached := match body.dropWhile (· ≠ '=') with
        | _ :: value => some (String.ofList value)
        | [] => none
      some (progress.readWord switches (String.ofList (body.takeWhile (· ≠ '='))) attached)
  | '-' :: letter :: rest => some (progress.readLetters switches (letter :: rest))
  | _ => none

/-- Reads an argument that is no switch where a value is to come. -/
def readAwaited? (progress : Progress) (argument : String) : Option Progress :=
  match progress.pending with
  | some (switch, none) => some ⟨progress.given, some (switch, some argument)⟩
  | _ => none

end Progress

/-- The argument behind which no argument is a switch. -/
def separator : String := "--"

/-- Reads arguments that are queries. -/
def readQueries : List String → Progress → Except UsageProblem Given
  | [], progress => progress.settle
  | argument :: rest, progress => do readQueries rest (← progress.readQuery argument)

/-- Reads the arguments after a verb with the given switches. -/
def readAfterVerb (switches : List Switch) : List String → Progress → Except UsageProblem Given
  | [], progress => progress.settle
  | argument :: rest, progress =>
      if argument = separator then readQueries rest progress
      else match progress.readSwitch? switches argument with
      | some result => do readAfterVerb switches rest (← result)
      | none =>
          match progress.readAwaited? argument with
          | some progress => readAfterVerb switches rest progress
          | none => do readAfterVerb switches rest (← progress.readQuery argument)

/-- Whether what is given after a verb says what the query is, and says it once. -/
def Given.checkQuery (given : Given) : Except UsageProblem Unit :=
  match given.query, given.value? .file with
  | some _, some _ => .error .conflict
  | none, none => .error .noQuery
  | _, _ => .ok ()

/-- What is asked for behind the word for help. -/
def helpOn : List String → UsageProblem
  | [] => .helpWanted
  | [word] =>
      if word = helpWord || (Verb.ofWord? word).isSome then .helpWanted else .unknownVerb
  | _ => .unknownVerb

/-- Why the arguments in front of the verb end without one. -/
def Given.withoutVerb (given : Given) : UsageProblem :=
  if given.isNothing then .nothingGiven else .noVerb

/-- What is wrong with arguments that begin behind two dashes where a verb should be. -/
def withoutSwitches (progress : Progress) : List String → Except UsageProblem UsageProblem
  | [] => do return (← progress.settle).withoutVerb
  | argument :: _ =>
      if argument = helpWord || (Verb.ofWord? argument).isSome then .ok .unknownArgument
      else .ok .unknownVerb

/-- A verb with what is given before it and after it. -/
structure Request where
  verb : Verb
  before : Given
  after : Given
  deriving DecidableEq

/-- Reads arguments from the front, after what is given before them. -/
def readRequest : List String → Progress → Except UsageProblem Request
  | [], progress => do throw (← progress.settle).withoutVerb
  | argument :: rest, progress =>
      match if progress.awaitsValue then none else Verb.ofWord? argument with
      | some verb => do
          let after ← readAfterVerb verb.switches rest .start
          after.checkQuery
          let before ← progress.settle
          return ⟨verb, before, after⟩
      | none =>
          if !progress.awaitsValue && argument = helpWord then .error (helpOn rest)
          else if argument = separator then do throw (← withoutSwitches progress rest)
          else match progress.readSwitch? Switch.beforeVerb argument with
          | some result => do readRequest rest (← result)
          | none =>
              match progress.readAwaited? argument with
              | some progress => readRequest rest progress
              | none => .error .unknownVerb

namespace Request

/-- Reads the arguments of the program. -/
def ofArguments (arguments : List String) : Except UsageProblem Request :=
  readRequest arguments .start

variable (request : Request)

/-- The verbosity that counts. -/
def verbosity : Nat :=
  if request.after.verbosity = 0 then request.before.verbosity else request.after.verbosity

/-- The directory that documents are named in: unless one is given, the working
directory. -/
def baseDirectory : String :=
  match request.after.value? .baseDirectory, request.before.value? .baseDirectory with
  | some directory, _ => directory
  | none, some directory => directory
  | none, none => "."

end Request

end TreeQuery.CommandLine
