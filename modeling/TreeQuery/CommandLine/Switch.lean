/-!
# Switches and verbs

The words of the command line.  A verb says what is to be done; a switch says how.  A
switch is written with two dashes and a word, some also with one dash and a letter, and
some take a value.  Two switches are known everywhere, before and after the verb.
-/

set_option autoImplicit false

namespace TreeQuery.CommandLine

/-- What can be done. -/
inductive Verb where
  | xpath
  | xquery
  | optimize
  | format
  deriving DecidableEq

/-- How something is to be done. -/
inductive Switch where
  | verbose
  | baseDirectory
  | help
  | version
  | file
  | verboseOutput
  | compact
  | optimize
  | showPhases
  | format
  deriving DecidableEq

/-- The word of a verb. -/
def Verb.word : Verb → String
  | .xpath => "xpath"
  | .xquery => "xquery"
  | .optimize => "optimize"
  | .format => "format"

/-- The verb with a given word. -/
def Verb.ofWord? (word : String) : Option Verb :=
  [Verb.xpath, .xquery, .optimize, .format].find? (·.word == word)

/-- The word that asks for help where a verb could stand. -/
def helpWord : String := "help"

namespace Switch

/-- The word of a switch. -/
def word : Switch → String
  | .verbose => "verbose"
  | .baseDirectory => "base-dir"
  | .help => "help"
  | .version => "version"
  | .file => "file"
  | .verboseOutput => "verbose-output"
  | .compact => "compact"
  | .optimize => "optimize"
  | .showPhases => "show-phases"
  | .format => "format"

/-- The letter of a switch. -/
def letter? : Switch → Option Char
  | .verbose => some 'v'
  | .help => some 'h'
  | .version => some 'V'
  | .file => some 'f'
  | _ => none

/-- Whether a switch takes a value. -/
def takesValue : Switch → Bool
  | .baseDirectory | .file | .format => true
  | _ => false

/-- Whether a switch can have a value: the value of a format is one of two words, and any
other value must not be empty. -/
def accepts (switch : Switch) (value : String) : Bool :=
  match switch with
  | .format => value = "text" || value = "json"
  | _ => !value.isEmpty

/-- The switches that are known before the verb. -/
def beforeVerb : List Switch := [.verbose, .baseDirectory, .help, .version]

end Switch

/-- The switches that are known after a verb. -/
def Verb.switches : Verb → List Switch
  | .xpath => [.verbose, .baseDirectory, .help, .file, .verboseOutput, .compact, .format]
  | .xquery =>
      [.verbose, .baseDirectory, .help, .file, .optimize, .showPhases, .verboseOutput, .compact,
        .format]
  | .optimize => [.verbose, .baseDirectory, .help, .file, .showPhases, .format]
  | .format => [.verbose, .baseDirectory, .help, .file]

end TreeQuery.CommandLine
