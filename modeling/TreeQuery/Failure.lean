import TreeQuery.Grammar.Parser
import TreeQuery.Markup.Fault

/-!
# Failures

Everything that can keep a query from having a value: a text outside the grammar, a
constructor whose closing tag does not repeat its opening tag, a document that cannot be
read or is not well formed, a variable that nothing binds, and a join whose key lists
differ in length.  A failure is a cause; its message and its code are computed from it.
-/

set_option autoImplicit false

namespace TreeQuery

/-- Why the text of a document could not be obtained. -/
inductive Unavailability where
  | unknown
  | notFound
  | isDirectory
  | notDirectory
  | notText
  | nameTooLong
  | nullInName
  | other (description : String)
  deriving DecidableEq

/-- The reason in words. -/
def Unavailability.message : Unavailability → String
  | .unknown => "unknown document"
  | .notFound => "No such file or directory (os error 2)"
  | .isDirectory => "Is a directory (os error 21)"
  | .notDirectory => "Not a directory (os error 20)"
  | .notText => "stream did not contain valid UTF-8"
  | .nameTooLong => "File name too long (os error 36)"
  | .nullInName => "file name contained an unexpected NUL byte"
  | .other description => description

/-- Why a query has no value. -/
inductive Failure where
  | ungrammatical (mismatch : Grammar.Mismatch)
  | tagClash (clash : Grammar.TagClash)
  | unavailable (document : String) (reason : Unavailability)
  | malformed (document : String) (fault : Markup.Fault)
  | unboundVariable (name : String)
  | joinArity (left right : Nat)
  deriving DecidableEq

namespace Failure

/-- A failure in words. -/
def message : Failure → String
  | .ungrammatical ⟨position, expectation⟩ =>
      "syntax error at line " ++ toString position.line ++ ", column " ++
        toString position.column ++ ": " ++ expectation.message
  | .tagClash ⟨opening, closing⟩ =>
      "closing tag </" ++ closing ++ "> does not match <" ++ opening ++ ">"
  | .unavailable document reason =>
      "cannot load document '" ++ document ++ "': " ++ reason.message
  | .malformed document fault =>
      "document '" ++ document ++ "' is not well-formed: " ++ fault.message
  | .unboundVariable name => "variable $" ++ name ++ " is not bound"
  | .joinArity left right =>
      "join key lists differ in length (" ++ toString left ++ " vs " ++ toString right ++ ")"

/-- The code of a failure. -/
def code : Failure → String
  | .ungrammatical _ => "err:XPST0003"
  | .tagClash _ => "err:XQST0118"
  | .unavailable _ _ => "err:FODC0002"
  | .malformed _ _ => "err:FODC0006"
  | .unboundVariable _ => "err:XPST0008"
  | .joinArity _ _ => "err:XPTY0004"

end Failure

end TreeQuery
