/-!
# Errors in regular expressions
-/

namespace UrlRouting.Regex

/-- Why a text is no regular expression. -/
inductive SyntaxError
  | nestingTooDeep
  | unclosedGroup
  | unopenedGroup
  | unclosedComment
  | unclosedClass
  | invalidClass
  | nothingToRepeat
  | invalidRepetition
  | trailingBackslash
  | invalidEscape
  | invalidHex
  | unclosedPropertyName
  | unknownProperty
  | invalidGroupName
  | unknownGroup
  | unknownFlag
  | unsupported
  | variableLookBehind
  | tooLarge
  deriving DecidableEq, Repr

/-- What is said of a text that is no expression. The cause says more. -/
def SyntaxError.message (_ : SyntaxError) : String := "<engine>"

end UrlRouting.Regex
