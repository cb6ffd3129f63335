import TypeAtlas.Json.Message

/-!
# Failures

A failure is a cause and details of the case.  The causes form a small tree, given by
`Cause.general?`: every cause is a case of a more general one up to the plain `other`.  The text of
a failure is its message, with the details behind it if there are any.
-/

namespace TypeAtlas

/-- Why something failed. -/
inductive FailureCause where
  /-- Something else, in words. -/
  | other (message : String)
  /-- Parsing failed, in words. -/
  | parsing (message : String)
  /-- Neither backend has the grammar. -/
  | grammarUnavailable (grammar : String)
  /-- A file could not be parsed, or its tree not be read. -/
  | extraction (file : String) (message : String)
  /-- An input is not valid, in words. -/
  | invalid (message : String)
  /-- A saved graph or difference is not in its format. -/
  | format (message : String)
  /-- A language filter names no language. -/
  | unknownLanguage (language : String)
  /-- The working tree or the history cannot be read. -/
  | source (message : String)
  deriving Repr, DecidableEq

def FailureCause.message : FailureCause → String
  | .other message => message
  | .parsing message => message
  | .grammarUnavailable grammar => "Grammar unavailable: " ++ grammar
  | .extraction file message => "Failed to extract " ++ file ++ ": " ++ message
  | .invalid message => message
  | .format message => message
  | .unknownLanguage language => "Unknown language filter: " ++ language
  | .source message => message

def FailureCause.general? (cause : FailureCause) : Option FailureCause :=
  match cause with
  | .other _ => none
  | .grammarUnavailable _ => some (.parsing cause.message)
  | .extraction _ _ => some (.parsing cause.message)
  | .format _ => some (.invalid cause.message)
  | .unknownLanguage _ => some (.invalid cause.message)
  | .parsing _ => some (.other cause.message)
  | .invalid _ => some (.other cause.message)
  | .source _ => some (.other cause.message)

/-- A cause and the details of the case, as a rule a table. -/
structure Failure where
  cause : FailureCause
  details : Json := .obj []
  deriving Repr

namespace Failure

/-- A failure with given details; details that say nothing are the empty table. -/
def withDetails (cause : FailureCause) (details : Json) : Failure :=
  ⟨cause, if details.saysNothing then .obj [] else details⟩

/-- The message of a failure, without its details. -/
def message (failure : Failure) : String := failure.cause.message

def text (failure : Failure) : String :=
  if failure.details.saysNothing then failure.message
  else failure.message ++ " (details: " ++ failure.details.bare ++ ")"

def unknownLanguage (language : String) (supported : List String) : Failure :=
  ⟨.unknownLanguage language, .obj [("supported", .ofStrings supported)]⟩

end Failure
end TypeAtlas
