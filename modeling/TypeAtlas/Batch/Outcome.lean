import TypeAtlas.Graph.Assembly
import TypeAtlas.Log.Event

/-!
# What comes of a batch of files

Every file of a batch has one outcome, and the result of the batch is put together from the outcomes
in the order of the files, each of its parts on its own: `BatchResult.ofOutcomes`.  A grammar that
cannot be had is reported with the first file that needs it and not again.
-/

namespace TypeAtlas

/-- The stage at which reading a file failed. -/
inductive Stage where
  | grammar | parse | extract
  deriving Repr, DecidableEq

def Stage.name : Stage → String
  | .grammar => "grammar"
  | .parse => "parse"
  | .extract => "extract"

/-- A problem with one file, or with one grammar, that did not keep the others from being read. -/
structure Diagnostic where
  file : String
  language : String
  stage : Stage
  message : String
  deriving Repr, DecidableEq

def Diagnostic.describe (diagnostic : Diagnostic) : String :=
  diagnostic.file ++ " [" ++ diagnostic.language ++ "/" ++ diagnostic.stage.name ++ "]: " ++
    diagnostic.message

/-- What came of one file. -/
inductive Outcome where
  /-- The batch was cancelled before the file. -/
  | cancelled
  /-- No admitted language has files of this extension. -/
  | unsupported
  /-- The grammar cannot be had. -/
  | noGrammar (grammar : String) (diagnostic : Diagnostic)
  /-- The file could not be parsed, or its declarations not be read. -/
  | failed (diagnostic : Diagnostic)
  /-- The declarations of the file. -/
  | extracted (fragment : Fragment)
  deriving DecidableEq

namespace Outcome

/-- The fragment of an outcome; without declarations it is empty. -/
def fragment : Outcome → Fragment
  | .extracted fragment => fragment
  | _ => {}

/-- Whether the file was read, with or without success. -/
def isProcessed : Outcome → Bool
  | .failed _ => true
  | .extracted _ => true
  | _ => false

def isSkipped : Outcome → Bool
  | .unsupported => true
  | .noGrammar _ _ => true
  | _ => false

def isCancelled : Outcome → Bool
  | .cancelled => true
  | _ => false

/-- The grammar that cannot be had, with the diagnostic. -/
def missingGrammar? : Outcome → Option (String × Diagnostic)
  | .noGrammar grammar diagnostic => some (grammar, diagnostic)
  | _ => none

end Outcome

/-- What came of a batch. -/
structure BatchResult where
  nodes : List Node := []
  edges : List Edge := []
  diagnostics : List Diagnostic := []
  processed : Nat := 0
  skipped : Nat := 0
  cancelled : Bool := false
  deriving DecidableEq

namespace BatchResult

/-- The diagnostics of outcomes after some grammars have been reported as missing. -/
def diagnosticsAfter (reported : List String) : List Outcome → List Diagnostic
  | [] => []
  | .noGrammar grammar diagnostic :: rest =>
    if reported.contains grammar then diagnosticsAfter reported rest
    else diagnostic :: diagnosticsAfter (grammar :: reported) rest
  | .failed diagnostic :: rest => diagnostic :: diagnosticsAfter reported rest
  | _ :: rest => diagnosticsAfter reported rest

def ofOutcomes (outcomes : List Outcome) : BatchResult where
  nodes := outcomes.flatMap fun outcome => outcome.fragment.nodes
  edges := outcomes.flatMap fun outcome => outcome.fragment.edges
  diagnostics := diagnosticsAfter [] outcomes
  processed := outcomes.countP Outcome.isProcessed
  skipped := outcomes.countP Outcome.isSkipped
  cancelled := outcomes.any Outcome.isCancelled

def tellMissing (missing : String × Diagnostic) : Event :=
  ⟨.warning, .batches, "grammar_unavailable",
    [("grammar", .str missing.1), ("language", .str missing.2.language),
      ("error", .str missing.2.message)]⟩

def tellCancelled (result : BatchResult) : List Event :=
  if result.cancelled then
    [⟨.info, .batches, "extraction_cancelled", [("processed", .ofNat result.processed)]⟩]
  else []

/-- The result of a batch, with what is told of it. -/
def merge (outcomes : List Outcome) : Logged BatchResult :=
  let result := ofOutcomes outcomes
  let missing := firsts Prod.fst (outcomes.filterMap Outcome.missingGrammar?)
  ⟨result, missing.map tellMissing ++ result.tellCancelled⟩

end BatchResult
end TypeAtlas
