import TypeAtlas.Batch.Outcome
import TypeAtlas.Grammar.ParserPool
import TypeAtlas.Language

/-!
# Running a batch

Files are read one by one, by one worker or by several.  Each worker has parsers of its own; the
grammars are shared, and so is the patience of whoever asked for the batch: the number of files that
may still begin before the batch is cancelled.

With one worker the batch ends with the first file that is not begun.  With several, a `Schedule`
says which worker takes which file next; every file has its turn, and the outcomes are put back into
the order of the files, so that nothing of the schedule shows.

That no parser can be created is the one fault that is not confined to a file: then there is no
result.
-/

namespace TypeAtlas

open Syntax

/-- What a batch is run with: parsing is a function of the grammar and the text. -/
structure BatchSetup where
  installed : Installation
  parse : Grammar → String → Except String Tree
  languages : Option (List Language) := none
  workers : Nat := 1

/-- What all workers share.  Without a limit `patience` is absent. -/
structure Shared where
  cache : GrammarCache := {}
  loader : Loader := {}
  patience : Option Nat := none

def Shared.begin (shared : Shared) : Shared :=
  { shared with patience := shared.patience.map (· - 1) }

/-- The tree of a text, by the grammar that the parser is bound to. -/
def Parser.parse (parser : Parser) (parse : Grammar → String → Except String Tree) (text : String) :
    Except String Tree :=
  match parser.grammar with
  | none => .error "no grammar is bound"
  | some grammar => parse grammar text

namespace BatchSetup

def fail (file language : String) (stage : Stage) (error : String) : Logged Outcome := do
  Logged.tell .warning .batches "file_parse_failed"
    [("file", .str file), ("language", .str language), ("stage", .str stage.name),
      ("error", .str error)]
  pure (.failed ⟨file, language, stage, (FailureCause.extraction file error).message⟩)

def readTree (language : Language) (file : String) (tree : Tree) : Logged Outcome := do
  if tree.hasError then
    Logged.tell .debug .batches "syntax_errors_recovered" [("file", .str file)]
  match language.extractor.extract tree file with
  | .ok fragment => pure (.extracted fragment)
  | .error fault => fail file language.name .extract fault.message

def readFile (setup : BatchSetup) (language : Language) (parser : Parser) (file : SourceFile) :
    Logged Outcome :=
  match parser.parse setup.parse file.content with
  | .error message => fail file.path language.name .parse message
  | .ok tree => readTree language file.path tree

/-- The outcome of a file of a language, and the state after it. -/
def processAs (setup : BatchSetup) (language : Language) (file : SourceFile) (pool : ParserPool)
    (shared : Shared) : Logged (Except ImportFault Outcome × ParserPool × Shared) := do
  let grammar := language.extractor.grammarFor file.path
  let (found, pool, cache, loader) ←
    pool.parserFor setup.installed language.name grammar shared.cache shared.loader
  let shared := { shared with cache, loader }
  match found with
  | .error (.noParser fault) => pure (.error fault, pool, shared)
  | .error (.noGrammar failure) =>
    let diagnostic : Diagnostic := ⟨file.path, language.name, .grammar, failure.message⟩
    pure (.ok (.noGrammar grammar diagnostic), pool, shared)
  | .ok parser => do
    let outcome ← setup.readFile language parser file
    pure (.ok outcome, pool, shared)

/-- The outcome of a file, and the state after it. -/
def process (setup : BatchSetup) (file : SourceFile) (pool : ParserPool) (shared : Shared) :
    Logged (Except ImportFault Outcome × ParserPool × Shared) :=
  if shared.patience = some 0 then pure (.ok .cancelled, pool, shared)
  else
    match Language.dispatch file.path setup.languages with
    | none => pure (.ok .unsupported, pool, shared.begin)
    | some language => setup.processAs language file pool shared.begin

/-! ## One worker -/

/-- The outcomes of files that one worker reads in order. -/
def inOrder (setup : BatchSetup) (pool : ParserPool) (shared : Shared) :
    List SourceFile → Logged (Except ImportFault (List Outcome) × ParserPool × Shared)
  | [] => pure (.ok [], pool, shared)
  | file :: rest => do
    let (outcome, pool, shared) ← setup.process file pool shared
    match outcome with
    | .error fault => pure (.error fault, pool, shared)
    | .ok .cancelled => pure (.ok [.cancelled], pool, shared)
    | .ok outcome => do
      let (outcomes, pool, shared) ← setup.inOrder pool shared rest
      pure (outcomes.map (outcome :: ·), pool, shared)

/-! ## Several workers -/

/-- Which worker takes the file at which position, one turn after the other. -/
abbrev Schedule := List (Nat × Nat)

/-- The schedule by which the workers take the files in turn. -/
def Schedule.inTurn (workers files : Nat) : Schedule :=
  (List.range files).map fun position => (position % workers, position)

/-- What comes of the turns of a schedule: the outcome at each position, and the state after them.
Each worker begins with no parsers. -/
def follow (setup : BatchSetup) (files : List SourceFile) (pools : List (Nat × ParserPool))
    (shared : Shared) : Schedule → Logged (List (Nat × Except ImportFault Outcome) × Shared)
  | [] => pure ([], shared)
  | (worker, position) :: rest =>
    match files[position]? with
    | none => setup.follow files pools shared rest
    | some file => do
      let pool := (pools.lookup worker).getD {}
      let (outcome, pool, shared) ← setup.process file pool shared
      let (outcomes, shared) ← setup.follow files (putEntry pools worker pool) shared rest
      pure ((position, outcome) :: outcomes, shared)

/-- The outcomes in the order of the files; the first fault in this order is the fault of all. -/
def inFileOrder (count : Nat) (outcomes : List (Nat × Except ImportFault Outcome)) :
    Except ImportFault (List Outcome) :=
  ((List.range count).filterMap fun position => outcomes.lookup position).mapM id

/-- The outcomes of files that several workers read by a schedule. -/
def bySchedule (setup : BatchSetup) (schedule : Schedule) (shared : Shared)
    (files : List SourceFile) : Logged (Except ImportFault (List Outcome) × Shared) := do
  let (outcomes, shared) ← setup.follow files [] shared schedule
  pure (inFileOrder files.length outcomes, shared)

/-! ## Batches -/

/-- The result of outcomes, if there are any. -/
def conclude : Except ImportFault (List Outcome) → Logged (Except ImportFault BatchResult)
  | .error fault => pure (.error fault)
  | .ok outcomes => do
    let result ← BatchResult.merge outcomes
    pure (.ok result)

/-- The outcomes of a batch.  The parsers of `pool` belong to the worker that reads alone. -/
def outcomes (setup : BatchSetup) (files : List SourceFile) (pool : ParserPool) (shared : Shared) :
    Logged (Except ImportFault (List Outcome) × ParserPool × Shared) :=
  if 1 < setup.workers && 1 < files.length then do
    let schedule := Schedule.inTurn setup.workers files.length
    let (outcomes, shared) ← setup.bySchedule schedule shared files
    pure (outcomes, pool, shared)
  else setup.inOrder pool shared files

/-- Runs a batch. -/
def run (setup : BatchSetup) (files : List SourceFile) (pool : ParserPool) (shared : Shared) :
    Logged (Except ImportFault BatchResult × ParserPool × Shared) := do
  let (outcomes, pool, shared) ← setup.outcomes files pool shared
  let result ← conclude outcomes
  pure (result, pool, shared)

end BatchSetup
end TypeAtlas
