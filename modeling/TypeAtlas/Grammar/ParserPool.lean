import TypeAtlas.Entries
import TypeAtlas.Grammar.Cache

/-!
# Parsers

A parser parses with the grammar that it is bound to.  A pool has one parser per language, which is
bound to another grammar when a file needs that; the pool's own record of bindings says when this is
so.
-/

namespace TypeAtlas

/-- A parser and the grammar that it is bound to, if any. -/
structure Parser where
  grammar : Option Grammar := none
  deriving Repr, DecidableEq

/-- The parser when its language was set to a grammar.  It is assumed of the core that this does not
fail: a parser could refuse a grammar that was made for another version of the core, and no such
grammar is among those that can be loaded. -/
def Parser.boundTo (parser : Parser) (grammar : Grammar) : Parser :=
  { parser with grammar := some grammar }

/-- Why there is no parser to be had. -/
inductive ParserFault where
  /-- The grammar cannot be had. -/
  | noGrammar (failure : Failure)
  /-- No parser can be created. -/
  | noParser (fault : ImportFault)
  deriving Repr

/-- The parsers of a worker by language, in the order of creation, and the names of the grammars to
which they are bound. -/
structure ParserPool where
  parsers : List (String × Parser) := []
  bound : List (String × String) := []
  deriving Repr, DecidableEq

namespace ParserPool

def size (pool : ParserPool) : Nat := pool.parsers.length

def parser? (pool : ParserPool) (language : String) : Option Parser :=
  pool.parsers.lookup language

/-- The number of a language's parser in the order of creation. -/
def position? (pool : ParserPool) (language : String) : Option Nat :=
  pool.parsers.findIdx? fun entry => entry.1 == language

def put (pool : ParserPool) (language : String) (parser : Parser) : ParserPool :=
  { pool with parsers := putEntry pool.parsers language parser }

/-- With the parser of a language bound to a grammar, if the record does not say that it is. -/
def bind (pool : ParserPool) (language : String) (parser : Parser) (name : String)
    (loaded : LoadedGrammar) : Parser × ParserPool :=
  if pool.bound.lookup language = some name then (parser, pool)
  else
    let parser := parser.boundTo loaded.grammar
    (parser, { parsers := putEntry pool.parsers language parser
               bound := putEntry pool.bound language name })

/-- The parser of a language, created if there is none yet. -/
def obtain (installed : Installation) (language : String) (backend : Backend) (pool : ParserPool)
    (loader : Loader) : Logged (Except ImportFault (Parser × ParserPool) × Loader) :=
  match pool.parser? language with
  | some parser => pure (.ok (parser, pool), loader)
  | none => do
    let (created, loader) ← loader.createParser installed (backend = .portable)
    pure (created.map fun _ => ({}, pool.put language {}), loader)

/-- A parser for a language, bound to the grammar of a name. -/
def parserFor (installed : Installation) (language name : String) (pool : ParserPool)
    (cache : GrammarCache) (loader : Loader) :
    Logged (Except ParserFault Parser × ParserPool × GrammarCache × Loader) := do
  let (outcome, cache, loader) ← cache.get installed name loader
  match outcome with
  | .error failure => pure (.error (.noGrammar failure), pool, cache, loader)
  | .ok loaded =>
    let (obtained, loader) ← pool.obtain installed language loaded.backend loader
    match obtained with
    | .error fault => pure (.error (.noParser fault), pool, cache, loader)
    | .ok (parser, pool) =>
      let (parser, pool) := pool.bind language parser name loaded
      pure (.ok parser, pool, cache, loader)

end ParserPool
end TypeAtlas
