import TypeAtlas.Grammar.Loading

/-!
# The cache of grammars

The grammars that files may need are known by name.  A cache loads each of them once: what was
loaded stays, in the order of first success, and what failed stays failed.
-/

namespace TypeAtlas

def GrammarSpec.table : List GrammarSpec :=
  [⟨"typescript", "typescript", some "tree_sitter_typescript", "language_typescript"⟩,
    ⟨"tsx", "tsx", some "tree_sitter_typescript", "language_tsx"⟩,
    ⟨"java", "java", some "tree_sitter_java", "language"⟩,
    ⟨"go", "go", some "tree_sitter_go", "language"⟩,
    ⟨"swift", "swift", some "tree_sitter_swift", "language"⟩]

def GrammarSpec.find? (name : String) : Option GrammarSpec :=
  table.find? fun spec => spec.name = name

/-- Whether a compiled grammar is the one that a specification asks for, from either source. -/
def GrammarSpec.describes (spec : GrammarSpec) : Grammar → Bool
  | .native module export_ => spec.nativeModule = some module && spec.nativeExport = export_
  | .portable name => spec.portableName = name

def Failure.unknownGrammar (name : String) : Failure :=
  ⟨.grammarUnavailable name, .obj [("reason", .str "unknown grammar")]⟩

/-- The grammars that were loaded and those that could not be. -/
structure GrammarCache where
  forcePortable : Bool := false
  loaded : List (String × LoadedGrammar) := []
  failed : List (String × Failure) := []

namespace GrammarCache

def keep (cache : GrammarCache) (name : String) (loaded : LoadedGrammar) : GrammarCache :=
  { cache with loaded := cache.loaded ++ [(name, loaded)] }

def refuse (cache : GrammarCache) (name : String) (failure : Failure) : GrammarCache :=
  { cache with failed := cache.failed ++ [(name, failure)] }

def known? (cache : GrammarCache) (name : String) : Option (Except Failure LoadedGrammar) :=
  match cache.loaded.lookup name with
  | some loaded => some (.ok loaded)
  | none => (cache.failed.lookup name).map .error

def get (installed : Installation) (name : String) (cache : GrammarCache) (loader : Loader) :
    Logged (Except Failure LoadedGrammar × GrammarCache × Loader) :=
  match cache.known? name with
  | some outcome => pure (outcome, cache, loader)
  | none =>
    match GrammarSpec.find? name with
    | none =>
      let failure := Failure.unknownGrammar name
      pure (.error failure, cache.refuse name failure, loader)
    | some spec => do
      let (outcome, loader) ← loader.load installed spec cache.forcePortable
      match outcome with
      | .error failure => pure (.error failure, cache.refuse name failure, loader)
      | .ok loaded =>
        Logged.tell .info .grammars "grammar_ready"
          [("grammar", .str name), ("backend", .str loaded.backend.name)]
        pure (.ok loaded, cache.keep name loaded, loader)

/-- The source of each grammar that was loaded, in the order of first success. -/
def backends (cache : GrammarCache) : List (String × Backend) :=
  cache.loaded.map fun (name, loaded) => (name, loaded.backend)

def clear (cache : GrammarCache) : GrammarCache := { forcePortable := cache.forcePortable }

/-- Whether an earlier cache serves where portable grammars are forced or not. -/
def serves (earlier : Option GrammarCache) (forcePortable : Bool) : Bool :=
  match earlier with
  | none => false
  | some cache => cache.forcePortable == forcePortable

/-- The cache that everybody shares: the earlier one if it serves, or a new one. -/
def shared (earlier : Option GrammarCache) (forcePortable : Bool) : GrammarCache :=
  match earlier with
  | none => { forcePortable }
  | some cache => if cache.forcePortable == forcePortable then cache else { forcePortable }

end GrammarCache
end TypeAtlas
