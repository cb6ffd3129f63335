import TypeAtlas.Failure
import TypeAtlas.Grammar.Once
import TypeAtlas.Grammar.Installation
import TypeAtlas.Log.Event

/-!
# Loading grammars

A grammar is loaded from its native module if that is possible, and from the pack otherwise; that
one grammar has no usable module says nothing about the others.  Whether native grammars are usable
at all is found out once, and so is the pack: a `Loader` keeps both findings, failures included.
-/

namespace TypeAtlas

/-- The two sources of grammars. -/
inductive Backend where
  | native | portable
  deriving Repr, DecidableEq

def Backend.name : Backend → String
  | .native => "native"
  | .portable => "portable"

/-- A compiled grammar, known by where it comes from. -/
inductive Grammar where
  | native (module export_ : String)
  | portable (name : String)
  deriving Repr, DecidableEq

namespace Grammar

def backend : Grammar → Backend
  | .native _ _ => .native
  | .portable _ => .portable

def label : Grammar → String
  | .native module export_ => module ++ "." ++ export_
  | .portable name => "pack." ++ name

end Grammar

/-- A grammar that was loaded, under the name by which it was asked for. -/
structure LoadedGrammar where
  name : String
  grammar : Grammar
  deriving Repr, DecidableEq

def LoadedGrammar.backend (loaded : LoadedGrammar) : Backend := loaded.grammar.backend

/-- Where to find a grammar in each source. -/
structure GrammarSpec where
  name : String
  portableName : String
  nativeModule : Option String := none
  nativeExport : String := "language"
  deriving Repr, DecidableEq

namespace GrammarSpec

/-- The native module of a grammar, if one is named. -/
def module? (spec : GrammarSpec) : Option String := spec.nativeModule.filter (· ≠ "")

def fromNative (spec : GrammarSpec) (installed : Installation) (module : String) :
    Except ImportFault Grammar :=
  match installed.languageFault? with
  | some fault => .error fault
  | none =>
    match installed.export? module spec.nativeExport with
    | .error fault => .error fault
    | .ok (.fails message) => .error (.raised message)
    | .ok .works => .ok (.native module spec.nativeExport)

def fromPack (spec : GrammarSpec) (pack : Pack) : Except ImportFault Grammar :=
  if pack.grammars.contains spec.portableName then .ok (.portable spec.portableName)
  else .error (.notInPack spec.portableName)

/-- The failure of a grammar that neither source has; the fault is that of the pack. -/
def unavailable (spec : GrammarSpec) (fault : ImportFault) : Failure :=
  ⟨.grammarUnavailable spec.name,
    .obj [("portable_name", .str spec.portableName),
      ("native_module", Json.ofOption .str spec.nativeModule),
      ("error", .str fault.message)]⟩

def tellLoaded (spec : GrammarSpec) (backend : Backend) : Logged Unit :=
  Logged.tell .debug .backends "grammar_loaded"
    [("grammar", .str spec.name), ("backend", .str backend.name)]

end GrammarSpec

/-- What is known of the sources so far. -/
structure Loader where
  backend : Once Backend := {}
  pack : Once (Except ImportFault Pack) := {}

namespace Loader

def detect (installed : Installation) : Logged Backend :=
  match installed.coreFault? with
  | some fault => do
    Logged.tell .debug .backends "native_backend_unavailable" [("error", .str fault.message)]
    pure .portable
  | none => do
    Logged.tell .debug .backends "native_backend_detected"
    pure .native

def open? (installed : Installation) : Logged (Except ImportFault Pack) :=
  match installed.pack? with
  | .error fault => pure (.error fault)
  | .ok pack => do
    Logged.tell .debug .backends "portable_runtime_initialized"
    pure (.ok pack)

def resolveBackend (installed : Installation) (loader : Loader) : Logged (Backend × Loader) := do
  let (backend, cell) ← loader.backend.get fun _ => detect installed
  pure (backend, { loader with backend := cell })

def openPack (installed : Installation) (loader : Loader) :
    Logged (Except ImportFault Pack × Loader) := do
  let (pack, cell) ← loader.pack.get fun _ => open? installed
  pure (pack, { loader with pack := cell })

def reset (loader : Loader) : Loader := ⟨loader.backend.reset, loader.pack.reset⟩

/-- The native module to try for a grammar, if there is any. -/
def moduleToTry (installed : Installation) (spec : GrammarSpec) (forcePortable : Bool)
    (loader : Loader) : Logged (Option String × Loader) :=
  match spec.module? with
  | none => pure (none, loader)
  | some module =>
    if forcePortable then pure (none, loader)
    else do
      let (backend, loader) ← resolveBackend installed loader
      pure (if backend = .native then some module else none, loader)

/-- The grammar from its native module, if there is one and it works. -/
def tryNative (installed : Installation) (spec : GrammarSpec) (forcePortable : Bool)
    (loader : Loader) : Logged (Option Grammar × Loader) := do
  let (module?, loader) ← moduleToTry installed spec forcePortable loader
  match module? with
  | none => pure (none, loader)
  | some module =>
    match spec.fromNative installed module with
    | .ok grammar =>
      spec.tellLoaded .native
      pure (some grammar, loader)
    | .error fault =>
      Logged.tell .debug .backends "grammar_fallback"
        [("grammar", .str spec.name), ("native_module", .str module), ("error", .str fault.message)]
      pure (none, loader)

def tryPack (installed : Installation) (spec : GrammarSpec) (loader : Loader) :
    Logged (Except Failure Grammar × Loader) := do
  let (pack, loader) ← openPack installed loader
  match pack.bind spec.fromPack with
  | .ok grammar =>
    spec.tellLoaded .portable
    pure (.ok grammar, loader)
  | .error fault => pure (.error (spec.unavailable fault), loader)

def load (installed : Installation) (spec : GrammarSpec) (forcePortable : Bool) (loader : Loader) :
    Logged (Except Failure LoadedGrammar × Loader) := do
  let (native?, loader) ← tryNative installed spec forcePortable loader
  match native? with
  | some grammar => pure (.ok ⟨spec.name, grammar⟩, loader)
  | none =>
    let (grammar, loader) ← tryPack installed spec loader
    pure (grammar.map fun grammar => ⟨spec.name, grammar⟩, loader)

/-- Whether a parser can be created only with the pack at hand. -/
def parserNeedsPack (installed : Installation) (forcePortable : Bool) (loader : Loader) :
    Logged (Bool × Loader) :=
  if forcePortable then pure (true, loader)
  else do
    let (backend, loader) ← resolveBackend installed loader
    pure (decide (backend = .portable), loader)

/-- Opens the pack if it is needed. -/
def openIfNeeded (installed : Installation) (needed : Bool) (loader : Loader) :
    Logged (Except ImportFault Unit × Loader) :=
  if needed then do
    let (pack, loader) ← openPack installed loader
    pure (pack.map fun _ => (), loader)
  else pure (.ok (), loader)

/-- Creates a parser without a grammar; the result says whether that was possible.  For portable
grammars the pack has to be usable. -/
def createParser (installed : Installation) (forcePortable : Bool) (loader : Loader) :
    Logged (Except ImportFault Unit × Loader) := do
  let (needed, loader) ← parserNeedsPack installed forcePortable loader
  let (opened, loader) ← openIfNeeded installed needed loader
  match opened with
  | .error fault => pure (.error fault, loader)
  | .ok () =>
    match installed.parserFault? with
    | some fault => pure (.error fault, loader)
    | none => pure (.ok (), loader)

end Loader
end TypeAtlas
