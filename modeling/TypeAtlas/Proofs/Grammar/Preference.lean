import TypeAtlas.Proofs.Grammar.Resolution

/-!
# Which source a grammar comes from

`GrammarSpec.Gives` says what comes of a grammar, from what is installed alone: it is native if the
core and the grammar's own module allow it, else portable if the pack has it, else there is the
failure that names it.  That one grammar is not native says nothing about the others.

`GrammarSpec.resolve`, which the loader and the cache are faithful to, follows these rules
(`gives_resolve`).
-/

namespace TypeAtlas

/-! ## What can be imported -/

theorem Installation.preferredBackend_eq_native_iff {installed : Installation} :
    installed.preferredBackend = .native ↔ installed.core = .complete := by
  rw [preferredBackend, coreFault?]
  cases installed.core <;> simp

theorem Installation.export?_eq_works_iff {installed : Installation} {module export_ : String} :
    installed.export? module export_ = .ok .works ↔
      ∃ exports, installed.native.lookup module = some exports ∧
        exports.lookup export_ = some .works := by
  rw [export?]
  cases installed.native.lookup module with
  | none => simp
  | some exports => cases hexport : exports.lookup export_ <;> simp [hexport]

/-! ## Native, portable, or not at all -/

namespace GrammarSpec

/-- The grammar can be had from its native module: nothing forces portable grammars, the core has
both classes, and the module's export works. -/
structure IsNative (spec : GrammarSpec) (installed : Installation) (forcePortable : Bool)
    (module : String) : Prop where
  free : forcePortable = false
  core : installed.core = .complete
  named : spec.nativeModule = some module
  works : ∃ exports, installed.native.lookup module = some exports ∧
    exports.lookup spec.nativeExport = some .works

/-- The grammar can be had from the pack: there is one with a way to look up grammars, and it has
this one. -/
def IsPortable (spec : GrammarSpec) (installed : Installation) : Prop :=
  ∃ pack, installed.pack = .installed pack ∧ spec.portableName ∈ pack.grammars

/-- What comes of asking for a grammar, by the first of three rules that applies. -/
inductive Gives (spec : GrammarSpec) (installed : Installation) (forcePortable : Bool) :
    Except Failure LoadedGrammar → Prop where
  | native {module : String} (hnative : spec.IsNative installed forcePortable module) :
      Gives spec installed forcePortable (.ok ⟨spec.name, .native module spec.nativeExport⟩)
  | portable (hnative : ∀ module, ¬ spec.IsNative installed forcePortable module)
      (hportable : spec.IsPortable installed) :
      Gives spec installed forcePortable (.ok ⟨spec.name, .portable spec.portableName⟩)
  | unavailable (hnative : ∀ module, ¬ spec.IsNative installed forcePortable module)
      (hportable : ¬ spec.IsPortable installed) (fault : ImportFault) :
      Gives spec installed forcePortable (.error (spec.unavailable fault))

variable {spec : GrammarSpec} {installed : Installation} {forcePortable : Bool}

/-- With the core complete, all depends on the module's export. -/
theorem fromNative_eq_ok_iff {module : String} {grammar : Grammar}
    (hcore : installed.core = .complete) :
    spec.fromNative installed module = .ok grammar ↔
      installed.export? module spec.nativeExport = .ok .works ∧
        grammar = .native module spec.nativeExport := by
  have hlanguage : installed.languageFault? = none := by rw [Installation.languageFault?, hcore]
  rw [fromNative, hlanguage]
  cases installed.export? module spec.nativeExport with
  | error fault => simp
  | ok behaviour => cases behaviour <;> simp [eq_comm]

theorem nativeGrammar?_eq_some_iff (hmodule : spec.nativeModule ≠ some "") {grammar : Grammar} :
    spec.nativeGrammar? installed forcePortable = some grammar ↔
      ∃ module, spec.IsNative installed forcePortable module ∧
        grammar = .native module spec.nativeExport := by
  have htried : ∀ module, spec.triedModule? installed forcePortable = some module ↔
      spec.nativeModule = some module ∧ forcePortable = false ∧ installed.core = .complete := by
    intro module
    rw [triedModule?, module?, Option.filter_eq_some_iff, Option.filter_eq_some_iff]
    simp only [Bool.and_eq_true, Bool.not_eq_true', decide_eq_true_eq,
      Installation.preferredBackend_eq_native_iff]
    constructor
    · rintro ⟨⟨hnamed, -⟩, hfree, hcore⟩
      exact ⟨hnamed, hfree, hcore⟩
    · rintro ⟨hnamed, hfree, hcore⟩
      have hnonempty : module ≠ "" := by
        rintro rfl
        exact hmodule hnamed
      exact ⟨⟨hnamed, hnonempty⟩, hfree, hcore⟩
  rw [nativeGrammar?, Option.bind_eq_some_iff]
  constructor
  · rintro ⟨module, hmodule, hgrammar⟩
    obtain ⟨hnamed, hfree, hcore⟩ := (htried module).mp hmodule
    have hok : spec.fromNative installed module = .ok grammar := by
      cases hnative : spec.fromNative installed module with
      | error fault => rw [hnative] at hgrammar; cases hgrammar
      | ok found => rw [hnative] at hgrammar; rw [Option.some.inj hgrammar]
    obtain ⟨hworks, rfl⟩ := (fromNative_eq_ok_iff hcore).mp hok
    exact ⟨module, ⟨hfree, hcore, hnamed, Installation.export?_eq_works_iff.mp hworks⟩, rfl⟩
  · rintro ⟨module, hnative, rfl⟩
    refine ⟨module, (htried module).mpr ⟨hnative.named, hnative.free, hnative.core⟩, ?_⟩
    rw [(fromNative_eq_ok_iff hnative.core).mpr
      ⟨Installation.export?_eq_works_iff.mpr hnative.works, rfl⟩]
    rfl

theorem packGrammar_cases (spec : GrammarSpec) (installed : Installation) :
    (spec.IsPortable installed ∧ spec.packGrammar installed = .ok (.portable spec.portableName)) ∨
      ¬ spec.IsPortable installed ∧
        ∃ fault, spec.packGrammar installed = .error (spec.unavailable fault) := by
  rw [packGrammar, Installation.pack?]
  cases hpack : installed.pack with
  | missing => exact .inr ⟨by simp [IsPortable, hpack], _, rfl⟩
  | withoutLookup => exact .inr ⟨by simp [IsPortable, hpack], _, rfl⟩
  | installed pack =>
      by_cases hlisted : spec.portableName ∈ pack.grammars
      · refine .inl ⟨⟨pack, hpack, hlisted⟩, ?_⟩
        simp only [Except.bind, fromPack, List.contains_iff_mem, if_pos hlisted]
        rfl
      · refine .inr ⟨?_, .notInPack spec.portableName, ?_⟩
        · rintro ⟨other, hother, hmem⟩
          obtain rfl : pack = other := PackState.installed.inj (hpack.symm.trans hother)
          exact hlisted hmem
        · simp only [Except.bind, fromPack, List.contains_iff_mem, if_neg hlisted]
          rfl

/-- **What comes of a grammar** is what the first of the three rules says. -/
theorem gives_resolve (hmodule : spec.nativeModule ≠ some "") :
    spec.Gives installed forcePortable (spec.resolve installed forcePortable) := by
  rw [resolve]
  cases hgrammar : spec.nativeGrammar? installed forcePortable with
  | some grammar =>
      obtain ⟨module, hnative, rfl⟩ := (nativeGrammar?_eq_some_iff hmodule).mp hgrammar
      exact .native hnative
  | none =>
      have hnative : ∀ module, ¬ spec.IsNative installed forcePortable module := by
        intro module hnative
        have hsome := (nativeGrammar?_eq_some_iff hmodule).mpr ⟨module, hnative, rfl⟩
        rw [hgrammar] at hsome
        cases hsome
      rcases packGrammar_cases spec installed with ⟨hportable, hpack⟩ | ⟨hportable, fault, hpack⟩
      · rw [hpack]
        exact .portable hnative hportable
      · rw [hpack]
        exact .unavailable hnative hportable fault

end GrammarSpec
end TypeAtlas
