import TypeAtlas.Command.Run
import TypeAtlas.Proofs.Scan.Outcome

/-!
# The grammars of earlier commands

From one command to the next stay the grammars that were loaded.  They are always such as scans leave
behind (`CommandWorld.reached_run`), so that what a scan comes to does not depend on the commands
before it.

A command scans no more than twice, and all that it does besides is to look at what came of that, so
each part of it is followed with `reached_bind`.
-/

namespace TypeAtlas.CommandWorld

variable {world : CommandWorld} {state : CommandState}

/-- What is done after a step keeps the grammars in order if the step does. -/
theorem reached_bind {installed : Installation} {first : Logged (α × CommandState)}
    {next : α × CommandState → Logged (β × CommandState)}
    (hfirst : first.value.2.known.Reached installed)
    (hnext : ∀ found, found.2.known.Reached installed →
      (next found).value.2.known.Reached installed) :
    (first >>= next).value.2.known.Reached installed :=
  hnext first.value hfirst

section

variable (hknown : state.known.Reached world.tools.installed) (settings : Settings)

include hknown

theorem reached_scanDirectory (filters : Option (List String)) (directory : String) :
    (world.scanDirectory settings filters state directory).value.2.known.Reached
      world.tools.installed :=
  .scanDirectory world.tools ⟨settings, filters, none⟩ state.disk directory world.repository rfl hknown

theorem reached_scanRevision (directory ref : String) :
    (world.scanRevision settings state directory ref).value.2.known.Reached world.tools.installed :=
  .scanRevision world.tools ⟨settings, none, none⟩ state.disk directory ref world.repository rfl
    hknown

theorem reached_compareWithBaseline (directory baseline : String) :
    (world.compareWithBaseline settings state directory baseline).value.2.known.Reached
      world.tools.installed := by
  rw [compareWithBaseline]
  split
  next => exact hknown
  next => exact reached_scanDirectory hknown settings none directory

theorem reached_compareWithRevision (directory ref : String) :
    (world.compareWithRevision settings state directory ref).value.2.known.Reached
      world.tools.installed := by
  refine reached_bind (reached_scanRevision hknown settings directory ref) ?_
  rintro ⟨previous, state⟩ hstate
  cases previous with
  | error fault => exact hstate
  | ok previous => exact reached_scanDirectory hstate settings none directory

theorem reached_runScan (directory : String) (output : Option String) (json : Bool)
    (languages : Option String) :
    (world.runScan settings state directory output json languages).value.2.known.Reached
      world.tools.installed := by
  refine reached_bind
    (reached_scanDirectory hknown settings (Request.filters languages) directory) ?_
  rintro ⟨found, state⟩ hstate
  cases found with
  | error fault => exact hstate
  | ok result =>
      simp only [showScan, Logged.value_pure]
      split
      next => exact hstate
      next => split <;> exact hstate

theorem reached_runDiff (directory : String) (ref : Option String) (json : Bool)
    (baseline : Option String) :
    (world.runDiff settings state directory ref json baseline).value.2.known.Reached
      world.tools.installed := by
  cases baseline with
  | none =>
      refine reached_bind (reached_compareWithRevision hknown settings directory _) ?_
      rintro ⟨comparison, state⟩ hstate
      cases comparison <;> exact hstate
  | some path =>
      refine reached_bind (reached_compareWithBaseline hknown settings directory path) ?_
      rintro ⟨comparison, state⟩ hstate
      cases comparison <;> exact hstate

theorem reached_runHook (directory : String) (ref : Option String) (json : Bool) :
    (world.runHook settings state directory ref json).value.2.known.Reached
      world.tools.installed := by
  refine reached_bind (reached_compareWithRevision hknown settings directory _) ?_
  rintro ⟨comparison, state⟩ hstate
  cases comparison with
  | error fault => exact hstate
  | ok comparison =>
      simp only
      split <;> exact hstate

theorem reached_runCommand (name : CommandName) (arguments : List String) :
    (world.runCommand settings state name arguments).value.2.known.Reached
      world.tools.installed := by
  rw [runCommand]
  split
  next => exact hknown
  next => exact hknown
  next request _ =>
    cases request with
    | scan directory output json languages =>
        exact reached_runScan hknown settings directory output json languages
    | diff directory ref json baseline =>
        exact reached_runDiff hknown settings directory ref json baseline
    | hook directory ref json => exact reached_runHook hknown settings directory ref json

end

/-- **The grammars that a command leaves behind** are such as scans leave behind, whatever the command
is. -/
theorem reached_run (hknown : state.known.Reached world.tools.installed) (arguments : List String) :
    (world.run state arguments).value.2.known.Reached world.tools.installed := by
  rw [run]
  split
  next => exact hknown
  next => exact hknown
  next => exact hknown
  next verbose name rest _ =>
    split
    next => exact hknown
    next settings _ =>
      apply reached_bind
      · apply reached_runCommand
        exact hknown
      · exact fun _ hstate => hstate

end TypeAtlas.CommandWorld
