import TypeAtlas.Proofs.Command.Baseline
import TypeAtlas.Proofs.Graph.Format

/-!
# Damaged baselines

A directory is compared with a saved graph, and the file of the graph may hold anything, or not be
readable at all.  It is read in three stages: its octets, their text, and the graph in the text.  If
the first or the last comes to nothing, that is a failure, and the command prints it and ends with
code one.  But octets that are no text are none: then the command breaks off and prints nothing
(`CommandWorld.run_diff_of_damaged`).

So of the files that are no saved graphs, exactly those that are not well-formed go unreported
(`CommandWorld.brokenBaseline_not_reported`).
-/

namespace TypeAtlas

namespace CommandResult

/-- All that a command does is to print a failure and to end with code one. -/
structure Reports (result : CommandResult) (failure : Failure) : Prop where
  exitCode : result.exitCode = 1
  out : result.out = ""
  err : result.err = Console.shown ("Error: " ++ Console.inner failure.text ++ "\n")
  fault : result.fault = none

/-- A command prints nothing and leaves a fault to whoever runs it. -/
structure BreaksOff (result : CommandResult) (fault : CommandFault) : Prop where
  exitCode : result.exitCode = 1
  out : result.out = ""
  err : result.err = ""
  fault : result.fault = some fault

theorem BreaksOff.not_reports {result : CommandResult} {fault : CommandFault}
    (hresult : result.BreaksOff fault) (failure : Failure) : ¬ result.Reports failure := by
  intro hreports
  have hfault : some fault = none := hresult.fault.symm.trans hreports.fault
  cases hfault

end CommandResult

namespace CommandWorld

variable {world : CommandWorld} {state : CommandState} {settings : Settings}
  {directory file : String} {ref : Option String} {document : Bool} {arguments : List String}
  {disk : Disk}

/-! ## Reading a baseline -/

theorem readBaseline_of_unreadable {fault : FileFault} (hread : disk.read file = .error fault) :
    readBaseline disk file = .error (.scan (.failed (unreadableBaseline file fault))) := by
  rw [readBaseline, Disk.readText, hread]
  rfl

theorem readBaseline_of_undecodable {octets : List UInt8} (hread : disk.read file = .ok octets)
    (hdecode : Utf8.decode? octets = none) :
    readBaseline disk file = .error (.undecodable (Utf8.faultMessage octets)) := by
  rw [readBaseline, Disk.readText, hread, textOfFile_ok, hdecode]

theorem readBaseline_of_text {octets : List UInt8} {text : String}
    (hread : disk.read file = .ok octets) (hdecode : Utf8.decode? octets = some text) :
    readBaseline disk file =
      (Graph.ofText (Text.unified text)).mapError fun failure => .scan (.failed failure) := by
  rw [readBaseline, Disk.readText, hread, textOfFile_ok, hdecode]
  simp only
  cases Graph.ofText (Text.unified text) <;> rfl

/-- A text is read as a graph if it is JSON and its value is that graph. -/
theorem readBaseline_eq_ok_iff {octets : List UInt8} {text : String} {graph : Graph}
    (hread : disk.read file = .ok octets) (hdecode : Utf8.decode? octets = some text) :
    readBaseline disk file = .ok graph ↔
      ∃ value, Json.read .strict ((Text.unified text).toList.map .char) = .ok value ∧
        value.IsGraph graph := by
  rw [readBaseline_of_text hread hdecode, Graph.ofText, ← Graph.ofDocument_eq_ok_iff]
  cases Graph.ofDocument ((Text.unified text).toList.map .char) <;> simp [Except.mapError]

/-! ## What a comparison makes of it -/

section

variable (hasked : (Request.diff directory ref document (some file)).IsAskedBy arguments)
  (hsettings : world.settings { state with settings := none } = .ok settings)

include hasked hsettings

theorem run_diff_of_error {fault : CommandFault}
    (hbaseline : readBaseline state.disk file = .error fault) :
    ∃ logging, (world.run state arguments).value.1 = { CommandResult.faulted fault with logging } := by
  have hfaulted : (world.runDiff settings { state with settings := some settings } directory ref
      document (some file)).value = (.faulted fault, _) :=
    value_runDiff_of_error hbaseline
  obtain ⟨logging, hrun⟩ := value_run_of_ok hasked hsettings
  refine ⟨logging, ?_⟩
  rw [hrun]
  simp only [runRequest, hfaulted]

theorem run_diff_of_failure {failure : Failure}
    (hbaseline : readBaseline state.disk file = .error (.scan (.failed failure))) :
    (world.run state arguments).value.1.Reports failure := by
  obtain ⟨logging, hrun⟩ := run_diff_of_error hasked hsettings hbaseline
  rw [hrun]
  exact ⟨rfl, rfl, String.empty_append, rfl⟩

theorem run_diff_of_undecodable {message : String}
    (hbaseline : readBaseline state.disk file = .error (.undecodable message)) :
    (world.run state arguments).value.1.BreaksOff (.undecodable message) := by
  obtain ⟨logging, hrun⟩ := run_diff_of_error hasked hsettings hbaseline
  rw [hrun]
  exact ⟨rfl, rfl, rfl, rfl⟩

/-- **A damaged baseline is reported, unless it is no text.**  If its file cannot be read, that is a
failure, and if the text in it is not that of a graph, that is one; the command prints it and ends with
code one.  If its octets are ill-formed, there is a fault that is no failure, and the command breaks
off. -/
theorem run_diff_of_damaged :
    let result := (world.run state arguments).value.1
    (∀ fault, state.disk.read file = .error fault →
      readBaseline state.disk file = .error (.scan (.failed (unreadableBaseline file fault))) ∧
        result.Reports (unreadableBaseline file fault)) ∧
    (∀ octets text, state.disk.read file = .ok octets → Utf8.decode? octets = some text →
      (∀ graph, readBaseline state.disk file = .ok graph ↔
        ∃ value, Json.read .strict ((Text.unified text).toList.map .char) = .ok value ∧
          value.IsGraph graph) ∧
      ((∃ graph, readBaseline state.disk file = .ok graph) ∨
        ∃ issues, let failure := formatFailure "Malformed dependency graph document" issues
          readBaseline state.disk file = .error (.scan (.failed failure)) ∧
            result.Reports failure)) ∧
    ∀ octets, state.disk.read file = .ok octets → Utf8.decode? octets = none →
      readBaseline state.disk file = .error (.undecodable (Utf8.faultMessage octets)) ∧
        result.BreaksOff (.undecodable (Utf8.faultMessage octets)) := by
  refine ⟨fun fault hread => ?_, fun octets text hread hdecode => ?_, fun octets hread hdecode => ?_⟩
  · have hbaseline := readBaseline_of_unreadable hread
    exact ⟨hbaseline, run_diff_of_failure hasked hsettings hbaseline⟩
  · refine ⟨fun graph => readBaseline_eq_ok_iff hread hdecode, ?_⟩
    have hbaseline := readBaseline_of_text hread hdecode
    rw [Graph.ofText] at hbaseline
    obtain ⟨graph, hgraph⟩ | ⟨issues, hissues⟩ :=
      Graph.ofDocument_ok_or_error ((Text.unified text).toList.map .char)
    · rw [hgraph] at hbaseline
      exact .inl ⟨graph, hbaseline⟩
    · rw [hissues] at hbaseline
      exact .inr ⟨issues, hbaseline, run_diff_of_failure hasked hsettings hbaseline⟩
  · have hbaseline := readBaseline_of_undecodable hread hdecode
    exact ⟨hbaseline, run_diff_of_undecodable hasked hsettings hbaseline⟩

end

/-! ## Two damaged files -/

/-- The example directory with a file that it is compared with. -/
def exampleBaseline (octets : List UInt8) : CommandState := workState (exampleEntriesWith octets)

theorem read_exampleBaseline (octets : List UInt8) :
    (exampleBaseline octets).disk.read "graph.json" = .ok octets := by
  have hplain := isPlain_exampleEntriesWith octets
  rw [exampleBaseline, workState, Disk.read, locate_workDisk hplain (by decide)]
  rfl

theorem settings_exampleBaseline (octets : List UInt8) :
    exampleWorld.settings { exampleBaseline octets with settings := none } = .ok {} :=
  settings_of_noEntry (isPlain_exampleEntriesWith octets) rfl

/-- What a comparison with the file comes to. -/
def exampleComparison (octets : List UInt8) : CommandResult :=
  (exampleWorld.run (exampleBaseline octets) ["diff", ".", "--baseline", "graph.json"]).value.1

theorem run_diff_of_damaged_exampleBaseline :
    (Request.diff "." none false (some "graph.json")).IsAskedBy
        ["diff", ".", "--baseline", "graph.json"] ∧
      exampleWorld.settings { exampleBaseline (Utf8.encode "\x7b") with settings := none } =
        .ok {} ∧
      ∃ issues, (exampleComparison (Utf8.encode "\x7b")).Reports
        (formatFailure "Malformed dependency graph document" issues) := by
  have hname : "graph.json" ∈ exampleNames := by decide
  have hsettings := settings_exampleBaseline (Utf8.encode "\x7b")
  refine ⟨diff_isAskedBy hname, hsettings, ?_⟩
  obtain ⟨-, htext, -⟩ := run_diff_of_damaged (diff_isAskedBy hname) hsettings
  obtain ⟨hgraph, ⟨graph, hread⟩ | ⟨issues, -, hreports⟩⟩ :=
    htext _ "\x7b" (read_exampleBaseline _) (Utf8.decode?_encode _)
  · have hend : (Json.read .strict ((Text.unified "\x7b").toList.map .char)).toOption = none := by
      decide +kernel
    obtain ⟨value, hvalue, -⟩ := (hgraph graph).mp hread
    rw [hvalue] at hend
    cases hend
  · exact ⟨issues, hreports⟩

/-- **Not every damaged baseline is reported**: of a file that is no text, nothing is printed. -/
theorem brokenBaseline_not_reported :
    (exampleBaseline [0xFF]).disk.read "graph.json" = .ok [0xFF] ∧
      (exampleComparison [0xFF]).BreaksOff (.undecodable (Utf8.faultMessage [0xFF])) ∧
      ∀ failure, ¬ (exampleComparison [0xFF]).Reports failure := by
  have hname : "graph.json" ∈ exampleNames := by decide
  have hread := read_exampleBaseline [0xFF]
  have hbaseline : readBaseline (exampleBaseline [0xFF]).disk "graph.json" =
      .error (.undecodable (Utf8.faultMessage [0xFF])) :=
    readBaseline_of_undecodable hread (by decide)
  have hresult : (exampleComparison [0xFF]).BreaksOff _ :=
    run_diff_of_undecodable (diff_isAskedBy hname) (settings_exampleBaseline _) hbaseline
  exact ⟨hread, hresult, hresult.not_reports⟩

end CommandWorld
end TypeAtlas
