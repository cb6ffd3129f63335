import TypeAtlas.Proofs.Extraction.Calls
import TypeAtlas.Proofs.Extraction.Languages
import TypeAtlas.Proofs.Scan.Directory

/-!
# Where line numbers come from

Trees may have any rows, and a declaration in a row that no line can have is refused.  So whatever
comes of a file, its nodes are on lines that are rows of its tree (`Extractor.exists_row`), and the
nodes of a scan are on lines that are rows of some tree (`ScanTools.exists_row`).

Parsers keep rows in 32 bits.  Of tools for which this is so (`ScanTools.CountsRows`), no line
number of a scan is too long for a reader (`ScanTools.hasShortLines`).
-/

namespace TypeAtlas

open Syntax

/-! ## Files -/

/-- Entries within a tree that are all taken are valid. -/
theorem Builder.isValid_of_addAll {declares : Declares} {root : Tree} {entries : List Entry}
    {builder extended : Builder} (hentries : ∀ entry ∈ entries, entry.Within declares root)
    (hadd : builder.addAll entries = .ok extended) : ∀ entry ∈ entries, entry.IsValid := by
  induction entries generalizing builder with
  | nil => exact nofun
  | cons entry entries ih =>
      obtain ⟨hentry, hrest⟩ := List.forall_mem_cons.mp hentries
      rw [addAll] at hadd
      split at hadd
      next middle hmiddle =>
        refine List.forall_mem_cons.mpr ⟨?_, ih hrest hadd⟩
        cases entry with
        | declared name kind row => exact (addNode_of_ok hmiddle).1
        | refers owner names kind => exact hentry
      next => cases hadd

namespace Extractor

variable {extractor : Extractor} {declares : Declares} {visit : Visit} {root : Tree} {file : String}
  {fragment : Fragment}

theorem isValid_of_extract (hextractor : extractor.visit? = some visit)
    (hvisit : visit.IsWithin declares) (hextract : extractor.extract root file = .ok fragment) :
    ∀ entry ∈ visit.entriesOf root, entry.IsValid := by
  rw [← visit.entries_singleton]
  rw [extract, hextractor] at hextract
  obtain ⟨builder, hadd, -⟩ := map_eq_ok_iff.mp (mapError_eq_ok_iff.mp hextract)
  exact Builder.isValid_of_addAll (Visit.within_entries hvisit root) hadd

/-- **The lines of a file are rows of its tree**, counted from one. -/
theorem exists_row (hextractor : extractor.visit? = some visit) (hvisit : visit.IsWithin declares)
    (hextract : extractor.extract root file = .ok fragment) :
    ∀ node ∈ fragment.nodes, ∃ tree, root.Contains tree ∧ (node.line : Int) = tree.label.row + 1 := by
  have hvalid := isValid_of_extract hextractor hvisit hextract
  rw [extract_of_valid hextractor hvalid] at hextract
  obtain rfl := Except.ok.inj hextract
  intro node hnode
  obtain ⟨entry, hentry, hnode⟩ := List.mem_filterMap.mp hnode
  rw [← visit.entries_singleton] at hentry
  have hwithin := Visit.within_entries hvisit root entry hentry
  cases entry with
  | refers owner names kind => cases hnode
  | declared name kind row =>
      obtain ⟨-, tree, htree, -, rfl⟩ := hwithin
      rw [Entry.node?] at hnode
      split at hnode
      next hrow =>
        obtain rfl := Option.some.inj hnode
        refine ⟨tree, htree, ?_⟩
        have hpos := hrow.2
        simp only
        omega
      next => cases hnode

end Extractor

theorem Language.exists_row {language : Language} (hlanguage : language ∈ table) {root : Tree}
    {file : String} {fragment : Fragment}
    (hextract : language.extractor.extract root file = .ok fragment) :
    ∀ node ∈ fragment.nodes, ∃ tree, root.Contains tree ∧ (node.line : Int) = tree.label.row + 1 := by
  simp only [table, List.mem_cons, List.not_mem_nil, or_false] at hlanguage
  rcases hlanguage with rfl | rfl | rfl | rfl
  · exact Extractor.exists_row rfl TypeScript.isWithin_visit hextract
  · exact Extractor.exists_row rfl Java.isWithin_visit hextract
  · exact Extractor.exists_row rfl Swift.isWithin_visit hextract
  · exact Extractor.exists_row rfl Go.isWithin_visit hextract

/-! ## Scans -/

namespace ScanTools

variable {tools : ScanTools} {options : ScanOptions} {input : ScanInput} {scannedAt : Timestamp}
  {result : ScanResult}

/-- **The lines of a scan are rows of trees**, counted from one. -/
theorem exists_row (hresult : tools.outcomeFor options none input scannedAt = .ok result) :
    ∀ node ∈ result.graph.nodes, ∃ grammar text root tree, tools.parse grammar text = .ok root ∧
      root.Contains tree ∧ (node.line : Int) = tree.label.row + 1 := by
  intro node hnode
  rw [outcomeFor] at hresult
  split at hresult
  next => cases hresult
  next batch hbatch =>
    obtain rfl := Except.ok.inj hresult
    obtain ⟨hok, rfl⟩ := BatchSetup.result_eq_ok_iff.mp hbatch
    obtain ⟨outcome, houtcome, hnode⟩ := List.mem_flatMap.mp (firsts_subset Node.key _ hnode)
    obtain ⟨file, hfile, rfl⟩ := List.mem_map.mp houtcome
    obtain ⟨outcome, hverdict⟩ := hok file hfile
    rw [BatchSetup.outcomeOf_eq hverdict] at hnode
    have hjudged := (tools.setup options none).judged options.settings.forcePortable file
    rw [hverdict] at hjudged
    -- Only of a file that is read there are nodes.
    cases hjudged with
    | unsupported => cases hnode
    | missing => cases hnode
    | unparsed => cases hnode
    | unread => cases hnode
    | read hlanguage _ hparse hextract =>
        obtain ⟨tree, htree, hline⟩ :=
          Language.exists_row (List.mem_of_find?_eq_some hlanguage) hextract node hnode
        exact ⟨_, _, _, tree, hparse, htree, hline⟩

/-- Rows are kept in 32 bits, as parsers keep them. -/
def CountsRows (tools : ScanTools) : Prop :=
  ∀ grammar text root, tools.parse grammar text = .ok root →
    ∀ tree, root.Contains tree → tree.label.row < UInt32.size

/-- **No line number of a scan is too long for a reader.** -/
theorem hasShortLines (hrows : tools.CountsRows)
    (hresult : tools.outcomeFor options none input scannedAt = .ok result) :
    result.graph.HasShortLines := by
  intro node hnode
  obtain ⟨grammar, text, root, tree, hparse, htree, hline⟩ := exists_row hresult node hnode
  have hrow : tree.label.row < 4294967296 := hrows grammar text root hparse tree htree
  have hshort : digitCount node.line ≤ 10 := by
    rw [digitCount, Nat.length_toDigits_le_iff (by decide) (by decide)]
    omega
  exact Nat.le_trans hshort (by decide)

end ScanTools
end TypeAtlas
