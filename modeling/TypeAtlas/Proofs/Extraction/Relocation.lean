import TypeAtlas.Extraction.Extractor

/-!
# Declarations in another file

The path of a file is found in every node that is read from it, and nowhere else.  Reading a tree as
that of another file is therefore the same as reading it and putting the other path into the nodes
afterwards, and a tree that is at fault under one path has the same fault under every other
(`Extractor.extract_relocate`).  Each step of reading has one lemma here, from the check of a node up
to the whole walk.
-/

namespace TypeAtlas

/-- The same type, declared in another file. -/
def Node.relocate (file : String) (node : Node) : Node := { node with file }

@[simp] theorem Node.key_relocate (file : String) (node : Node) :
    (node.relocate file).key = node.key :=
  rfl

/-- The same nodes and edges, read from another file. -/
def Fragment.relocate (file : String) (fragment : Fragment) : Fragment :=
  { fragment with nodes := fragment.nodes.map (Node.relocate file) }

@[simp] theorem Fragment.keys_relocate (file : String) (fragment : Fragment) :
    (fragment.relocate file).nodes.map Node.key = fragment.nodes.map Node.key :=
  List.map_map

/-- A value with the keys of a node is checked key by key.  Any text will do for the path of the
file, which is therefore in no report. -/
theorem Node.ofJson_fields (name kind line : Json) (file : String) :
    ofJson (.obj [("name", name), ("kind", kind), ("file", .str file), ("line", line)]) =
      ((((Field.nonempty name).under "name").both ((Field.nodeKind kind).under "kind")).both
        ((Field.positive line).under "line")).map fun ((name, kind), line) =>
          ⟨name.text, kind, file, line.count, name.ne_empty, line.pos⟩ := by
  simp [ofJson, Field.object, Field.required, Field.extras, Field.chosen?, Json.lookup?, firsts,
    firstsUnseen]
  cases Field.nonempty name <;> cases Field.nodeKind kind <;> cases Field.positive line <;> rfl

theorem Node.check_relocate (name kind file other : String) (line : Int) :
    check (.obj [("name", .str name), ("kind", .str kind), ("file", .str other),
        ("line", .ofInt line)]) =
      (check (.obj [("name", .str name), ("kind", .str kind), ("file", .str file),
        ("line", .ofInt line)])).map (relocate other) := by
  rw [check, check, ofJson_fields, ofJson_fields]
  generalize (((Field.nonempty (.str name)).under "name").both
    ((Field.nodeKind (.str kind)).under "kind")).both
      ((Field.positive (.ofInt line)).under "line") = values
  cases values <;> rfl

namespace Builder

/-- The builder that has read the same from another file. -/
def relocate (file : String) (builder : Builder) : Builder :=
  { builder with file, nodes := builder.nodes.map (Node.relocate file) }

variable (file : String) (builder : Builder)

theorem addNode_relocate (name kind : String) (row : Int) :
    (builder.relocate file).addNode name kind row =
      (builder.addNode name kind row).map (relocate file) := by
  rw [addNode, addNode]
  simp only [relocate, Node.check_relocate name kind builder.file file]
  cases Node.check (.obj [("name", .str name), ("kind", .str kind), ("file", .str builder.file),
    ("line", .ofInt (row + 1))]) <;> rfl

theorem addEdges_relocate (owner : String) (names : List String) (kind : String) :
    (builder.relocate file).addEdges owner names kind =
      ((builder.addEdges owner names kind).1.relocate file,
        (builder.addEdges owner names kind).2) := by
  induction names generalizing builder with
  | nil => rfl
  | cons name names ih =>
      have hadmits : (builder.relocate file).admits name = builder.admits name := rfl
      rw [addEdges, addEdges, hadmits]
      cases builder.admits name with
      | false => exact ih builder
      | true =>
          cases hedge : edge owner name kind with
          | error report => rfl
          | ok edge => exact ih { builder with edges := edge :: builder.edges }

theorem add_relocate (entry : Entry) :
    (builder.relocate file).add entry = (builder.add entry).map (relocate file) := by
  cases entry with
  | declared name kind row => exact addNode_relocate file builder name kind.name row
  | refers owner names kind =>
      rw [add, add, addEdges_relocate]
      rcases builder.addEdges owner names kind.name with ⟨extended, outcome⟩
      cases outcome <;> rfl

theorem addAll_relocate (entries : List Entry) :
    (builder.relocate file).addAll entries = (builder.addAll entries).map (relocate file) := by
  induction entries generalizing builder with
  | nil => rfl
  | cons entry entries ih =>
      rw [addAll, addAll, add_relocate]
      cases builder.add entry with
      | error report => rfl
      | ok extended => exact ih extended

theorem build_relocate : (builder.relocate file).build = builder.build.relocate file := by
  simp only [build, relocate, Fragment.relocate, List.map_reverse]

end Builder

theorem Visit.fragment_relocate (visit : Visit) (builtins : List String) (root : Syntax.Tree)
    (file other : String) :
    visit.fragment builtins root other =
      (visit.fragment builtins root file).map (Fragment.relocate other) := by
  have hstart : (⟨other, builtins, [], []⟩ : Builder) =
      (⟨file, builtins, [], []⟩ : Builder).relocate other := rfl
  rw [fragment, fragment, hstart, Builder.addAll_relocate]
  cases Builder.addAll ⟨file, builtins, [], []⟩ (visit.entries [root]) with
  | error report => rfl
  | ok builder => exact congrArg Except.ok (builder.build_relocate other)

/-- **A tree gives the same declarations in every file**, but for the path of the file. -/
theorem Extractor.extract_relocate (extractor : Extractor) (root : Syntax.Tree)
    (file other : String) :
    extractor.extract root other = (extractor.extract root file).map (Fragment.relocate other) := by
  rw [extract, extract]
  cases extractor.visit? with
  | none => rfl
  | some visit =>
      simp only [visit.fragment_relocate extractor.builtins root file other]
      cases visit.fragment extractor.builtins root file <;> rfl

end TypeAtlas
