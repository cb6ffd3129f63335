import Mathlib.Data.List.Perm.Basic
import TypeAtlas.Proofs.Extraction.Comments

/-!
# Arguments in the heading of a class

What a class extends is an expression, and it is read with `expressionRule`; the other clauses of a
heading, and the types of members, are type expressions, and they are read with `typeRule`.  Type
arguments may stand in both.  The rules only differ at nodes for values, identifiers and member
expressions, and an `extends` clause is read with one rule throughout, arguments included.

Values occur in types as well: the parameters of a function type have names, and a type may be that of
a value.  So the arguments of what a class extends contribute the names that they contribute elsewhere
and, in addition, the names of the values in them (`reads_arguments`).
-/

namespace TypeAtlas.TypeScript

open Syntax Entry

/-! ## Where the rules differ -/

def valueTypes : List String := ["identifier", "member_expression"]

/-- Nodes that are not looked into, by either rule. -/
def endTypes : List String := ["type_identifier", "nested_type_identifier"] ++ closedTypes

mutual

/-- The values that are come to in a type expression. -/
def valuesIn : Tree → List Tree
  | .node label children =>
    if label.type ∈ valueTypes then [.node label children]
    else if label.type ∈ endTypes then []
    else valuesBelow children

def valuesBelow : List Tree → List Tree
  | [] => []
  | tree :: rest => valuesIn tree ++ valuesBelow rest

end

theorem valuesIn_eq (tree : Tree) :
    valuesIn tree = if tree.type ∈ valueTypes then [tree]
      else if tree.type ∈ endTypes then [] else valuesBelow tree.children := by
  cases tree with
  | node label children => rw [valuesIn]; rfl

variable {label : Label} {tree : Tree}

theorem not_value_iff : tree.type ∉ valueTypes ↔
    tree.type ≠ "identifier" ∧ tree.type ≠ "member_expression" := by
  simp [valueTypes]

theorem not_end_iff : tree.type ∉ endTypes ↔ tree.type ≠ "type_identifier" ∧
    tree.type ≠ "nested_type_identifier" ∧ tree.type ∉ closedTypes := by
  simp [endTypes]

/-- The rules differ at values only. -/
theorem find_expressionRule (hvalue : tree.type ∉ valueTypes) :
    expressionRule.find tree = typeRule.find tree := by
  obtain ⟨hidentifier, hmember⟩ := not_value_iff.mp hvalue
  show find true tree = find false tree
  unfold find
  simp only [if_neg hidentifier, hmember, false_and, if_false]

theorem find_typeRule_of_end (hvalue : tree.type ∉ valueTypes) (hend : tree.type ∈ endTypes) :
    (typeRule.find tree).next = [] := by
  obtain ⟨hidentifier, hmember⟩ := not_value_iff.mp hvalue
  show (find false tree).next = []
  by_cases hname : tree.type = "type_identifier"
  · simp [find, hname]
  by_cases hnested : tree.type = "nested_type_identifier"
  · simp [find, hnested]
  have hclosed : tree.type ∈ closedTypes := by
    by_contra hopen
    exact not_end_iff.mpr ⟨hname, hnested, hopen⟩ hend
  simp [find, hidentifier, hmember, hname, hnested, hclosed]

/-- All other nodes are looked through. -/
theorem find_typeRule (hvalue : tree.type ∉ valueTypes) (hend : tree.type ∉ endTypes) :
    typeRule.find tree = ⟨[], tree.children⟩ := by
  obtain ⟨hidentifier, hmember⟩ := not_value_iff.mp hvalue
  obtain ⟨hname, hnested, hclosed⟩ := not_end_iff.mp hend
  show find false tree = ⟨[], tree.children⟩
  simp [find, hidentifier, hmember, hname, hnested, hclosed]

theorem collect_of_end (hvalue : tree.type ∉ valueTypes) (hend : tree.type ∈ endTypes) :
    expressionRule.collect tree = typeRule.collect tree := by
  have hnext := find_typeRule_of_end hvalue hend
  rw [NameRule.collect_eq, NameRule.collect_eq, find_expressionRule hvalue, hnext]
  rfl

theorem collect_eq_flatMap (hvalue : tree.type ∉ valueTypes) (hend : tree.type ∉ endTypes) :
    typeRule.collect tree = tree.children.flatMap typeRule.collect ∧
      expressionRule.collect tree = tree.children.flatMap expressionRule.collect := by
  have hfind := find_typeRule hvalue hend
  constructor
  · rw [NameRule.collect_eq, hfind]
    rfl
  · rw [NameRule.collect_eq, find_expressionRule hvalue, hfind]
    rfl

/-! ## What values contribute -/

mutual

/-- What is found with either rule differs by what is found in the values. -/
theorem count_collect (name : String) : ∀ tree,
    (expressionRule.collect tree).count name +
        ((valuesIn tree).flatMap typeRule.collect).count name =
      (typeRule.collect tree).count name +
        ((valuesIn tree).flatMap expressionRule.collect).count name
  | .node label children => by
      rw [valuesIn_eq]
      split
      case isTrue => simp only [List.flatMap_singleton, Nat.add_comm]
      case isFalse hvalue =>
        split
        case isTrue hend => rw [collect_of_end hvalue hend]; rfl
        case isFalse hend =>
          obtain ⟨htype, hexpression⟩ := collect_eq_flatMap hvalue hend
          rw [htype, hexpression]
          exact count_flatMap_collect name children

theorem count_flatMap_collect (name : String) : ∀ trees : List Tree,
    (trees.flatMap expressionRule.collect).count name +
        ((valuesBelow trees).flatMap typeRule.collect).count name =
      (trees.flatMap typeRule.collect).count name +
        ((valuesBelow trees).flatMap expressionRule.collect).count name
  | [] => rfl
  | tree :: rest => by
      have hfirst := count_collect name tree
      have hrest := count_flatMap_collect name rest
      simp only [valuesBelow, List.flatMap_cons, List.flatMap_append, List.count_append]
      omega

end

mutual

theorem sublist_values : ∀ tree,
    ((valuesIn tree).flatMap expressionRule.collect).Sublist (expressionRule.collect tree)
  | .node label children => by
      rw [valuesIn_eq]
      split
      case isTrue => rw [List.flatMap_singleton]
      case isFalse hvalue =>
        split
        case isTrue hend => exact List.nil_sublist _
        case isFalse hend =>
          rw [(collect_eq_flatMap hvalue hend).2]
          exact sublist_valuesBelow children

theorem sublist_valuesBelow : ∀ trees : List Tree,
    ((valuesBelow trees).flatMap expressionRule.collect).Sublist
      (trees.flatMap expressionRule.collect)
  | [] => .slnil
  | tree :: rest => by
      rw [valuesBelow, List.flatMap_append, List.flatMap_cons]
      exact (sublist_values tree).append (sublist_valuesBelow rest)

end

mutual

/-- Where no value has types in it, no name is missed. -/
theorem sublist_collect : ∀ tree, (∀ value ∈ valuesIn tree, typeRule.collect value = []) →
    (typeRule.collect tree).Sublist (expressionRule.collect tree)
  | .node label children, hvalues => by
      rw [valuesIn_eq] at hvalues
      split at hvalues
      case isTrue =>
        rw [List.forall_mem_singleton.mp hvalues]
        exact List.nil_sublist _
      case isFalse hvalue =>
        split at hvalues
        case isTrue hend => rw [collect_of_end hvalue hend]
        case isFalse hend =>
          obtain ⟨htype, hexpression⟩ := collect_eq_flatMap hvalue hend
          rw [htype, hexpression]
          exact sublist_flatMap_collect children hvalues

theorem sublist_flatMap_collect : ∀ trees : List Tree,
    (∀ value ∈ valuesBelow trees, typeRule.collect value = []) →
      (trees.flatMap typeRule.collect).Sublist (trees.flatMap expressionRule.collect)
  | [], _ => .slnil
  | tree :: rest, hvalues => by
      rw [valuesBelow] at hvalues
      obtain ⟨hfirst, hrest⟩ := List.forall_mem_append.mp hvalues
      rw [List.flatMap_cons, List.flatMap_cons]
      exact (sublist_collect tree hfirst).append (sublist_flatMap_collect rest hrest)

end

/-! ## The clauses of a heading -/

/-- How a clause of a heading is read. -/
def clauseReading? (type : String) : Option (NameRule × EdgeKind) :=
  if type = "extends_clause" then some (expressionRule, .extension)
  else if type = "extends_type_clause" then some (typeRule, .extension)
  else if type = "implements_clause" then some (typeRule, .implementation)
  else none

theorem namesIn_eq (rule : NameRule) : rule.namesIn = rule.collect := funext rule.namesIn_eq_collect

theorem namesIn_eq_flatMap (hvalue : tree.type ∉ valueTypes) (hend : tree.type ∉ endTypes) :
    typeRule.namesIn tree = tree.children.flatMap typeRule.namesIn ∧
      expressionRule.namesIn tree = tree.children.flatMap expressionRule.namesIn := by
  rw [namesIn_eq, namesIn_eq]
  exact collect_eq_flatMap hvalue hend

theorem headingEntries_eq_map (owner : String) (clause : Tree) :
    headingEntries owner clause = (clauseReading? clause.type).toList.map fun reading =>
      .refers owner (reading.1.namesIn clause) reading.2 := by
  rw [headingEntries, clauseReading?]
  split_ifs <;> rfl

/-- Clauses are looked through, by whichever rule they are read. -/
theorem namesIn_of_reading {clause : Tree} {rule : NameRule} {kind : EdgeKind}
    (hreading : clauseReading? clause.type = some (rule, kind)) :
    rule.namesIn clause = clause.children.flatMap rule.namesIn := by
  have hopen : ∀ type ∈ ["extends_clause", "extends_type_clause", "implements_clause"],
      type ∉ valueTypes ∧ type ∉ endTypes := by decide
  rw [clauseReading?] at hreading
  split_ifs at hreading with hextends hextendsType himplements
  all_goals obtain ⟨rfl, -⟩ := Prod.mk.inj (Option.some.inj hreading)
  · obtain ⟨hvalue, hend⟩ := hopen clause.type (by simp [hextends])
    exact (namesIn_eq_flatMap hvalue hend).2
  · obtain ⟨hvalue, hend⟩ := hopen clause.type (by simp [hextendsType])
    exact (namesIn_eq_flatMap hvalue hend).1
  · obtain ⟨hvalue, hend⟩ := hopen clause.type (by simp [himplements])
    exact (namesIn_eq_flatMap hvalue hend).1

/-- A clause gives what its parts give, one after the other. -/
theorem headingEntries_eq {clause : Tree} {rule : NameRule} {kind : EdgeKind}
    (hreading : clauseReading? clause.type = some (rule, kind)) (owner : String) :
    headingEntries owner clause = [.refers owner (clause.children.flatMap rule.namesIn) kind] := by
  rw [headingEntries_eq_map, hreading, ← namesIn_of_reading hreading]
  rfl

/-- What the type arguments in a clause contribute. -/
structure ReadsArguments (owner : String) (before : List Tree) (arguments : Tree)
    (after : List Tree) : Prop where
  /-- A clause gives the names of its parts. -/
  entries : ∀ (label : Label) (rule : NameRule) (kind : EdgeKind),
    clauseReading? label.type = some (rule, kind) →
      headingEntries owner (.node label (before ++ arguments :: after)) =
        [.refers owner (before.flatMap rule.namesIn ++ (rule.namesIn arguments ++
          after.flatMap rule.namesIn)) kind]
  /-- In a clause for an expression, arguments give the names that they give elsewhere, but for the
  values in them, which are read as values. -/
  names : (expressionRule.namesIn arguments ++ (valuesIn arguments).flatMap typeRule.namesIn).Perm
    (typeRule.namesIn arguments ++ (valuesIn arguments).flatMap expressionRule.namesIn)
  /-- The names of values are among those of the arguments. -/
  values : ((valuesIn arguments).flatMap expressionRule.namesIn).Sublist
    (expressionRule.namesIn arguments)
  same_iff : (∀ value ∈ valuesIn arguments, typeRule.namesIn value = []) →
    (expressionRule.namesIn arguments = typeRule.namesIn arguments ↔
      ∀ value ∈ valuesIn arguments, expressionRule.namesIn value = [])

theorem perm_collect (tree : Tree) :
    (expressionRule.collect tree ++ (valuesIn tree).flatMap typeRule.collect).Perm
      (typeRule.collect tree ++ (valuesIn tree).flatMap expressionRule.collect) := by
  rw [List.perm_iff_count]
  intro name
  rw [List.count_append, List.count_append, count_collect]

theorem collect_eq_iff (hvalues : ∀ value ∈ valuesIn tree, typeRule.collect value = []) :
    expressionRule.collect tree = typeRule.collect tree ↔
      ∀ value ∈ valuesIn tree, expressionRule.collect value = [] := by
  have hperm := perm_collect tree
  rw [List.flatMap_eq_nil_iff.mpr hvalues, List.append_nil] at hperm
  have hlength := hperm.length_eq
  rw [List.length_append] at hlength
  rw [← List.flatMap_eq_nil_iff, ← List.length_eq_zero_iff]
  -- One list of names is part of the other, so they are the same if they are of the same length.
  constructor
  · intro hsame
    rw [hsame] at hlength
    omega
  · intro hnone
    exact ((sublist_collect tree hvalues).eq_of_length (by omega)).symm

/-- **Values in the arguments of what a class extends are read as if they were extended**; apart from
that, arguments give the same names in all clauses. -/
theorem reads_arguments (owner : String) (before : List Tree) (arguments : Tree) (after : List Tree) :
    ReadsArguments owner before arguments after where
  entries label rule kind hreading := by
    have hclause : clauseReading? (Syntax.Tree.node label (before ++ arguments :: after)).type =
        some (rule, kind) := hreading
    rw [headingEntries_eq hclause, Tree.children_node, List.flatMap_append, List.flatMap_cons]
  names := by
    rw [namesIn_eq, namesIn_eq]
    exact perm_collect arguments
  values := by
    rw [namesIn_eq]
    exact sublist_values arguments
  same_iff := by
    rw [namesIn_eq, namesIn_eq]
    exact collect_eq_iff

/-- `<(item: Item) => void>` -/
def itemArguments : Tree :=
  .node { type := "type_arguments" }
    [.node { type := "function_type" }
      [.node { type := "formal_parameters", fields := ["parameters"] }
        [.node { type := "required_parameter" }
          [.node { type := "identifier", fields := ["pattern"], raw := .plain "item" } [],
            .node { type := "type_annotation", fields := ["type"] }
              [.node { type := "type_identifier", raw := .plain "Item" } []]]],
        .node { type := "predefined_type", fields := ["return_type"], raw := .plain "void" } []]]

/-- `extends Base<(item: Item) => void>` -/
def itemClause : Tree :=
  .node { type := "extends_clause" }
    [.node { type := "identifier", fields := ["value"], raw := .plain "Base" } [], itemArguments]

/-- The name of a parameter is read as that of a type. -/
theorem itemArguments_not_same :
    headingEntries "Box" itemClause = [.refers "Box" ["Base", "item", "Item"] .extension] ∧
      expressionRule.namesIn itemArguments = ["item", "Item"] ∧
      typeRule.namesIn itemArguments = ["Item"] := by
  have hclause : clauseReading? itemClause.type = some (expressionRule, .extension) := rfl
  have hbase : expressionRule.namesIn
      (.node { type := "identifier", fields := ["value"], raw := .plain "Base" } []) = ["Base"] := by
    rw [NameRule.namesIn_eq_collect, NameRule.collect_eq]
    rfl
  have hexpression : expressionRule.namesIn itemArguments = ["item", "Item"] := by
    rw [NameRule.namesIn_eq_collect]
    simp [NameRule.collect_eq, itemArguments, expressionRule, find, closedTypes, RawText.decode]
  have htype : typeRule.namesIn itemArguments = ["Item"] := by
    rw [NameRule.namesIn_eq_collect]
    simp [NameRule.collect_eq, itemArguments, typeRule, find, closedTypes, RawText.decode]
  refine ⟨?_, hexpression, htype⟩
  rw [headingEntries_eq hclause, itemClause, Tree.children_node, List.flatMap_cons,
    List.flatMap_singleton, hbase, hexpression]
  rfl

end TypeAtlas.TypeScript
