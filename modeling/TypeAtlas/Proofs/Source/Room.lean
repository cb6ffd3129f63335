import TypeAtlas.Proofs.Source.Leaves

/-!
# A file put into a tree

`HasRoom` says where in a tree a file can be put: in the place of a file, or as a new entry of a
directory.  What the file changes is seen in two ways.  Looking along any names (`putAt_at?`), one
finds what was there, unless the names lead to the file or to a directory above it.  And the leaves
of the tree are the same ones in the same order, but for the file itself (`exists_leaves_put`).

Names that lead on from the file have changed in one respect only: where nothing was found before, it
is now the file that is in the way.  `Alike` stands for that.
-/

namespace TypeAtlas

/-- What comes of looking for something is the same, or nothing in both cases: first it was not there,
and then a file was in the way. -/
def Alike (before after : Except FileFault α) : Prop :=
  after = before ∨ before = .error .noEntry ∧ after = .error .notDirectory

namespace Alike

theorem refl (found : Except FileFault α) : Alike found found := .inl rfl

theorem of_ok {before after : Except FileFault α} {item : α} (halike : Alike before after)
    (hbefore : before = .ok item) : after = .ok item := by
  obtain hsame | ⟨hmissing, -⟩ := halike
  · exact hsame.trans hbefore
  · rw [hmissing] at hbefore
    cases hbefore

theorem bind {before after : Except FileFault α} {next next' : α → Except FileFault β}
    (halike : Alike before after) (hnext : ∀ item, before = .ok item → Alike (next item) (next' item)) :
    Alike (before.bind next) (after.bind next') := by
  obtain rfl | ⟨rfl, rfl⟩ := halike
  · cases after with
    | error fault => exact .refl _
    | ok item => exact hnext item rfl
  · exact .inr ⟨rfl, rfl⟩

end Alike

namespace FileTree

/-- A file can be put at the end of some names. -/
inductive HasRoom : FileTree → List String → Prop where
  /-- There is a file already. -/
  | file (octets : List UInt8) : HasRoom (.file octets) []
  /-- The directory has no entry of the last name. -/
  | new {entries : List (String × FileTree)} {name : String}
      (hlookup : entries.lookup name = none) : HasRoom (.directory entries) [name]
  | inside {entries : List (String × FileTree)} {name : String} {child : FileTree}
      {rest : List String} (hlookup : entries.lookup name = some child)
      (hroom : HasRoom child rest) : HasRoom (.directory entries) (name :: rest)

theorem put_of_lookup {entries : List (String × FileTree)} {name : String} {child : FileTree}
    (hlookup : entries.lookup name = some child) (item : FileTree) (rest : List String) :
    put item (name :: rest) (.directory entries) =
      .directory (putEntry entries name (put item rest child)) := by
  simp only [put, FileTree.entries, hlookup, Option.getD_some]

theorem put_new (entries : List (String × FileTree)) (name : String) (item : FileTree) :
    put item [name] (.directory entries) = .directory (putEntry entries name item) := rfl

theorem at?_directory_cons (entries : List (String × FileTree)) (name : String)
    (rest : List String) :
    (directory entries).at? (name :: rest) =
      match entries.lookup name with
      | some child => child.at? rest
      | none => .error .noEntry := rfl

/-- Below a directory that is there, room is wanting only where a link or a directory is. -/
theorem hasRoom_of_directory_at {tree : FileTree} {place : List String}
    {entries : List (String × FileTree)} (hplace : tree.at? place = .ok (.directory entries))
    {name : String} (hlink : ∀ target, tree.at? (place ++ [name]) ≠ .ok (.link target)) :
    tree.HasRoom (place ++ [name]) ∨
      ∃ entries, tree.at? (place ++ [name]) = .ok (.directory entries) := by
  induction place generalizing tree with
  | nil =>
      obtain rfl : tree = .directory entries := Except.ok.inj hplace
      rw [List.nil_append, at?_directory_cons] at hlink ⊢
      cases hlookup : entries.lookup name with
      | none => exact .inl (.new hlookup)
      | some child =>
          rw [hlookup] at hlink
          cases child with
          | file octets => exact .inl (.inside hlookup (.file octets))
          | link target => exact absurd rfl (hlink target)
          | directory inner => exact .inr ⟨inner, rfl⟩
  | cons first place ih =>
      cases tree with
      | file octets => cases hplace
      | link target => cases hplace
      | directory root =>
          rw [List.cons_append, at?_directory_cons] at hlink ⊢
          rw [at?_directory_cons] at hplace
          cases hlookup : root.lookup first with
          | none =>
              rw [hlookup] at hplace
              cases hplace
          | some child =>
              rw [hlookup] at hplace hlink
              exact (ih hplace hlink).imp_left (.inside hlookup)

/-! ## Looking along names -/

/-- A directory stays one if a file is put below it. -/
theorem HasRoom.exists_put_eq {entries : List (String × FileTree)} {place : List String}
    (hroom : (directory entries).HasRoom place) (item : FileTree) :
    ∃ entries', put item place (.directory entries) = .directory entries' := by
  cases hroom with
  | new hlookup => exact ⟨_, rfl⟩
  | inside hlookup hroom => exact ⟨_, rfl⟩

theorem HasRoom.at?_put {tree : FileTree} {place : List String} (hroom : tree.HasRoom place)
    (item : FileTree) : (put item place tree).at? place = .ok item := by
  induction hroom with
  | file octets => rfl
  | new hlookup =>
      rw [put_new, at?_directory_cons, lookup_putEntry, beq_self_eq_true, if_pos rfl]
      rfl
  | inside hlookup hroom ih =>
      rw [put_of_lookup hlookup, at?_directory_cons, lookup_putEntry, beq_self_eq_true, if_pos rfl]
      exact ih

/-- What is found along names before and after a file is put at a place. -/
inductive PutAt (octets : List UInt8) (place : List String) :
    List String → Except FileFault FileTree → Except FileFault FileTree → Prop where
  /-- The names lead to the file, where there was one before. -/
  | replaced (old : List UInt8) : PutAt octets place place (.ok (.file old)) (.ok (.file octets))
  /-- The names lead to the file, where there was none. -/
  | added : PutAt octets place place (.error .noEntry) (.ok (.file octets))
  /-- The names lead to a directory above the file. -/
  | above {names rest : List String} {entries : List (String × FileTree)}
      (hplace : names ++ rest = place) (hroom : HasRoom (.directory entries) rest) :
      PutAt octets place names (.ok (.directory entries))
        (.ok (put (.file octets) rest (.directory entries)))
  /-- The names lead somewhere else. -/
  | aside {names : List String} {before after : Except FileFault FileTree} (hne : names ≠ place)
      (halike : Alike before after) : PutAt octets place names before after

section

variable {octets : List UInt8} {place names : List String} {after : Except FileFault FileTree}

theorem PutAt.of_error {fault : FileFault} (hput : PutAt octets place names (.error fault) after) :
    after = .error fault ∨
      fault = .noEntry ∧ (after = .ok (.file octets) ∨ after = .error .notDirectory) := by
  cases hput with
  | added => exact .inr ⟨rfl, .inl rfl⟩
  | aside hne halike =>
      obtain rfl | ⟨hmissing, rfl⟩ := halike
      · exact .inl rfl
      · exact .inr ⟨Except.error.inj hmissing, .inr rfl⟩

theorem PutAt.of_file {old : List UInt8}
    (hput : PutAt octets place names (.ok (.file old)) after) :
    ∃ octets', after = .ok (.file octets') := by
  cases hput with
  | replaced => exact ⟨octets, rfl⟩
  | aside hne halike => exact ⟨old, halike.of_ok rfl⟩

theorem PutAt.of_link {target : String}
    (hput : PutAt octets place names (.ok (.link target)) after) : after = .ok (.link target) := by
  cases hput with
  | aside hne halike => exact halike.of_ok rfl

theorem PutAt.of_directory {entries : List (String × FileTree)}
    (hput : PutAt octets place names (.ok (.directory entries)) after) :
    ∃ entries', after = .ok (.directory entries') := by
  cases hput with
  | above hplace hroom =>
      obtain ⟨entries', hentries⟩ := hroom.exists_put_eq (.file octets)
      exact ⟨entries', congrArg Except.ok hentries⟩
  | aside hne halike => exact ⟨entries, halike.of_ok rfl⟩

end

theorem PutAt.cons {octets : List UInt8} {place names : List String}
    {before after : Except FileFault FileTree} (hput : PutAt octets place names before after)
    (name : String) : PutAt octets (name :: place) (name :: names) before after := by
  cases hput with
  | replaced old => exact .replaced old
  | added => exact .added
  | above hplace hroom => exact .above (congrArg (name :: ·) hplace) hroom
  | aside hne halike => exact .aside (fun hsame => hne (List.cons.inj hsame).2) halike

/-- **Looking along any names after a file is put into a tree.** -/
theorem HasRoom.putAt_at? {tree : FileTree} {place : List String} (hroom : tree.HasRoom place)
    (octets : List UInt8) (names : List String) :
    PutAt octets place names (tree.at? names) ((put (.file octets) place tree).at? names) := by
  -- Along the way to the file; names that turn off from it lead where they led.
  induction hroom generalizing names with
  | file old =>
      cases names with
      | nil => exact .replaced old
      | cons first names => exact .aside (List.cons_ne_nil _ _) (.refl _)
  | @new entries name hlookup =>
      cases names with
      | nil => exact .above rfl (.new hlookup)
      | cons first names =>
          rw [put_new, at?_directory_cons, at?_directory_cons, lookup_putEntry]
          by_cases hfirst : first = name
          · subst hfirst
            rw [beq_self_eq_true, if_pos rfl, hlookup]
            cases names with
            | nil => exact .added
            | cons second names => exact .aside (fun hsame => nomatch hsame) (.inr ⟨rfl, rfl⟩)
          · rw [beq_false_of_ne hfirst, if_neg Bool.false_ne_true]
            exact .aside (fun hsame => hfirst (List.cons.inj hsame).1) (.refl _)
  | @inside entries name child rest hlookup hroom ih =>
      cases names with
      | nil => exact .above rfl (.inside hlookup hroom)
      | cons first names =>
          rw [put_of_lookup hlookup, at?_directory_cons, at?_directory_cons, lookup_putEntry]
          by_cases hfirst : first = name
          · subst hfirst
            rw [beq_self_eq_true, if_pos rfl, hlookup]
            exact (ih names).cons first
          · rw [beq_false_of_ne hfirst, if_neg Bool.false_ne_true]
            exact .aside (fun hsame => hfirst (List.cons.inj hsame).1) (.refl _)

/-! ## Leaves -/

/-- Whether a leaf is a file that the given names lead to. -/
def IsFileAt (names : List String) (leaf : List String × FileTree) : Prop :=
  leaf.1 = names ∧ ∃ octets, leaf.2 = .file octets

theorem putEntry_of_lookup_eq_none {entries : List (String × FileTree)} {name : String}
    (hlookup : entries.lookup name = none) (item : FileTree) :
    putEntry entries name item = entries ++ [(name, item)] := by
  induction entries with
  | nil => rfl
  | cons entry entries ih =>
      obtain ⟨first, tree⟩ := entry
      rw [List.lookup_cons] at hlookup
      split at hlookup
      next => cases hlookup
      next hfirst =>
        have hother : (first == name) = false := by
          rw [beq_eq_false_iff_ne] at hfirst ⊢
          exact Ne.symm hfirst
        rw [putEntry, hother, if_neg Bool.false_ne_true, ih hlookup, List.cons_append]

theorem exists_putEntry {entries : List (String × FileTree)} {name : String} {child : FileTree}
    (hlookup : entries.lookup name = some child) (item : FileTree) :
    ∃ before after, entries = before ++ (name, child) :: after ∧
      putEntry entries name item = before ++ (name, item) :: after := by
  induction entries with
  | nil => cases hlookup
  | cons entry entries ih =>
      obtain ⟨first, tree⟩ := entry
      by_cases hfirst : first = name
      · subst hfirst
        obtain rfl : tree = child := by simpa [List.lookup_cons] using hlookup
        exact ⟨[], entries, rfl, by simp [putEntry]⟩
      · have hother : (first == name) = false := beq_false_of_ne hfirst
        have hother' : (name == first) = false := beq_false_of_ne (Ne.symm hfirst)
        rw [List.lookup_cons, hother'] at hlookup
        obtain ⟨before, after, hentries, hput⟩ := ih hlookup
        refine ⟨(first, tree) :: before, after, ?_, ?_⟩
        · rw [hentries, List.cons_append]
        · rw [putEntry, hother, if_neg Bool.false_ne_true, hput, List.cons_append]

theorem leaves_directory (entries : List (String × FileTree)) :
    (directory entries).allLeaves = entries.flatMap (leavesOf fun _ => false) :=
  leavesIn_eq_flatMap _ entries

/-- **The leaves of a tree after a file is put into it** are those that it had, with the file in the
place of the one before, or put in somewhere. -/
theorem HasRoom.exists_leaves_put {tree : FileTree} {place : List String}
    (hroom : tree.HasRoom place) (octets : List UInt8) :
    ∃ before old after, tree.allLeaves = before ++ old ++ after ∧
      (put (.file octets) place tree).allLeaves = before ++ (place, .file octets) :: after ∧
      ∀ leaf ∈ old, IsFileAt place leaf := by
  induction hroom with
  | file old =>
      exact ⟨[], [([], .file old)], [], rfl, rfl,
        List.forall_mem_singleton.mpr ⟨rfl, old, rfl⟩⟩
  | @new entries name hlookup =>
      refine ⟨(directory entries).allLeaves, [], [], by simp, ?_, nofun⟩
      rw [put_new, putEntry_of_lookup_eq_none hlookup, leaves_directory, leaves_directory,
        List.flatMap_append, List.flatMap_singleton]
      rfl
  | @inside entries name child rest hlookup hroom ih =>
      obtain ⟨before, old, after, hchild, hput, hold⟩ := ih
      obtain ⟨first, last, hentries, hentry⟩ :=
        exists_putEntry hlookup (put (.file octets) rest child)
      let down := fun leaf : List String × FileTree => (name :: leaf.1, leaf.2)
      refine ⟨first.flatMap (leavesOf fun _ => false) ++ before.map down, old.map down,
        after.map down ++ last.flatMap (leavesOf fun _ => false), ?_, ?_, ?_⟩
      · rw [leaves_directory, hentries, List.flatMap_append, List.flatMap_cons, leavesOf_false,
          hchild, List.map_append, List.map_append]
        simp only [List.append_assoc, down]
      · rw [put_of_lookup hlookup, hentry, leaves_directory, List.flatMap_append, List.flatMap_cons,
          leavesOf_false, hput, List.map_append, List.map_cons]
        simp only [List.append_assoc, List.cons_append, down]
      · intro leaf hleaf
        obtain ⟨below, hbelow, rfl⟩ := List.mem_map.mp hleaf
        obtain ⟨hnames, hfile⟩ := hold below hbelow
        exact ⟨congrArg (name :: ·) hnames, hfile⟩

end FileTree
end TypeAtlas
