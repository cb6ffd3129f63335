import TypeAtlas.Proofs.Source.Readers
import TypeAtlas.Proofs.Source.Room

/-!
# A disk after a file is written

A file is written where its path leads to, which is a place where there is room for it
(`hasRoom_of_write`).  Afterwards its path leads there again and its octets are read there
(`read_put`).

No link comes or goes with a file.  Paths are therefore resolved as they were (`resolve_put`), and
opened as they were, unless nothing was found before: then the new file may now be in the way
(`alike_locate_put`).
-/

namespace TypeAtlas

/-- What stands above a directory is a directory. -/
theorem FileTree.exists_directory_at {tree : FileTree} {names more : List String}
    {entries : List (String × FileTree)} (hat : tree.at? (names ++ more) = .ok (.directory entries)) :
    ∃ entries, tree.at? names = .ok (.directory entries) := by
  induction names generalizing tree with
  | nil =>
      cases more with
      | nil => exact ⟨entries, hat⟩
      | cons name more =>
          cases tree with
          | file octets => cases hat
          | link target => cases hat
          | directory inner => exact ⟨inner, rfl⟩
  | cons name names ih =>
      cases tree with
      | file octets => cases hat
      | link target => cases hat
      | directory inner =>
          rw [List.cons_append, at?_directory_cons] at hat
          rw [at?_directory_cons]
          cases hlookup : inner.lookup name with
          | none =>
              rw [hlookup] at hat
              cases hat
          | some child =>
              rw [hlookup] at hat
              exact ih hat

namespace Disk

variable {disk disk' : Disk} {place found : Location} {path : String}

/-! ## Where a file is written -/

/-- A place of a directory, or one where there is room for a file. -/
def Stands (disk : Disk) (place : Location) : Prop :=
  (∃ entries, disk.at? place = .ok (.directory entries)) ∨ disk.tree.HasRoom place

theorem stands_dropLast {entries : List (String × FileTree)}
    (hat : disk.at? place = .ok (.directory entries)) : disk.Stands place.dropLast := by
  obtain rfl | ⟨above, name, rfl⟩ := place.eq_nil_or_concat
  · exact .inl ⟨entries, hat⟩
  · rw [List.concat_eq_append] at hat ⊢
    rw [List.dropLast_concat]
    exact .inl (FileTree.exists_directory_at hat)

theorem stands_startFrom {entries : List (String × FileTree)}
    (hat : disk.at? place = .ok (.directory entries)) (target : String) :
    disk.Stands (startFrom place target) := by
  have hroot : ∃ entries, disk.at? [] = .ok (.directory entries) :=
    FileTree.exists_directory_at hat
  rw [startFrom]
  split
  · exact .inl hroot
  · exact .inl ⟨entries, hat⟩

theorem stands_of_link?_eq_none {entries : List (String × FileTree)} {segment : String}
    (hat : disk.at? place = .ok (.directory entries))
    (hlink : disk.link? (place ++ [segment]) = none) : disk.Stands (place ++ [segment]) := by
  refine (FileTree.hasRoom_of_directory_at hat ?_).symm
  intro target htarget
  rw [link?, at?, htarget] at hlink
  cases hlink

/-- Opening leads from what stands to what stands. -/
theorem stands_of_locateFrom {writing : Bool} {links : Nat} {segments : List String}
    (hstart : disk.Stands place)
    (hfound : disk.locateFrom writing links place segments = .ok found) : disk.Stands found := by
  -- Down to an entry, up, or to where a link leads; all other cases of the recursion are faults.
  fun_induction locateFrom disk writing links place segments with
  | case1 links place => exact Except.ok.inj hfound ▸ hstart
  | case5 links place segment rest entries hat hsame ih => exact ih hstart hfound
  | case6 links place rest entries hat hother ih => exact ih (stands_dropLast hat) hfound
  | case9 links place segment rest entries hat hother hback hwriting hlength hlink ih =>
      exact ih (stands_of_link?_eq_none hat hlink) hfound
  | case11 place segment rest entries hat hother hback hwriting hlength target hlink fewer ih =>
      exact ih (stands_startFrom hat target) hfound
  | case2 | case3 | case4 | case7 | case8 | case10 => cases hfound

section

variable {writing : Bool} {links : Nat} {segment : String} {rest : List String}
  {entries : List (String × FileTree)}

theorem locateFrom_same (hat : disk.at? place = .ok (.directory entries))
    (hsame : segment = "" ∨ segment = ".") :
    disk.locateFrom writing links place (segment :: rest) =
      disk.locateFrom writing links place rest := by
  rw [locateFrom, hat]
  simp only [if_pos hsame]

theorem locateFrom_back (hat : disk.at? place = .ok (.directory entries)) :
    disk.locateFrom writing links place (".." :: rest) =
      disk.locateFrom writing links place.dropLast rest := by
  have hother : ¬ (".." = "" ∨ ".." = ".") := by decide
  rw [locateFrom, hat]
  simp only [if_neg hother, if_true]

/-- A segment that is a name leads down to an entry, if it is not in the way itself. -/
theorem locateFrom_name (hat : disk.at? place = .ok (.directory entries))
    (hother : ¬ (segment = "" ∨ segment = ".")) (hback : ¬ segment = "..")
    (hwriting : ¬ (writing && !rest.isEmpty && rest.all String.isEmpty) = true)
    (hlength : ¬ nameLimit < (Utf8.encode segment).length) :
    disk.locateFrom writing links place (segment :: rest) =
      match disk.link? (place ++ [segment]), links with
      | none, _ => disk.locateFrom writing links (place ++ [segment]) rest
      | some _, 0 => .error .tooManyLinks
      | some target, fewer + 1 =>
        disk.locateFrom writing fewer (startFrom place target) (Text.split '/' target ++ rest) := by
  rw [locateFrom, hat]
  simp only [if_neg hother, if_neg hback, if_neg hwriting, if_neg hlength]
  cases disk.link? (place ++ [segment]) with
  | none => rfl
  | some target => cases links <;> rfl

end

/-- A file is read where it would be written. -/
theorem locateFrom_reading {links : Nat} {segments : List String}
    (hfound : disk.locateFrom true links place segments = .ok found) :
    disk.locateFrom false links place segments = .ok found := by
  have hreading : ∀ rest : List String,
      ¬ (false && !rest.isEmpty && rest.all String.isEmpty) = true := by simp
  fun_induction locateFrom disk true links place segments with
  | case1 links place => rw [locateFrom, hfound]
  | case5 links place segment rest entries hat hsame ih =>
      rw [locateFrom_same hat hsame]
      exact ih hfound
  | case6 links place rest entries hat hother ih =>
      rw [locateFrom_back hat]
      exact ih hfound
  | case9 links place segment rest entries hat hother hback hwriting hlength hlink ih =>
      rw [locateFrom_name hat hother hback (hreading rest) hlength, hlink]
      exact ih hfound
  | case11 place segment rest entries hat hother hback hwriting hlength target hlink fewer ih =>
      rw [locateFrom_name hat hother hback (hreading rest) hlength, hlink]
      exact ih hfound
  | case2 | case3 | case4 | case7 | case8 | case10 => cases hfound

theorem locate_reading (hfound : disk.locate true path = .ok found) :
    disk.locate false path = .ok found := by
  rw [locate] at hfound ⊢
  split at hfound
  next => cases hfound
  next hlength =>
    rw [if_neg hlength]
    exact locateFrom_reading hfound

theorem directory?_eq_some_iff {entries : List (String × FileTree)} :
    disk.directory? place = some entries ↔ disk.at? place = .ok (.directory entries) := by
  rw [directory?]
  split
  next found hat => rw [hat, Option.some.injEq, Except.ok.injEq, FileTree.directory.injEq]
  next hat => exact ⟨nofun, fun hfound => absurd hfound (hat entries)⟩

/-- A file is written where there is room for it, if relative paths start in a directory. -/
theorem hasRoom_of_write {octets : List UInt8} (hhome : (disk.directory? disk.home).isSome)
    (hwrite : disk.write path octets = .ok disk') :
    ∃ place, disk.locate false path = .ok place ∧ disk.tree.HasRoom place ∧
      disk' = disk.put place (.file octets) := by
  obtain ⟨entries, hentries⟩ := Option.isSome_iff_exists.mp hhome
  have hstart : disk.Stands (startFrom disk.home path) :=
    stands_startFrom (directory?_eq_some_iff.mp hentries) path
  rw [write] at hwrite
  split at hwrite
  next => cases hwrite
  next place hplace =>
    split at hwrite
    next => cases hwrite
    next hdirectory =>
      have hstands : disk.Stands place := by
        rw [locate] at hplace
        split at hplace
        next => cases hplace
        next => exact stands_of_locateFrom hstart hplace
      refine ⟨place, locate_reading hplace, ?_, (Except.ok.inj hwrite).symm⟩
      apply hstands.resolve_left
      rintro ⟨inner, hat⟩
      rw [directory?_eq_some_iff.mpr hat] at hdirectory
      cases hdirectory

/-! ## What is found afterwards -/

section

variable (hroom : disk.tree.HasRoom place) (octets : List UInt8)

include hroom

theorem putAt_at? (names : Location) :
    FileTree.PutAt octets place names (disk.at? names)
      ((disk.put place (.file octets)).at? names) :=
  hroom.putAt_at? octets names

theorem exists_directory_put {names : Location} {entries : List (String × FileTree)}
    (hat : disk.at? names = .ok (.directory entries)) :
    ∃ entries', (disk.put place (.file octets)).at? names = .ok (.directory entries') := by
  have hput := putAt_at? hroom octets names
  rw [hat] at hput
  exact hput.of_directory

/-- No link comes or goes. -/
theorem link?_put (names : Location) :
    (disk.put place (.file octets)).link? names = disk.link? names := by
  have hput := putAt_at? hroom octets names
  rw [link?, link?]
  generalize disk.at? names = before at hput
  generalize (disk.put place (.file octets)).at? names = after at hput
  cases hput with
  | replaced old => rfl
  | added => rfl
  | above hplace hbelow => cases hbelow <;> rfl
  | aside hne halike =>
      obtain rfl | ⟨rfl, rfl⟩ := halike
      · rfl
      · rfl

theorem links_put : (disk.put place (.file octets)).links = disk.links := by
  obtain ⟨before, old, after, htree, hput, hold⟩ := hroom.exists_leaves_put octets
  rw [links, links]
  -- What is put and what it replaces are files, and a file adds no link to the list.
  change List.flatMap _ (FileTree.put (.file octets) place disk.tree).allLeaves =
    List.flatMap _ disk.tree.allLeaves
  rw [hput, htree, List.flatMap_append, List.flatMap_append, List.flatMap_append,
    List.flatMap_cons, List.append_assoc]
  congr 1
  have hnone : ∀ expand : List String × FileTree → List Named,
      (∀ names octets, expand (names, .file octets) = []) → old.flatMap expand = [] := by
    intro expand hfile
    rw [List.flatMap_eq_nil_iff]
    rintro ⟨names, leaf⟩ hleaf
    obtain ⟨-, octets, rfl⟩ := hold _ hleaf
    exact hfile names octets
  rw [hnone _ fun _ _ => rfl]

/-- Opening leads where it led, if it led anywhere. -/
theorem alike_locateFrom_put (writing : Bool) (links : Nat) (start : Location)
    (segments : List String) :
    Alike (disk.locateFrom writing links start segments)
      ((disk.put place (.file octets)).locateFrom writing links start segments) := by
  -- On a way through directories both disks take the same branch, as links stay what they are.  It is
  -- only where the way ends before its last segment that the file can make a difference (`case2`).
  fun_induction locateFrom disk writing links start segments with
  | case1 links start =>
      rw [locateFrom]
      exact .refl _
  | case2 links start segment rest fault hat =>
      have hput := putAt_at? hroom octets start
      rw [hat] at hput
      obtain hafter | ⟨rfl, hafter⟩ := hput.of_error
      · rw [locateFrom, hafter]
        exact .refl _
      · refine .inr ⟨rfl, ?_⟩
        rw [locateFrom]
        obtain hafter | hafter := hafter <;> rw [hafter]
  | case3 links start segment rest old hat =>
      have hput := putAt_at? hroom octets start
      rw [hat] at hput
      obtain ⟨octets', hafter⟩ := hput.of_file
      rw [locateFrom, hafter]
      exact .refl _
  | case4 links start segment rest target hat =>
      have hput := putAt_at? hroom octets start
      rw [hat] at hput
      rw [locateFrom, hput.of_link]
      exact .refl _
  | case5 links start segment rest entries hat hsame ih =>
      obtain ⟨entries', hafter⟩ := exists_directory_put hroom octets hat
      rw [locateFrom_same hafter hsame]
      exact ih
  | case6 links start rest entries hat hother ih =>
      obtain ⟨entries', hafter⟩ := exists_directory_put hroom octets hat
      rw [locateFrom_back hafter]
      exact ih
  | case7 links start segment rest entries hat hother hback hwriting =>
      obtain ⟨entries', hafter⟩ := exists_directory_put hroom octets hat
      rw [locateFrom, hafter]
      simp only [if_neg hother, if_neg hback, if_pos hwriting]
      exact .refl _
  | case8 links start segment rest entries hat hother hback hwriting hlength =>
      obtain ⟨entries', hafter⟩ := exists_directory_put hroom octets hat
      rw [locateFrom, hafter]
      simp only [if_neg hother, if_neg hback, if_neg hwriting, if_pos hlength]
      exact .refl _
  | case9 links start segment rest entries hat hother hback hwriting hlength hlink ih =>
      obtain ⟨entries', hafter⟩ := exists_directory_put hroom octets hat
      rw [locateFrom_name hafter hother hback hwriting hlength, link?_put hroom, hlink]
      exact ih
  | case10 start segment rest entries hat hother hback hwriting hlength target hlink =>
      obtain ⟨entries', hafter⟩ := exists_directory_put hroom octets hat
      rw [locateFrom_name hafter hother hback hwriting hlength, link?_put hroom, hlink]
      exact .refl _
  | case11 start segment rest entries hat hother hback hwriting hlength target hlink fewer ih =>
      obtain ⟨entries', hafter⟩ := exists_directory_put hroom octets hat
      rw [locateFrom_name hafter hother hback hwriting hlength, link?_put hroom, hlink]
      exact ih

theorem alike_locate_put (writing : Bool) (path : String) :
    Alike (disk.locate writing path) ((disk.put place (.file octets)).locate writing path) := by
  rw [locate, locate]
  split
  next => exact .refl _
  next => exact alike_locateFrom_put hroom octets writing linkLimit _ _

/-- The file is read where it was put. -/
theorem read_put (hpath : disk.locate false path = .ok place) :
    (disk.put place (.file octets)).read path = .ok octets := by
  have hfile : (disk.put place (.file octets)).at? place = .ok (.file octets) :=
    hroom.at?_put (.file octets)
  rw [read, (alike_locate_put hroom octets false path).of_ok hpath, Except.bind, readAt, hfile]

/-- Everywhere else is read what was read. -/
theorem alike_readAt_put {other : Location} (hother : other ≠ place) :
    Alike (disk.readAt other) ((disk.put place (.file octets)).readAt other) := by
  have hput := putAt_at? hroom octets other
  rw [readAt, readAt]
  generalize disk.at? other = before at hput
  generalize (disk.put place (.file octets)).at? other = after at hput
  cases hput with
  | replaced old => exact absurd rfl hother
  | added => exact absurd rfl hother
  | above hplace hbelow =>
      obtain ⟨entries', hentries⟩ := hbelow.exists_put_eq (.file octets)
      rw [hentries]
      exact .refl _
  | aside hne halike =>
      obtain rfl | ⟨rfl, rfl⟩ := halike
      · exact .refl _
      · exact .inr ⟨rfl, rfl⟩

theorem alike_read_put {path : String}
    (hpath : (disk.put place (.file octets)).locate false path ≠ .ok place) :
    Alike (disk.read path) ((disk.put place (.file octets)).read path) := by
  have halike := alike_locate_put hroom octets false path
  rw [read, read]
  -- A path that led to the place of the file before would do so now.
  refine halike.bind fun other hother => alike_readAt_put hroom octets ?_
  rintro rfl
  exact hpath (halike.of_ok hother)

/-! ## Names -/

theorem followFrom_put (links : List Named) (here : Named) (segments : List String) :
    (disk.put place (.file octets)).followFrom links here segments =
      disk.followFrom links here segments := by
  fun_induction followFrom disk links here segments with
  | case1 links here => rw [followFrom]
  | case2 links here segment rest hsame ih => rw [followFrom, if_pos hsame, ih]
  | case3 links here rest hother ih => rw [followFrom, if_neg hother, if_pos rfl, ih]
  | case4 links here segment rest hother hback hlink ih =>
      rw [followFrom, if_neg hother, if_neg hback, link?_put hroom, hlink]
      exact ih
  | case5 links here segment rest hother hback target hlink hmem hlength found hfound ih ihrest =>
      rw [followFrom, if_neg hother, if_neg hback, link?_put hroom, hlink]
      simp only [dif_pos hmem, ih, hfound, ihrest]
  | case6 links here segment rest hother hback target hlink hmem hlength stuck hstuck ih =>
      rw [followFrom, if_neg hother, if_neg hback, link?_put hroom, hlink]
      simp only [dif_pos hmem, ih, hstuck]
  | case7 links here segment rest hother hback target hlink hmem =>
      rw [followFrom, if_neg hother, if_neg hback, link?_put hroom, hlink]
      simp only [dif_neg hmem]

/-- **A path names what it named** before a file was put somewhere. -/
theorem resolve_put (path : String) :
    (disk.put place (.file octets)).resolve path = disk.resolve path := by
  have hhome : (disk.put place (.file octets)).home = disk.home := rfl
  rw [resolve, resolve, links_put hroom, followFrom_put hroom, hhome]
  split
  next => rfl
  next =>
    cases disk.followFrom disk.links (Named.start ⟨false, disk.home⟩ path) (Path.segments path) with
    | ok found => rfl
    | error stuck =>
        simp only
        obtain hsame | ⟨hbefore, hafter⟩ := alike_locate_put hroom octets false stuck.path
        · rw [hsame]
        · rw [hbefore, hafter]

end

end Disk
end TypeAtlas
