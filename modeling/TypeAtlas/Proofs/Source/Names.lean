import TypeAtlas.Source.File
import TypeAtlas.Source.Path

/-!
# Paths of names

The path of a file joins the names that lead to it with slashes.  No name has a slash in it, so a
path splits into the names that it was made of (`split_join`), any path is made of the names that it
splits into (`join_split`), and whatever is asked of a path can be asked of its names: whether a
directory on it is ignored (`isIgnored_join`), and which ending it has, as long as the ending has no
slash in it (`hasExtension_join`).
-/

namespace TypeAtlas

/-- What a directory may call one of its entries. -/
structure Path.IsName (name : String) : Prop where
  ne_empty : name ≠ ""
  no_slash : '/' ∉ name.toList

instance (name : String) : Decidable (Path.IsName name) :=
  decidable_of_iff (name ≠ "" ∧ '/' ∉ name.toList)
    ⟨fun hname => ⟨hname.1, hname.2⟩, fun hname => ⟨hname.ne_empty, hname.no_slash⟩⟩

namespace Text

/-! ## Splitting -/

section

variable {separator : Char} {part : List Char}

theorem splitOn_of_not_mem (hpart : separator ∉ part) : splitOn separator part = [part] := by
  induction part with
  | nil => rfl
  | cons c rest ih =>
      rw [List.mem_cons, not_or] at hpart
      obtain ⟨hne, hrest⟩ := hpart
      have hc : (c == separator) = false := beq_false_of_ne (Ne.symm hne)
      simp only [splitOn, hc, ih hrest, Bool.false_eq_true, if_false]

theorem splitOn_append_cons (hpart : separator ∉ part) (rest : List Char) :
    splitOn separator (part ++ separator :: rest) = part :: splitOn separator rest := by
  induction part with
  | nil => simp [splitOn]
  | cons c more ih =>
      rw [List.mem_cons, not_or] at hpart
      obtain ⟨hne, hmore⟩ := hpart
      have hc : (c == separator) = false := beq_false_of_ne (Ne.symm hne)
      simp only [List.cons_append, splitOn, hc, ih hmore, Bool.false_eq_true, if_false]

theorem splitOn_ne_nil (separator : Char) (chars : List Char) : splitOn separator chars ≠ [] := by
  cases chars with
  | nil => exact nofun
  | cons c rest =>
      rw [splitOn]
      split
      · exact nofun
      · split <;> exact nofun

theorem not_mem_of_mem_splitOn {chars : List Char} (hpart : part ∈ splitOn separator chars) :
    separator ∉ part := by
  induction chars generalizing part with
  | nil =>
      obtain rfl := List.mem_singleton.mp hpart
      exact List.not_mem_nil
  | cons c rest ih =>
      rw [splitOn] at hpart
      split at hpart
      case isTrue =>
        rcases List.mem_cons.mp hpart with rfl | hpart
        · exact List.not_mem_nil
        · exact ih hpart
      case isFalse hc =>
        have hne : separator ≠ c := fun heq => hc (by simp [heq])
        split at hpart
        next => simpa [List.mem_singleton.mp hpart] using hne
        next first parts hsplit =>
          rw [hsplit] at ih
          rcases List.mem_cons.mp hpart with rfl | hpart
          · exact List.not_mem_cons_of_ne_of_not_mem hne (ih List.mem_cons_self)
          · exact ih (List.mem_cons_of_mem first hpart)

end

theorem split_ne_nil (separator : Char) (text : String) : split separator text ≠ [] := by
  rw [split, ne_eq, List.map_eq_nil_iff]
  exact splitOn_ne_nil separator text.toList

theorem no_slash_of_mem_split {text name : String} (hname : name ∈ split '/' text) :
    '/' ∉ name.toList := by
  obtain ⟨part, hpart, rfl⟩ := List.mem_map.mp hname
  rw [String.toList_ofList]
  exact not_mem_of_mem_splitOn hpart

theorem split_of_not_mem {text : String} (htext : '/' ∉ text.toList) : split '/' text = [text] := by
  rw [split, splitOn_of_not_mem htext, List.map_singleton, String.ofList_toList]

theorem split_append_slash {name : String} (hname : '/' ∉ name.toList) (rest : String) :
    split '/' (name ++ "/" ++ rest) = name :: split '/' rest := by
  have hchars : (name ++ "/" ++ rest).toList = name.toList ++ '/' :: rest.toList := by
    simp [String.toList_append]
  rw [split, hchars, splitOn_append_cons hname, List.map_cons, String.ofList_toList]
  rfl

/-! ## Joining -/

section

variable {names more : List String}

theorem join_cons_of_ne_nil (name : String) (hmore : more ≠ []) :
    join "/" (name :: more) = name ++ "/" ++ join "/" more :=
  String.intercalate_cons_of_ne_nil hmore

theorem join_append (hnames : names ≠ []) (hmore : more ≠ []) :
    join "/" (names ++ more) = join "/" names ++ "/" ++ join "/" more :=
  String.intercalate_append_of_ne_nil hnames hmore

theorem split_join_append (hnames : names ≠ []) (hslash : ∀ name ∈ names, '/' ∉ name.toList)
    (rest : String) :
    split '/' (join "/" names ++ "/" ++ rest) = names ++ split '/' rest := by
  induction names with
  | nil => exact absurd rfl hnames
  | cons name more ih =>
      have hname : '/' ∉ name.toList := hslash name List.mem_cons_self
      by_cases hmore : more = []
      · subst hmore
        rw [join, String.intercalate_singleton, split_append_slash hname]
        rfl
      · have hrest := ih hmore fun other hother => hslash other (List.mem_cons_of_mem name hother)
        calc split '/' (join "/" (name :: more) ++ "/" ++ rest)
            = split '/' (name ++ "/" ++ (join "/" more ++ "/" ++ rest)) := by
              rw [join_cons_of_ne_nil name hmore]
              simp only [String.append_assoc]
          _ = name :: split '/' (join "/" more ++ "/" ++ rest) := split_append_slash hname _
          _ = name :: more ++ split '/' rest := by rw [hrest, List.cons_append]

theorem split_join (hnames : names ≠ []) (hslash : ∀ name ∈ names, '/' ∉ name.toList) :
    split '/' (join "/" names) = names := by
  induction names with
  | nil => exact absurd rfl hnames
  | cons name more ih =>
      have hname : '/' ∉ name.toList := hslash name List.mem_cons_self
      by_cases hmore : more = []
      · subst hmore
        rw [join, String.intercalate_singleton, split_of_not_mem hname]
      · have hrest := ih hmore fun other hother => hslash other (List.mem_cons_of_mem name hother)
        rw [join_cons_of_ne_nil name hmore, split_append_slash hname, hrest]

theorem join_splitOn (chars : List Char) :
    join "/" ((splitOn '/' chars).map String.ofList) = String.ofList chars := by
  induction chars with
  | nil => rfl
  | cons c rest ih =>
      rw [splitOn]
      split
      case isTrue hc =>
        obtain rfl := eq_of_beq hc
        have hne : (splitOn '/' rest).map String.ofList ≠ [] := by
          rw [ne_eq, List.map_eq_nil_iff]
          exact splitOn_ne_nil '/' rest
        rw [List.map_cons, join_cons_of_ne_nil _ hne, ih, ← String.toList_inj]
        simp
      case isFalse hc =>
        cases hsplit : splitOn '/' rest with
        | nil => exact absurd hsplit (splitOn_ne_nil '/' rest)
        | cons first parts =>
            -- Only the first part is longer, by one character in front.
            have hfirst : ∀ parts : List String, join "/" (String.ofList (c :: first) :: parts) =
                String.ofList [c] ++ join "/" (String.ofList first :: parts) := by
              intro parts
              cases parts with
              | nil => simp [join]
              | cons part parts =>
                  rw [join_cons_of_ne_nil _ (List.cons_ne_nil part parts),
                    join_cons_of_ne_nil _ (List.cons_ne_nil part parts), ← String.toList_inj]
                  simp
            rw [hsplit, List.map_cons] at ih
            rw [List.map_cons, hfirst, ih, ← String.toList_inj]
            simp

/-- A path is made of its parts. -/
theorem join_split (text : String) : join "/" (split '/' text) = text := by
  rw [split, join_splitOn, String.ofList_toList]

theorem join_ne_empty (hnames : names ≠ []) (hname : ∀ name ∈ names, name ≠ "") :
    join "/" names ≠ "" := by
  cases names with
  | nil => exact absurd rfl hnames
  | cons name more =>
      have hfirst : name ≠ "" := hname name List.mem_cons_self
      by_cases hmore : more = []
      · subst hmore
        rwa [join, String.intercalate_singleton]
      · rw [join_cons_of_ne_nil name hmore]
        intro hempty
        have hlist := congrArg String.toList hempty
        simp at hlist

theorem endsWith_join {ending : String} (hending : '/' ∉ ending.toList) (hnames : names ≠ []) :
    endsWith (join "/" names) ending = endsWith (names.getLastD "") ending := by
  obtain rfl | ⟨init, last, rfl⟩ := names.eq_nil_or_concat
  · exact absurd rfl hnames
  have hgetLast : (init ++ [last]).getLastD "" = last := by simp
  rw [List.concat_eq_append, hgetLast]
  by_cases hinit : init = []
  · subst hinit
    rw [List.nil_append, join, String.intercalate_singleton]
  · have hchars : (join "/" (init ++ [last])).toList =
        (join "/" init).toList ++ '/' :: last.toList := by
      rw [join_append hinit (List.cons_ne_nil last [])]
      simp [join]
    rw [Bool.eq_iff_iff, endsWith, endsWith, List.isSuffixOf_iff_suffix, List.isSuffixOf_iff_suffix,
      hchars]
    constructor
    · intro hsuffix
      have hslash : '/' :: last.toList <:+ (join "/" init).toList ++ '/' :: last.toList :=
        List.suffix_append _ _
      -- A longer ending would reach back to the slash.
      have hshort : ending.toList.length ≤ last.toList.length := by
        refine Nat.le_of_not_lt fun hlong => hending ?_
        have hback := List.suffix_of_suffix_length_le hslash hsuffix
          (Nat.succ_le_of_lt hlong)
        exact hback.subset List.mem_cons_self
      exact List.suffix_of_suffix_length_le hsuffix ((List.suffix_cons _ _).trans hslash) hshort
    · intro hsuffix
      exact hsuffix.trans ((List.suffix_cons _ _).trans (List.suffix_append _ _))

end

end Text

/-! ## What a scan asks of a path -/

theorem hasExtension_join {names extensions : List String}
    (hextensions : ∀ extension ∈ extensions, '/' ∉ extension.toList) (hnames : names ≠ []) :
    hasExtension (Text.join "/" names) extensions = hasExtension (names.getLastD "") extensions := by
  rw [hasExtension, hasExtension, Bool.eq_iff_iff, List.any_eq_true, List.any_eq_true]
  refine exists_congr fun extension => and_congr_right fun hmem => ?_
  rw [Text.endsWith_join (hextensions extension hmem) hnames]

theorem isIgnored_join {names : List String} (hnames : names ≠ [])
    (hslash : ∀ name ∈ names, '/' ∉ name.toList) (ignored : List String) :
    isIgnored (Text.join "/" names) ignored = names.dropLast.any ignored.contains := by
  rw [isIgnored, Text.split_join hnames hslash]

theorem isIgnored_join_eq_false_iff {names : List String} (hnames : names ≠ [])
    (hslash : ∀ name ∈ names, '/' ∉ name.toList) {ignored : List String} :
    isIgnored (Text.join "/" names) ignored = false ↔ ∀ name ∈ names.dropLast, name ∉ ignored := by
  rw [isIgnored_join hnames hslash, List.any_eq_false]
  simp only [List.contains_eq_mem, decide_eq_true_eq]

end TypeAtlas
