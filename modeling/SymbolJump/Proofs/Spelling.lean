/-
# Spellings of paths

A tidy path is an anchor and names behind it, and it tells which: the names are the pieces between
its slashes, and the anchor is the slashes it starts with. So whatever is done with the components
of a path (its folder taken, its last name changed) is done with those of its tidy form, and two
spellings with the same tidy form are the same path. Followed piece by piece, a tidy path is its
names with a few pieces in front that lead nowhere.
-/
import SymbolJump.Files.Disk
import SymbolJump.Proofs.Cuts

namespace SymbolJump

open Text

namespace Path

/-- A component of a tidy path. -/
structure IsName (name : String) : Prop where
  some : name ≠ ""
  other : name ≠ "."
  whole : '/' ∉ name.toList

/-- The slashes in front of a tidy path. -/
def IsAnchor (anchor : String) : Prop :=
  anchor = "" ∨ anchor = "/" ∨ anchor = "//"

theorem isAnchor_anchor (path : String) : IsAnchor (anchor path) := by
  unfold anchor
  split
  · exact .inr (.inl rfl)
  · exact .inr (.inr rfl)
  · exact .inr (.inl rfl)
  · exact .inl rfl

theorem not_mem_of_mem_splitOn {separator : Char} {text piece : List Char}
    (member : piece ∈ splitOn separator text) : separator ∉ piece := by
  induction text generalizing piece with
  | nil =>
      obtain rfl := List.mem_singleton.mp member
      exact List.not_mem_nil
  | cons c rest ih =>
      rw [splitOn] at member
      split at member
      · rcases List.mem_cons.mp member with rfl | there
        · exact List.not_mem_nil
        · exact ih there
      · next differ =>
        cases cut : splitOn separator rest with
        | nil => exact absurd cut (splitOn_ne_nil separator rest)
        | cons first pieces =>
            rw [cut] at member ih
            rcases List.mem_cons.mp member with rfl | there
            · intro inside
              rcases List.mem_cons.mp inside with same | later
              · exact differ same.symm
              · exact ih List.mem_cons_self later
            · exact ih (List.mem_cons_of_mem _ there)

theorem isName_of_mem_components {path name : String} (member : name ∈ components path) :
    IsName name := by
  obtain ⟨among, proper⟩ := List.mem_filter.mp member
  obtain ⟨piece, there, rfl⟩ := List.mem_map.mp among
  obtain ⟨some, other⟩ := of_decide_eq_true proper
  refine ⟨some, other, ?_⟩
  rw [String.toList_ofList]
  exact not_mem_of_mem_splitOn there

theorem toList_joinWith (names : List String) :
    (joinWith "/" names).toList = ['/'].intercalate (names.map String.toList) := by
  induction names with
  | nil => rfl
  | cons name names ih =>
      cases names with
      | nil => simp [joinWith]
      | cons next names =>
          have both : joinWith "/" (name :: next :: names) =
              name ++ "/" ++ joinWith "/" (next :: names) := rfl
          rw [both, String.toList_append, String.toList_append, ih, List.map_cons, List.map_cons,
            List.map_cons, List.intercalate_cons_cons]
          rfl

section Assemble

variable {anchor : String} {names : List String}

theorem rawComponents_joinWith (some : names ≠ []) (proper : ∀ name ∈ names, IsName name) :
    Files.rawComponents (joinWith "/" names) = names := by
  unfold Files.rawComponents
  rw [toList_joinWith, splitOn_intercalate (by simpa using some), List.map_map]
  · have same : (String.ofList ∘ String.toList) = id := by
      funext name
      exact String.ofList_toList
    rw [same, List.map_id]
  · intro piece member
    obtain ⟨name, there, rfl⟩ := List.mem_map.mp member
    exact (proper name there).whole

theorem rawComponents_slash_append (path : String) :
    Files.rawComponents ("/" ++ path) = "" :: Files.rawComponents path := by
  unfold Files.rawComponents
  rw [String.toList_append]
  rfl

/-- The pieces of a tidy path are its names, behind pieces that lead nowhere. -/
theorem exists_rawComponents_assemble (isAnchor : IsAnchor anchor)
    (proper : ∀ name ∈ names, IsName name) :
    ∃ blanks : List String, (∀ blank ∈ blanks, blank = "" ∨ blank = ".") ∧
      Files.rawComponents (assemble anchor names) = blanks ++ names := by
  obtain ⟨front, blank, tail⟩ : ∃ front : List String, (∀ blank ∈ front, blank = "" ∨ blank = ".") ∧
      Files.rawComponents (joinWith "/" names) = front ++ names := by
    cases names with
    | nil => exact ⟨[""], by simp, rfl⟩
    | cons name names => exact ⟨[], by simp, rawComponents_joinWith (List.cons_ne_nil _ _) proper⟩
  unfold assemble
  rcases isAnchor with rfl | rfl | rfl
  · split
    · next empty =>
      rw [empty.2]
      exact ⟨["."], by simp, rfl⟩
    · exact ⟨front, blank, by rw [String.empty_append, tail]⟩
  · refine ⟨"" :: front, List.forall_mem_cons.mpr ⟨.inl rfl, blank⟩, ?_⟩
    rw [if_neg (by simp), rawComponents_slash_append, tail]
    rfl
  · refine ⟨"" :: "" :: front,
      List.forall_mem_cons.mpr ⟨.inl rfl, List.forall_mem_cons.mpr ⟨.inl rfl, blank⟩⟩, ?_⟩
    have twice : ("//" : String) = "/" ++ "/" := rfl
    rw [if_neg (by simp), twice, String.append_assoc, rawComponents_slash_append,
      rawComponents_slash_append, tail]
    rfl

theorem components_assemble (isAnchor : IsAnchor anchor) (proper : ∀ name ∈ names, IsName name) :
    components (assemble anchor names) = names := by
  obtain ⟨blanks, blank, pieces⟩ := exists_rawComponents_assemble isAnchor proper
  have dropped : blanks.filter (fun name => decide (name ≠ "" ∧ name ≠ ".")) = [] := by
    rw [List.filter_eq_nil_iff]
    intro name member
    rcases blank name member with rfl | rfl <;> decide
  have kept : names.filter (fun name => decide (name ≠ "" ∧ name ≠ ".")) = names := by
    rw [List.filter_eq_self]
    intro name member
    exact decide_eq_true ⟨(proper name member).some, (proper name member).other⟩
  have all : components (assemble anchor names) =
      (Files.rawComponents (assemble anchor names)).filter
        fun name => decide (name ≠ "" ∧ name ≠ ".") := rfl
  rw [all, pieces, List.filter_append, dropped, kept, List.nil_append]

/-- The names behind an anchor start with no slash. -/
theorem head_joinWith (proper : ∀ name ∈ names, IsName name) :
    (joinWith "/" names).toList.head? ≠ some '/' := by
  rw [toList_joinWith]
  cases names with
  | nil => simp [List.intercalate]
  | cons name names =>
      obtain ⟨some, _, whole⟩ := proper name List.mem_cons_self
      cases chars : name.toList with
      | nil => exact absurd (String.toList_eq_nil_iff.mp chars) some
      | cons c rest =>
          have differ : c ≠ '/' := by
            rintro rfl
            exact whole (chars ▸ List.mem_cons_self)
          cases names with
          | nil => simpa [List.intercalate, chars] using differ
          | cons next names => simpa [List.intercalate_cons_cons, chars] using differ

theorem anchor_append {path : String} (isAnchor : IsAnchor anchor)
    (start : path.toList.head? ≠ some '/') : Path.anchor (anchor ++ path) = anchor := by
  unfold Path.anchor
  rw [String.toList_append]
  cases chars : path.toList with
  | nil => rcases isAnchor with rfl | rfl | rfl <;> rfl
  | cons c rest =>
      have differ : c ≠ '/' := by simpa [chars] using start
      rcases isAnchor with rfl | rfl | rfl <;> simp [differ]

theorem anchor_assemble (isAnchor : IsAnchor anchor) (proper : ∀ name ∈ names, IsName name) :
    Path.anchor (assemble anchor names) = anchor := by
  unfold assemble
  split
  · next empty =>
    rw [empty.1]
    rfl
  · exact anchor_append isAnchor (head_joinWith proper)

theorem assemble_ne_empty (proper : ∀ name ∈ names, IsName name) : assemble anchor names ≠ "" := by
  unfold assemble
  split
  · decide
  · next some =>
    intro empty
    obtain ⟨blank, none⟩ := String.append_eq_empty_iff.mp empty
    have all := rawComponents_joinWith (fun here => some ⟨blank, here⟩) proper
    rw [none] at all
    exact (proper "" (all ▸ List.mem_singleton_self _)).some rfl

end Assemble

theorem assemble_nil_singleton (name : String) : assemble "" [name] = name := by
  unfold assemble
  rw [if_neg (by simp), String.empty_append]
  rfl

theorem components_of_isName {name : String} (proper : IsName name) : components name = [name] := by
  have all := components_assemble (.inl rfl) (List.forall_mem_singleton.mpr proper)
  rwa [assemble_nil_singleton] at all

theorem isName_of_mem_init {path name : String} (member : name ∈ (components path).dropLast) :
    IsName name :=
  isName_of_mem_components ((List.dropLast_sublist _).subset member)

section Tidy

variable (path : String)

theorem anchor_tidy : anchor (tidy path) = anchor path :=
  anchor_assemble (isAnchor_anchor path) fun _ => isName_of_mem_components

theorem components_tidy : components (tidy path) = components path :=
  components_assemble (isAnchor_anchor path) fun _ => isName_of_mem_components

theorem tidy_tidy : tidy (tidy path) = tidy path := by
  rw [tidy, anchor_tidy, components_tidy]
  rfl

theorem parent_tidy : parent (tidy path) = parent path := by
  rw [parent, anchor_tidy, components_tidy]
  rfl

theorem baseName_tidy : baseName (tidy path) = baseName path := by
  rw [baseName, components_tidy]
  rfl

theorem anchor_parent : anchor (parent path) = anchor path :=
  anchor_assemble (isAnchor_anchor path) fun _ => isName_of_mem_init

theorem components_parent : components (parent path) = (components path).dropLast :=
  components_assemble (isAnchor_anchor path) fun _ => isName_of_mem_init

theorem tidy_parent : tidy (parent path) = parent path := by
  rw [tidy, anchor_parent, components_parent]
  rfl

/-- A path with another last component. -/
def withName (name : String) : String :=
  assemble (anchor path) ((components path).dropLast ++ [name])

theorem join_parent {name : String} (proper : IsName name) :
    join (parent path) name = withName path name := by
  rw [join, anchor_parent, components_parent, components_of_isName proper, withName]

theorem isName_of_mem_withName {path name other : String} (proper : IsName name)
    (member : other ∈ (components path).dropLast ++ [name]) : IsName other := by
  rcases List.mem_append.mp member with init | last
  · exact isName_of_mem_init init
  · rwa [List.mem_singleton.mp last]

theorem tidy_withName {name : String} (proper : IsName name) :
    tidy (withName path name) = withName path name := by
  have names : ∀ other ∈ (components path).dropLast ++ [name], IsName other :=
    fun _ => isName_of_mem_withName proper
  rw [tidy, withName, anchor_assemble (isAnchor_anchor path) names,
    components_assemble (isAnchor_anchor path) names]

theorem components_eq_of_baseName {path : String} (some : baseName path ≠ "") :
    components path = (components path).dropLast ++ [baseName path] := by
  have nonempty : components path ≠ [] := by
    intro empty
    exact some (by rw [baseName, empty]; rfl)
  rw [baseName, List.getLastD_eq_getLast?, List.getLast?_eq_some_getLast nonempty, Option.getD_some]
  exact (List.dropLast_append_getLast nonempty).symm

theorem tidy_eq_withName {path : String} (some : baseName path ≠ "") :
    tidy path = withName path (baseName path) := by
  rw [withName, ← components_eq_of_baseName some, tidy]

theorem isName_baseName {path : String} (some : baseName path ≠ "") : IsName (baseName path) := by
  have member : baseName path ∈ components path := by
    rw [components_eq_of_baseName some]
    exact List.mem_append_right _ (List.mem_singleton_self _)
  exact isName_of_mem_components member

end Tidy

theorem mem_iff_mem_splitOn {separator c : Char} (differ : c ≠ separator) (text : List Char) :
    c ∈ text ↔ ∃ piece ∈ splitOn separator text, c ∈ piece := by
  induction text with
  | nil => simp [splitOn]
  | cons first rest ih =>
      rw [splitOn, List.mem_cons, ih]
      split
      · next same => simp [same, differ]
      · cases cut : splitOn separator rest with
        | nil => exact absurd cut (splitOn_ne_nil separator rest)
        | cons piece pieces => simp [or_assoc]

/-- What a path holds besides slashes and dots, its components hold. -/
theorem mem_toList_iff {c : Char} (slash : c ≠ '/') (dot : c ≠ '.') (path : String) :
    c ∈ path.toList ↔ ∃ name ∈ components path, c ∈ name.toList := by
  rw [mem_iff_mem_splitOn slash]
  constructor
  · rintro ⟨piece, member, inside⟩
    have toList : (String.ofList piece).toList = piece := String.toList_ofList
    refine ⟨String.ofList piece, ?_, by rwa [toList]⟩
    refine List.mem_filter.mpr ⟨List.mem_map_of_mem member, decide_eq_true ⟨?_, ?_⟩⟩
    · intro empty
      rw [← toList, empty] at inside
      exact absurd inside (by simp)
    · intro single
      rw [← toList, single] at inside
      exact dot (by simpa using inside)
  · rintro ⟨name, member, inside⟩
    obtain ⟨piece, there, rfl⟩ := List.mem_map.mp (List.mem_filter.mp member).1
    exact ⟨piece, there, by rwa [String.toList_ofList] at inside⟩

theorem holdsNull_iff (path : String) :
    Files.Disk.holdsNull path = true ↔ ∃ name ∈ components path, '\x00' ∈ name.toList := by
  rw [← mem_toList_iff (by decide) (by decide)]
  exact List.contains_iff_mem

theorem holdsNull_assemble {anchor : String} {names : List String} (isAnchor : IsAnchor anchor)
    (proper : ∀ name ∈ names, IsName name) :
    Files.Disk.holdsNull (assemble anchor names) = true ↔
      ∃ name ∈ names, '\x00' ∈ name.toList := by
  rw [holdsNull_iff, components_assemble isAnchor proper]

theorem holdsNull_tidy (path : String) :
    Files.Disk.holdsNull (tidy path) = Files.Disk.holdsNull path := by
  rw [Bool.eq_iff_iff, holdsNull_iff, holdsNull_iff, components_tidy]

theorem joinWith_concat {names : List String} (some : names ≠ []) (name : String) :
    joinWith "/" (names ++ [name]) = joinWith "/" names ++ "/" ++ name := by
  induction names with
  | nil => exact absurd rfl some
  | cons first names ih =>
      cases names with
      | nil => rfl
      | cons next names =>
          have longer : joinWith "/" (first :: next :: names ++ [name]) =
              first ++ "/" ++ joinWith "/" (next :: names ++ [name]) := rfl
          have shorter : joinWith "/" (first :: next :: names) =
              first ++ "/" ++ joinWith "/" (next :: names) := rfl
          rw [longer, shorter, ih (List.cons_ne_nil _ _)]
          simp only [String.append_assoc]

/-- A path is no shorter than its folder. -/
theorem utf8ByteSize_assemble_le (anchor : String) (names : List String) {name : String}
    (some : name ≠ "") :
    (assemble anchor names).utf8ByteSize ≤ (assemble anchor (names ++ [name])).utf8ByteSize := by
  have whole : assemble anchor (names ++ [name]) = anchor ++ joinWith "/" (names ++ [name]) :=
    if_neg (by simp)
  rw [whole]
  unfold assemble
  cases names with
  | nil =>
      have positive : 0 < name.utf8ByteSize :=
        Nat.pos_of_ne_zero (mt String.utf8ByteSize_eq_zero_iff.mp some)
      have single : joinWith "/" ([] ++ [name]) = name := rfl
      rw [single, String.utf8ByteSize_append]
      split
      · exact Nat.le_trans positive (Nat.le_add_left _ _)
      · simp [joinWith]
  | cons first names =>
      rw [if_neg (by simp), joinWith_concat (List.cons_ne_nil _ _)]
      simp only [String.utf8ByteSize_append]
      omega

end Path

end SymbolJump
