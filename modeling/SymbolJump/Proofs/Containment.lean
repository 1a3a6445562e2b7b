/-
# Containment below a root

A path lies under a root if it goes on from it: the root without its trailing separators is the
whole path, or a slash follows it there. Texts that go on from one another in this way are those
whose components begin with the components of the other, so a name that merely starts like the
last name of a root is no part of it.

Going on from a text is transitive, and what goes on from a text that ends with no separator still
does so when its own trailing separators are dropped. Lying under a root is therefore transitive
too, for roots of any spelling: a root of nothing but separators holds all that starts with one,
and a path starts as the root does that it goes on from.
-/
import SymbolJump.Path.Roots
import SymbolJump.Proofs.Cuts

namespace SymbolJump

open Text

namespace Path

/-- A text goes on from another one: it is the same, or a slash follows the other in it. -/
def GoesOnFrom (stem text : List Char) : Prop :=
  text = stem ∨ stem ++ ['/'] <+: text

section GoesOnFrom

variable {stem middle text : List Char}

theorem GoesOnFrom.isPrefix (goesOn : GoesOnFrom stem text) : stem <+: text := by
  rcases goesOn with rfl | begins
  · exact List.prefix_refl _
  · exact (List.prefix_append stem ['/']).trans begins

theorem GoesOnFrom.trans (first : GoesOnFrom stem middle) (second : GoesOnFrom middle text) :
    GoesOnFrom stem text := by
  rcases first with rfl | begins
  · exact second
  · exact .inr (begins.trans second.isPrefix)

theorem goesOnFrom_append_iff {rest : List Char} :
    GoesOnFrom stem (stem ++ rest) ↔ rest = [] ∨ ['/'] <+: rest := by
  unfold GoesOnFrom
  rw [List.append_right_eq_self, List.prefix_append_right_inj]

/-- A text goes on from another one just when its components begin with the other's. -/
theorem goesOnFrom_iff : GoesOnFrom stem text ↔ splitOn '/' stem <+: splitOn '/' text := by
  constructor
  · rintro (rfl | ⟨rest, rfl⟩)
    · exact List.prefix_refl _
    · rw [List.append_assoc, List.singleton_append, splitOn_append_separator]
      exact List.prefix_append _ _
  · rintro ⟨more, cut⟩
    have whole := intercalate_splitOn '/' text
    rw [← cut] at whole
    by_cases none : more = []
    · rw [none, List.append_nil, intercalate_splitOn] at whole
      exact .inl whole.symm
    · rw [intercalate_append (splitOn_ne_nil '/' stem) none, intercalate_splitOn] at whole
      exact .inr ⟨['/'].intercalate more, by rw [List.append_assoc]; exact whole⟩

end GoesOnFrom

/-- A root without the separators at its end. -/
def bareRoot (root : List Char) : List Char :=
  dropTrailing isSeparator root

/-- A path starts with a separator. -/
def StartsApart (path : List Char) : Prop :=
  ∃ c ∈ path.head?, isSeparator c = true

section Roots

variable {path root outer : List Char}

theorem isUnderChars_of_nil (none : bareRoot root = []) :
    isUnderChars path root = true ↔ StartsApart path := by
  unfold isUnderChars StartsApart
  unfold bareRoot at none
  rw [none]
  cases path with
  | nil => simp
  | cons c path => simp

theorem isUnderChars_of_ne_nil (some : bareRoot root ≠ []) :
    isUnderChars path root = true ↔ GoesOnFrom (bareRoot root) path := by
  unfold isUnderChars GoesOnFrom
  unfold bareRoot at some ⊢
  simp only [List.isEmpty_iff, some, if_false, Bool.or_eq_true, beq_iff_eq,
    List.isPrefixOf_iff_prefix]

/-- A path that begins with a text starts as the text does. -/
theorem StartsApart.of_prefix {stem : List Char} (some : stem ≠ []) (begins : stem <+: path) :
    StartsApart path ↔ StartsApart stem := by
  obtain ⟨c, rest, rfl⟩ := List.exists_cons_of_ne_nil some
  obtain ⟨more, rfl⟩ := begins
  rfl

/-- What goes on from a root still does when its own trailing separators are dropped. -/
theorem GoesOnFrom.bareRoot (goesOn : GoesOnFrom (bareRoot outer) root) :
    GoesOnFrom (bareRoot outer) (bareRoot root) := by
  obtain ⟨rest, rfl⟩ := goesOn.isPrefix
  have kept : Path.bareRoot (Path.bareRoot outer ++ rest) =
      Path.bareRoot outer ++ Path.bareRoot rest :=
    dropTrailing_append (dropTrailing_dropTrailing isSeparator outer) rest
  rw [kept, goesOnFrom_append_iff]
  rcases goesOnFrom_append_iff.mp goesOn with rfl | ⟨more, rfl⟩
  · exact .inl rfl
  · by_cases none : Path.bareRoot (['/'] ++ more) = []
    · exact .inl none
    · right
      obtain ⟨c, tail, shape⟩ := List.exists_cons_of_ne_nil none
      have begins : Path.bareRoot (['/'] ++ more) <+: ['/'] ++ more := dropTrailing_isPrefix _ _
      rw [shape] at begins ⊢
      obtain ⟨rfl, -⟩ := List.cons_prefix_cons.mp begins
      exact ⟨tail, rfl⟩

theorem isUnderChars_trans (inner : isUnderChars path root = true)
    (outside : isUnderChars root outer = true) : isUnderChars path outer = true := by
  by_cases top : bareRoot outer = []
  · rw [isUnderChars_of_nil top] at outside ⊢
    by_cases none : bareRoot root = []
    · exact (isUnderChars_of_nil none).mp inner
    · have goesOn := (isUnderChars_of_ne_nil none).mp inner
      rw [StartsApart.of_prefix none goesOn.isPrefix]
      exact (StartsApart.of_prefix none (dropTrailing_isPrefix _ _)).mp outside
  · rw [isUnderChars_of_ne_nil top] at outside ⊢
    have goesOn := outside.bareRoot
    have some : bareRoot root ≠ [] := by
      intro none
      rw [none] at goesOn
      exact top (List.prefix_nil.mp goesOn.isPrefix)
    exact goesOn.trans ((isUnderChars_of_ne_nil some).mp inner)

/-- In a root without backslashes only slashes are dropped. -/
theorem bareRoot_of_not_mem (plain : '\\' ∉ root) :
    bareRoot root = dropTrailing (· = '/') root := by
  refine dropTrailing_congr fun c member => ?_
  have other : c ≠ '\\' := fun same => plain (same ▸ member)
  rw [isSeparator, beq_false_of_ne other, Bool.or_false]
  rfl

end Roots

/-- The law of containment. For a root without backslashes that is more than slashes, a path lies
under it just when the components of the root without its trailing slashes are the first of the
path's; and whatever the spellings, what lies under a root lies under each root that the root lies
under itself. -/
theorem under_root_by_components :
    (∀ path root : String, '\\' ∉ root.toList → (∃ c ∈ root.toList, c ≠ '/') →
      (isUnder path root ↔
        splitOn '/' (dropTrailing (· = '/') root.toList) <+: splitOn '/' path.toList)) ∧
    ∀ path root outer : String, isUnder path root → isUnder root outer → isUnder path outer := by
  constructor
  · rintro path root plain ⟨c, member, other⟩
    have bare := bareRoot_of_not_mem plain
    have some : bareRoot root.toList ≠ [] := by
      rw [bare, ne_eq, dropTrailing_eq_nil_iff]
      intro all
      exact other (of_decide_eq_true (all c member))
    rw [← bare, ← goesOnFrom_iff]
    exact isUnderChars_of_ne_nil some
  · intro path root outer inner outside
    exact isUnderChars_trans inner outside

/-- A folder whose name merely starts like that of the root is not under it, and a path is under the
file system that the root of its own root is spelled as. -/
theorem under_root_by_components_of_similar_names :
    ¬ isUnder "/ab/x" "/a//" ∧ isUnder "/a/b/x" "/a//" ∧ isUnder "/a/b/x" "\\/" := by
  obtain ⟨components, transitive⟩ := under_root_by_components
  have plain : '\\' ∉ "/a//".toList := by decide
  have more : ∃ c ∈ "/a//".toList, c ≠ '/' := ⟨'a', by decide, by decide⟩
  refine ⟨?_, ?_, ?_⟩
  · rw [components "/ab/x" "/a//" plain more]
    decide
  · rw [components "/a/b/x" "/a//" plain more]
    decide
  · exact transitive "/a/b/x" "/a/b\\/" "\\/" (by decide) (by decide)

end Path

end SymbolJump
