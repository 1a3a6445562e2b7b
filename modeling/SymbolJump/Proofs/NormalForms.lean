/-
# Normal forms of paths

The normal form of a path is what is left of its components when nothing more can be simplified. A
simplification drops an empty component or a single dot, cancels a double dot with the ordinary
name in front of it, or drops a double dot at the start of an absolute path. Nothing is said about
the order in which this is done, and none need be: components are taken in one by one, each in at
most one simplification, and no simplification of them changes what they are taken in to. So every
list of components has one normal form, and it is the one that is computed.

Whether a project is open compares these normal forms and how many slashes stand in front, where
one means the same as three or more. What changes neither makes no difference to the answer.
-/
import Mathlib.Logic.Relation
import SymbolJump.Path.Lexical
import SymbolJump.Proofs.Spelling

namespace SymbolJump

open Relation Text

namespace Path

/-! ## Simplifying components -/

/-- The component that leads to the folder above. -/
def up : List Char := ['.', '.']

/-- A component that leads nowhere. -/
def IsIdle (component : List Char) : Prop :=
  component = [] ∨ component = ['.']

/-- A component that leads to an entry of a folder. -/
structure IsOrdinary (component : List Char) : Prop where
  leads : ¬ IsIdle component
  down : component ≠ up

/-- One list of components is simplified to another in one place. -/
inductive Simplifies (absolute : Bool) : List (List Char) → List (List Char) → Prop
  /-- A component that leads nowhere is dropped. -/
  | idle {component : List Char} (front back : List (List Char)) (blank : IsIdle component) :
      Simplifies absolute (front ++ component :: back) (front ++ back)
  /-- The way to an entry and back is dropped. -/
  | detour {name : List Char} (front back : List (List Char)) (ordinary : IsOrdinary name) :
      Simplifies absolute (front ++ name :: up :: back) (front ++ back)
  /-- Above the root of an absolute path there is nothing. -/
  | top (back : List (List Char)) (rooted : absolute = true) :
      Simplifies absolute (up :: back) back

/-- Names are left of components when nothing more can be simplified. -/
structure IsLeftOf (absolute : Bool) (components names : List (List Char)) : Prop where
  simplified : ReflTransGen (Simplifies absolute) components names
  final : ∀ other, ¬ Simplifies absolute names other

section Simplifying

variable {absolute : Bool} {component name : List Char} {components names done : List (List Char)}

theorem isIdle_or_up_or_isOrdinary (component : List Char) :
    IsIdle component ∨ component = up ∨ IsOrdinary component := by
  by_cases blank : IsIdle component
  · exact .inl blank
  by_cases above : component = up
  · exact .inr (.inl above)
  · exact .inr (.inr ⟨blank, above⟩)

theorem not_isIdle_up : ¬ IsIdle up := by
  unfold IsIdle up
  decide

theorem takeComponent_of_isIdle (done : List (List Char)) (blank : IsIdle component) :
    takeComponent absolute done component = done :=
  if_pos blank

theorem takeComponent_of_isOrdinary (done : List (List Char)) (ordinary : IsOrdinary name) :
    takeComponent absolute done name = name :: done := by
  unfold takeComponent
  rw [if_neg (show ¬ (name = [] ∨ name = ['.']) from ordinary.leads),
    if_neg (show ¬ name = ['.', '.'] from ordinary.down)]

theorem takeComponent_up_nil (absolute : Bool) :
    takeComponent absolute [] up = if absolute then [] else [up] := rfl

theorem takeComponent_up_cons (absolute : Bool) (last : List Char) (earlier : List (List Char)) :
    takeComponent absolute (last :: earlier) up =
      if last = up then up :: last :: earlier else earlier := rfl

/-- No simplification changes what components are taken in to. -/
theorem Simplifies.foldl_eq {others : List (List Char)}
    (simplifies : Simplifies absolute components others) :
    components.foldl (takeComponent absolute) [] = others.foldl (takeComponent absolute) [] := by
  cases simplifies with
  | idle front back blank =>
      rw [List.foldl_append, List.foldl_append, List.foldl_cons, takeComponent_of_isIdle _ blank]
  | detour front back ordinary =>
      rw [List.foldl_append, List.foldl_append, List.foldl_cons, List.foldl_cons,
        takeComponent_of_isOrdinary _ ordinary, takeComponent_up_cons, if_neg ordinary.down]
  | top _ rooted => rw [List.foldl_cons, takeComponent_up_nil, if_pos rooted]

theorem foldl_eq_of_simplified (simplified : ReflTransGen (Simplifies absolute) components names) :
    components.foldl (takeComponent absolute) [] = names.foldl (takeComponent absolute) [] := by
  induction simplified with
  | refl => rfl
  | tail _ last ih => rw [ih, last.foldl_eq]

theorem Simplifies.sublist {others : List (List Char)}
    (simplifies : Simplifies absolute components others) : others.Sublist components := by
  cases simplifies with
  | idle front back _ => exact (List.sublist_cons_self _ back).append_left front
  | detour front back _ =>
      exact ((List.sublist_cons_self _ back).cons _).append_left front
  | top _ _ => exact List.sublist_cons_self _ _

theorem sublist_of_simplified (simplified : ReflTransGen (Simplifies absolute) components names) :
    names.Sublist components := by
  induction simplified with
  | refl => exact List.Sublist.refl _
  | tail _ last ih => exact last.sublist.trans ih

/-- Names that cannot be simplified: each leads somewhere, and upwards only from where the path
starts, which is not the root. -/
structure IsSettled (absolute : Bool) (names : List (List Char)) : Prop where
  leads : ∀ name ∈ names, ¬ IsIdle name
  upFirst : names.Pairwise fun first second => second = up → first = up
  rooted : absolute = true → up ∉ names

theorem isSettled_nil (absolute : Bool) : IsSettled absolute [] where
  leads := List.forall_mem_nil _
  upFirst := .nil
  rooted := fun _ => List.not_mem_nil

theorem IsSettled.final (settled : IsSettled absolute names) (other : List (List Char)) :
    ¬ Simplifies absolute names other := by
  intro simplifies
  cases simplifies with
  | idle front back blank => exact settled.leads _ (by simp) blank
  | detour front back ordinary =>
      have behind := (List.pairwise_append.mp settled.upFirst).2.1
      exact ordinary.down ((List.pairwise_cons.mp behind).1 up List.mem_cons_self rfl)
  | top _ rooted => exact settled.rooted rooted List.mem_cons_self

theorem IsSettled.of_concat (settled : IsSettled absolute (names ++ [name])) :
    IsSettled absolute names where
  leads := fun other member => settled.leads other (List.mem_append_left _ member)
  upFirst := (List.pairwise_append.mp settled.upFirst).1
  rooted := fun rooted member => settled.rooted rooted (List.mem_append_left _ member)

theorem IsSettled.concat (settled : IsSettled absolute names) (leads : ¬ IsIdle name)
    (upwards : name = up → absolute = false ∧ ∀ other ∈ names, other = up) :
    IsSettled absolute (names ++ [name]) where
  leads := by
    intro other member
    rcases List.mem_append.mp member with before | last
    · exact settled.leads other before
    · exact List.mem_singleton.mp last ▸ leads
  upFirst := by
    refine List.pairwise_append.mpr ⟨settled.upFirst, List.pairwise_singleton _ _, ?_⟩
    intro other before last only above
    obtain rfl := List.mem_singleton.mp only
    exact (upwards above).2 other before
  rooted := by
    intro rooted member
    rcases List.mem_append.mp member with before | last
    · exact settled.rooted rooted before
    · exact absurd ((upwards (List.mem_singleton.mp last).symm).1.symm.trans rooted) (by decide)

/-- A component is taken in by at most one simplification, and what is left cannot be simplified. -/
theorem take_simplifies (settled : IsSettled absolute done.reverse) (component : List Char)
    (rest : List (List Char)) :
    ReflTransGen (Simplifies absolute) (done.reverse ++ component :: rest)
        ((takeComponent absolute done component).reverse ++ rest) ∧
      IsSettled absolute (takeComponent absolute done component).reverse := by
  -- Pushing a name changes nothing but where the list is cut.
  have push (name : List Char) : done.reverse ++ name :: rest = (name :: done).reverse ++ rest := by
    rw [List.reverse_cons, List.append_assoc, List.singleton_append]
  rcases isIdle_or_up_or_isOrdinary component with blank | rfl | ordinary
  · rw [takeComponent_of_isIdle done blank]
    exact ⟨.single (.idle _ _ blank), settled⟩
  · cases done with
    | nil =>
        rw [takeComponent_up_nil]
        cases absolute with
        | true => exact ⟨.single (.top rest rfl), isSettled_nil true⟩
        | false => exact ⟨.refl, (isSettled_nil false).concat not_isIdle_up
            fun _ => ⟨rfl, List.forall_mem_nil _⟩⟩
    | cons last earlier =>
        rw [takeComponent_up_cons]
        rw [List.reverse_cons] at settled
        split
        · next above =>
          subst above
          rw [push up]
          refine ⟨.refl, ?_⟩
          rw [List.reverse_cons, List.reverse_cons]
          refine settled.concat not_isIdle_up fun _ => ⟨?_, ?_⟩
          · rw [← Bool.not_eq_true]
            exact fun rooted => settled.rooted rooted (List.mem_append_right _ List.mem_cons_self)
          · intro other member
            rcases List.mem_append.mp member with before | last
            · exact (List.pairwise_append.mp settled.upFirst).2.2 other before up
                List.mem_cons_self rfl
            · exact List.mem_singleton.mp last
        · next down =>
          refine ⟨.single ?_, settled.of_concat⟩
          rw [List.reverse_cons, List.append_assoc]
          exact .detour _ _ ⟨settled.leads last (by simp), down⟩
  · rw [takeComponent_of_isOrdinary done ordinary, push component]
    refine ⟨.refl, ?_⟩
    rw [List.reverse_cons]
    exact settled.concat ordinary.leads fun above => absurd above ordinary.down

theorem foldl_simplifies (settled : IsSettled absolute done.reverse)
    (components : List (List Char)) :
    ReflTransGen (Simplifies absolute) (done.reverse ++ components)
        (components.foldl (takeComponent absolute) done).reverse ∧
      IsSettled absolute (components.foldl (takeComponent absolute) done).reverse := by
  induction components generalizing done with
  | nil =>
      rw [List.append_nil]
      exact ⟨.refl, settled⟩
  | cons component rest ih =>
      obtain ⟨here, still⟩ := take_simplifies settled component rest
      obtain ⟨later, final⟩ := ih still
      exact ⟨here.trans later, final⟩

/-- What is left of components is what they are taken in to. -/
theorem isLeftOf_iff :
    IsLeftOf absolute components names ↔
      names = (components.foldl (takeComponent absolute) []).reverse := by
  have taken (components : List (List Char)) :=
    @foldl_simplifies absolute [] (isSettled_nil absolute) components
  constructor
  · rintro ⟨simplified, final⟩
    rw [foldl_eq_of_simplified simplified]
    rcases (taken names).1.cases_head with none | ⟨other, step, -⟩
    · exact none
    · exact absurd step (final other)
  · rintro rfl
    exact ⟨(taken components).1, (taken components).2.final⟩

end Simplifying

/-! ## Slashes in front -/

/-- The number of slashes in front of a path. -/
def slashesInFront (path : List Char) : ℕ :=
  (path.takeWhile (· = '/')).length

/-- Two paths start alike: without a slash, with exactly two, or with one or more than two. -/
def StartAlike (first second : List Char) : Prop :=
  (slashesInFront first = 0 ↔ slashesInFront second = 0) ∧
    (slashesInFront first = 2 ↔ slashesInFront second = 2)

theorem takeWhile_slash_of_ne {path : List Char} (other : ∀ rest, path ≠ '/' :: rest) :
    path.takeWhile (· = '/') = [] := by
  cases path with
  | nil => rfl
  | cons c rest =>
      have differ : c ≠ '/' := fun same => other rest (same ▸ rfl)
      simp [differ]

theorem leadingSlashes_eq (path : List Char) :
    leadingSlashes path =
      if slashesInFront path = 0 then 0 else if slashesInFront path = 2 then 2 else 1 := by
  unfold leadingSlashes slashesInFront
  split
  · simp
  · next other => simp [takeWhile_slash_of_ne fun rest same => other rest (same ▸ rfl)]
  · next _ other => simp [takeWhile_slash_of_ne other]
  · next other => simp [takeWhile_slash_of_ne other]

theorem leadingSlashes_eq_iff (first second : List Char) :
    leadingSlashes first = leadingSlashes second ↔ StartAlike first second := by
  rw [leadingSlashes_eq, leadingSlashes_eq]
  unfold StartAlike
  split_ifs <;> simp_all

/-- Behind another character slashes are not in front. -/
theorem leadingSlashes_append {front : List Char} (other : ∃ c ∈ front, c ≠ '/')
    (back : List Char) : leadingSlashes (front ++ back) = leadingSlashes front := by
  have same : slashesInFront (front ++ back) = slashesInFront front := by
    unfold slashesInFront
    rw [List.takeWhile_append, if_neg]
    intro all
    obtain ⟨c, member, differ⟩ := other
    have whole := (List.takeWhile_prefix _).eq_of_length all
    rw [← whole] at member
    have slash := List.mem_takeWhile_imp member
    exact differ (of_decide_eq_true slash)
  rw [leadingSlashes_eq, leadingSlashes_eq, same]

/-! ## Equal normal forms -/

/-- Whether a path starts at the root. -/
def isRooted (path : String) : Bool :=
  decide (slashesInFront path.toList ≠ 0)

/-- Two paths have the same normal form: they start alike, and the same names are left of their
components. -/
structure SpellAlike (first second : String) : Prop where
  start : StartAlike first.toList second.toList
  names : ∃ names, IsLeftOf (isRooted first) (splitOn '/' first.toList) names ∧
    IsLeftOf (isRooted second) (splitOn '/' second.toList) names

section Normal

variable {first second path : String}

theorem isRooted_eq (path : String) : isRooted path = (leadingSlashes path.toList != 0) := by
  rw [isRooted, leadingSlashes_eq]
  split_ifs <;> simp_all

/-- The components of a normal form are what is left of the path's. -/
theorem isLeftOf_splitOn_iff (path : String) (names : List (List Char)) :
    IsLeftOf (isRooted path) (splitOn '/' path.toList) names ↔
      names = normalComponents path.toList := by
  rw [isLeftOf_iff, isRooted_eq, normalComponents]

theorem isEmpty_toList_of_ne (some : path ≠ "") : path.toList.isEmpty = false := by
  rw [List.isEmpty_eq_false_iff, ne_eq, String.toList_eq_nil_iff]
  exact some

theorem normal_eq_iff (some : first ≠ "") (other : second ≠ "") :
    normal first = normal second ↔ SpellAlike first second := by
  unfold normal
  dsimp only
  rw [isEmpty_toList_of_ne some, isEmpty_toList_of_ne other, Normal.mk.injEq,
    leadingSlashes_eq_iff]
  constructor
  · rintro ⟨start, same, -⟩
    exact ⟨start, _, (isLeftOf_splitOn_iff first _).mpr rfl,
      (isLeftOf_splitOn_iff second _).mpr same⟩
  · rintro ⟨start, names, here, there⟩
    rw [isLeftOf_splitOn_iff] at here there
    exact ⟨start, here.symm.trans there, rfl⟩

/-- A simplification behind the same slashes keeps the normal form. -/
theorem normal_eq_of_simplifies (some : first ≠ "") (other : second ≠ "")
    (slashes : leadingSlashes first.toList = leadingSlashes second.toList)
    (simplifies : Simplifies (isRooted first) (splitOn '/' first.toList)
      (splitOn '/' second.toList)) : normal first = normal second := by
  have components : normalComponents first.toList = normalComponents second.toList := by
    have taken := simplifies.foldl_eq
    rw [isRooted_eq] at taken
    rw [normalComponents, normalComponents, taken, slashes]
  unfold normal
  dsimp only
  rw [isEmpty_toList_of_ne some, isEmpty_toList_of_ne other, slashes, components]

theorem isOpenAmong_singleton (project root : String) :
    isOpenAmong project [root] ↔ normal project = normal root := by
  unfold isOpenAmong
  rw [List.any_cons, List.any_nil, Bool.or_false, beq_iff_eq]
  exact eq_comm

end Normal

/-! ## The text of a normal form -/

/-- The normal form of a path as text. -/
def normalText (path : String) : String :=
  if path = "" then ""
  else assemble (String.ofList (List.replicate (leadingSlashes path.toList) '/'))
    ((normalComponents path.toList).map String.ofList)

section Text

variable {path : String}

/-- The components of a path are simplified to those of its normal form. -/
theorem simplified_normalComponents (path : List Char) :
    ReflTransGen (Simplifies (leadingSlashes path != 0)) (splitOn '/' path)
        (normalComponents path) ∧
      IsSettled (leadingSlashes path != 0) (normalComponents path) :=
  @foldl_simplifies _ [] (isSettled_nil _) _

theorem not_mem_of_mem_normalComponents {path name : List Char}
    (member : name ∈ normalComponents path) : '/' ∉ name :=
  not_mem_of_mem_splitOn
    ((sublist_of_simplified (simplified_normalComponents path).1).subset member)

/-- The components of a normal form are names without slashes. -/
theorem isName_of_mem_normalComponents {name : String}
    (member : name ∈ (normalComponents path.toList).map String.ofList) : IsName name := by
  obtain ⟨component, among, rfl⟩ := List.mem_map.mp member
  have leads := (simplified_normalComponents path.toList).2.leads component among
  refine ⟨?_, ?_, ?_⟩
  · rintro empty
    exact leads (.inl (String.ofList_eq_empty_iff.mp empty))
  · rintro dot
    exact leads (.inr (by rw [← String.toList_ofList (l := component), dot]; rfl))
  · rw [String.toList_ofList]
    exact not_mem_of_mem_normalComponents among

theorem isAnchor_replicate (path : String) :
    IsAnchor (String.ofList (List.replicate (leadingSlashes path.toList) '/')) := by
  rw [leadingSlashes_eq]
  split_ifs
  · exact .inl rfl
  · exact .inr (.inr rfl)
  · exact .inr (.inl rfl)

theorem normalText_of_ne (some : path ≠ "") :
    normalText path = assemble (String.ofList (List.replicate (leadingSlashes path.toList) '/'))
      ((normalComponents path.toList).map String.ofList) :=
  if_neg some

theorem normalText_eq_empty_iff : normalText path = "" ↔ path = "" := by
  constructor
  · intro empty
    by_contra some
    rw [normalText_of_ne some] at empty
    exact assemble_ne_empty (fun _ => isName_of_mem_normalComponents) empty
  · rintro rfl
    rfl

theorem normal_eq_empty_iff : normal path = normal "" ↔ path = "" := by
  constructor
  · intro same
    have empty : path.toList.isEmpty = true := congrArg Normal.empty same
    exact String.toList_eq_nil_iff.mp (List.isEmpty_iff.mp empty)
  · rintro rfl
    rfl

/-- Normal forms are the same just when they are written the same. -/
theorem normal_eq_iff_text (first second : String) :
    normal first = normal second ↔ normalText first = normalText second := by
  by_cases none : second = ""
  · rw [none, normal_eq_empty_iff]
    exact normalText_eq_empty_iff.symm
  by_cases empty : first = ""
  · rw [empty, @eq_comm _ (normal ""), normal_eq_empty_iff, @eq_comm _ (normalText "")]
    exact normalText_eq_empty_iff.symm
  constructor
  · intro same
    have slashes : leadingSlashes first.toList = leadingSlashes second.toList :=
      congrArg Normal.slashes same
    have components : normalComponents first.toList = normalComponents second.toList :=
      congrArg Normal.components same
    rw [normalText_of_ne empty, normalText_of_ne none, slashes, components]
  · intro same
    rw [normalText_of_ne empty, normalText_of_ne none] at same
    have anchors := congrArg anchor same
    have names := congrArg components same
    rw [anchor_assemble (isAnchor_replicate first) fun _ => isName_of_mem_normalComponents,
      anchor_assemble (isAnchor_replicate second) fun _ => isName_of_mem_normalComponents]
      at anchors
    rw [components_assemble (isAnchor_replicate first) fun _ => isName_of_mem_normalComponents,
      components_assemble (isAnchor_replicate second) fun _ => isName_of_mem_normalComponents]
      at names
    have slashes : leadingSlashes first.toList = leadingSlashes second.toList := by
      have lengths := congrArg (fun text => text.toList.length) anchors
      simpa only [String.toList_ofList, List.length_replicate] using lengths
    have pieces : normalComponents first.toList = normalComponents second.toList :=
      List.map_injective_iff.mpr (fun _ _ => String.ofList_inj.mp) names
    unfold normal
    dsimp only
    rw [isEmpty_toList_of_ne empty, isEmpty_toList_of_ne none, slashes, pieces]

/-- The characters of components, with a slash for each. -/
def extent : List (List Char) → ℕ
  | [] => 0
  | component :: components => component.length + 1 + extent components

theorem extent_splitOn (text : List Char) : extent (splitOn '/' text) = text.length + 1 := by
  induction text with
  | nil => rfl
  | cons c rest ih =>
      rw [splitOn]
      split
      · rw [extent, ih, List.length_nil, List.length_cons]
        omega
      · cases pieced : splitOn '/' rest with
        | nil => exact absurd pieced (splitOn_ne_nil '/' rest)
        | cons piece pieces =>
            rw [pieced, extent] at ih
            simp only [extent, List.length_cons]
            omega

theorem extent_le_of_sublist {names components : List (List Char)}
    (sublist : names.Sublist components) : extent names ≤ extent components := by
  induction sublist with
  | slnil => exact Nat.le_refl _
  | cons component _ ih =>
      rw [extent]
      omega
  | cons_cons component _ ih =>
      rw [extent, extent]
      omega

theorem length_intercalate {names : List (List Char)} (whole : ∀ name ∈ names, '/' ∉ name) :
    (['/'].intercalate names).length = extent names - 1 := by
  by_cases none : names = []
  · rw [none]
    rfl
  · have all := extent_splitOn (['/'].intercalate names)
    rw [splitOn_intercalate none whole] at all
    omega

theorem exists_behind_slashes (text : List Char) :
    ∃ rest, text = List.replicate (leadingSlashes text) '/' ++ rest := by
  unfold leadingSlashes
  split
  · exact ⟨_, rfl⟩
  · exact ⟨_, rfl⟩
  · exact ⟨_, rfl⟩
  · exact ⟨text, rfl⟩

/-- Names that lead somewhere are none of the empty components in front. -/
theorem sublist_splitOn_behind {names : List (List Char)} (leads : ∀ name ∈ names, ¬ IsIdle name)
    {count : ℕ} {rest : List Char}
    (sublist : names.Sublist (splitOn '/' (List.replicate count '/' ++ rest))) :
    names.Sublist (splitOn '/' rest) := by
  induction count with
  | zero => exact sublist
  | succ count ih =>
      rw [List.replicate_succ, List.cons_append, splitOn, if_pos rfl, List.sublist_cons_iff]
        at sublist
      rcases sublist with shorter | ⟨others, shape, -⟩
      · exact ih shorter
      · exact absurd (.inl rfl) (leads [] (shape ▸ List.mem_cons_self))

/-- The normal form of a path is no longer than the path. -/
theorem length_normalText_le (some : path ≠ "") :
    (normalText path).toList.length ≤ path.toList.length := by
  obtain ⟨simplified, settled⟩ := simplified_normalComponents path.toList
  obtain ⟨rest, cut⟩ := exists_behind_slashes path.toList
  have sublist := sublist_of_simplified simplified
  have length : path.toList.length = leadingSlashes path.toList + rest.length := by
    conv_lhs => rw [cut]
    rw [List.length_append, List.length_replicate]
  rw [congrArg (splitOn '/') cut] at sublist
  have bound := extent_le_of_sublist (sublist_splitOn_behind settled.leads sublist)
  rw [extent_splitOn] at bound
  rw [normalText_of_ne some, assemble]
  split
  · have filled : path.toList ≠ [] := mt String.toList_eq_nil_iff.mp some
    exact List.length_pos_iff.mpr filled
  · have same : (normalComponents path.toList).map (String.toList ∘ String.ofList) =
        normalComponents path.toList :=
      (List.map_congr_left fun _ _ => String.toList_ofList).trans (List.map_id _)
    rw [String.toList_append, toList_joinWith, List.map_map, same, List.length_append,
      String.toList_ofList, List.length_replicate, length, length_intercalate
        fun _ => not_mem_of_mem_normalComponents]
    omega

end Text

/-! ## Spellings of one path -/

/-- A text ends where a component ends that is not empty. -/
def EndsComponent (front : String) : Prop :=
  ∃ c ∈ front.toList.getLast?, c ≠ '/'

/-- A text starts where a component has just ended: there is nothing in it, or it starts with a
slash. -/
def StartsBehind (back : String) : Prop :=
  back = "" ∨ back.toList.head? = some '/'

section Spellings

variable {front back name : String}

theorem exists_other_of_endsComponent (ends : EndsComponent front) :
    ∃ c ∈ front.toList, c ≠ '/' := by
  obtain ⟨c, last, differ⟩ := ends
  exact ⟨c, List.mem_of_getLast? last, differ⟩

theorem ne_empty_of_other {path : String} (other : ∃ c ∈ path.toList, c ≠ '/') : path ≠ "" := by
  rintro rfl
  obtain ⟨c, member, -⟩ := other
  exact nomatch member

/-- Where a component has just ended, the components behind it do not depend on it. -/
theorem exists_splitOn_append (behind : StartsBehind back) :
    ∃ pieces, ∀ front : List Char,
      splitOn '/' (front ++ back.toList) = splitOn '/' front ++ pieces := by
  rcases behind with rfl | slash
  · refine ⟨[], fun front => ?_⟩
    rw [List.append_nil]
    exact congrArg (splitOn '/') (List.append_nil front)
  · obtain ⟨rest, shape⟩ := List.head?_eq_some_iff.mp slash
    exact ⟨splitOn '/' rest, fun front => by rw [shape, splitOn_append_separator]⟩

/-- What is put behind another character than a slash keeps the normal form if the components can
be simplified to what they were. -/
theorem normal_eq_of_behind {longer shorter : List Char} (other : ∃ c ∈ front.toList, c ≠ '/')
    {first second : String} (here : first.toList = front.toList ++ longer)
    (there : second.toList = front.toList ++ shorter)
    (simplifies : ∀ absolute, Simplifies absolute (splitOn '/' (front.toList ++ longer))
      (splitOn '/' (front.toList ++ shorter))) : normal first = normal second := by
  obtain ⟨c, member, differ⟩ := other
  have otherIn {path : String} {back : List Char} (cut : path.toList = front.toList ++ back) :
      path ≠ "" := ne_empty_of_other ⟨c, cut ▸ List.mem_append_left back member, differ⟩
  refine normal_eq_of_simplifies (otherIn here) (otherIn there) ?_ ?_
  · rw [here, there, leadingSlashes_append ⟨c, member, differ⟩,
      leadingSlashes_append ⟨c, member, differ⟩]
  · rw [here, there]
    exact simplifies _

theorem normal_append_slash (other : ∃ c ∈ front.toList, c ≠ '/') :
    normal (front ++ "/") = normal front := by
  refine normal_eq_of_behind other String.toList_append (List.append_nil _).symm fun absolute => ?_
  have pieces : splitOn '/' (front.toList ++ "/".toList) = splitOn '/' front.toList ++ [[]] :=
    splitOn_append_separator '/' front.toList []
  have kept := @Simplifies.idle absolute [] (splitOn '/' front.toList) [] (.inl rfl)
  rw [List.append_nil] at kept
  rw [pieces, List.append_nil]
  exact kept

/-- Slashes at the end of a path make no difference to its normal form. -/
theorem normal_append_slashes (other : ∃ c ∈ front.toList, c ≠ '/') (count : ℕ) :
    normal (front ++ String.ofList (List.replicate count '/')) = normal front := by
  induction count with
  | zero => exact congrArg normal String.append_empty
  | succ count ih =>
      obtain ⟨c, member, differ⟩ := other
      have longer : ∃ c ∈ (front ++ String.ofList (List.replicate count '/')).toList, c ≠ '/' := by
        rw [String.toList_append]
        exact ⟨c, List.mem_append_left _ member, differ⟩
      rw [List.replicate_succ', String.ofList_append, ← String.append_assoc]
      exact (normal_append_slash longer).trans ih

theorem normal_double_slash (other : ∃ c ∈ front.toList, c ≠ '/') (back : String) :
    normal (front ++ "//" ++ back) = normal (front ++ "/" ++ back) := by
  have twice : (front ++ "//" ++ back).toList = front.toList ++ '/' :: '/' :: back.toList := by
    rw [String.toList_append, String.toList_append, List.append_assoc]
    rfl
  have once : (front ++ "/" ++ back).toList = front.toList ++ '/' :: back.toList := by
    rw [String.toList_append, String.toList_append, List.append_assoc]
    rfl
  refine normal_eq_of_behind other twice once fun absolute => ?_
  rw [splitOn_append_separator, splitOn_append_separator]
  exact .idle (splitOn '/' front.toList) (splitOn '/' back.toList) (.inl rfl)

theorem normal_insert_dot (ends : EndsComponent front) (behind : StartsBehind back) :
    normal (front ++ "/." ++ back) = normal (front ++ back) := by
  obtain ⟨pieces, cut⟩ := exists_splitOn_append behind
  have longer : (front ++ "/." ++ back).toList = front.toList ++ '/' :: (['.'] ++ back.toList) := by
    rw [String.toList_append, String.toList_append, List.append_assoc]
    rfl
  refine normal_eq_of_behind (exists_other_of_endsComponent ends) longer String.toList_append
    fun absolute => ?_
  rw [splitOn_append_separator, cut, cut]
  exact .idle (splitOn '/' front.toList) pieces (.inr rfl)

theorem normal_insert_detour (ends : EndsComponent front) (behind : StartsBehind back)
    (ordinary : IsOrdinary name.toList) (whole : '/' ∉ name.toList) :
    normal (front ++ "/" ++ name ++ "/.." ++ back) = normal (front ++ back) := by
  obtain ⟨pieces, cut⟩ := exists_splitOn_append behind
  have longer : (front ++ "/" ++ name ++ "/.." ++ back).toList =
      front.toList ++ '/' :: (name.toList ++ '/' :: (up ++ back.toList)) := by
    simp only [String.toList_append, List.append_assoc]
    rfl
  refine normal_eq_of_behind (exists_other_of_endsComponent ends) longer String.toList_append
    fun absolute => ?_
  rw [splitOn_append_separator, splitOn_append_separator, splitOn_of_not_mem whole, cut, cut]
  exact .detour (splitOn '/' front.toList) pieces ordinary

end Spellings

/-! ## The test for an open project -/

/-- A test of two paths does not tell two others apart. -/
def NotToldApart (test : String → String → Prop) (first second : String) : Prop :=
  ∀ other, (test first other ↔ test second other) ∧ (test other first ↔ test other second)

/-- A test compares paths by their normal forms, without a look at a disk. -/
structure IsLexical (test : String → String → Prop) : Prop where
  /-- Paths pass when they start alike and the same names are left of them. -/
  passes_iff : ∀ first second, first ≠ "" → second ≠ "" →
    (test first second ↔ SpellAlike first second)
  /-- Nothing but the empty path is the same as the empty path. -/
  empty : ∀ path, (test "" path ↔ path = "") ∧ (test path "" ↔ path = "")
  /-- Paths pass when their normal forms are written the same. -/
  passes_iff_text : ∀ first second, test first second ↔ normalText first = normalText second
  equivalence : Equivalence test
  slash : ∀ path, (∃ c ∈ path.toList, c ≠ '/') → NotToldApart test (path ++ "/") path
  doubled : ∀ front back, (∃ c ∈ front.toList, c ≠ '/') →
    NotToldApart test (front ++ "//" ++ back) (front ++ "/" ++ back)
  dot : ∀ front back, EndsComponent front → StartsBehind back →
    NotToldApart test (front ++ "/." ++ back) (front ++ back)
  detour : ∀ front name back, EndsComponent front → StartsBehind back →
    IsOrdinary name.toList → '/' ∉ name.toList →
      NotToldApart test (front ++ "/" ++ name ++ "/.." ++ back) (front ++ back)

theorem notToldApart_of_normal_eq {first second : String} (same : normal first = normal second) :
    NotToldApart (fun project root => isOpenAmong project [root]) first second := by
  intro other
  simp only [isOpenAmong_singleton, same, and_self]

/-- The law of open projects: whether a project is one of the roots is a lexical test. -/
theorem open_test_is_lexical : IsLexical fun project root => isOpenAmong project [root] where
  passes_iff := fun first second some other =>
    (isOpenAmong_singleton first second).trans (normal_eq_iff some other)
  empty := by
    intro path
    rw [isOpenAmong_singleton, isOpenAmong_singleton, eq_comm, normal_eq_empty_iff]
    exact ⟨Iff.rfl, Iff.rfl⟩
  passes_iff_text := fun first second =>
    (isOpenAmong_singleton first second).trans (normal_eq_iff_text first second)
  equivalence := by
    simp only [isOpenAmong_singleton]
    exact ⟨fun _ => rfl, fun same => same.symm, fun same also => same.trans also⟩
  slash := fun _ other => notToldApart_of_normal_eq (normal_append_slash other)
  doubled := fun _ back other => notToldApart_of_normal_eq (normal_double_slash other back)
  dot := fun _ _ ends behind => notToldApart_of_normal_eq (normal_insert_dot ends behind)
  detour := fun _ _ _ ends behind ordinary whole =>
    notToldApart_of_normal_eq (normal_insert_detour ends behind ordinary whole)

end Path

end SymbolJump
