/-
# From folder to folder

Where the components of a path lead is told without a limit here, and with the links that it takes:
a link counts once, together with the links on the way of its own target. There is one such way at
most, so a link that leads anywhere is not met again while its target is followed: it would take
more links than there are.
-/
import SymbolJump.Proofs.Following

namespace SymbolJump.Files

open Node Text

/-- A component that can stand in a place. -/
structure IsPlaceName (name : String) : Prop where
  ordinary : IsOrdinary name
  whole : '/' ∉ name.toList

/-- A place of such components. -/
def IsClean (place : Place) : Prop :=
  ∀ name ∈ place, IsPlaceName name

theorem isClean_concat {folder : Place} {name : String} :
    IsClean (folder ++ [name]) ↔ IsClean folder ∧ IsPlaceName name := by
  unfold IsClean
  rw [List.forall_mem_append, List.forall_mem_singleton]

theorem IsClean.dropLast {place : Place} (clean : IsClean place) : IsClean place.dropLast :=
  fun name member => clean name ((List.dropLast_sublist place).subset member)

theorem IsClean.linkOrigin {folder : Place} (clean : IsClean folder) (target : String) :
    IsClean (linkOrigin folder target) := by
  unfold Files.linkOrigin
  split
  · exact List.forall_mem_nil _
  · exact clean

/-- Components lead from one folder to another, through a number of links. -/
inductive Reaches (root : Node) : Place → List String → (links : Nat) → Place → Prop
  | here {place : Place} (holds : root.HasFolder place) : Reaches root place [] 0 place
  | past {place goal : Place} {name : String} {rest : List String} {links : Nat}
      (holds : root.HasFolder place) (blank : IsBlank name)
      (later : Reaches root place rest links goal) : Reaches root place (name :: rest) links goal
  | up {place goal : Place} {rest : List String} {links : Nat} (holds : root.HasFolder place)
      (later : Reaches root place.dropLast rest links goal) :
      Reaches root place (".." :: rest) links goal
  | into {place goal : Place} {name : String} {rest : List String} {links : Nat}
      (holds : root.HasFolder place) (proper : IsPlaceName name)
      (inside : root.HasFolder (place ++ [name]))
      (later : Reaches root (place ++ [name]) rest links goal) :
      Reaches root place (name :: rest) links goal
  | across {place middle goal : Place} {name target : String} {rest : List String}
      {inner links : Nat} (holds : root.HasFolder place) (proper : IsPlaceName name)
      (link : root.at? (place ++ [name]) = some (.link target))
      (through : Reaches root (linkOrigin place target) (rawComponents target) inner middle)
      (later : Reaches root middle rest links goal) :
      Reaches root place (name :: rest) (inner + links + 1) goal

section Reaches

variable {root : Node} {place goal : Place} {names more : List String} {links : Nat}

theorem Reaches.start (reaches : Reaches root place names links goal) : root.HasFolder place := by
  cases reaches <;> assumption

/-- From a clean place, components lead to a clean one. -/
theorem Reaches.isClean (reaches : Reaches root place names links goal) (clean : IsClean place) :
    IsClean goal := by
  induction reaches with
  | here => exact clean
  | past _ _ _ ih => exact ih clean
  | up _ _ ih => exact ih clean.dropLast
  | into _ proper _ _ ih => exact ih (isClean_concat.mpr ⟨clean, proper⟩)
  | across _ _ _ _ _ through ih => exact ih (through (clean.linkOrigin _))

/-- What leads along components in a row leads along the first ones, and then along the others. -/
theorem Reaches.split (reaches : Reaches root place (names ++ more) links goal) :
    ∃ early late middle, links = early + late ∧ Reaches root place names early middle ∧
      Reaches root middle more late goal := by
  induction names generalizing place links with
  | nil => exact ⟨0, links, place, (Nat.zero_add links).symm, .here reaches.start, reaches⟩
  | cons name names ih =>
      rw [List.cons_append] at reaches
      cases reaches with
      | past holds blank later =>
          obtain ⟨early, late, middle, sum, first, second⟩ := ih later
          exact ⟨early, late, middle, sum, .past holds blank first, second⟩
      | up holds later =>
          obtain ⟨early, late, middle, sum, first, second⟩ := ih later
          exact ⟨early, late, middle, sum, .up holds first, second⟩
      | into holds proper inside later =>
          obtain ⟨early, late, middle, sum, first, second⟩ := ih later
          exact ⟨early, late, middle, sum, .into holds proper inside first, second⟩
      | across holds proper link through later =>
          obtain ⟨early, late, middle, sum, first, second⟩ := ih later
          exact ⟨_, late, middle, by omega, .across holds proper link through first, second⟩

theorem IsPlaceName.not_up (proper : IsPlaceName "..") : False :=
  proper.ordinary.down rfl

theorem not_isBlank_up : ¬ IsBlank ".." := by
  rintro (empty | dot)
  · nomatch (show ¬ ("..": String) = "" by decide) empty
  · nomatch (show ¬ ("..": String) = "." by decide) dot

/-- Components lead in one way only. -/
theorem Reaches.unique {others : Nat} {other : Place}
    (first : Reaches root place names links goal)
    (second : Reaches root place names others other) : links = others ∧ goal = other := by
  induction first generalizing others other with
  | here => cases second; exact ⟨rfl, rfl⟩
  | past holds blank later ih =>
      cases second with
      | past _ _ again => exact ih again
      | up => exact absurd blank not_isBlank_up
      | into _ proper => exact absurd blank proper.ordinary.named
      | across _ proper => exact absurd blank proper.ordinary.named
  | up holds later ih =>
      cases second with
      | past _ blank => exact absurd blank not_isBlank_up
      | up _ again => exact ih again
      | into _ proper => exact proper.not_up.elim
      | across _ proper => exact proper.not_up.elim
  | into holds proper inside later ih =>
      cases second with
      | past _ blank => exact absurd blank proper.ordinary.named
      | up => exact proper.not_up.elim
      | into _ _ _ again => exact ih again
      | across _ _ link =>
          obtain ⟨entries, folder⟩ := inside
          nomatch folder.symm.trans link
  | across holds proper link through later overAlone laterAlone =>
      cases second with
      | past _ blank => exact absurd blank proper.ordinary.named
      | up => exact proper.not_up.elim
      | into _ _ inside =>
          obtain ⟨entries, folder⟩ := inside
          nomatch folder.symm.trans link
      | across _ _ same overAgain laterAgain =>
          obtain rfl := Node.link.inj (Option.some.inj (link.symm.trans same))
          obtain ⟨rfl, rfl⟩ := overAlone overAgain
          obtain ⟨rfl, rfl⟩ := laterAlone laterAgain
          exact ⟨rfl, rfl⟩

end Reaches

/-- A link stands at a place and leads to another one, through a number of further links. -/
def LinkLeads (root : Node) (place : Place) (links : Nat) (goal : Place) : Prop :=
  ∃ folder name target, place = folder ++ [name] ∧ root.at? place = some (.link target) ∧
    Reaches root (linkOrigin folder target) (rawComponents target) links goal

theorem LinkLeads.unique {root : Node} {place goal other : Place} {links others : Nat}
    (first : LinkLeads root place links goal) (second : LinkLeads root place others other) :
    links = others ∧ goal = other := by
  obtain ⟨folder, name, target, cut, link, through⟩ := first
  obtain ⟨folder', name', target', cut', link', through'⟩ := second
  obtain ⟨rfl, -⟩ := List.append_inj' (cut.symm.trans cut') rfl
  obtain rfl := Node.link.inj (Option.some.inj (link.symm.trans link'))
  exact through.unique through'

theorem not_mem_of_mem_rawComponents {path name : String} (member : name ∈ rawComponents path) :
    '/' ∉ name.toList := by
  obtain ⟨piece, there, rfl⟩ := List.mem_map.mp member
  rw [String.toList_ofList]
  exact Path.not_mem_of_mem_splitOn there

/-- Components that a walk follows to a folder lead there, through the links that it used. -/
theorem exists_reaches_of_found {root : Node} {place goal : Place} {names : List String}
    {links : Nat} (found : walkFrom root .target links place names = .found goal)
    (holds : root.HasFolder goal) (whole : ∀ name ∈ names, '/' ∉ name.toList) :
    ∃ used, used ≤ links ∧ Reaches root place names used goal := by
  -- A link is followed with fewer links left, and every other step leaves fewer components.
  induction links using Nat.strongRecOn generalizing place names with
  | ind links further =>
  induction names generalizing place with
  | nil =>
      rw [walkFrom_nil] at found
      obtain rfl := Arrival.found.inj found
      exact ⟨0, Nat.zero_le _, .here holds⟩
  | cons name rest ih =>
      obtain ⟨plain, others⟩ := List.forall_mem_cons.mp whole
      have arrives : Arrives (walkFrom root .target links place (name :: rest)) := by
        rw [found]
        trivial
      have here := hasFolder_of_arrives (List.cons_ne_nil _ _) arrives
      rw [found] at arrives
      cases goesOn_of_arrives here found arrives with
      | past blank later =>
          obtain ⟨used, few, reaches⟩ := ih later others
          exact ⟨used, few, .past here blank reaches⟩
      | up later =>
          obtain ⟨used, few, reaches⟩ := ih later others
          exact ⟨used, few, .up here reaches⟩
      | into ordinary inside later =>
          obtain ⟨used, few, reaches⟩ := ih later others
          exact ⟨used, few, .into here ⟨ordinary, plain⟩ inside reaches⟩
      | onto ordinary file later =>
          obtain ⟨used, few, reaches⟩ := ih later others
          obtain ⟨entries, folder⟩ := reaches.start
          cases file.symm.trans folder
      | @across fewer _ target ordinary link follows later =>
          have clean : ∀ name ∈ rawComponents target ++ rest, '/' ∉ name.toList :=
            List.forall_mem_append.mpr ⟨fun _ => not_mem_of_mem_rawComponents, others⟩
          obtain ⟨used, few, reaches⟩ := further fewer (Nat.lt_succ_self _) later clean
          obtain ⟨inner, outer, middle, rfl, through, beyond⟩ := reaches.split
          exact ⟨_, by omega, .across here ⟨ordinary, plain⟩ link through beyond⟩
      | stays _ _ _ entry => nomatch entry
      | free _ _ _ absent => nomatch absent

end SymbolJump.Files
