/-
# Files behind links

A path may name a link that leads to a file, or to a name where a file can be created. Nothing lies
behind a file, so such a link is of use only at the very end of a path: it is a dead end, and may be
replaced without any path to a folder being lost.

When a link itself is moved to another name, what it leads to may change, as its target may lead
through either name. But a link that leads anywhere is not met again on its own way, so if it leads
to anything at the new name then to what it led to at the old one.
-/
import SymbolJump.Proofs.Following

namespace SymbolJump.Files

open Node

section Found

variable {root after : Node} {aim : Aim} {links others : Nat} {place goal other : Place}
  {names tail : List String} {apart : Place → Prop}

theorem hasFolder_of_found (some : names ≠ [])
    (found : walkFrom root aim links place names = .found goal) : root.HasFolder place := by
  apply hasFolder_of_arrives some
  rw [found]
  trivial

/-- Components that lead on from a place where no folder is are none. -/
theorem eq_nil_of_found (plain : ¬ root.HasFolder place)
    (found : walkFrom root aim links place names = .found goal) : names = [] ∧ goal = place := by
  cases names with
  | nil =>
      rw [walkFrom_nil] at found
      exact ⟨rfl, (Arrival.found.inj found).symm⟩
  | cons name rest => exact absurd (hasFolder_of_found (List.cons_ne_nil _ _) found) plain

/-- How what is found behind an entry is found. -/
theorem found_cases (ordinary : IsOrdinary name)
    (found : walkFrom root .target links place (name :: tail) = .found goal) :
    root.HasFolder (place ++ [name]) ∨
      (∃ bytes, root.at? (place ++ [name]) = some (.file bytes) ∧ tail = [] ∧
        goal = place ++ [name]) ∨
      ∃ fewer target, links = fewer + 1 ∧ root.at? (place ++ [name]) = some (.link target) ∧
        walkFrom root .target fewer (linkOrigin place target) (rawComponents target ++ tail) =
          .found goal := by
  have holds := hasFolder_of_found (List.cons_ne_nil _ _) found
  cases goesOn_of_arrives holds found trivial with
  | past blank => exact absurd blank ordinary.named
  | up => exact absurd rfl ordinary.down
  | into _ inside => exact .inl inside
  | onto _ file later =>
      have plain : ¬ root.HasFolder (place ++ [name]) := by
        rintro ⟨entries, here⟩
        nomatch here.symm.trans file
      exact .inr (.inl ⟨_, file, eq_nil_of_found plain later⟩)
  | across _ link _ later => exact .inr (.inr ⟨_, _, rfl, link, later⟩)
  | stays _ _ _ entry => nomatch entry
  | free _ _ _ absent => nomatch absent

/-- What components find in one tree, the first of them find in another one that keeps its entries,
and the others from there, unless an entry is met on the way that is not kept. -/
theorem found_or_met (keeps : KeepsBut apart root after)
    (found : walkFrom root .target links place (names ++ tail) = .found goal) :
    (∃ left middle, walkFrom after .target links place names = .found middle ∧
        walkFrom root .target left middle tail = .found goal) ∨
      ∃ left folder name rest, left ≤ links ∧ IsOrdinary name ∧ apart (folder ++ [name]) ∧
        walkFrom root .target left folder (name :: (rest ++ tail)) = .found goal := by
  have opened (rest : List String) : ¬ IsClosed .target rest := fun closed => nomatch closed.1
  -- A link is followed with fewer links left, and every other step leaves fewer components.
  induction links using Nat.strongRecOn generalizing place names with
  | ind links further =>
  induction names generalizing place with
  | nil => exact .inl ⟨links, place, walkFrom_nil, found⟩
  | cons name rest ih =>
      rw [List.cons_append] at found
      have holds := hasFolder_of_found (List.cons_ne_nil _ _) found
      have also := keeps.folders _ holds
      -- A step of the first components in the one tree is a step in the other.
      have step {next : Place} (same : walkFrom after .target links place (name :: rest) =
            walkFrom after .target links next rest)
          (later : walkFrom root .target links next (rest ++ tail) = .found goal) := by
        have goes := ih later
        rwa [← same] at goes
      cases goesOn_of_arrives holds found trivial with
      | past blank later => exact step (walkFrom_congr (advance_past also blank)) later
      | up later => exact step (walkFrom_congr (advance_up also)) later
      | into ordinary inside later =>
          have inside := keeps.folders _ inside
          exact step (walkFrom_congr (advance_into also ordinary (opened _) inside)) later
      | onto ordinary file later =>
          rcases keeps.entries _ _ file rfl with met | kept
          · exact .inr ⟨links, place, name, rest, le_rfl, ordinary, met, found⟩
          · exact step (walkFrom_congr (advance_onto also ordinary (opened _) kept)) later
      | @across fewer _ target ordinary link follows later =>
          rcases keeps.entries _ _ link rfl with met | kept
          · exact .inr ⟨_, place, name, rest, le_rfl, ordinary, met, found⟩
          · rw [← List.append_assoc] at later
            have last : ¬ (rest.isEmpty ∧ Aim.target = .entry) := fun last => nomatch last.2
            rw [walkFrom_over also ordinary (opened _) kept last]
            rcases further _ (Nat.lt_succ_self _) later with
              leads | ⟨left, folder, other, more, few, met, goes⟩
            · exact .inl leads
            · exact .inr ⟨left, folder, other, more, by omega, met, goes⟩
      | stays _ _ _ entry => nomatch entry
      | free _ _ _ absent => nomatch absent

end Found

section Creation

variable {root after : Node} {aim : Aim} {links : Nat} {place goal : Place} {names : List String}
  {arrival : Arrival}

/-- Following a path came to a place, where there may be nothing. -/
inductive Lands (goal : Place) : Arrival → Prop
  | found : Lands goal (.found goal)
  | free {outer : Place} {name : String} (spot : outer ++ [name] = goal) :
      Lands goal (.absent outer name [])

theorem Lands.arrives (lands : Lands goal arrival) : Arrives arrival := by
  cases lands <;> trivial

end Creation

/-- No folder is behind a name. -/
def IsDeadEnd (root : Node) (folder : Place) (name : String) : Prop :=
  ∀ links rest goal, walkFrom root .target links folder (name :: rest) = .found goal →
    ¬ root.HasFolder goal

section DeadEnds

variable {root after : Node} {links others left : Nat} {folder outer place goal other : Place}
  {name side target : String} {names rest : List String}

theorem isDeadEnd_of_isFreeOrFile (ordinary : IsOrdinary name)
    (free : IsFreeOrFile (root.at? (folder ++ [name]))) : IsDeadEnd root folder name := by
  intro links rest goal found
  have plain := not_hasFolder_of_isFreeOrFile free
  rcases found_cases ordinary found with inside | ⟨_, _, _, rfl⟩ | ⟨_, target, _, link, _⟩
  · exact absurd inside plain
  · exact plain
  · rw [link] at free
    exact free.elim

/-- A dead end is no folder itself. -/
theorem IsDeadEnd.plain (dead : IsDeadEnd root folder name) (ordinary : IsOrdinary name)
    (holds : root.HasFolder folder) : ¬ root.HasFolder (folder ++ [name]) := by
  intro inside
  exact dead 0 [] _ (walkFrom_folder holds ordinary inside) inside

/-- A dead end is one still when an entry was changed that is no folder and no link now. -/
theorem IsDeadEnd.keepsBut (dead : IsDeadEnd root folder name)
    (keeps : KeepsBut (· = place) after root) (free : IsFreeOrFile (after.at? place)) :
    IsDeadEnd after folder name := by
  intro links rest goal found
  have whole : walkFrom after .target links folder ((name :: rest) ++ []) = .found goal := by
    rw [List.append_nil]
    exact found
  rcases found_or_met keeps whole with
    ⟨left, middle, leads, here⟩ | ⟨left, spot, other, more, _, ordinary, rfl, goes⟩
  · rw [walkFrom_nil] at here
    obtain rfl := Arrival.found.inj here
    exact fun holds => dead _ _ _ leads (keeps.folders _ holds)
  · exact isDeadEnd_of_isFreeOrFile ordinary free _ _ _ goes

/-- A run of steps to a folder does not meet a dead end. -/
theorem Leads.keepsBut (leads : Leads root links place names left goal)
    (holds : root.HasFolder goal) (keeps : KeepsBut (· = folder ++ [name]) root after)
    (dead : IsDeadEnd root folder name) : Leads after links place names left goal := by
  induction leads with
  | here => exact .here _ _
  | past here blank later ih => exact .past (keeps.folders _ here) blank (ih holds)
  | up here later ih => exact .up (keeps.folders _ here) (ih holds)
  | into here ordinary inside later ih =>
      exact .into (keeps.folders _ here) ordinary (keeps.folders _ inside) (ih holds)
  | across here ordinary link later ih =>
      rcases keeps.entries _ _ link rfl with met | kept
      · obtain ⟨rfl, same⟩ := List.append_inj' met rfl
        obtain rfl := List.singleton_inj.mp same
        exact absurd holds (dead _ _ _ (Leads.across here ordinary link later).walkFrom_target)
      · exact .across (keeps.folders _ here) ordinary kept (ih holds)

end DeadEnds

end SymbolJump.Files
