/-
# Following a path to its folder

A path is followed one component at a time: past one that leads nowhere, up, into a folder, or over
to where a link points. A run of such steps leads from one folder to another and uses up some of the
links that may be followed. It does not depend on what the path is followed for, nor on what comes
after it, and a change of the tree that keeps folders and links keeps it too.
-/
import SymbolJump.Files.Walk
import SymbolJump.Proofs.Spelling
import SymbolJump.Proofs.Trees

namespace SymbolJump.Files

open Node Text

/-- Whether a component is passed over. -/
def IsBlank (name : String) : Prop :=
  name = "" ∨ name = "."

/-- A component that names an entry, and not one that is passed over or leads up. -/
structure IsOrdinary (name : String) : Prop where
  named : ¬ IsBlank name
  down : name ≠ ".."
  short : name.utf8ByteSize ≤ nameLimit

/-- Where the target of a link in a folder starts from. -/
def linkOrigin (folder : Place) (target : String) : Place :=
  if Path.isAbsolute target then [] else folder

/-- Components lead from one place to another, and leave some of the links that may be followed. -/
inductive Leads (root : Node) : (links : Nat) → Place → List String → (left : Nat) → Place → Prop
  | here (links : Nat) (place : Place) : Leads root links place [] links place
  | past {links left : Nat} {place goal : Place} {name : String} {rest : List String}
      (holds : root.HasFolder place) (blank : IsBlank name)
      (later : Leads root links place rest left goal) :
      Leads root links place (name :: rest) left goal
  | up {links left : Nat} {place goal : Place} {rest : List String}
      (holds : root.HasFolder place) (later : Leads root links place.dropLast rest left goal) :
      Leads root links place (".." :: rest) left goal
  | into {links left : Nat} {place goal : Place} {name : String} {rest : List String}
      (holds : root.HasFolder place) (ordinary : IsOrdinary name)
      (inside : root.HasFolder (place ++ [name]))
      (later : Leads root links (place ++ [name]) rest left goal) :
      Leads root links place (name :: rest) left goal
  | across {links left : Nat} {place goal : Place} {name target : String} {rest : List String}
      (holds : root.HasFolder place) (ordinary : IsOrdinary name)
      (link : root.at? (place ++ [name]) = some (.link target))
      (later :
        Leads root links (linkOrigin place target) (rawComponents target ++ rest) left goal) :
      Leads root (links + 1) place (name :: rest) left goal

/-! ## Single steps -/

section Steps

variable {root : Node} {aim : Aim} {links : Nat} {place : Place} {name : String}
  {rest : List String}

theorem advance_past (holds : root.HasFolder place) (blank : IsBlank name) :
    advance root aim place (name :: rest) = advance root aim place rest := by
  obtain ⟨entries, here⟩ := holds
  rw [advance, here]
  exact if_pos blank

theorem advance_up (holds : root.HasFolder place) :
    advance root aim place (".." :: rest) = advance root aim place.dropLast rest := by
  obtain ⟨entries, here⟩ := holds
  rw [advance, here]
  exact (if_neg (by decide)).trans (if_pos rfl)

theorem advance_of_not_folder (holds : ¬ root.HasFolder place) :
    advance root aim place (name :: rest) = .trouble .notFolder := by
  rw [advance]
  cases here : root.at? place with
  | none => rfl
  | some node =>
      cases node with
      | folder entries => exact absurd ⟨entries, here⟩ holds
      | _ => rfl

/-- Whether a slash behind the last name is in the way of what a path is followed for. -/
def IsClosed (aim : Aim) (rest : List String) : Prop :=
  aim = .creation ∧ rest ≠ [] ∧ ∀ name ∈ rest, name = ""

theorem advance_closed (holds : root.HasFolder place) (named : ¬ IsBlank name)
    (down : name ≠ "..") (closed : IsClosed aim rest) :
    advance root aim place (name :: rest) = .trouble .isFolder := by
  obtain ⟨creates, some, blank⟩ := closed
  obtain ⟨entries, here⟩ := holds
  have shut : aim = .creation ∧ (!rest.isEmpty) = true ∧ rest.all (· = "") = true := by
    refine ⟨creates, by simpa using some, List.all_eq_true.mpr fun name member => ?_⟩
    exact decide_eq_true (blank name member)
  rw [advance, here]
  dsimp only
  refine (if_neg (show ¬ (name = "" ∨ name = ".") from named)).trans ?_
  exact (if_neg down).trans (if_pos shut)

/-- What a component that is not passed over and does not lead up does. -/
theorem advance_name (holds : root.HasFolder place) (named : ¬ IsBlank name) (down : name ≠ "..")
    (opened : ¬ IsClosed aim rest) :
    advance root aim place (name :: rest) =
      if nameLimit < name.utf8ByteSize then .trouble .nameTooLong
      else match root.at? (place ++ [name]) with
        | none => .absent place name rest
        | some (.link target) =>
            if rest.isEmpty ∧ aim = .entry then .found (place ++ [name])
            else .link place target rest
        | some _ => advance root aim (place ++ [name]) rest := by
  obtain ⟨entries, here⟩ := holds
  have entry : root.at? (place ++ [name]) = entries.lookup name := by
    rw [at?_append, here, Option.bind_some, at?_folder_cons]
    simp
  have free : ¬ (aim = .creation ∧ (!rest.isEmpty) = true ∧ rest.all (· = "") = true) := by
    rintro ⟨creates, more, blank⟩
    apply opened
    refine ⟨creates, by simpa using more, ?_⟩
    intro name member
    exact of_decide_eq_true (List.all_eq_true.mp blank name member)
  rw [advance, here, entry]
  dsimp only
  refine (if_neg (show ¬ (name = "" ∨ name = ".") from named)).trans ?_
  refine (if_neg down).trans ((if_neg free).trans ?_)
  cases entries.lookup name with
  | none => rfl
  | some node => cases node <;> rfl

theorem advance_ordinary (holds : root.HasFolder place) (ordinary : IsOrdinary name)
    (opened : ¬ IsClosed aim rest) :
    advance root aim place (name :: rest) =
      match root.at? (place ++ [name]) with
      | none => .absent place name rest
      | some (.link target) =>
          if rest.isEmpty ∧ aim = .entry then .found (place ++ [name])
          else .link place target rest
      | some _ => advance root aim (place ++ [name]) rest := by
  rw [advance_name holds ordinary.named ordinary.down opened]
  exact if_neg (Nat.not_lt.mpr ordinary.short)

theorem advance_into (holds : root.HasFolder place) (ordinary : IsOrdinary name)
    (opened : ¬ IsClosed aim rest) (inside : root.HasFolder (place ++ [name])) :
    advance root aim place (name :: rest) = advance root aim (place ++ [name]) rest := by
  obtain ⟨entries, here⟩ := inside
  rw [advance_ordinary holds ordinary opened, here]

theorem advance_onto {bytes : List UInt8} (holds : root.HasFolder place)
    (ordinary : IsOrdinary name) (opened : ¬ IsClosed aim rest)
    (file : root.at? (place ++ [name]) = some (.file bytes)) :
    advance root aim place (name :: rest) = advance root aim (place ++ [name]) rest := by
  rw [advance_ordinary holds ordinary opened, file]

theorem walkFrom_congr {other : Place} {others : List String}
    (same : advance root aim place rest = advance root aim other others) :
    walkFrom root aim links place rest = walkFrom root aim links other others := by
  cases links <;> rw [walkFrom, walkFrom, same]

theorem walkFrom_trouble {trouble : FileTrouble}
    (course : advance root aim place rest = .trouble trouble) :
    walkFrom root aim links place rest = .trouble trouble := by
  cases links <;> rw [walkFrom, course]

theorem walkFrom_absent {folder : Place} {others : List String}
    (course : advance root aim place rest = .absent folder name others) :
    walkFrom root aim links place rest = .absent folder name others := by
  cases links <;> rw [walkFrom, course]

theorem walkFrom_nil : walkFrom root aim links place [] = .found place := by
  cases links <;> rfl

/-- A link is followed from its folder, or from the root when it says so. -/
theorem walkFrom_over {target : String} (holds : root.HasFolder place) (ordinary : IsOrdinary name)
    (opened : ¬ IsClosed aim rest) (link : root.at? (place ++ [name]) = some (.link target))
    (follows : ¬ (rest.isEmpty ∧ aim = .entry)) :
    walkFrom root aim (links + 1) place (name :: rest) =
      walkFrom root aim links (linkOrigin place target) (rawComponents target ++ rest) := by
  rw [walkFrom, advance_ordinary holds ordinary opened, link]
  simp only
  rw [if_neg follows, linkOrigin]

end Steps

/-! ## Runs of steps -/

section Runs

variable {root : Node} {aim : Aim} {links left : Nat} {place goal : Place}
  {names tail : List String}

theorem not_isClosed_of_mem {name : String} (member : name ∈ names) (some : name ≠ "") :
    ¬ IsClosed aim names :=
  fun closed => some (closed.2.2 name member)

/-- What comes after a run of steps is followed from where the run leads, unless the way may end
within the run. -/
theorem Leads.walkFrom_of_opened (leads : Leads root links place names left goal)
    (opened : ∀ rest, ¬ IsClosed aim (rest ++ tail))
    (follows : ∀ rest, ¬ ((rest ++ tail).isEmpty ∧ aim = .entry)) :
    walkFrom root aim links place (names ++ tail) = walkFrom root aim left goal tail := by
  induction leads with
  | here => rfl
  | past holds blank later ih => exact (walkFrom_congr (advance_past holds blank)).trans ih
  | up holds later ih => exact (walkFrom_congr (advance_up holds)).trans ih
  | into holds ordinary inside later ih =>
      exact (walkFrom_congr (advance_into holds ordinary (opened _) inside)).trans ih
  | across holds ordinary link later ih =>
      rw [List.cons_append, walkFrom_over holds ordinary (opened _) link (follows _),
        ← List.append_assoc, ih]

/-- A component behind a run of steps is followed from where the run leads. -/
theorem Leads.walkFrom_append (leads : Leads root links place names left goal)
    (some : ∃ name ∈ tail, name ≠ "") :
    walkFrom root aim links place (names ++ tail) = walkFrom root aim left goal tail := by
  obtain ⟨last, member, nonempty⟩ := some
  apply leads.walkFrom_of_opened
  · intro rest
    exact not_isClosed_of_mem (List.mem_append_right rest member) nonempty
  · rintro rest ⟨empty, _⟩
    exact List.ne_nil_of_mem member (List.append_eq_nil_iff.mp (List.isEmpty_iff.mp empty)).2

/-- A run of steps ends where its components lead. -/
theorem Leads.walkFrom_target (leads : Leads root links place names left goal) :
    walkFrom root .target links place names = .found goal := by
  have course : walkFrom root .target links place (names ++ []) =
      walkFrom root .target left goal [] :=
    leads.walkFrom_of_opened (fun _ closed => nomatch closed.1) fun _ last => nomatch last.2
  rw [List.append_nil] at course
  exact course.trans walkFrom_nil

/-- An entry stands at the end of a run of steps, if only the link that leads on. -/
theorem Leads.walkFrom_entry (leads : Leads root links place names left goal)
    (holds : root.HasFolder goal) :
    ∃ found, walkFrom root .entry links place names = .found found ∧
      (root.at? found).isSome := by
  have opened (rest : List String) : ¬ IsClosed .entry rest := fun closed => nomatch closed.1
  induction leads with
  | here =>
      obtain ⟨entries, here⟩ := holds
      exact ⟨_, walkFrom_nil, by rw [here]; rfl⟩
  | past folder blank later ih =>
      rw [walkFrom_congr (advance_past folder blank)]
      exact ih holds
  | up folder later ih =>
      rw [walkFrom_congr (advance_up folder)]
      exact ih holds
  | into folder ordinary inside later ih =>
      rw [walkFrom_congr (advance_into folder ordinary (opened _) inside)]
      exact ih holds
  | @across links left place goal name target rest folder ordinary link later ih =>
      by_cases last : rest.isEmpty ∧ Aim.entry = .entry
      · obtain rfl := List.isEmpty_iff.mp last.1
        have course := advance_ordinary folder ordinary (opened [])
        rw [link] at course
        refine ⟨place ++ [name], ?_, by rw [link]; rfl⟩
        rw [walkFrom, course]
        rfl
      · rw [walkFrom_over folder ordinary (opened _) link last]
        exact ih holds

/-- A run of steps to a folder starts from one. -/
theorem Leads.start (leads : Leads root links place names left goal)
    (holds : root.HasFolder goal) : root.HasFolder place := by
  cases leads with
  | here => exact holds
  | past folder _ _ => exact folder
  | up folder _ => exact folder
  | into folder _ _ _ => exact folder
  | across folder _ _ _ => exact folder

/-- A run of steps is still one after a change that keeps folders and links. -/
theorem Leads.keeps {after : Node} (leads : Leads root links place names left goal)
    (keeps : Keeps root after) : Leads after links place names left goal := by
  induction leads with
  | here => exact .here _ _
  | past holds blank later ih => exact .past (keeps.folders _ holds) blank ih
  | up holds later ih => exact .up (keeps.folders _ holds) ih
  | into holds ordinary inside later ih =>
      exact .into (keeps.folders _ holds) ordinary (keeps.folders _ inside) ih
  | across holds ordinary link later ih =>
      exact .across (keeps.folders _ holds) ordinary (keeps.links _ _ link) ih

/-- Where following a path came to an entry, or to a name that its folder does not have. -/
def Arrives : Arrival → Prop
  | .found _ | .absent _ _ [] => True
  | _ => False

/-- Components that lead anywhere start from a folder. -/
theorem hasFolder_of_arrives (some : names ≠ [])
    (arrives : Arrives (walkFrom root aim links place names)) : root.HasFolder place := by
  by_contra holds
  cases names with
  | nil => exact some rfl
  | cons name rest =>
      rw [walkFrom_trouble (advance_of_not_folder holds)] at arrives
      exact arrives

/-- How components that lead anywhere go on after the first of them. The last one may also name a
link that is not followed, or nothing at all. -/
inductive GoesOn (root : Node) (aim : Aim) (place : Place) (rest : List String)
    (arrival : Arrival) : (links : Nat) → (name : String) → Prop
  | past {links : Nat} {name : String} (blank : IsBlank name)
      (later : walkFrom root aim links place rest = arrival) :
      GoesOn root aim place rest arrival links name
  | up {links : Nat} (later : walkFrom root aim links place.dropLast rest = arrival) :
      GoesOn root aim place rest arrival links ".."
  | into {links : Nat} {name : String} (ordinary : IsOrdinary name)
      (inside : root.HasFolder (place ++ [name]))
      (later : walkFrom root aim links (place ++ [name]) rest = arrival) :
      GoesOn root aim place rest arrival links name
  | onto {links : Nat} {name : String} {bytes : List UInt8} (ordinary : IsOrdinary name)
      (file : root.at? (place ++ [name]) = some (.file bytes))
      (later : walkFrom root aim links (place ++ [name]) rest = arrival) :
      GoesOn root aim place rest arrival links name
  | across {links : Nat} {name target : String} (ordinary : IsOrdinary name)
      (link : root.at? (place ++ [name]) = some (.link target))
      (follows : ¬ (rest.isEmpty ∧ aim = .entry))
      (later : walkFrom root aim links (linkOrigin place target) (rawComponents target ++ rest) =
        arrival) : GoesOn root aim place rest arrival (links + 1) name
  | stays {links : Nat} {name target : String} (ordinary : IsOrdinary name)
      (link : root.at? (place ++ [name]) = some (.link target)) (last : rest = [])
      (entry : aim = .entry) (found : arrival = .found (place ++ [name])) :
      GoesOn root aim place rest arrival links name
  | free {links : Nat} {name : String} (ordinary : IsOrdinary name)
      (nothing : root.at? (place ++ [name]) = none) (last : rest = [])
      (absent : arrival = .absent place name []) : GoesOn root aim place rest arrival links name

theorem goesOn_of_ordinary {arrival : Arrival} {name : String} (holds : root.HasFolder place)
    (ordinary : IsOrdinary name) (opened : ¬ IsClosed aim tail)
    (course : walkFrom root aim links place (name :: tail) = arrival) (arrives : Arrives arrival) :
    GoesOn root aim place tail arrival links name := by
  have step := advance_ordinary holds ordinary opened
  cases entry : root.at? (place ++ [name]) with
  | none =>
      rw [entry] at step
      rw [walkFrom_absent step] at course
      subst course
      cases tail with
      | nil => exact .free ordinary entry rfl rfl
      | cons next others => exact arrives.elim
  | some node =>
      rw [entry] at step
      cases node with
      | folder entries =>
          rw [walkFrom_congr step] at course
          exact .into ordinary ⟨entries, entry⟩ course
      | file bytes =>
          rw [walkFrom_congr step] at course
          exact .onto ordinary entry course
      | link target =>
          by_cases last : tail.isEmpty ∧ aim = .entry
          · simp only [if_pos last] at step
            have found :
                walkFrom root aim links place (name :: tail) = .found (place ++ [name]) := by
              cases links <;> rw [walkFrom, step]
            exact .stays ordinary entry (List.isEmpty_iff.mp last.1) last.2
              (course.symm.trans found)
          · cases links with
            | zero =>
                simp only [if_neg last] at step
                rw [walkFrom, step] at course
                subst course
                exact arrives.elim
            | succ fewer =>
                rw [walkFrom_over holds ordinary opened entry last] at course
                exact .across ordinary entry last course

theorem goesOn_of_arrives {arrival : Arrival} {name : String} (holds : root.HasFolder place)
    (course : walkFrom root aim links place (name :: tail) = arrival) (arrives : Arrives arrival) :
    GoesOn root aim place tail arrival links name := by
  by_cases blank : IsBlank name
  · rw [walkFrom_congr (advance_past holds blank)] at course
    exact .past blank course
  by_cases up : name = ".."
  · subst up
    rw [walkFrom_congr (advance_up holds)] at course
    exact .up course
  by_cases closed : IsClosed aim tail
  · rw [walkFrom_trouble (advance_closed holds blank up closed)] at course
    subst course
    exact arrives.elim
  have step := advance_name holds blank up closed
  split at step
  · rw [walkFrom_trouble step] at course
    subst course
    exact arrives.elim
  · next short =>
    exact goesOn_of_ordinary holds ⟨blank, up, Nat.not_lt.mp short⟩ closed course arrives

/-- When all components of a path lead anywhere, those in front lead to the folder of the rest. -/
theorem exists_leads_of_arrives (some : ∃ name ∈ tail, name ≠ "")
    (arrives : Arrives (walkFrom root aim links place (names ++ tail))) :
    ∃ left goal, Leads root links place names left goal := by
  obtain ⟨last, member, nonempty⟩ := some
  have more (rest : List String) : rest ++ tail ≠ [] :=
    List.append_ne_nil_of_right_ne_nil rest (List.ne_nil_of_mem member)
  -- A link is followed with fewer links left, and every other step leaves fewer components.
  induction links using Nat.strongRecOn generalizing place names with
  | ind links further =>
  induction names generalizing place with
  | nil => exact ⟨links, place, .here _ _⟩
  | cons name rest ih =>
      rw [List.cons_append] at arrives
      have holds := hasFolder_of_arrives (List.cons_ne_nil _ _) arrives
      cases goesOn_of_arrives holds rfl arrives with
      | past blank later =>
          obtain ⟨left, goal, leads⟩ := ih (later ▸ arrives)
          exact ⟨left, goal, .past holds blank leads⟩
      | up later =>
          obtain ⟨left, goal, leads⟩ := ih (later ▸ arrives)
          exact ⟨left, goal, .up holds leads⟩
      | into ordinary inside later =>
          obtain ⟨left, goal, leads⟩ := ih (later ▸ arrives)
          exact ⟨left, goal, .into holds ordinary inside leads⟩
      | onto ordinary file later =>
          obtain ⟨entries, folder⟩ := hasFolder_of_arrives (more rest) (later ▸ arrives)
          cases file.symm.trans folder
      | across ordinary link follows later =>
          rw [← later, ← List.append_assoc] at arrives
          obtain ⟨left, goal, leads⟩ := further _ (Nat.lt_succ_self _) arrives
          exact ⟨left, goal, .across holds ordinary link leads⟩
      | stays _ _ last => exact absurd last (more rest)
      | free _ _ last => exact absurd last (more rest)

theorem walkFrom_blanks (holds : root.HasFolder place) {blanks : List String}
    (blank : ∀ name ∈ blanks, IsBlank name) :
    walkFrom root aim links place (blanks ++ names) = walkFrom root aim links place names := by
  induction blanks with
  | nil => rfl
  | cons first blanks ih =>
      obtain ⟨now, later⟩ := List.forall_mem_cons.mp blank
      exact (walkFrom_congr (advance_past holds now)).trans (ih later)

end Runs

/-! ## The last component -/

section Last

variable {root : Node} {aim : Aim} {links : Nat} {place : Place} {name : String}

theorem not_isClosed_nil : ¬ IsClosed aim [] :=
  fun closed => closed.2.1 rfl

theorem walkFrom_free (holds : root.HasFolder place) (ordinary : IsOrdinary name)
    (free : root.at? (place ++ [name]) = none) :
    walkFrom root aim links place [name] = .absent place name [] := by
  apply walkFrom_absent
  rw [advance_ordinary holds ordinary not_isClosed_nil, free]

theorem walkFrom_file (holds : root.HasFolder place) (ordinary : IsOrdinary name)
    {bytes : List UInt8} (file : root.at? (place ++ [name]) = some (.file bytes)) :
    walkFrom root aim links place [name] = .found (place ++ [name]) := by
  exact (walkFrom_congr (advance_onto holds ordinary not_isClosed_nil file)).trans walkFrom_nil

theorem walkFrom_folder (holds : root.HasFolder place) (ordinary : IsOrdinary name)
    (inside : root.HasFolder (place ++ [name])) :
    walkFrom root aim links place [name] = .found (place ++ [name]) := by
  exact (walkFrom_congr (advance_into holds ordinary not_isClosed_nil inside)).trans walkFrom_nil

/-- The entry that a path names itself is found where it stands, a link too. -/
theorem walkFrom_entry_last (holds : root.HasFolder place) (ordinary : IsOrdinary name)
    {node : Node} (here : root.at? (place ++ [name]) = some node) :
    walkFrom root .entry links place [name] = .found (place ++ [name]) := by
  have course := @advance_ordinary root .entry place name [] holds ordinary not_isClosed_nil
  rw [here] at course
  cases node with
  | link target => cases links <;> rw [walkFrom, course] <;> rfl
  | _ => exact (walkFrom_congr course).trans walkFrom_nil

/-- A last component that leads to no folder names an entry. -/
theorem isOrdinary_of_arrives (holds : root.HasFolder place) (named : ¬ IsBlank name)
    (arrives : Arrives (walkFrom root aim links place [name]))
    (below : ∀ found, walkFrom root aim links place [name] = .found found →
      ¬ root.HasFolder found) : IsOrdinary name := by
  have down : name ≠ ".." := by
    rintro rfl
    apply below place.dropLast
    · exact (walkFrom_congr (advance_up holds)).trans walkFrom_nil
    · exact holds.dropLast
  refine ⟨named, down, ?_⟩
  by_contra long
  have course := @advance_name root aim place name [] holds named down not_isClosed_nil
  rw [if_pos (Nat.not_le.mp long)] at course
  rw [walkFrom_trouble course] at arrives
  exact arrives

end Last

/-! ## Tidy paths -/

section Tidy

variable {root : Node} {aim : Aim} {current folder : Place} {left : Nat} {anchor name : String}
  {names : List String}

/-- Where a path behind an anchor is followed from. -/
def startOf (anchor : String) (current : Place) : Place :=
  if anchor = "" then current else []

theorem walk_eq_walkFrom (isAnchor : Path.IsAnchor anchor)
    (proper : ∀ name ∈ names, Path.IsName name)
    (short : (Path.assemble anchor names).utf8ByteSize ≤ pathLimit) :
    walk root current (Path.assemble anchor names) aim =
      walkFrom root aim linkLimit (startOf anchor current)
        (rawComponents (Path.assemble anchor names)) := by
  have start : Path.isAbsolute (Path.assemble anchor names) = (anchor != "") := by
    rw [Path.isAbsolute, Path.anchor_assemble isAnchor proper]
  unfold walk startOf
  rw [if_neg (Path.assemble_ne_empty proper), if_neg (Nat.not_lt.mpr short), start]
  by_cases relative : anchor = "" <;> simp [relative]

/-- A tidy path is followed name by name. -/
theorem walk_assemble (isAnchor : Path.IsAnchor anchor)
    (proper : ∀ name ∈ names, Path.IsName name)
    (short : (Path.assemble anchor names).utf8ByteSize ≤ pathLimit)
    (holds : root.HasFolder (startOf anchor current)) :
    walk root current (Path.assemble anchor names) aim =
      walkFrom root aim linkLimit (startOf anchor current) names := by
  obtain ⟨blanks, blank, pieces⟩ := Path.exists_rawComponents_assemble isAnchor proper
  rw [walk_eq_walkFrom isAnchor proper short, pieces, walkFrom_blanks holds blank]

/-- A tidy path that leads anywhere is no longer than a path may be, and starts from a folder. -/
theorem start_of_arrives (isAnchor : Path.IsAnchor anchor)
    (proper : ∀ name ∈ names, Path.IsName name)
    (arrives : Arrives (walk root current (Path.assemble anchor names) aim)) :
    (Path.assemble anchor names).utf8ByteSize ≤ pathLimit ∧
      root.HasFolder (startOf anchor current) := by
  have short : (Path.assemble anchor names).utf8ByteSize ≤ pathLimit := by
    by_contra long
    unfold walk at arrives
    rw [if_neg (Path.assemble_ne_empty proper), if_pos (Nat.not_le.mp long)] at arrives
    exact arrives
  refine ⟨short, ?_⟩
  rw [walk_eq_walkFrom isAnchor proper short] at arrives
  apply hasFolder_of_arrives _ arrives
  intro empty
  exact splitOn_ne_nil _ _ (List.map_eq_nil_iff.mp empty)

end Tidy

end SymbolJump.Files
