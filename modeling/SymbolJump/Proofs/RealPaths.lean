/-
# The path without links

The path of a place is a slash and its names, and it is taken apart and put together as the place
is. So when a path is followed in its spelling, the spelling is that of the place where a walk
through the tree would be: at a link both go on from where the target of the link leads. What is
kept of links that were met does not change that. A link that was left has the path of the place
that it leads to, and one that is still being followed takes more links than are left, so it is not
met again.

An absolute path to a folder therefore comes out as the path of that folder, as long as no link of
the tree stands at a path that is too long to be asked for.
-/
import SymbolJump.Proofs.Reaching

namespace SymbolJump.Files

open Node Text

/-! ## Paths of places -/

section Paths

variable {place folder goal : Place} {name : String}

theorem IsPlaceName.isName (proper : IsPlaceName name) : Path.IsName name where
  some := fun empty => proper.ordinary.named (.inl empty)
  other := fun dot => proper.ordinary.named (.inr dot)
  whole := proper.whole

theorem IsClean.isName (clean : IsClean place) : ∀ name ∈ place, Path.IsName name :=
  fun name member => (clean name member).isName

theorem pathOf_eq_assemble (place : Place) : pathOf place = Path.assemble "/" place :=
  (if_neg fun empty => absurd empty.1 (by decide)).symm

theorem pathOf_injective (clean : IsClean place) (other : IsClean goal)
    (same : pathOf place = pathOf goal) : place = goal := by
  rw [pathOf_eq_assemble, pathOf_eq_assemble] at same
  have names := congrArg Path.components same
  rwa [Path.components_assemble (.inr (.inl rfl)) clean.isName,
    Path.components_assemble (.inr (.inl rfl)) other.isName] at names

/-- The path of a folder with the slash that stands before what is in it. -/
def stemOf (folder : Place) : String :=
  if folder = [] then "/" else pathOf folder ++ "/"

theorem pathOf_concat (folder : Place) (name : String) :
    pathOf (folder ++ [name]) = stemOf folder ++ name := by
  unfold stemOf pathOf
  split
  · next empty =>
    rw [empty]
    rfl
  · next some => rw [Path.joinWith_concat some, String.append_assoc, String.append_assoc,
      String.append_assoc]

/-- The path of a place below the root ends with its last name, and so with no slash. -/
theorem getLast_pathOf (clean : IsClean place) (below : place ≠ []) :
    (pathOf place).toList.getLast? ≠ some '/' := by
  obtain ⟨folder, name, rfl⟩ := (List.eq_nil_or_concat' place).resolve_left below
  have proper := (isClean_concat.mp clean).2
  have chars : name.toList ≠ [] := mt String.toList_eq_nil_iff.mp proper.isName.some
  rw [pathOf_concat, String.toList_append, List.getLast?_append_of_ne_nil _ chars]
  intro last
  exact proper.whole (List.mem_of_getLast? last)

theorem extended_pathOf (clean : IsClean folder) (proper : IsPlaceName name) :
    extended (pathOf folder) name = pathOf (folder ++ [name]) := by
  have relative : name.toList.head? ≠ some '/' :=
    fun head => proper.whole (List.mem_of_head? head)
  rw [pathOf_concat, extended, if_neg relative, stemOf]
  by_cases root : folder = []
  · subst root
    rfl
  · have open_ : ¬ (pathOf folder = "" ∨ (pathOf folder).toList.getLast? = some '/') := by
      rintro (empty | slash)
      · exact absurd (String.append_eq_empty_iff.mp empty).1 (by decide)
      · exact getLast_pathOf clean root slash
    rw [if_neg open_, if_neg root]

/-- A slash at the end of a text that ends with another character is dropped alone. -/
theorem dropTrailing_slash {text : List Char} {c : Char} (last : text.getLast? = some c)
    (differ : c ≠ '/') : dropTrailing (· = '/') (text ++ ['/']) = text := by
  obtain ⟨front, rfl⟩ := List.getLast?_eq_some_iff.mp last
  unfold dropTrailing
  simp [differ]

theorem spelledAbove_pathOf (clean : IsClean place) :
    spelledAbove (pathOf place) = pathOf place.dropLast := by
  rcases List.eq_nil_or_concat' place with rfl | ⟨folder, name, rfl⟩
  · decide +kernel
  obtain ⟨above, proper⟩ := isClean_concat.mp clean
  obtain ⟨front, stem⟩ : ∃ front, (stemOf folder).toList = front ++ ['/'] := by
    unfold stemOf
    split
    · exact ⟨[], rfl⟩
    · exact ⟨_, String.toList_append⟩
  have chars : (pathOf (folder ++ [name])).toList = front ++ '/' :: name.toList := by
    rw [pathOf_concat, String.toList_append, stem, List.append_assoc]
    rfl
  have named : pathOf (folder ++ [name]) ≠ "" := by
    rw [pathOf_eq_assemble]
    exact Path.assemble_ne_empty clean.isName
  have down : name.toList ≠ ['.', '.'] := fun same => by
    have whole := congrArg String.ofList same
    rw [String.ofList_toList] at whole
    exact proper.ordinary.down whole
  rw [spelledAbove, if_neg named, chars, afterLast_append proper.whole, if_neg down,
    List.dropLast_concat, spelledFolder, chars, throughLast_append proper.whole, ← stem, stemOf]
  split
  · next root =>
    rw [root]
    decide +kernel
  · next below =>
    obtain ⟨c, last⟩ : ∃ c, (pathOf folder).toList.getLast? = some c := by
      cases ends : (pathOf folder).toList.getLast? with
      | some c => exact ⟨c, rfl⟩
      | none =>
          rw [List.getLast?_eq_none_iff, String.toList_eq_nil_iff] at ends
          exact absurd (String.append_eq_empty_iff.mp ends).1 (by decide)
    have differ : c ≠ '/' := fun slash => getLast_pathOf above below (slash ▸ last)
    have mixed : ¬ ((pathOf folder ++ "/").toList.all (· = '/')) = true := by
      intro all
      apply differ
      refine of_decide_eq_true (List.all_eq_true.mp all c ?_)
      rw [String.toList_append]
      exact List.mem_append_left _ (List.mem_of_getLast? last)
    have text : (pathOf folder ++ "/").toList = (pathOf folder).toList ++ ['/'] :=
      String.toList_append
    rw [if_neg mixed, text, dropTrailing_slash last differ, String.ofList_toList]

end Paths

/-! ## Links by their own paths -/

section Links

variable {root : Node} {current place : Place} {name target : String}

/-- The names of a folder's place lead there, whatever they start from. -/
theorem leads_of_clean {outer inner : Place} {links : Nat} (clean : IsClean inner)
    (holds : root.HasFolder (outer ++ inner)) :
    Leads root links outer inner links (outer ++ inner) := by
  induction inner generalizing outer with
  | nil =>
      rw [List.append_nil]
      exact .here _ _
  | cons name rest ih =>
      obtain ⟨proper, below⟩ := List.forall_mem_cons.mp clean
      have longer : outer ++ name :: rest = (outer ++ [name]) ++ rest := by simp
      rw [longer] at holds ⊢
      exact .into holds.of_append.of_append proper.ordinary holds.of_append (ih below holds)

/-- A walk to an entry in a folder finds it where it stands. -/
theorem walk_pathOf_entry (clean : IsClean place) (proper : IsPlaceName name)
    (holds : root.HasFolder place) {node : Node} (here : root.at? (place ++ [name]) = some node)
    (short : (pathOf (place ++ [name])).utf8ByteSize ≤ pathLimit) :
    walk root current (pathOf (place ++ [name])) .entry = .found (place ++ [name]) := by
  have whole : IsClean (place ++ [name]) := isClean_concat.mpr ⟨clean, proper⟩
  have top : root.HasFolder [] := HasFolder.of_append (show root.HasFolder ([] ++ place) from holds)
  have leads : Leads root linkLimit [] place linkLimit place := leads_of_clean clean holds
  rw [pathOf_eq_assemble] at short ⊢
  rw [walk_assemble (.inr (.inl rfl)) whole.isName short top]
  have reached : walkFrom root .entry linkLimit [] (place ++ [name]) =
      walkFrom root .entry linkLimit place [name] := leads.walkFrom_append
    ⟨name, List.mem_singleton_self _, proper.isName.some⟩
  exact reached.trans (walkFrom_entry_last holds proper.ordinary here)

/-- Every link of a tree stands at a path that can be asked for. -/
def HasShortLinks (root : Node) : Prop :=
  ∀ place target, root.at? place = some (.link target) → (pathOf place).utf8ByteSize ≤ pathLimit

theorem linkTarget?_of_link (shortLinks : HasShortLinks root) (clean : IsClean place)
    (proper : IsPlaceName name) (holds : root.HasFolder place)
    (link : root.at? (place ++ [name]) = some (.link target)) :
    linkTarget? root current (pathOf (place ++ [name])) = some target := by
  rw [linkTarget?, walk_pathOf_entry clean proper holds link (shortLinks _ _ link)]
  dsimp only
  rw [link]

theorem linkTarget?_of_folder (clean : IsClean place) (proper : IsPlaceName name)
    (holds : root.HasFolder place) (inside : root.HasFolder (place ++ [name])) :
    linkTarget? root current (pathOf (place ++ [name])) = none := by
  obtain ⟨entries, folder⟩ := inside
  by_cases short : (pathOf (place ++ [name])).utf8ByteSize ≤ pathLimit
  · rw [linkTarget?, walk_pathOf_entry clean proper holds folder short]
    dsimp only
    rw [folder]
  · have named : pathOf (place ++ [name]) ≠ "" := by
      rw [pathOf_eq_assemble]
      exact Path.assemble_ne_empty (isClean_concat.mpr ⟨clean, proper⟩).isName
    rw [linkTarget?, walk, if_neg named, if_pos (Nat.not_le.mp short)]

end Links

/-! ## What is kept of links -/

section Known

variable {root : Node} {known : KnownLinks} {place goal : Place}

/-- Links that were left are kept with the paths of the places that they lead to. -/
def IsSettled (root : Node) (known : KnownLinks) : Prop :=
  ∀ place links goal path, IsClean place → LinkLeads root place links goal →
    known.lookup (pathOf place) = some (some path) → path = pathOf goal

/-- Links that are being followed take at least so many links further. -/
def IsPending (root : Node) (known : KnownLinks) (bound : Nat) : Prop :=
  ∀ place links goal, IsClean place → LinkLeads root place links goal →
    known.lookup (pathOf place) = some none → bound ≤ links

theorem IsPending.mono {bound fewer : Nat} (pending : IsPending root known bound)
    (less : fewer ≤ bound) : IsPending root known fewer :=
  fun place links goal clean leads now =>
    Nat.le_trans less (pending place links goal clean leads now)

theorem isSettled_begun (settled : IsSettled root known) (key : String) :
    IsSettled root ((key, none) :: known) := by
  intro place links goal path clean leads kept
  rw [List.lookup_cons] at kept
  split at kept
  · nomatch kept
  · exact settled place links goal path clean leads kept

theorem isPending_begun {bound links : Nat} (pending : IsPending root known bound)
    (fewer : links ≤ bound) (clean : IsClean place) (leads : LinkLeads root place links goal) :
    IsPending root ((pathOf place, none) :: known) links := by
  intro other others there proper also kept
  rw [List.lookup_cons] at kept
  split at kept
  · next same =>
    obtain rfl := pathOf_injective proper clean (beq_iff_eq.mp same)
    exact Nat.le_of_eq (leads.unique also).1
  · exact Nat.le_trans fewer (pending other others there proper also kept)

theorem isSettled_left {links : Nat} (settled : IsSettled root known) (clean : IsClean place)
    (leads : LinkLeads root place links goal) :
    IsSettled root ((pathOf place, some (pathOf goal)) :: known) := by
  intro other others there path proper also kept
  rw [List.lookup_cons] at kept
  split at kept
  · next same =>
    obtain rfl := pathOf_injective proper clean (beq_iff_eq.mp same)
    rw [← (leads.unique also).2]
    exact (Option.some.inj (Option.some.inj kept)).symm
  · exact settled other others there path proper also kept

/-- A link that was followed is open no longer, and it opened no others. -/
theorem lookup_of_left {own : String} {inner : KnownLinks} (path key : String)
    (closed : ∀ key, inner.lookup key = some none →
      ((own, none) :: known).lookup key = some none)
    (kept : ((own, some path) :: inner).lookup key = some none) :
    known.lookup key = some none := by
  rw [List.lookup_cons] at kept
  split at kept
  · nomatch kept
  · next differ =>
    have before := closed key kept
    rwa [List.lookup_cons, differ] at before

end Known

/-! ## Following the spelling -/

section Following

variable {root : Node} {current : Place}

/-- Following a spelled path came to the path of a place: no link led back to itself, and of the
links that are kept those that were left have the right paths, and no others are open than
before. -/
structure CameTo (root : Node) (known : KnownLinks) (goal : Place) (followed : Followed) :
    Prop where
  path : followed.path = pathOf goal
  straight : followed.straight = true
  settled : IsSettled root followed.known
  closed : ∀ key, followed.known.lookup key = some none → known.lookup key = some none

/-- The target of a link in a folder is followed from where it starts. -/
theorem follow_pathOf (depth : Nat) (known : KnownLinks) (place : Place) (target : String) :
    follow root current (depth + 1) known (pathOf place) target =
      followBy root current (follow root current depth) known (pathOf (linkOrigin place target))
        (rawComponents target) := by
  rw [follow, linkOrigin, apply_ite pathOf]
  rfl

/-- The path of a place is followed in its spelling as its components lead. -/
theorem cameTo_of_reaches (shortLinks : HasShortLinks root) {place goal : Place}
    {names : List String} {links : Nat} (reaches : Reaches root place names links goal)
    {depth : Nat} (deep : links ≤ depth) (clean : IsClean place) {known : KnownLinks}
    (settled : IsSettled root known) (pending : IsPending root known links) :
    CameTo root known goal
      (followBy root current (follow root current depth) known (pathOf place) names) := by
  -- The two lists of links stay right from component to component; only a link that is met for the
  -- first time changes them, once when it is entered and once when it is left.
  induction reaches generalizing depth known with
  | here => exact ⟨rfl, rfl, settled, fun _ => id⟩
  | past holds blank later ih =>
      rw [followBy, if_pos (show _ = "" ∨ _ = "." from blank)]
      exact ih deep clean settled pending
  | up holds later ih =>
      rw [followBy, if_neg (by decide), if_pos rfl, spelledAbove_pathOf clean]
      exact ih deep clean.dropLast settled pending
  | @into place goal name rest links holds proper inside later ih =>
      rw [followBy, if_neg (show ¬ (name = "" ∨ name = ".") from proper.ordinary.named),
        if_neg proper.ordinary.down]
      dsimp only
      rw [extended_pathOf clean proper, linkTarget?_of_folder clean proper holds inside]
      exact ih deep (isClean_concat.mpr ⟨clean, proper⟩) settled pending
  | @across place middle goal name target rest inner links holds proper link through later ihOver
      ihLater =>
      have whole := isClean_concat.mpr ⟨clean, proper⟩
      have leads : LinkLeads root (place ++ [name]) inner middle :=
        ⟨place, name, target, rfl, link, through⟩
      have origin := clean.linkOrigin target
      have there := through.isClean origin
      rw [followBy, if_neg (show ¬ (name = "" ∨ name = ".") from proper.ordinary.named),
        if_neg proper.ordinary.down]
      dsimp only
      rw [extended_pathOf clean proper, linkTarget?_of_link shortLinks clean proper holds link]
      rcases kept : known.lookup (pathOf (place ++ [name])) with _ | _ | path
      · obtain ⟨fewer, rfl⟩ := Nat.exists_eq_succ_of_ne_zero (show depth ≠ 0 by omega)
        have begun := ihOver (show inner ≤ fewer by omega) origin
          (isSettled_begun settled (pathOf (place ++ [name])))
          (isPending_begun pending (by omega) whole leads)
        dsimp only
        rw [follow_pathOf, if_pos begun.straight, begun.path]
        have left := fun key => lookup_of_left (pathOf middle) key begun.closed
        have went := ihLater (show links ≤ fewer + 1 by omega) there
          (isSettled_left begun.settled whole leads)
          (fun other others goal clean leads now =>
            Nat.le_trans (by omega) (pending other others goal clean leads (left _ now)))
        exact ⟨went.path, went.straight, went.settled,
          fun key now => left key (went.closed key now)⟩
      · -- A link that is still being followed takes all links that are left, and this one more.
        have more := pending _ _ _ whole leads kept
        omega
      · obtain rfl := settled _ _ _ _ whole leads kept
        exact ihLater (by omega) there settled (pending.mono (by omega))

end Following

/-! ## Normal forms of places -/

section Normal

variable {root : Node} {place goal : Place} {name : String} {names : List String}

/-- The names of a place as a normal form takes them in, the last one first. -/
def takenIn (place : Place) : List (List Char) :=
  (place.map String.toList).reverse

theorem takenIn_concat (place : Place) (name : String) :
    takenIn (place ++ [name]) = name.toList :: takenIn place := by
  unfold takenIn
  rw [List.map_append, List.reverse_append]
  rfl

theorem takeComponent_blank (absolute : Bool) (done : List (List Char)) (blank : IsBlank name) :
    Path.takeComponent absolute done name.toList = done := by
  rcases blank with rfl | rfl <;> rfl

theorem takeComponent_name (absolute : Bool) (done : List (List Char))
    (proper : IsPlaceName name) :
    Path.takeComponent absolute done name.toList = name.toList :: done := by
  have named : ¬ (name.toList = [] ∨ name.toList = ['.']) := by
    rintro (empty | dot)
    · exact proper.isName.some (String.toList_eq_nil_iff.mp empty)
    · exact proper.isName.other (String.toList_injective dot)
  have down : name.toList ≠ ['.', '.'] :=
    fun up => proper.ordinary.down (String.toList_injective up)
  unfold Path.takeComponent
  rw [if_neg named, if_neg down]

theorem takeComponent_up (clean : IsClean place) :
    Path.takeComponent true (takenIn place) "..".toList = takenIn place.dropLast := by
  rcases List.eq_nil_or_concat' place with rfl | ⟨folder, name, rfl⟩
  · rfl
  · have down : name.toList ≠ ['.', '.'] :=
      fun up => (isClean_concat.mp clean).2.ordinary.down (String.toList_injective up)
    rw [takenIn_concat, List.dropLast_concat]
    exact if_neg down

/-- Where no link is on the way, components lead as they are taken in. -/
theorem Reaches.takenIn_eq {links : Nat} (reaches : Reaches root place names links goal)
    (straight : links = 0) (clean : IsClean place) :
    (names.map String.toList).foldl (Path.takeComponent true) (takenIn place) = takenIn goal := by
  induction reaches with
  | here => rfl
  | past holds blank later ih =>
      rw [List.map_cons, List.foldl_cons, takeComponent_blank _ _ blank]
      exact ih straight clean
  | up holds later ih =>
      rw [List.map_cons, List.foldl_cons, takeComponent_up clean]
      exact ih straight clean.dropLast
  | into holds proper inside later ih =>
      rw [List.map_cons, List.foldl_cons, takeComponent_name _ _ proper, ← takenIn_concat]
      exact ih straight (isClean_concat.mpr ⟨clean, proper⟩)
  | across => omega

theorem foldl_takeComponent_names (absolute : Bool) (done : Place) (clean : IsClean place) :
    (place.map String.toList).foldl (Path.takeComponent absolute) (takenIn done) =
      takenIn (done ++ place) := by
  induction place generalizing done with
  | nil => rw [List.append_nil]; rfl
  | cons name rest ih =>
      obtain ⟨proper, others⟩ := List.forall_mem_cons.mp clean
      rw [List.map_cons, List.foldl_cons, takeComponent_name _ _ proper, ← takenIn_concat,
        ih _ others, List.append_assoc]
      rfl

/-- A normal form takes in the components of the tidy path. -/
theorem normalComponents_eq (path : String) :
    Path.normalComponents path.toList = (((Path.components path).map String.toList).foldl
      (Path.takeComponent (Path.leadingSlashes path.toList != 0)) []).reverse := by
  have pieces : splitOn '/' path.toList = (rawComponents path).map String.toList := by
    unfold rawComponents
    rw [List.map_map]
    exact (List.map_id' _).symm.trans (List.map_congr_left fun _ _ => String.toList_ofList.symm)
  have all : Path.components path = (rawComponents path).filter
      fun name => decide (name ≠ "" ∧ name ≠ ".") := rfl
  unfold Path.normalComponents
  rw [all, pieces, List.foldl_map, List.foldl_map, List.foldl_filter]
  congr 2
  funext done name
  split
  · rfl
  · next dropped =>
    have blank : IsBlank name := by simpa [IsBlank, or_iff_not_imp_left] using dropped
    exact takeComponent_blank _ done blank

theorem leadingSlashes_pathOf (clean : IsClean place) :
    Path.leadingSlashes (pathOf place).toList = 1 := by
  have chars : (pathOf place).toList = '/' :: (joinWith "/" place).toList := String.toList_append
  have differ := Path.head_joinWith clean.isName
  rw [chars]
  rcases rest : (joinWith "/" place).toList with _ | ⟨c, more⟩
  · rfl
  · rw [rest] at differ
    have other : c ≠ '/' := fun slash => differ (congrArg some slash)
    unfold Path.leadingSlashes
    split <;> simp_all

theorem normalComponents_pathOf (clean : IsClean place) :
    Path.normalComponents (pathOf place).toList = place.map String.toList := by
  have taken := foldl_takeComponent_names
    (Path.leadingSlashes (pathOf place).toList != 0) [] clean
  have names : Path.components (pathOf place) = place := by
    rw [pathOf_eq_assemble, Path.components_assemble (.inr (.inl rfl)) clean.isName]
  rw [normalComponents_eq, names]
  exact (congrArg List.reverse taken).trans (List.reverse_reverse _)

end Normal

/-! ## Real paths of folders -/

section RealPaths

variable {root : Node} {current place goal : Place} {anchor : String} {names : List String}

theorem Reaches.past_blanks {links : Nat} (reaches : Reaches root place names links goal)
    {blanks : List String} (blank : ∀ name ∈ blanks, IsBlank name) :
    Reaches root place (blanks ++ names) links goal := by
  induction blanks with
  | nil => exact reaches
  | cons first blanks ih =>
      obtain ⟨now, later⟩ := List.forall_mem_cons.mp blank
      exact .past reaches.start now (ih later)

/-- A tidy absolute path to a folder is spelled out as the path of the folder. -/
theorem spelledOut_assemble (shortLinks : HasShortLinks root) (isAnchor : Path.IsAnchor anchor)
    (absolute : anchor ≠ "") (proper : ∀ name ∈ names, Path.IsName name) {links : Nat}
    (few : links ≤ linkLimit) (reaches : Reaches root [] names links goal) :
    spelledOut root current (Path.assemble anchor names) = pathOf goal := by
  have clean := reaches.isClean (List.forall_mem_nil _)
  obtain ⟨blanks, blank, pieces⟩ := Path.exists_rawComponents_assemble isAnchor proper
  have came : CameTo root [] goal
      (followBy root current (follow root current 999) [] (pathOf []) (blanks ++ names)) :=
    cameTo_of_reaches shortLinks (reaches.past_blanks blank) (Nat.le_trans few (by decide))
      (List.forall_mem_nil _) (fun _ _ _ _ _ _ kept => nomatch kept)
      (fun _ _ _ _ _ kept => nomatch kept)
  rw [← pieces] at came
  have rooted : Path.isAbsolute (Path.assemble anchor names) = true := by
    rw [Path.isAbsolute, Path.anchor_assemble isAnchor proper]
    exact bne_iff_ne.mpr absolute
  have followed : (follow root current followDepth [] "" (Path.assemble anchor names)).path =
      pathOf goal := by
    rw [followDepth, follow, if_pos rooted]
    exact came.path
  have alone : extended (pathOf current) (pathOf goal) = pathOf goal :=
    if_pos (by rw [pathOf, String.toList_append]; rfl)
  have names : (goal.map String.toList).map String.ofList = goal := by
    rw [List.map_map]
    exact (List.map_congr_left fun name _ => String.ofList_toList).trans (List.map_id _)
  unfold spelledOut
  dsimp only
  rw [followed, alone, normalComponents_pathOf clean, leadingSlashes_pathOf clean, names]
  rfl

theorem resolve_eq_ok_iff {path : String} :
    resolve root current path = .ok place ↔ walk root current path .target = .found place := by
  unfold resolve
  rcases walk root current path .target <;> simp

theorem walk_tidy_of_located {disk : Disk} {path : String}
    (found : disk.locate? path = .ok (some place)) :
    Disk.holdsNull path = false ∧
      walk disk.tree disk.current (Path.tidy path) .target = .found place := by
  unfold Disk.locate? at found
  split at found
  · nomatch found
  next whole =>
  refine ⟨Bool.eq_false_iff.mpr whole, resolve_eq_ok_iff.mp ?_⟩
  split at found
  · next goal resolved =>
    obtain rfl := Option.some.inj (Except.ok.inj found)
    exact resolved
  · nomatch found
  · nomatch found

/-- A path to a folder that meets no link may be too long to be asked for, but it does not lead in
circles. -/
theorem resolve_pathOf_ne_tooManyLinks (clean : IsClean place) (holds : root.HasFolder place) :
    resolve root current (pathOf place) ≠ .error .tooManyLinks := by
  have top : root.HasFolder [] := HasFolder.of_append (show root.HasFolder ([] ++ place) from holds)
  have leads : Leads root linkLimit [] place linkLimit place := leads_of_clean clean holds
  have named : pathOf place ≠ "" := by
    rw [pathOf_eq_assemble]
    exact Path.assemble_ne_empty clean.isName
  by_cases short : (pathOf place).utf8ByteSize ≤ pathLimit
  · have found : walk root current (pathOf place) .target = .found place := by
      rw [pathOf_eq_assemble] at short ⊢
      rw [walk_assemble (.inr (.inl rfl)) clean.isName short top]
      exact leads.walkFrom_target
    rw [resolve_eq_ok_iff.mpr found]
    exact fun same => nomatch same
  · rw [resolve, walk, if_neg named, if_pos (Nat.not_le.mp short)]
    exact fun same => nomatch same

/-- The components of an absolute path that leads to a folder lead there. -/
theorem exists_reaches_of_located {disk : Disk} {path : String} (absolute : Path.isAbsolute path)
    (found : disk.locate? path = .ok (some place)) (holds : disk.tree.HasFolder place) :
    ∃ links, links ≤ linkLimit ∧ Reaches disk.tree [] (Path.components path) links place := by
  have isAnchor := Path.isAnchor_anchor path
  have proper : ∀ name ∈ Path.components path, Path.IsName name :=
    fun name => Path.isName_of_mem_components
  have walked := (walk_tidy_of_located found).2
  have arrives : Arrives (walk disk.tree disk.current (Path.tidy path) .target) := by
    rw [walked]
    trivial
  obtain ⟨short, start⟩ := start_of_arrives isAnchor proper arrives
  have top : startOf (Path.anchor path) disk.current = [] := if_neg (bne_iff_ne.mp absolute)
  rw [Path.tidy, walk_assemble isAnchor proper short start, top] at walked
  exact exists_reaches_of_found walked holds fun name member => (proper name member).whole

/-- An absolute path that leads to a folder has the path of the folder for its real path. -/
theorem realPath_of_located {disk : Disk} {path : String} (shortLinks : HasShortLinks disk.tree)
    (absolute : Path.isAbsolute path) (found : disk.locate? path = .ok (some place))
    (holds : disk.tree.HasFolder place) : disk.realPath path = .ok (pathOf place) := by
  obtain ⟨links, few, reaches⟩ := exists_reaches_of_located absolute found holds
  have spelled : spelledOut disk.tree disk.current (Path.tidy path) = pathOf place :=
    spelledOut_assemble shortLinks (Path.isAnchor_anchor path) (bne_iff_ne.mp absolute)
      (fun name => Path.isName_of_mem_components) few reaches
  have clean := reaches.isClean (List.forall_mem_nil _)
  unfold Disk.realPath
  rw [(walk_tidy_of_located found).1, if_neg (by decide)]
  dsimp only
  rw [spelled]
  split
  · next circle => exact absurd circle (resolve_pathOf_ne_tooManyLinks clean holds)
  · rfl

end RealPaths

end SymbolJump.Files
