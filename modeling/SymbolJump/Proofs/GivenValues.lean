/-
# Given values

A mapping that is laid over another decides wherever it gives a value. A value in it that is no
mapping is found in the result under the same path, unless it is a list of detectors that meets a
list, and a key that it leaves out of a mapping on both sides keeps what it had. Both laws hold at
every depth, whatever kinds of values meet on the way.

They presuppose a result. There is none just when, somewhere in both mappings, two lists of
detectors meet and the language of an entry is a list or an object.
-/
import SymbolJump.Proofs.KeyPaths

namespace SymbolJump.Settings

/-- A list stands at a path where a list of detectors is merged: under their key, over a list. -/
def ListsMeet (base : Mapping) (path : List Scalar) (value : Value) : Prop :=
  path.getLast? = some detectorsKey ∧ value.isList = true ∧
    ∃ below, (Value.object base).at? path = some below ∧ below.isList = true

/-- What a mapping gives is what counts, and what it leaves out is kept. -/
structure WinsWhereGiven (base update merged : Mapping) : Prop where
  given : ∀ path value, (Value.object update).at? path = some value → value.isObject = false →
    ¬ ListsMeet base path value → (Value.object merged).at? path = some value
  /-- A path leads to an object only if it leads through objects. -/
  kept : ∀ path key (below above : Mapping), (Value.object base).at? path = some (.object below) →
    (Value.object update).at? path = some (.object above) → above.get? key = none →
      (Value.object merged).at? (path ++ [key]) = below.get? key

/-- Two lists of detectors stand at the same place of two mappings. -/
def DetectorsMeet (base update : Mapping) (known entries : List Value) : Prop :=
  ∃ path, (Value.object base).at? (path ++ [detectorsKey]) = some (.list known) ∧
    (Value.object update).at? (path ++ [detectorsKey]) = some (.list entries)

/-- Wherever two lists of detectors meet, their languages can be told apart. -/
def MeetTold (base update : Mapping) : Prop :=
  ∀ known entries, DetectorsMeet base update known entries →
    languagesAreTold known = true ∧ languagesAreTold entries = true

/-! ## One field -/

section Field

variable {base update merged : Mapping} {key other : Scalar} {value : Value}

theorem eq_detectorsKey_iff (key : Scalar) :
    key = detectorsKey ↔ key.worth = .word "lang_detectors" := by
  cases key with
  | text value => exact ⟨congrArg Scalar.worth, fun same => congrArg _ (Scalar.Worth.word.inj same)⟩
  | float value => cases value <;> exact ⟨nofun, nofun⟩
  | null | bool | int | bytes | foreign => exact ⟨nofun, nofun⟩

/-- Keys that are worth the same take the same value. -/
theorem overlayValue?_congr (same : key.alike other = true) (old : Option Value) (value : Value) :
    overlayValue? key old value = overlayValue? other old value := by
  have worth : key.worth = other.worth := of_decide_eq_true same
  have detectors : key = detectorsKey ↔ other = detectorsKey := by
    rw [eq_detectorsKey_iff, eq_detectorsKey_iff, worth]
  cases value with
  | list entries =>
      rcases old with _ | ⟨_ | known | _ | _ | _⟩
      case some.list => simp only [overlayValue?, detectors]
      all_goals rfl
  | _ => rfl

/-- What a key of the result holds is decided by what the key holds on both sides. -/
theorem exists_of_overlay?_of_get? (distinct : update.Distinct)
    (laid : overlay? base update = some merged) (given : update.get? key = some value) :
    ∃ new, overlayValue? key (base.get? key) value = some new ∧ merged.get? key = some new := by
  obtain ⟨k, member, same⟩ := Mapping.exists_mem_of_get? given
  obtain ⟨new, takes, found⟩ := exists_of_overlay? distinct laid member
  rw [overlayValue?_congr same, Mapping.get?_congr base same] at takes
  exact ⟨new, takes, (Mapping.get?_congr merged same).symm.trans found⟩

theorem get?_overlay?_of_get?_eq_none (laid : overlay? base update = some merged)
    (missing : update.get? key = none) : merged.get? key = base.get? key :=
  get?_overlay?_of_untouched laid (Mapping.alike_eq_false_of_get?_eq_none missing)

/-- An object over anything but an object takes its place. -/
theorem overlayValue?_object_of_ne {old : Option Value} (above : Mapping)
    (other : ∀ below, old ≠ some (.object below)) :
    overlayValue? key old (.object above) = some (.object above) := by
  rcases old with _ | ⟨_ | _ | _ | below | _⟩
  case some.object => exact absurd rfl (other below)
  all_goals rfl

/-- A value that is no object and no list that meets one takes the place of any other. -/
theorem overlayValue?_of_given {old : Option Value} (flat : value.isObject = false)
    (apart : ¬ (key = detectorsKey ∧ value.isList = true ∧
      ∃ below, old = some below ∧ below.isList = true)) :
    overlayValue? key old value = some value := by
  cases value with
  | object above => nomatch flat
  | list entries =>
      rcases old with _ | ⟨_ | known | _ | _ | _⟩
      case some.list =>
        have other : key ≠ detectorsKey := fun here => apart ⟨here, rfl, _, rfl, rfl⟩
        rw [overlayValue?, if_neg other]
      all_goals rfl
  | _ => rfl

end Field

/-! ## Along a path -/

section Path

variable {base update merged : Mapping} {path : List Scalar} {value : Value}

theorem at?_of_given (differ : (Value.object update).KeysDiffer)
    (laid : overlay? base update = some merged)
    (leads : (Value.object update).at? path = some value) (flat : value.isObject = false)
    (apart : ¬ ListsMeet base path value) : (Value.object merged).at? path = some value := by
  induction path generalizing base update merged with
  | nil =>
      rw [Value.at?_nil] at leads
      rw [← Option.some.inj leads] at flat
      nomatch flat
  | cons key path ih =>
      obtain ⟨_, next, ⟨⟩, found, leads⟩ := Value.exists_of_at?_cons leads
      obtain ⟨new, takes, there⟩ := exists_of_overlay?_of_get? differ.distinct laid found
      rw [Value.at?_cons_of_get? there]
      cases path with
      | nil =>
          rw [Value.at?_nil] at leads ⊢
          cases Option.some.inj leads
          rw [overlayValue?_of_given flat] at takes
          · exact takes.symm
          rintro ⟨rfl, list, below, stands, also⟩
          exact apart ⟨rfl, list, below, (Value.at?_singleton _ _).trans stands, also⟩
      | cons after path =>
          obtain ⟨above, _, rfl, -, -⟩ := Value.exists_of_at?_cons leads
          by_cases object : ∃ below, base.get? key = some (.object below)
          case neg =>
            rw [overlayValue?_object_of_ne above (not_exists.mp object)] at takes
            rw [← Option.some.inj takes]
            exact leads
          obtain ⟨below, stands⟩ := object
          rw [stands, overlayValue?] at takes
          obtain ⟨inner, laid, rfl⟩ := Option.map_eq_some_iff.mp takes
          refine ih (differ.of_get? found) laid leads ?_
          rintro ⟨last, list, other, stood, also⟩
          refine apart ⟨?_, list, other, (Value.at?_cons_of_get? stands _).trans stood, also⟩
          rwa [List.getLast?_cons_cons]

theorem at?_concat_of_missing {key : Scalar} {below above : Mapping}
    (differ : (Value.object update).KeysDiffer) (laid : overlay? base update = some merged)
    (leadsBelow : (Value.object base).at? path = some (.object below))
    (leadsAbove : (Value.object update).at? path = some (.object above))
    (missing : above.get? key = none) :
    (Value.object merged).at? (path ++ [key]) = below.get? key := by
  induction path generalizing base update merged with
  | nil =>
      rw [Value.at?_nil] at leadsBelow leadsAbove
      cases Option.some.inj leadsBelow
      cases Option.some.inj leadsAbove
      rw [List.nil_append, Value.at?_singleton, get?_overlay?_of_get?_eq_none laid missing]
  | cons first path ih =>
      obtain ⟨_, next, ⟨⟩, found, leadsAbove⟩ := Value.exists_of_at?_cons leadsAbove
      obtain ⟨_, old, ⟨⟩, stands, leadsBelow⟩ := Value.exists_of_at?_cons leadsBelow
      obtain ⟨new, takes, there⟩ := exists_of_overlay?_of_get? differ.distinct laid found
      rw [List.cons_append, Value.at?_cons_of_get? there]
      obtain ⟨inner, rfl⟩ := Value.exists_object_of_at?_object leadsBelow
      obtain ⟨outer, rfl⟩ := Value.exists_object_of_at?_object leadsAbove
      rw [stands, overlayValue?] at takes
      obtain ⟨both, laid, rfl⟩ := Option.map_eq_some_iff.mp takes
      exact ih (differ.of_get? found) laid leadsBelow leadsAbove

theorem winsWhereGiven_of_overlay? (differ : (Value.object update).KeysDiffer)
    (laid : overlay? base update = some merged) : WinsWhereGiven base update merged where
  given _ _ leads flat apart := at?_of_given differ laid leads flat apart
  kept _ _ _ _ leadsBelow leadsAbove missing :=
    at?_concat_of_missing differ laid leadsBelow leadsAbove missing

end Path

/-! ## Where there is no result -/

section Stuck

variable {base update merged : Mapping} {key : Scalar} {value : Value}

theorem overlay?_eq_none_iff_exists (distinct : update.Distinct) :
    overlay? base update = none ↔ ∃ key value, update.get? key = some value ∧
      overlayValue? key (base.get? key) value = none := by
  induction update generalizing base with
  | nil =>
      refine iff_of_false (Option.some_ne_none base) ?_
      rintro ⟨key, value, found, -⟩
      exact Option.some_ne_none value found.symm
  | cons field update ih =>
      obtain ⟨k, v⟩ := field
      obtain ⟨differ, distinct⟩ := List.pairwise_cons.mp distinct
      have first : Mapping.get? ((k, v) :: update) k = some v := by
        rw [Mapping.get?_cons, if_pos (Scalar.alike_self k)]
      unfold overlay?
      cases takes : overlayValue? k (base.get? k) v with
      | none => exact iff_of_true rfl ⟨k, v, first, takes⟩
      | some new =>
          refine (ih distinct).trans (exists₂_congr fun key value => ?_)
          rw [Mapping.get?_cons]
          by_cases same : k.alike key = true
          · -- The first field is not stuck, and no later one has its key.
            have missing : Mapping.get? update key = none := by
              rw [← Mapping.get?_congr update same]
              by_contra present
              obtain ⟨value, found⟩ := Option.ne_none_iff_exists'.mp present
              obtain ⟨other, member, also⟩ := Mapping.exists_mem_of_get? found
              rw [Mapping.alike_comm] at also
              exact Bool.false_ne_true ((differ _ member).symm.trans also)
            rw [missing, if_pos same]
            refine iff_of_false (fun both => Option.some_ne_none _ both.1.symm) ?_
            rintro ⟨found, stuck⟩
            cases found
            rw [← overlayValue?_congr same, ← Mapping.get?_congr base same, takes] at stuck
            exact Option.some_ne_none new stuck
          · rw [if_neg same, Mapping.get?_set_of_not_alike base new (eq_false_of_ne_true same)]

theorem MeetTold.inside {below above : Mapping} (told : MeetTold base update)
    (stands : base.get? key = some (.object below))
    (found : update.get? key = some (.object above)) : MeetTold below above := by
  rintro known entries ⟨path, leadsBelow, leadsAbove⟩
  refine told known entries ⟨key :: path, ?_, ?_⟩
  · rw [List.cons_append, Value.at?_cons_of_get? stands, leadsBelow]
  · rw [List.cons_append, Value.at?_cons_of_get? found, leadsAbove]

/-- Laying a value over another does not get stuck when nothing inside does. -/
theorem exists_overlayValue? {old : Option Value}
    (lists : ∀ known entries, key = detectorsKey → old = some (.list known) →
      value = .list entries → languagesAreTold known = true ∧ languagesAreTold entries = true)
    (objects : ∀ below above, old = some (.object below) → value = .object above →
      ∃ both, overlay? below above = some both) :
    ∃ new, overlayValue? key old value = some new := by
  by_cases flat : value.isObject = false
  · by_cases meet : key = detectorsKey ∧ ∃ known entries, old = some (.list known) ∧
      value = .list entries
    · obtain ⟨here, known, entries, rfl, rfl⟩ := meet
      obtain ⟨toldBelow, told⟩ := lists known entries here rfl rfl
      rw [overlayValue?, if_pos here, overlayEntries?_of_told toldBelow told]
      exact ⟨_, rfl⟩
    · cases value with
      | object above => exact absurd flat.symm Bool.false_ne_true
      | list entries =>
          rcases old with _ | ⟨_ | known | _ | _ | _⟩
          case some.list =>
            rw [overlayValue?, if_neg fun here => meet ⟨here, known, entries, rfl, rfl⟩]
            exact ⟨_, rfl⟩
          all_goals exact ⟨_, rfl⟩
      | _ => exact ⟨_, rfl⟩
  · cases value with
    | object above =>
        by_cases object : ∃ below, old = some (.object below)
        · obtain ⟨below, rfl⟩ := object
          obtain ⟨both, laid⟩ := objects below above rfl rfl
          rw [overlayValue?, laid]
          exact ⟨_, rfl⟩
        · exact ⟨_, overlayValue?_object_of_ne above (not_exists.mp object)⟩
    | again isList => exact ⟨_, rfl⟩
    | _ => exact absurd rfl flat

theorem exists_overlay?_of_meetTold (differ : (Value.object update).KeysDiffer)
    (told : MeetTold base update) : ∃ merged, overlay? base update = some merged := by
  induction update using Mapping.induction generalizing base with
  | step update ih =>
      rw [← Option.ne_none_iff_exists', Ne, overlay?_eq_none_iff_exists differ.distinct]
      rintro ⟨key, value, found, stuck⟩
      obtain ⟨new, takes⟩ : ∃ new, overlayValue? key (base.get? key) value = some new := by
        apply exists_overlayValue?
        · rintro known entries rfl stands rfl
          refine told known entries ⟨[], ?_, ?_⟩
          · rw [List.nil_append, Value.at?_singleton, stands]
          · rw [List.nil_append, Value.at?_singleton, found]
        · rintro below above stands rfl
          exact ih key above found (differ.of_get? found) (told.inside stands found)
      nomatch stuck.symm.trans takes

theorem meetTold_of_overlay? (differ : (Value.object update).KeysDiffer)
    (laid : overlay? base update = some merged) : MeetTold base update := by
  rintro known entries ⟨path, leadsBelow, leadsAbove⟩
  induction path generalizing base update merged with
  | nil =>
      rw [List.nil_append, Value.at?_singleton] at leadsBelow leadsAbove
      obtain ⟨new, takes, -⟩ := exists_of_overlay?_of_get? differ.distinct laid leadsAbove
      rw [leadsBelow, overlayValue?, if_pos rfl] at takes
      obtain ⟨both, merges, -⟩ := Option.map_eq_some_iff.mp takes
      unfold overlayEntries? at merges
      split at merges
      · next told => exact Bool.and_eq_true_iff.mp told
      · exact absurd merges.symm (Option.some_ne_none _)
  | cons key path ih =>
      obtain ⟨_, next, ⟨⟩, found, leadsAbove⟩ := Value.exists_of_at?_cons leadsAbove
      obtain ⟨_, old, ⟨⟩, stands, leadsBelow⟩ := Value.exists_of_at?_cons leadsBelow
      obtain ⟨below, rfl⟩ := Value.exists_object_of_at?_concat leadsBelow
      obtain ⟨above, rfl⟩ := Value.exists_object_of_at?_concat leadsAbove
      obtain ⟨new, takes, -⟩ := exists_of_overlay?_of_get? differ.distinct laid found
      rw [stands, overlayValue?] at takes
      obtain ⟨both, laid, -⟩ := Option.map_eq_some_iff.mp takes
      exact ih (differ.of_get? found) laid leadsBelow leadsAbove

end Stuck

/-! ## The result -/

/-- Laid over another mapping, a mapping wins exactly where it gives something, unless two lists of
detectors meet and the language of an entry cannot be told apart: then there is no result. -/
theorem wins_where_given_iff {base update : Mapping}
    (differ : (Value.object update).KeysDiffer) :
    ((∃ merged, overlay? base update = some merged ∧ WinsWhereGiven base update merged) ↔
        MeetTold base update) ∧
      (¬ MeetTold base update → overlay? base update = none) := by
  refine ⟨⟨?_, fun told => ?_⟩, fun untold => ?_⟩
  · rintro ⟨merged, laid, -⟩
    exact meetTold_of_overlay? differ laid
  · obtain ⟨merged, laid⟩ := exists_overlay?_of_meetTold differ told
    exact ⟨merged, laid, winsWhereGiven_of_overlay? differ laid⟩
  · by_contra some
    obtain ⟨merged, laid⟩ := Option.ne_none_iff_exists'.mp some
    exact untold (meetTold_of_overlay? differ laid)

/-- A mapping is merged at every depth, with an object over a text, a list over an object and a list
over a list on its way. -/
theorem wins_where_given_at_depth :
    let base : Mapping := [
      ("a", .object [("b", .object [("c", .int 1)]), ("d", .int 2)]), ("e", .text "f"),
      (detectorsKey, .list [.object [("lang", .text "go")]])]
    let update : Mapping := [
      ("e", .object [("g", .int 3)]), ("a", .object [("b", .list [])]),
      (detectorsKey, .list [.object [("lang", .text "c")]])]
    (Value.object update).KeysDiffer ∧ MeetTold base update ∧
      ∃ merged, overlay? base update = some merged ∧
        (Value.object merged).at? ["a", "b"] = some (.list []) ∧
        (Value.object merged).at? ["a", "d"] = some (.int 2) ∧
        (Value.object merged).at? ["e", "g"] = some (.int 3) := by
  intro base update
  have single {key : Scalar} {value : Value} (flat : value.isObject = false) :
      (Value.object [(key, value)]).KeysDiffer :=
    Value.keysDiffer_object (List.pairwise_singleton _ _)
      (List.forall_mem_singleton.mpr (Value.keysDiffer_of_flat flat))
  have differ : (Value.object update).KeysDiffer := by
    refine Value.keysDiffer_object (by decide +kernel) ?_
    refine List.forall_mem_cons.mpr ⟨single rfl, List.forall_mem_cons.mpr ⟨single rfl, ?_⟩⟩
    exact List.forall_mem_singleton.mpr (Value.keysDiffer_of_flat rfl)
  have laid : (overlay? base update).isSome = true := by decide +kernel
  obtain ⟨merged, laid⟩ := Option.isSome_iff_exists.mp laid
  have told : MeetTold base update := meetTold_of_overlay? differ laid
  obtain ⟨merged, laid, wins⟩ := (wins_where_given_iff differ).1.mpr told
  refine ⟨differ, told, merged, laid, ?_, ?_, ?_⟩
  · exact wins.given _ _ rfl rfl fun meet => by nomatch meet.1
  · exact wins.kept ["a"] "d" _ _ rfl rfl rfl
  · exact wins.given _ _ rfl rfl fun meet => by nomatch meet.1

/-- A list for a language, where lists of detectors meet, leaves nothing of what else is given. -/
theorem not_wins_where_given_of_listed_language :
    let base : Mapping := [(detectorsKey, .list []), ("a", .int 1)]
    let update : Mapping := [
      (detectorsKey, .list [.object [("lang", .list [])]]), ("a", .int 2)]
    (Value.object update).at? ["a"] = some (.int 2) ∧
      ¬ ∃ merged, overlay? base update = some merged ∧ WinsWhereGiven base update merged := by
  intro base update
  have none : overlay? base update = none := by decide +kernel
  refine ⟨rfl, ?_⟩
  rintro ⟨merged, laid, -⟩
  nomatch none.symm.trans laid

end SymbolJump.Settings
