/-
# Laying a mapping over another again

Once a mapping has been laid over another, laying it over the result changes nothing, not even the
order of keys or of detectors. At a field this says that the value which came out is the one that
comes out of it again. Where an object took the place of something else, the object meets itself,
and that is no case of its own: what comes out of the empty mapping is the object itself.

For lists of detectors the result agrees with the second list on the last entry for each language,
and this is all that matters when the second list comes again. It matters too that every entry of it
is for a language: an entry for none would be added each time.
-/
import SymbolJump.Proofs.GivenValues

namespace SymbolJump

namespace Settings

/-- An entry for a language that can be told apart. -/
def IsForLanguage (entry : Value) : Prop :=
  ∃ (fields : Mapping) (language : Scalar), entry = .object fields ∧
    fields.getOrNull "lang" = .scalar language ∧ language ≠ .null

/-- A list agrees with another on the last entry for each language of the other. -/
def Covers (base update : List Value) : Prop :=
  ∀ key entry, lastFor? key update = some entry → lastFor? key base = some entry

section Lists

variable {key : Scalar.Worth} {entry : Value} {base entries update placed : List Value}

theorem IsForLanguage.exists_key (for_ : IsForLanguage entry) :
    ∃ language : Scalar, entryLanguage? entry = some (.scalar language) ∧
      languageKey? entry = some language.worth := by
  obtain ⟨fields, language, rfl, names, given⟩ := for_
  have here : entryLanguage? (.object fields) = some (.scalar language) := by
    rw [entryLanguage?, names]
    cases language with
    | null => exact absurd rfl given
    | _ => rfl
  exact ⟨language, here, by rw [languageKey?, here]⟩

theorem languagesAreTold_of_forLanguages (for_ : ∀ entry ∈ update, IsForLanguage entry) :
    languagesAreTold update = true := by
  refine List.all_eq_true.mpr fun entry member => ?_
  obtain ⟨language, here, -⟩ := (for_ entry member).exists_key
  rw [here]
  rfl

theorem hasLanguage_iff_lastFor? :
    HasLanguage entries key ↔ ∃ entry, lastFor? key entries = some entry := by
  rw [← Option.ne_none_iff_exists', lastFor?, Ne, List.getLast?_eq_none_iff,
    List.filter_eq_nil_iff]
  simp [HasLanguage]

theorem lastFor?_append (front back : List Value) :
    lastFor? key (front ++ back) = (lastFor? key back).or (lastFor? key front) := by
  rw [lastFor?, List.filter_append, List.getLast?_append, lastFor?, lastFor?]

/-- An entry that was placed is the last one for its language, and the last entries for all other
languages stay. -/
theorem Places.lastFor? (places : Places entries entry placed) (key : Scalar.Worth) :
    lastFor? key placed = (Settings.lastFor? key [entry]).or (Settings.lastFor? key entries) := by
  cases places with
  | last => exact lastFor?_append entries [entry]
  | @inPlace front back old language cut same for_ others =>
      have missing : Settings.lastFor? language back = none := by
        by_contra some
        exact others (hasLanguage_iff_lastFor?.mpr (Option.ne_none_iff_exists'.mp some))
      rw [cut, lastFor?_append, lastFor?_append]
      by_cases here : language = key
      · cases here
        rw [lastFor?_cons_self same, lastFor?_cons_self same, lastFor?_cons_self for_, missing]
        rfl
      · have other {value : Value} (for_ : languageKey? value = some language) :
            languageKey? value ≠ some key := by
          rw [for_]
          exact fun same => here (Option.some.inj same)
        rw [lastFor?_cons_of_ne (other same), lastFor?_cons_of_ne (other same),
          lastFor?_cons_of_ne (other for_)]
        rfl

theorem Places.mem {value : Value} (places : Places entries entry placed)
    (member : value ∈ placed) : value ∈ entries ∨ value = entry := by
  cases places with
  | last =>
      rcases List.mem_append.mp member with before | last
      · exact .inl before
      · exact .inr (List.mem_singleton.mp last)
  | inPlace cut =>
      rw [cut]
      simp only [List.mem_append, List.mem_cons] at member ⊢
      tauto

/-- Laid over a list, another one decides the last entry for each of its languages. -/
theorem covers_foldl_placeEntry (told : languagesAreTold update = true) (base : List Value) :
    Covers (update.foldl placeEntry base) update := by
  suffices ∀ key, lastFor? key (update.foldl placeEntry base) =
      (lastFor? key update).or (lastFor? key base) by
    intro key entry last
    rw [this key, last]
    rfl
  intro key
  induction update generalizing base with
  | nil => rfl
  | cons entry update ih =>
      have places := places_placeEntry told base
      have toldRest : languagesAreTold update = true := (Bool.and_eq_true_iff.mp told).2
      rw [List.foldl_cons, ih toldRest, places.lastFor? key, ← Option.or_assoc,
        ← lastFor?_append, List.singleton_append]

theorem languagesAreTold_foldl (toldBase : languagesAreTold base = true)
    (told : languagesAreTold update = true) :
    languagesAreTold (update.foldl placeEntry base) = true := by
  induction update generalizing base with
  | nil => exact toldBase
  | cons entry update ih =>
      have places := places_placeEntry told base
      obtain ⟨here, toldRest⟩ := Bool.and_eq_true_iff.mp told
      refine ih (List.all_eq_true.mpr fun value member => ?_) toldRest
      rcases places.mem member with before | rfl
      · exact List.all_eq_true.mp toldBase value before
      · exact here

theorem renewed_eq_self (covers : ∀ key, HasLanguage entries key →
      ∀ entry, lastFor? key update = some entry → lastFor? key entries = some entry) :
    renewed update entries = entries := by
  induction entries with
  | nil => rfl
  | cons entry later ih =>
      have rest : renewed update later = later := by
        refine ih fun key has last same => ?_
        have whole := covers key (hasLanguage_cons_iff.mpr (.inr has)) last same
        obtain ⟨other, found⟩ := hasLanguage_iff_lastFor?.mp has
        rw [← List.singleton_append, lastFor?_append, found] at whole
        exact found.trans whole
      have here : renewal update later entry = entry := by
        unfold renewal
        split
        · rfl
        · next key for_ =>
          split
          · rfl
          · next last =>
            have missing : lastFor? key later = none := by
              by_contra some
              exact last (hasLanguage_iff_lastFor?.mpr (Option.ne_none_iff_exists'.mp some))
            cases found : lastFor? key update with
            | none => rfl
            | some other =>
                have same := covers key (hasLanguage_cons_iff.mpr (.inl for_)) other found
                rw [lastFor?_cons_self for_, missing] at same
                exact (Option.some.inj same).symm
      rw [renewed, here, rest]

theorem added_eq_nil (for_ : ∀ entry ∈ update, ∃ key, languageKey? entry = some key ∧
    HasLanguage base key) : added base update = [] := by
  induction update generalizing base with
  | nil => rfl
  | cons entry update ih =>
      obtain ⟨⟨key, same, has⟩, others⟩ := List.forall_mem_cons.mp for_
      have rest : added (entry :: base) update = [] := by
        refine ih fun other member => ?_
        obtain ⟨key, same, has⟩ := others other member
        exact ⟨key, same, hasLanguage_cons_iff.mpr (.inr has)⟩
      rw [added, addition?, same, rest]
      simp only [if_pos has, Option.toList_none, List.append_nil]

/-- A list that agrees with another on the last entries is not changed by it. -/
theorem overlayEntries?_of_covers (told : languagesAreTold base = true)
    (for_ : ∀ entry ∈ update, IsForLanguage entry) (covers : Covers base update) :
    overlayEntries? base update = some base := by
  have present : ∀ entry ∈ update, ∃ key, languageKey? entry = some key ∧
      HasLanguage base key := by
    intro entry member
    obtain ⟨language, -, same⟩ := (for_ entry member).exists_key
    obtain ⟨last, found⟩ := hasLanguage_iff_lastFor?.mp ⟨entry, member, same⟩
    exact ⟨_, same, hasLanguage_iff_lastFor?.mpr ⟨last, covers _ _ found⟩⟩
  rw [overlayEntries?_of_told told (languagesAreTold_of_forLanguages for_),
    renewed_eq_self fun key _ => covers key, added_eq_nil present, List.append_nil]

theorem overlayEntries?_again {both : List Value}
    (for_ : ∀ entry ∈ update, IsForLanguage entry)
    (laid : overlayEntries? base update = some both) : overlayEntries? both update = some both := by
  have told := languagesAreTold_of_forLanguages for_
  unfold overlayEntries? at laid
  split at laid
  · next tellable =>
    obtain ⟨toldBase, -⟩ := Bool.and_eq_true_iff.mp tellable
    cases laid
    exact overlayEntries?_of_covers (languagesAreTold_foldl toldBase told) for_
      (covers_foldl_placeEntry told base)
  · nomatch laid

end Lists

/-- The lists of detectors in a value, at whatever depth, are of a sort. -/
def DetectorsAre (sort : List Value → Prop) (value : Value) : Prop :=
  ∀ path entries, value.at? (path ++ [detectorsKey]) = some (.list entries) → sort entries

/-- The entries of the lists of detectors in a value are for languages that can be told apart. -/
def NamesLanguages (value : Value) : Prop :=
  DetectorsAre (fun entries => ∀ entry ∈ entries, IsForLanguage entry) value

section Mappings

variable {base update merged : Mapping} {key : Scalar} {value new : Value}
  {sort : List Value → Prop}

theorem DetectorsAre.of_get? {entries : List Value} (are : DetectorsAre sort (.object update))
    (found : update.get? detectorsKey = some (.list entries)) : sort entries :=
  are [] entries ((Value.at?_singleton _ _).trans found)

theorem DetectorsAre.inside (are : DetectorsAre sort (.object update))
    (found : update.get? key = some value) : DetectorsAre sort value := by
  intro path entries leads
  refine are (key :: path) entries ?_
  rw [List.cons_append, Value.at?_cons_of_get? found, leads]

theorem detectorsAre_of_flat (flat : value.isObject = false) : DetectorsAre sort value := by
  intro path entries leads
  obtain ⟨fields, rfl⟩ := Value.exists_object_of_at?_concat leads
  nomatch flat

theorem detectorsAre_object
    (here : ∀ entries, update.get? detectorsKey = some (.list entries) → sort entries)
    (inside : ∀ field ∈ update, DetectorsAre sort field.2) :
    DetectorsAre sort (.object update) := by
  rintro (_ | ⟨key, path⟩) entries leads
  · rw [List.nil_append, Value.at?_singleton] at leads
    exact here entries leads
  · obtain ⟨_, next, ⟨⟩, found, leads⟩ := Value.exists_of_at?_cons leads
    obtain ⟨k, member, -⟩ := Mapping.exists_mem_of_get? found
    exact inside _ member path entries leads

/-- Fields that find their values where they go change nothing. -/
theorem overlay?_of_settled
    (settled : ∀ field ∈ update, ∃ value, base.get? field.1 = some value ∧
      overlayValue? field.1 (some value) field.2 = some value) :
    overlay? base update = some base := by
  induction update with
  | nil => rfl
  | cons field update ih =>
      obtain ⟨⟨value, there, same⟩, others⟩ := List.forall_mem_cons.mp settled
      unfold overlay?
      rw [there, same, Option.bind_eq_bind, Option.bind_some, Mapping.set_of_get? there]
      exact ih others

/-- Over nothing, a mapping comes out as it is. -/
theorem overlay?_nil (distinct : update.Distinct) : overlay? [] update = some update := by
  suffices ∀ base : Mapping, (∀ field ∈ update, base.get? field.1 = none) →
      overlay? base update = some (base ++ update) from
    this [] fun _ _ => rfl
  intro base fresh
  induction update generalizing base with
  | nil => rw [overlay?, List.append_nil]
  | cons field update ih =>
      obtain ⟨key, value⟩ := field
      obtain ⟨missing, others⟩ := List.forall_mem_cons.mp fresh
      obtain ⟨differ, distinct⟩ := List.pairwise_cons.mp distinct
      have takes : overlayValue? key none value = some value := by
        cases value <;> rfl
      unfold overlay?
      rw [missing, takes, Option.bind_eq_bind, Option.bind_some,
        Mapping.set_of_get?_eq_none missing, ih distinct, List.append_assoc,
        List.singleton_append]
      intro field member
      rw [Mapping.get?_append, others field member, Option.none_or, Mapping.get?_cons,
        differ field member]
      rfl

/-- A value that came out of a field comes out of it again, if that is so of the objects in it. -/
theorem overlayValue?_again {old : Option Value}
    (differ : value.KeysDiffer)
    (for_ : ∀ entries, key = detectorsKey → value = .list entries →
      ∀ entry ∈ entries, IsForLanguage entry)
    (again : ∀ above base merged, value = .object above → overlay? base above = some merged →
      overlay? merged above = some merged)
    (takes : overlayValue? key old value = some new) :
    overlayValue? key (some new) value = some new := by
  cases value with
  | object above =>
      by_cases object : ∃ below, old = some (.object below)
      · obtain ⟨below, rfl⟩ := object
        rw [overlayValue?] at takes
        obtain ⟨both, laid, rfl⟩ := Option.map_eq_some_iff.mp takes
        rw [overlayValue?, again above below both rfl laid, Option.map_some]
      · rw [overlayValue?_object_of_ne above (not_exists.mp object)] at takes
        cases takes
        rw [overlayValue?, again above [] above rfl (overlay?_nil differ.distinct),
          Option.map_some]
  | list entries =>
      by_cases here : key = detectorsKey
      · have for_ := for_ entries here rfl
        have self : overlayEntries? entries entries = some entries :=
          overlayEntries?_of_covers (languagesAreTold_of_forLanguages for_) for_
            fun _ _ => id
        rcases old with _ | ⟨_ | known | _ | _⟩
        case some.list =>
          rw [overlayValue?, if_pos here] at takes
          obtain ⟨both, laid, rfl⟩ := Option.map_eq_some_iff.mp takes
          rw [overlayValue?, if_pos here, overlayEntries?_again for_ laid, Option.map_some]
        all_goals
          cases takes
          rw [overlayValue?, if_pos here, self, Option.map_some]
      · rw [overlayValue?_of_given rfl fun meet => here meet.1] at takes ⊢
        exact takes
  | _ => exact takes

theorem overlay?_of_overlay? (differ : (Value.object update).KeysDiffer)
    (names : NamesLanguages (.object update)) (laid : overlay? base update = some merged) :
    overlay? merged update = some merged := by
  induction update using Mapping.induction generalizing base merged with
  | step update ih =>
      refine overlay?_of_settled fun field member => ?_
      obtain ⟨key, value⟩ := field
      have found := Mapping.get?_eq_some_of_mem differ.distinct member
      obtain ⟨new, takes, there⟩ := exists_of_overlay? differ.distinct laid member
      refine ⟨new, there, overlayValue?_again (differ.of_get? found) ?_ ?_ takes⟩
      · rintro entries rfl rfl
        exact DetectorsAre.of_get? names found
      · rintro above base merged rfl laid
        exact ih key above found (differ.of_get? found) (DetectorsAre.inside names found) laid

/-- Laying a mapping over another a second time changes nothing, if the entries of its lists of
detectors are for languages and those of the other can be told apart. -/
theorem overlay_settles (differ : (Value.object update).KeysDiffer)
    (told : DetectorsAre (fun known => languagesAreTold known = true) (.object base))
    (names : NamesLanguages (.object update)) :
    ∃ merged, overlay? base update = some merged ∧ overlay? merged update = some merged := by
  have meet : MeetTold base update := by
    rintro known entries ⟨path, below, above⟩
    exact ⟨told path known below, languagesAreTold_of_forLanguages (names path entries above)⟩
  obtain ⟨merged, laid⟩ := exists_overlay?_of_meetTold differ meet
  exact ⟨merged, laid, overlay?_of_overlay? differ names laid⟩

end Mappings

/-- Languages come up repeatedly on both sides, below a key, and an object with a list of detectors
takes the place of a number. -/
theorem overlay_settles_of_repeated :
    let entry (language glob : String) : Value :=
      .object [("lang", .text language), ("glob", .text glob)]
    let list (globs : List (String × String)) : Value :=
      .object [(detectorsKey, .list (globs.map fun (language, glob) => entry language glob))]
    let base : Mapping := [
      ("a", .object [(detectorsKey, .list [entry "go" "1", .null, entry "go" "2"])]), ("b", .int 1)]
    let update : Mapping := [
      ("b", list [("c", "3"), ("c", "4")]), ("a", list [("c", "5"), ("go", "6"), ("c", "7")])]
    let merged : Mapping := [
      ("a", .object [(detectorsKey,
        .list [entry "go" "1", .null, entry "go" "6", entry "c" "7"])]),
      ("b", list [("c", "3"), ("c", "4")])]
    (Value.object update).KeysDiffer ∧
      DetectorsAre (fun known => languagesAreTold known = true) (.object base) ∧
      NamesLanguages (.object update) ∧
      overlay? base update = some merged ∧ overlay? merged update = some merged := by
  intro entry list base update merged
  have differ : (Value.object update).KeysDiffer := by
    have single (globs : List (String × String)) : (list globs).KeysDiffer :=
      Value.keysDiffer_object (List.pairwise_singleton _ _)
        (List.forall_mem_singleton.mpr (Value.keysDiffer_of_flat rfl))
    refine Value.keysDiffer_object (by decide +kernel) ?_
    exact List.forall_mem_cons.mpr ⟨single _, List.forall_mem_singleton.mpr (single _)⟩
  have told : DetectorsAre (fun known => languagesAreTold known = true) (.object base) := by
    refine detectorsAre_object (fun _ found => nomatch found) (List.forall_mem_cons.mpr
      ⟨detectorsAre_object ?_ ?_, List.forall_mem_singleton.mpr (detectorsAre_of_flat rfl)⟩)
    · rintro _ ⟨⟩
      decide +kernel
    · exact List.forall_mem_singleton.mpr (detectorsAre_of_flat rfl)
  have names : NamesLanguages (.object update) := by
    have single (globs : List (String × String)) : NamesLanguages (list globs) := by
      refine detectorsAre_object ?_ (List.forall_mem_singleton.mpr (detectorsAre_of_flat rfl))
      rintro _ ⟨⟩ _ member
      obtain ⟨⟨language, glob⟩, -, rfl⟩ := List.mem_map.mp member
      exact ⟨_, .text language, rfl, rfl, nofun⟩
    refine detectorsAre_object (fun _ found => nomatch found) ?_
    exact List.forall_mem_cons.mpr ⟨single _, List.forall_mem_singleton.mpr (single _)⟩
  have laid : overlay? base update = some merged := by decide +kernel
  obtain ⟨other, same, again⟩ := overlay_settles differ told names
  cases laid.symm.trans same
  exact ⟨differ, told, names, laid, again⟩

end Settings

end SymbolJump
