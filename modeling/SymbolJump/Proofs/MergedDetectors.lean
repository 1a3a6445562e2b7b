/-
# Merged lists of detectors

Laying a list of detectors over another goes through the entries one by one, and each changes what
the next one meets. What comes out is said here of the two lists alone. The entries of the first
list stay in their places; only the last one for each language gives way, to the last entry for it
in the second list. Behind them come the entries of the second list that have no place there, in
their order: every entry for no language, and for each new language one entry, where the language
comes up first, and worth what its last entry is.

The proof takes the first entry off the second list. Either it is the last one for its language so
far, at the place it takes, or it stands at the end, and a later entry for its language finds it
there.
-/
import SymbolJump.Proofs.RefusedConfigurations

namespace SymbolJump

namespace Settings

/-! ## Languages of entries -/

/-- What tells the language of an entry apart, when it has one that can be told apart. -/
def languageKey? (entry : Value) : Option Scalar.Worth :=
  match entryLanguage? entry with
  | some (.scalar language) => some language.worth
  | _ => none

/-- A list has an entry for a language. -/
def HasLanguage (entries : List Value) (key : Scalar.Worth) : Prop :=
  ∃ entry ∈ entries, languageKey? entry = some key

instance (entries : List Value) (key : Scalar.Worth) : Decidable (HasLanguage entries key) :=
  inferInstanceAs (Decidable (∃ entry ∈ entries, _))

/-- The last entry for a language. -/
def lastFor? (key : Scalar.Worth) (entries : List Value) : Option Value :=
  (entries.filter fun entry => languageKey? entry = some key).getLast?

/-- What becomes of an entry with others behind it: the last entry for a language gives way to the
last one for it in the other list, if there is one. -/
def renewal (update later : List Value) (entry : Value) : Value :=
  match languageKey? entry with
  | none => entry
  | some key => if HasLanguage later key then entry else (lastFor? key update).getD entry

/-- A list whose entries give way to those of another. -/
def renewed (update : List Value) : List Value → List Value
  | [] => []
  | entry :: later => renewal update later entry :: renewed update later

/-- What an entry adds to others: itself when it is for no language, and when it is the first for a
language, the last one for it. -/
def addition? (earlier later : List Value) (entry : Value) : Option Value :=
  match languageKey? entry with
  | none => some entry
  | some key =>
      if HasLanguage earlier key then none else some ((lastFor? key later).getD entry)

/-- What the entries of a list add, behind others. -/
def added (earlier : List Value) : List Value → List Value
  | [] => []
  | entry :: later => (addition? earlier later entry).toList ++ added (entry :: earlier) later

section Languages

variable {key : Scalar.Worth} {entry other : Value} {entries more update later : List Value}

theorem hasLanguage_cons_iff :
    HasLanguage (entry :: entries) key ↔ languageKey? entry = some key ∨ HasLanguage entries key :=
  List.exists_mem_cons_iff _ _ _

theorem hasLanguage_append_iff :
    HasLanguage (entries ++ more) key ↔ HasLanguage entries key ∨ HasLanguage more key := by
  simp only [HasLanguage, List.mem_append, or_and_right, exists_or]

theorem lastFor?_cons_of_ne (other : languageKey? entry ≠ some key) :
    lastFor? key (entry :: entries) = lastFor? key entries := by
  rw [lastFor?, List.filter_cons_of_neg (by simpa using other), lastFor?]

theorem lastFor?_cons_self (same : languageKey? entry = some key) :
    lastFor? key (entry :: entries) = some ((lastFor? key entries).getD entry) := by
  rw [lastFor?, List.filter_cons_of_pos (by simpa using same), List.getLast?_cons, lastFor?]

/-- An entry for a language that can be told apart stands for it alone. -/
theorem isEntryFor_iff (language : Scalar) (entry : Value) :
    isEntryFor (.scalar language) entry = true ↔ languageKey? entry = some language.worth := by
  unfold isEntryFor languageKey?
  cases entryLanguage? entry with
  | none => simp
  | some other => cases other <;> simp [Value.alike, Scalar.alike]

theorem languageKey?_of_told (told : languagesAreTold entries = true) (member : entry ∈ entries) :
    (entryLanguage? entry = none ∧ languageKey? entry = none) ∨
      ∃ language : Scalar, entryLanguage? entry = some (.scalar language) ∧
        languageKey? entry = some language.worth := by
  have here := List.all_eq_true.mp told entry member
  unfold languageKey?
  cases language : entryLanguage? entry with
  | none => exact .inl ⟨rfl, rfl⟩
  | some value =>
      rw [language] at here
      cases value with
      | scalar value => exact .inr ⟨value, rfl, rfl⟩
      | _ => nomatch here

end Languages

/-! ## One entry -/

theorem replaceLast?_eq_none_iff {p : Value → Bool} {item : Value} {items : List Value} :
    replaceLast? p item items = none ↔ ∀ x ∈ items, p x = false := by
  induction items with
  | nil => simp [replaceLast?]
  | cons x rest ih =>
      rw [replaceLast?, List.forall_mem_cons, ← ih]
      cases replaceLast? p item rest with
      | some replaced => simp
      | none => cases p x <;> simp

theorem exists_of_replaceLast? {p : Value → Bool} {item : Value} {items replaced : List Value}
    (found : replaceLast? p item items = some replaced) :
    ∃ front x back, items = front ++ x :: back ∧ replaced = front ++ item :: back ∧
      p x = true ∧ ∀ y ∈ back, p y = false := by
  induction items generalizing replaced with
  | nil => exact absurd found.symm (Option.some_ne_none _)
  | cons x rest ih =>
      rw [replaceLast?] at found
      cases later : replaceLast? p item rest with
      | some inner =>
          rw [later] at found
          obtain ⟨front, y, back, rfl, rfl, passes, others⟩ := ih later
          cases found
          exact ⟨x :: front, y, back, rfl, rfl, passes, others⟩
      | none =>
          rw [later] at found
          dsimp only at found
          split at found
          · next passes =>
            cases found
            exact ⟨[], x, rest, rfl, rfl, passes, replaceLast?_eq_none_iff.mp later⟩
          · exact absurd found.symm (Option.some_ne_none _)

/-- What laying one entry over a list does: an entry for a language takes the place of the last one
for it, and any other entry goes to the end. -/
inductive Places (entries : List Value) (entry : Value) : List Value → Prop
  | last (unplaced : ∀ key, languageKey? entry = some key → ¬ HasLanguage entries key) :
      Places entries entry (entries ++ [entry])
  | inPlace {front back : List Value} {old : Value} {key : Scalar.Worth}
      (cut : entries = front ++ old :: back) (same : languageKey? entry = some key)
      (for_ : languageKey? old = some key) (others : ¬ HasLanguage back key) :
      Places entries entry (front ++ entry :: back)

section Placing

variable {base entries update : List Value} {entry : Value}

theorem places_placeEntry (told : languagesAreTold (entry :: update) = true)
    (entries : List Value) : Places entries entry (placeEntry entries entry) := by
  unfold placeEntry
  rcases languageKey?_of_told told List.mem_cons_self with ⟨none, key⟩ | ⟨language, some, key⟩
  · rw [none]
    exact .last fun other same => nomatch key.symm.trans same
  rw [some]
  dsimp only
  cases found : replaceLast? (isEntryFor (.scalar language)) entry entries with
  | none =>
      refine .last fun other same => ?_
      rintro ⟨old, member, for_⟩
      rw [← same, key, ← isEntryFor_iff] at for_
      nomatch for_.symm.trans (replaceLast?_eq_none_iff.mp found old member)
  | some replaced =>
      obtain ⟨front, old, back, cut, rfl, for_, others⟩ := exists_of_replaceLast? found
      refine .inPlace cut key ((isEntryFor_iff _ _).mp for_) ?_
      rintro ⟨other, member, also⟩
      nomatch ((isEntryFor_iff _ _).mpr also).symm.trans (others other member)

/-! ## What becomes of entries -/

/-- What becomes of an entry depends on the languages behind it. -/
theorem renewal_congr {later others : List Value} {old : Value}
    (same : ∀ key, languageKey? old = some key → (HasLanguage later key ↔ HasLanguage others key)) :
    renewal update later old = renewal update others old := by
  unfold renewal
  split
  · rfl
  · next key here => simp only [same key here]

/-- One more entry in front of an update matters to entries for its language alone. -/
theorem renewal_cons_of_ne {later : List Value} {old : Value}
    (differ : ∀ key, languageKey? old = some key → ¬ HasLanguage later key →
      languageKey? entry ≠ some key) :
    renewal (entry :: update) later old = renewal update later old := by
  unfold renewal
  split
  · rfl
  · next key here =>
    split
    · rfl
    · next last => rw [lastFor?_cons_of_ne (differ key here last)]

theorem renewed_cons_of_unplaced
    (unplaced : ∀ key, languageKey? entry = some key → ¬ HasLanguage base key) :
    renewed (entry :: update) base = renewed update base := by
  induction base with
  | nil => rfl
  | cons old base ih =>
      have here : renewal (entry :: update) base old = renewal update base old :=
        renewal_cons_of_ne fun key same _ also =>
          unplaced key also (hasLanguage_cons_iff.mpr (.inl same))
      have rest := ih fun key same has => unplaced key same (hasLanguage_cons_iff.mpr (.inr has))
      rw [renewed, renewed, here, rest]

/-- Behind a list, an entry for a language that is new to it changes nothing in it. -/
theorem renewed_concat
    (unplaced : ∀ key, languageKey? entry = some key → ¬ HasLanguage base key) :
    renewed update (base ++ [entry]) = renewed update base ++ [renewal update [] entry] := by
  induction base with
  | nil => rfl
  | cons old base ih =>
      have here : renewal update (base ++ [entry]) old = renewal update base old := by
        refine renewal_congr fun key same => hasLanguage_append_iff.trans (or_iff_left ?_)
        rintro ⟨other, member, also⟩
        rw [List.mem_singleton.mp member] at also
        exact unplaced key also (hasLanguage_cons_iff.mpr (.inl same))
      have rest := ih fun key same has => unplaced key same (hasLanguage_cons_iff.mpr (.inr has))
      rw [List.cons_append, renewed, renewed, here, rest, List.cons_append]

/-- In the place of the last entry for its language, an entry is renewed as that one would be by
itself and the later entries. -/
theorem renewed_inPlace {back : List Value} {old : Value} {key : Scalar.Worth}
    (same : languageKey? entry = some key) (for_ : languageKey? old = some key)
    (others : ¬ HasLanguage back key) (front : List Value) :
    renewed update (front ++ entry :: back) =
      renewed (entry :: update) (front ++ old :: back) := by
  have swapped (front : List Value) (other : Scalar.Worth) :
      HasLanguage (front ++ entry :: back) other ↔ HasLanguage (front ++ old :: back) other := by
    rw [hasLanguage_append_iff, hasLanguage_append_iff, hasLanguage_cons_iff, hasLanguage_cons_iff,
      same, for_]
  induction front with
  | nil =>
      have behind : renewed (entry :: update) back = renewed update back := by
        apply renewed_cons_of_unplaced
        intro other also
        rwa [← Option.some.inj (same.symm.trans also)]
      have here : renewal update back entry = renewal (entry :: update) back old := by
        simp only [renewal, same, for_, if_neg others, lastFor?_cons_self same, Option.getD_some]
      rw [List.nil_append, List.nil_append, renewed, renewed, here, behind]
  | cons first front ih =>
      have here : renewal (entry :: update) (front ++ old :: back) first =
          renewal update (front ++ entry :: back) first := by
        rw [renewal_cons_of_ne, renewal_congr fun other _ => (swapped front other).symm]
        rintro other - missing also
        cases same.symm.trans also
        exact missing (hasLanguage_append_iff.mpr (.inr (hasLanguage_cons_iff.mpr (.inl for_))))
      rw [List.cons_append, List.cons_append, renewed, renewed, here, ih]

/-- What entries add depends on the languages in front of them. -/
theorem added_congr {earlier others : List Value}
    (same : ∀ key, HasLanguage earlier key ↔ HasLanguage others key) :
    added earlier update = added others update := by
  induction update generalizing earlier others with
  | nil => rfl
  | cons entry update ih =>
      have here : addition? earlier update entry = addition? others update entry := by
        simp only [addition?, same]
      have rest : added (entry :: earlier) update = added (entry :: others) update :=
        ih fun key => by rw [hasLanguage_cons_iff, hasLanguage_cons_iff, same]
      rw [added, added, here, rest]

theorem renewed_nil (base : List Value) : renewed [] base = base := by
  induction base with
  | nil => rfl
  | cons old base ih =>
      have here : renewal [] base old = old := by
        unfold renewal
        split
        · rfl
        · exact ite_self _
      rw [renewed, here, ih]

/-- An entry for a language that is new to a list adds what becomes of it at the end of the list. -/
theorem addition?_of_unplaced
    (unplaced : ∀ key, languageKey? entry = some key → ¬ HasLanguage base key) :
    addition? base update entry = some (renewal update [] entry) := by
  unfold addition? renewal
  cases here : languageKey? entry with
  | none => rfl
  | some key =>
      have empty : ¬ HasLanguage [] key := by simp [HasLanguage]
      simp only [if_neg (unplaced key here), if_neg empty]

/-- Laying entries over a list one by one renews the list and adds to it. -/
theorem foldl_placeEntry (told : languagesAreTold update = true) (base : List Value) :
    update.foldl placeEntry base = renewed update base ++ added base update := by
  induction update generalizing base with
  | nil => rw [List.foldl_nil, added, List.append_nil, renewed_nil]
  | cons entry update ih =>
      have places := places_placeEntry told base
      have toldRest : languagesAreTold update = true := (Bool.and_eq_true_iff.mp told).2
      rw [List.foldl_cons, ih toldRest]
      generalize placeEntry base entry = placed at places ⊢
      cases places with
      | last unplaced =>
          have moved : added (base ++ [entry]) update = added (entry :: base) update := by
            refine added_congr fun key => ?_
            rw [hasLanguage_append_iff, hasLanguage_cons_iff, hasLanguage_cons_iff, or_comm]
            simp [HasLanguage]
          rw [renewed_concat unplaced, renewed_cons_of_unplaced unplaced, added,
            addition?_of_unplaced unplaced, moved]
          simp
      | @inPlace front back old key cut same for_ others =>
          have taken : HasLanguage base key := by
            rw [cut]
            exact hasLanguage_append_iff.mpr (.inr (hasLanguage_cons_iff.mpr (.inl for_)))
          have nothing : addition? base update entry = none := by
            simp only [addition?, same, if_pos taken]
          have kept : added (front ++ entry :: back) update = added (entry :: base) update := by
            refine added_congr fun other => ?_
            rw [cut, hasLanguage_cons_iff, hasLanguage_append_iff, hasLanguage_append_iff,
              hasLanguage_cons_iff, hasLanguage_cons_iff, same, for_]
            grind
          rw [added, nothing, kept, renewed_inPlace same for_ others, cut]
          rfl

theorem length_renewed (update base : List Value) :
    (renewed update base).length = base.length := by
  induction base with
  | nil => rfl
  | cons old base ih => rw [renewed, List.length_cons, List.length_cons, ih]

/-! ## No language twice -/

/-- No language comes up twice in a list. -/
def LanguagesDiffer (entries : List Value) : Prop :=
  (entries.filterMap languageKey?).Nodup

theorem hasLanguage_iff_mem {key : Scalar.Worth} :
    HasLanguage entries key ↔ key ∈ entries.filterMap languageKey? :=
  List.mem_filterMap.symm

theorem Places.languagesDiffer {placed : List Value} (places : Places entries entry placed)
    (differ : LanguagesDiffer entries) : LanguagesDiffer placed := by
  cases places with
  | last unplaced =>
      unfold LanguagesDiffer at differ ⊢
      rw [List.filterMap_append]
      cases here : languageKey? entry with
      | none => rwa [List.filterMap_cons_none here, List.filterMap_nil, List.append_nil]
      | some key =>
          have fresh := unplaced key here
          rw [hasLanguage_iff_mem] at fresh
          rw [List.filterMap_cons_some here, List.filterMap_nil, ← List.concat_eq_append]
          exact differ.concat fresh
  | inPlace cut same for_ =>
      unfold LanguagesDiffer at differ ⊢
      rw [cut, List.filterMap_append, List.filterMap_cons_some for_] at differ
      rwa [List.filterMap_append, List.filterMap_cons_some same]

theorem languagesDiffer_foldl (told : languagesAreTold update = true)
    (differ : LanguagesDiffer base) : LanguagesDiffer (update.foldl placeEntry base) := by
  induction update generalizing base with
  | nil => exact differ
  | cons entry update ih =>
      have toldRest : languagesAreTold update = true := (Bool.and_eq_true_iff.mp told).2
      exact ih toldRest ((places_placeEntry told base).languagesDiffer differ)

/-- An entry for a language that the other list says nothing of stays as it is, in its place. -/
theorem getElem?_renewed_of_unmentioned {place : Nat} {key : Scalar.Worth}
    (there : base[place]? = some entry) (for_ : languageKey? entry = some key)
    (unmentioned : ¬ HasLanguage update key) : (renewed update base)[place]? = some entry := by
  induction base generalizing place with
  | nil => nomatch there
  | cons old base ih =>
      cases place with
      | zero =>
          obtain rfl := Option.some.inj there
          have none : lastFor? key update = none := by
            rw [lastFor?, List.getLast?_eq_none_iff, List.filter_eq_nil_iff]
            intro other member same
            exact unmentioned ⟨other, member, of_decide_eq_true same⟩
          rw [renewed, List.getElem?_cons_zero]
          simp only [renewal, for_, none, Option.getD_none, ite_self]
      | succ place =>
          rw [renewed, List.getElem?_cons_succ]
          exact ih there

end Placing

end Settings

/-! ## Lists under a key -/

namespace Mapping

variable {fields : Mapping} {key : Scalar} {value : Value}

theorem alike_comm (first second : Scalar) : first.alike second = second.alike first := by
  simp only [Scalar.alike, eq_comm]

theorem get?_eq_some_of_mem (distinct : fields.Distinct) (member : (key, value) ∈ fields) :
    fields.get? key = some value := by
  induction fields with
  | nil => nomatch member
  | cons field fields ih =>
      obtain ⟨k, v⟩ := field
      obtain ⟨differ, distinct⟩ := List.pairwise_cons.mp distinct
      rw [get?_cons]
      rcases List.mem_cons.mp member with same | later
      · obtain ⟨rfl, rfl⟩ := Prod.mk.inj same
        rw [if_pos (Scalar.alike_self key)]
      · have other : k.alike key = false := differ _ later
        rw [if_neg (ne_true_of_eq_false other), ih distinct later]

/-- A text is no other key. -/
theorem mem_of_get?_text {word : String} (found : fields.get? (.text word) = some value) :
    (Scalar.text word, value) ∈ fields := by
  obtain ⟨⟨k, v⟩, there, rfl⟩ := Option.map_eq_some_iff.mp found
  have same : k = .text word := by
    have passes := List.find?_some there
    have alike : k.worth = .word word := of_decide_eq_true passes
    cases k with
    | text other => rw [Scalar.Worth.word.inj alike]
    | float value => cases value <;> nomatch alike
    | _ => nomatch alike
  rw [← same]
  exact List.mem_of_find?_eq_some there

end Mapping

namespace Settings

section Overlay

variable {base update merged : Mapping} {key : Scalar} {value : Value}

/-- A key that no field is laid over keeps its value. -/
theorem get?_overlay?_of_untouched (laid : overlay? base update = some merged)
    (untouched : ∀ field ∈ update, field.1.alike key = false) :
    merged.get? key = base.get? key := by
  induction update generalizing base with
  | nil =>
      cases laid
      rfl
  | cons field update ih =>
      obtain ⟨here, others⟩ := List.forall_mem_cons.mp untouched
      obtain ⟨new, -, laid⟩ := Option.bind_eq_some_iff.mp laid
      rw [ih laid others, Mapping.get?_set_of_not_alike _ _ here]

/-- A field that is laid over a mapping decides the value under its key, with the value that was
there. -/
theorem exists_of_overlay? (distinct : update.Distinct)
    (laid : overlay? base update = some merged) (member : (key, value) ∈ update) :
    ∃ new, overlayValue? key (base.get? key) value = some new ∧ merged.get? key = some new := by
  induction update generalizing base with
  | nil => nomatch member
  | cons field update ih =>
      obtain ⟨differ, distinct⟩ := List.pairwise_cons.mp distinct
      obtain ⟨new, takes, laid⟩ := Option.bind_eq_some_iff.mp laid
      rcases List.mem_cons.mp member with rfl | later
      · refine ⟨new, takes, ?_⟩
        rw [get?_overlay?_of_untouched laid, Mapping.get?_set_self]
        intro other among
        rw [Mapping.alike_comm]
        exact differ other among
      · obtain ⟨last, takes, found⟩ := ih distinct laid later
        rw [Mapping.get?_set_of_not_alike _ _ (differ _ later)] at takes
        exact ⟨last, takes, found⟩

/-- Laid over a mapping that has one, a list of detectors is merged with it. -/
theorem get?_detectors_of_overlay? {entries known : List Value} (distinct : update.Distinct)
    (below : base.get? detectorsKey = some (.list known))
    (given : update.get? detectorsKey = some (.list entries))
    (laid : overlay? base update = some merged) :
    ∃ both, overlayEntries? known entries = some both ∧
      merged.get? detectorsKey = some (.list both) := by
  have member : (detectorsKey, .list entries) ∈ update := Mapping.mem_of_get?_text given
  obtain ⟨new, takes, found⟩ := exists_of_overlay? distinct laid member
  rw [below, overlayValue?, if_pos rfl] at takes
  obtain ⟨both, merges, rfl⟩ := Option.map_eq_some_iff.mp takes
  exact ⟨both, merges, found⟩

end Overlay

theorem overlayEntries?_of_told {base update : List Value} (toldBase : languagesAreTold base = true)
    (told : languagesAreTold update = true) :
    overlayEntries? base update = some (renewed update base ++ added base update) := by
  rw [overlayEntries?, toldBase, told, Bool.and_self, if_pos rfl, foldl_placeEntry told]

/-! ## The result -/

/-- The file at a path holds a document that a parser takes for a mapping of settings. -/
def HoldsConfig (parse : Parser) (disk : Files.Disk) (path : String) (config : Mapping) : Prop :=
  ∃ bytes text document, disk.read path = .ok bytes ∧ textIn bytes = .ok text ∧
    parse text = .ok document ∧ document.fields? listKeys.contains = some config

/-- A file with a list of detectors is loaded, and they are merged with the default ones. -/
theorem configOfFile_of_holdsConfig {parse : Parser} {disk : Files.Disk} {path : String}
    {config : Mapping} {update : List Value} (named : path ≠ "")
    (holds : HoldsConfig parse disk path config)
    (given : config.get? detectorsKey = some (.list update))
    (told : languagesAreTold update = true) :
    ∃ result, configOfFile parse disk (some path) = .ok result ∧
      result.get? detectorsKey =
        some (.list (renewed update defaultDetectors ++ added defaultDetectors update)) := by
  obtain ⟨bytes, text, document, reads, decoded, parsed, fields⟩ := holds
  have distinct := Document.distinct_of_fields? fields
  cases laid : overlay? defaultConfig config with
  | none =>
      obtain ⟨entries, member, untold⟩ :=
        (overlay?_eq_none_iff distinct (isReady_default config)).mp laid
      have same := given.symm.trans (Mapping.get?_eq_some_of_mem distinct member)
      cases same
      nomatch untold.symm.trans told
  | some result =>
      have below : Mapping.get? defaultConfig detectorsKey = some (.list defaultDetectors) := rfl
      obtain ⟨both, merges, found⟩ := get?_detectors_of_overlay? distinct below given laid
      rw [overlayEntries?_of_told (by decide +kernel) told] at merges
      cases merges
      refine ⟨result, ?_, found⟩
      rw [configOfFile_of_read reads named, decoded]
      dsimp only
      rw [parsed]
      dsimp only
      rw [configOfDocument, fields]
      dsimp only
      rw [overDefaults, laid]

/-- Lists of detectors, for languages that can be told apart or for none, are merged without a loss:
the first list is kept, up to the entries that give way to those of the second, and what is left of
the second is added. No language comes up twice that did not before, the lists may stand in any
mappings, and whatever parser reads it, a file with a list of detectors leaves every default
detector in its place for whose language the list has no entry. -/
theorem detectors_merge_by_language {base update : List Value}
    (toldBase : languagesAreTold base = true) (toldUpdate : languagesAreTold update = true) :
    overlayEntries? base update = some (renewed update base ++ added base update) ∧
      (renewed update base).length = base.length ∧
      (LanguagesDiffer base → LanguagesDiffer (renewed update base ++ added base update)) ∧
      (∀ fields config result : Mapping, config.Distinct →
        fields.get? detectorsKey = some (.list base) →
        config.get? detectorsKey = some (.list update) →
        overlay? fields config = some result →
          result.get? detectorsKey = some (.list (renewed update base ++ added base update))) ∧
      ∀ (parse : Parser) (disk : Files.Disk) (path : String) (config : Mapping), path ≠ "" →
        HoldsConfig parse disk path config → config.get? detectorsKey = some (.list update) →
          ∃ (result : Mapping) (both : List Value),
            configOfFile parse disk (some path) = .ok result ∧
            result.get? detectorsKey = some (.list both) ∧
            ∀ (place : Nat) (entry : Value) (key : Scalar.Worth),
              defaultDetectors[place]? = some entry → languageKey? entry = some key →
                ¬ HasLanguage update key → both[place]? = some entry := by
  have merges := overlayEntries?_of_told toldBase toldUpdate
  refine ⟨merges, length_renewed update base, ?_, ?_, ?_⟩
  · intro differ
    rw [← foldl_placeEntry toldUpdate]
    exact languagesDiffer_foldl toldUpdate differ
  · intro fields config result distinct below given laid
    obtain ⟨both, also, found⟩ := get?_detectors_of_overlay? distinct below given laid
    rwa [Option.some.inj (merges.symm.trans also)]
  · intro parse disk path config named holds given
    obtain ⟨result, loaded, found⟩ := configOfFile_of_holdsConfig named holds given toldUpdate
    refine ⟨result, _, loaded, found, fun place entry key there for_ unmentioned => ?_⟩
    have kept := getElem?_renewed_of_unmentioned there for_ unmentioned
    exact List.getElem?_append_left (List.getElem?_eq_some_iff.mp kept).1 ▸ kept

/-- Of two entries for a language that each list has, the last ones meet in the place of the first
list's, and of a new language with two entries the last one stands where the first did. -/
theorem detectors_merge_by_language_of_repeated :
    let entry (language glob : String) : Value :=
      .object [("lang", .text language), ("glob", .text glob)]
    let bare : Value := .object [("glob", .text "*.md")]
    let base := [entry "go" "a", bare, entry "go" "b"]
    let update := [entry "c" "d", entry "go" "e", bare, entry "c" "f", entry "go" "g"]
    languagesAreTold base = true ∧ languagesAreTold update = true ∧
      overlayEntries? base update =
        some [entry "go" "a", bare, entry "go" "g", entry "c" "f", bare] := by
  intro entry bare base update
  have toldBase : languagesAreTold base = true := by decide +kernel
  have toldUpdate : languagesAreTold update = true := by decide +kernel
  refine ⟨toldBase, toldUpdate, ?_⟩
  rw [(detectors_merge_by_language toldBase toldUpdate).1]
  decide +kernel

end Settings

end SymbolJump
