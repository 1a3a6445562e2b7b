/-
# Entries that spoil an index

An index file is written by other tools, and one bad entry should change nothing: what is refused
when it is read is passed over. Two things are not looked at there. A name is taken over as it
stands, and one that is no text only fails when a query is matched with it, which spoils the answer
for the whole file. And the truth value that counts as one passes for the number of a kind.

Depth can spoil an answer as well. A file that is nested too deeply for its reader fails before its
entries are looked at, and where log lines are printed, so does a refused value that is too high to
be shown.

So a query is answered unless something goes too deep or some entry has a name that is no text, and
each entry of the answer stems from a value of its own, in the order of the file. A malformed value
changes no answer unless it is read all the same or cannot be shown.
-/
import SymbolJump.Proofs.Conditions
import SymbolJump.Proofs.KindNumbers
import SymbolJump.Proofs.StateFiles
import SymbolJump.Terminal

namespace SymbolJump

open Text

theorem Json.eq_text_of_asText? {τ : Type} {value : Json τ} {text : τ}
    (isText : value.asText? = some text) : value = .text text := by
  cases value with
  | text => exact congrArg Json.text (Option.some.inj isText)
  | _ => nomatch isText

/-! ## Malformed entries -/

namespace IndexEntry

variable {value : Json Wide} {entry : IndexEntry}

/-- A value does not have the shape of an entry. -/
inductive Malformed : Json Wide → Prop
  | entry {value : Json Wide} (other : value.asObject? = none) : Malformed value
  | name {fields : Fields Wide} (other : ∀ name, fields.get? "name" ≠ some (.text name)) :
      Malformed (.object fields)
  | kind {fields : Fields Wide} (other : ∀ number, fields.get? "kind" = some number →
      ¬ CountsKind number) : Malformed (.object fields)
  | location {fields : Fields Wide} (other : (fields.getOrNull "location").asObject? = none) :
      Malformed (.object fields)
  | uri {fields location : Fields Wide} (inside : fields.getOrNull "location" = .object location)
      (other : (location.getOr "uri" (.text "")).asText? = none) : Malformed (.object fields)

/-- A value is read as an entry, but its name is no text. -/
def IsNameless (value : Json Wide) : Prop :=
  ∃ entry, ofJson value = .ok entry ∧ entry.name.asText? = none

/-- What stands in the fields of a value that is read as an entry. -/
structure IsReadFrom (entry : IndexEntry) (fields : Fields Wide) : Prop where
  uri : ∃ location uri, fields.getOrNull "location" = .object location ∧
    Fields.getOr location "uri" (.text (wide "")) = .text uri
  name : fields.get? "name" = some entry.name
  kind : ∃ number, fields.get? "kind" = some number ∧ kindOf number = .ok entry.kind

theorem eq_text_of_uriText {uri : Wide} (read : uriText value = .ok uri) : value = .text uri := by
  cases value with
  | text => exact congrArg Json.text (Except.ok.inj read)
  | _ => nomatch read

theorem get?_of_required {fields : Fields Wide} {key : Wide}
    (there : required fields key = .ok value) : fields.get? key = some value := by
  unfold required at there
  split at there
  · next found => rw [found, Except.ok.inj there]
  · nomatch there

theorem exists_isReadFrom (read : ofJson value = .ok entry) :
    ∃ fields, value = .object fields ∧ IsReadFrom entry fields := by
  unfold ofJson at read
  split at read
  case h_2 => nomatch read
  next fields =>
  split at read
  case h_2 => nomatch read
  next location inside =>
  obtain ⟨uri, isText, read⟩ := exists_of_bind_eq_ok read
  obtain ⟨path, -, read⟩ := exists_of_bind_eq_ok read
  obtain ⟨range, -, read⟩ := exists_of_bind_eq_ok read
  obtain ⟨name, named, read⟩ := exists_of_bind_eq_ok read
  obtain ⟨kind, counted, read⟩ := exists_of_bind_eq_ok read
  obtain ⟨number, there, counts⟩ := exists_of_bind_eq_ok counted
  obtain ⟨start, -, read⟩ := exists_of_bind_eq_ok read
  cases read
  exact ⟨fields, rfl, ⟨location, uri, inside, eq_text_of_uriText isText⟩,
    get?_of_required named, number, get?_of_required there, counts⟩

theorem not_isNameless_of_text {fields : Fields Wide} {name : Wide}
    (named : fields.get? "name" = some (.text name)) : ¬ IsNameless (.object fields) := by
  rintro ⟨entry, read, nameless⟩
  obtain ⟨_, object, -, there, -⟩ := exists_isReadFrom read
  cases object
  rw [← Option.some.inj (named.symm.trans there)] at nameless
  nomatch nameless

/-- A malformed value that is read all the same has a name that is no text, or a truth value for the
number of its kind. -/
theorem Malformed.nameless_or_true (malformed : Malformed value) (read : ofJson value = .ok entry) :
    IsNameless value ∨
      ∃ fields, value = .object fields ∧ Fields.get? fields "kind" = some (.bool true) := by
  obtain ⟨fields, rfl, ⟨location, uri, inside, isText⟩, named, number, there, counts⟩ :=
    exists_isReadFrom read
  cases malformed with
  | entry other => nomatch other
  | name other =>
      refine .inl ⟨entry, read, ?_⟩
      by_contra isText
      obtain ⟨name, isText⟩ := Option.ne_none_iff_exists'.mp isText
      exact other name (named.trans (congrArg some (Json.eq_text_of_asText? isText)))
  | kind other =>
      rcases countsKind_of_kindOf counts with count | rfl
      · exact absurd count (other number there)
      · exact .inr ⟨fields, rfl, there⟩
  | location other =>
      rw [inside] at other
      nomatch other
  | uri here other =>
      cases inside.symm.trans here
      rw [isText] at other
      nomatch other

end IndexEntry

/-! ## Answers of an index file -/

namespace IndexFile

open IndexEntry

variable {limit : Option Nat} {reach : Json.Reach} {level : Option LogLevel}
  {values : List (Json Wide)} {value : Json Wide} {text : List Glyph}

/-- What goes too deep for a reader in the bytes of an index file. -/
def deepIn? (limit : Option Nat) (bytes : List UInt8) : Option Json.Nesting :=
  (Utf8.decode bytes).toOption.bind fun text =>
    Json.tooDeep? limit (String.ofList (unifyLineEndings text.toList))

@[simp]
theorem deepIn?_none (bytes : List UInt8) : deepIn? none bytes = none := by
  unfold deepIn?
  cases (Utf8.decode bytes).toOption <;> rfl

/-- The values in the bytes of an index file. -/
def valuesIn (bytes : List UInt8) : List (Json Wide) :=
  match StateFile.ofBytes? bytes with
  | some (.list values) => values
  | _ => []

/-- The entry that a value is read as. -/
def entryOf? (value : Json Wide) : Option IndexEntry :=
  (ofJson value).toOption

/-- A value is refused as an entry, and is too high for the log line that says so. -/
def isUnshown (limit : Option Nat) (level : Option LogLevel) (value : Json Wide) : Bool :=
  level = some .debug && (entryOf? value).isNone && value.isTooHigh limit

/-- What is kept of the values of an index file. -/
def kept (limit : Option Nat) (level : Option LogLevel) (values : List (Json Wide)) :
    Except Fault (List IndexEntry) :=
  if values.any (isUnshown limit level) then .error (.nesting .shown)
  else .ok (values.filterMap entryOf?)

/-- What the values of an index file answer to a query. -/
def answer (limit : Option Nat) (level : Option LogLevel) (values : List (Json Wide))
    (text : List Glyph) : Except Fault (List IndexEntry) :=
  kept limit level values >>= fun entries => (matching (needle text) entries).mapError .misfit

/-- Whether a query matches the name of an entry. -/
def matchesName (text : List Glyph) (entry : IndexEntry) : Bool :=
  entry.name.asText?.any fun name => occursRoughly (needle text) (glyphs name)

/-- The entries that values are read as and that match a query, in order. -/
def listed (values : List (Json Wide)) (text : List Glyph) : List IndexEntry :=
  (values.filterMap entryOf?).filter (matchesName text)

/-- An entry stems from an object with its name, which is a text and matches a query. -/
structure StemsFrom (text : List Glyph) (value : Json Wide) (entry : IndexEntry) : Prop where
  read : ofJson value = .ok entry
  name : ∃ fields name, value = .object fields ∧ Fields.get? fields "name" = some (.text name) ∧
    entry.name = .text name ∧ occursRoughly (needle text) (glyphs name) = true

/-- Each entry of an answer stems from a value of its own, in order. -/
def StemInOrder (text : List Glyph) (values : List (Json Wide)) (entries : List IndexEntry) :
    Prop :=
  ∃ sources, sources.Sublist values ∧ List.Forall₂ (StemsFrom text) sources entries

theorem entryOf?_eq_some {entry : IndexEntry} :
    entryOf? value = some entry ↔ ofJson value = .ok entry := by
  unfold entryOf?
  cases ofJson value with
  | ok other =>
      exact ⟨fun same => congrArg _ (Option.some.inj same), fun same => by cases same; rfl⟩
  | error fault => exact iff_of_false nofun nofun

/-! ## Loading -/

section Loading

variable {machine : Machine}

theorem start_skip (value : Json Wide) (refused : entryOf? value = none) :
    (skip limit value).start machine =
      if isUnshown limit machine.logLevel value then (.error (.nesting .shown), machine)
      else (.ok (), machine.log (skippedLine value)) := by
  have same : isUnshown limit machine.logLevel value =
      (machine.logLevel = some .debug && value.isTooHigh limit) := by
    rw [isUnshown, refused]
    simp
  rw [same, skip, Act.start_bind_of_ok (Act.start_get machine)]
  split
  · rfl
  · rfl

theorem isUnshown_of_read {entry : IndexEntry} (found : entryOf? value = some entry) :
    isUnshown limit level value = false := by
  simp [isUnshown, found]

theorem kept_cons_of_read {entry : IndexEntry} (found : entryOf? value = some entry)
    (values : List (Json Wide)) :
    kept limit level (value :: values) = (kept limit level values).map (entry :: ·) := by
  simp only [kept, List.any_cons, isUnshown_of_read found, Bool.false_or, List.filterMap_cons,
    found]
  split <;> rfl

theorem kept_cons_of_refused (refused : entryOf? value = none) (values : List (Json Wide)) :
    kept limit level (value :: values) =
      if isUnshown limit level value then .error (.nesting .shown)
      else kept limit level values := by
  simp only [kept, List.any_cons, List.filterMap_cons, refused]
  cases isUnshown limit level value <;> rfl

/-- The values of an index file are gone through one by one. -/
theorem exists_start_entriesOf (values : List (Json Wide)) (machine : Machine) :
    ∃ after : Machine, (entriesOf limit values).start machine =
      (kept limit machine.logLevel values, after) := by
  induction values generalizing machine with
  | nil => exact ⟨machine, rfl⟩
  | cons value values ih =>
      rw [entriesOf]
      cases read : ofJson value with
      | ok entry =>
          obtain ⟨after, course⟩ := ih machine
          refine ⟨after, ?_⟩
          dsimp only
          rw [Act.start_bind, course, kept_cons_of_read (entryOf?_eq_some.mpr read)]
          cases kept limit machine.logLevel values <;> rfl
      | error fault =>
          have refused : entryOf? value = none := by rw [entryOf?, read]; rfl
          obtain ⟨after, course⟩ := ih (machine.log (skippedLine value))
          dsimp only
          rw [Act.start_bind, start_skip value refused, kept_cons_of_refused refused]
          by_cases unshown : isUnshown limit machine.logLevel value = true
          · rw [if_pos unshown, if_pos unshown]
            exact ⟨machine, rfl⟩
          · rw [if_neg unshown, if_neg unshown]
            exact ⟨after, course⟩

/-- What the file at a path holds is decided by its bytes. -/
theorem contents_of_read {disk : Files.Disk} {path : String} {bytes : List UInt8}
    (reads : disk.read path = .ok bytes) :
    contents limit disk path =
      match deepIn? limit bytes with
      | some cause => .error (.nesting cause)
      | none =>
          match StateFile.ofBytes? bytes with
          | some (.list values) => .ok (.entries values)
          | some _ => .ok .notList
          | none => .ok .unreadable := by
  rw [contents, StateFile.exists?_of_read reads, Files.Disk.readText, reads, deepIn?,
    StateFile.ofBytes?]
  dsimp only [bind, Except.bind]
  rw [if_pos rfl]
  cases Utf8.decode bytes with
  | error malformed => rfl
  | ok text =>
      show contentsOf limit (String.ofList (unifyLineEndings text.toList)) = _
      unfold contentsOf
      dsimp only [Except.toOption, Option.bind]
      cases Json.tooDeep? limit (String.ofList (unifyLineEndings text.toList)) with
      | some cause => rfl
      | none =>
          dsimp only
          rcases Json.read? (String.ofList (unifyLineEndings text.toList)) with
            _ | _ | _ | _ | _ | _ | values | _
          all_goals rfl

/-- A query of a file is answered from the values in it, unless they go too deep. -/
theorem start_query_of_read {path : String} {bytes : List UInt8}
    (reads : machine.disk.read path = .ok bytes) (text : List Glyph) :
    ((query reach path text).start machine).1 =
      match deepIn? reach.read bytes with
      | some cause => .error (.nesting cause)
      | none => answer reach.shown machine.logLevel (valuesIn bytes) text := by
  have holds := @contents_of_read reach.read _ _ _ reads
  have loads : ∃ after : Machine, (load reach path).start machine =
      (match deepIn? reach.read bytes with
        | some cause => .error (.nesting cause)
        | none => kept reach.shown machine.logLevel (valuesIn bytes), after) := by
    rw [load, Act.start_bind, Machine.start_ofDisk, holds, valuesIn]
    cases deepIn? reach.read bytes with
    | some cause => exact ⟨_, rfl⟩
    | none =>
        rcases StateFile.ofBytes? bytes with _ | _ | _ | _ | _ | _ | values | _
        case some.list => exact exists_start_entriesOf values machine
        all_goals exact ⟨_, rfl⟩
  obtain ⟨after, loads⟩ := loads
  rw [query, Act.start_bind, loads]
  cases deepIn? reach.read bytes with
  | some cause => rfl
  | none =>
      rw [answer]
      cases kept reach.shown machine.logLevel (valuesIn bytes) with
      | error fault => rfl
      | ok entries =>
          dsimp only [bind, Except.bind]
          cases matching (needle text) entries <;> rfl

end Loading

/-! ## Matching -/

section Matching

variable {entries : List IndexEntry}

/-- Entries whose names are texts answer with those that match. -/
theorem matching_of_named (named : ∀ entry ∈ entries, entry.name.asText? ≠ none) :
    matching (needle text) entries = .ok (entries.filter (matchesName text)) := by
  induction entries with
  | nil => rfl
  | cons entry entries ih =>
      obtain ⟨here, others⟩ := List.forall_mem_cons.mp named
      obtain ⟨name, isText⟩ := Option.ne_none_iff_exists'.mp here
      rw [matching, isText, ih others, List.filter_cons, matchesName, isText]
      dsimp only [bind, Except.bind, Option.any]
      split <;> rfl

/-- An entry whose name is no text spoils every answer. -/
theorem matching_of_nameless {entry : IndexEntry} (member : entry ∈ entries)
    (nameless : entry.name.asText? = none) (text : List Glyph) :
    ∃ type, matching (needle text) entries = .error (.noOperation type "lower") := by
  induction entries with
  | nil => nomatch member
  | cons first entries ih =>
      rw [matching]
      cases isText : first.name.asText? with
      | none => exact ⟨_, rfl⟩
      | some name =>
          have member : entry ∈ entries := by
            rcases List.mem_cons.mp member with rfl | member
            · nomatch nameless.symm.trans isText
            · exact member
          obtain ⟨type, spoilt⟩ := ih member
          dsimp only
          rw [spoilt]
          exact ⟨type, rfl⟩

end Matching

/-! ## Answers -/

/-- Nothing in a value keeps an index from being answered. -/
structure IsSpared (limit : Option Nat) (level : Option LogLevel) (value : Json Wide) : Prop where
  named : ¬ IsNameless value
  shown : isUnshown limit level value = false

theorem any_isUnshown_eq_false_iff :
    values.any (isUnshown limit level) = false ↔
      ∀ value ∈ values, isUnshown limit level value = false :=
  List.any_eq_false.trans (by simp)

/-- Values that are spared answer with all entries that match. -/
theorem answer_of_spared (spared : ∀ value ∈ values, IsSpared limit level value) :
    answer limit level values text = .ok (listed values text) := by
  have shown := any_isUnshown_eq_false_iff.mpr fun value member => (spared value member).shown
  have named : ∀ entry ∈ values.filterMap entryOf?, entry.name.asText? ≠ none := by
    intro entry member none
    obtain ⟨value, among, found⟩ := List.mem_filterMap.mp member
    exact (spared value among).named ⟨entry, entryOf?_eq_some.mp found, none⟩
  rw [answer, kept, shown, if_neg Bool.false_ne_true]
  exact congrArg (Except.mapError Fault.misfit) (matching_of_named named)

/-- A value that is not spared spoils the answer of all values. -/
theorem exists_answer_of_not_spared (spoilt : ¬ ∀ value ∈ values, IsSpared limit level value)
    (text : List Glyph) :
    answer limit level values text = .error (.nesting .shown) ∨
      ∃ type, answer limit level values text = .error (.misfit (.noOperation type "lower")) := by
  rw [answer, kept]
  by_cases unshown : values.any (isUnshown limit level) = true
  · rw [if_pos unshown]
    exact .inl rfl
  have shown := any_isUnshown_eq_false_iff.mp (eq_false_of_ne_true unshown)
  obtain ⟨value, member, entry, read, none⟩ : ∃ value ∈ values, IsNameless value := by
    by_contra named
    simp only [not_exists, not_and] at named
    exact spoilt fun value member => ⟨named value member, shown value member⟩
  have among : entry ∈ values.filterMap entryOf? :=
    List.mem_filterMap.mpr ⟨value, member, entryOf?_eq_some.mpr read⟩
  obtain ⟨type, fails⟩ := matching_of_nameless among none text
  refine .inr ⟨type, ?_⟩
  rw [if_neg unshown]
  exact congrArg (Except.mapError Fault.misfit) fails

theorem stemInOrder_listed (values : List (Json Wide)) (text : List Glyph) :
    StemInOrder text values (listed values text) := by
  induction values with
  | nil => exact ⟨[], .slnil, .nil⟩
  | cons value values ih =>
      obtain ⟨sources, among, stem⟩ := ih
      unfold listed at stem ⊢
      rw [List.filterMap_cons]
      cases found : entryOf? value with
      | none => exact ⟨sources, among.cons _, stem⟩
      | some entry =>
          dsimp only
          rw [List.filter_cons]
          split
          · next matched =>
            have read := entryOf?_eq_some.mp found
            obtain ⟨fields, object, -, named, -⟩ := exists_isReadFrom read
            obtain ⟨name, isText, occurs⟩ := (Option.any_eq_true _ _).mp matched
            have isText := Json.eq_text_of_asText? isText
            rw [isText] at named
            exact ⟨value :: sources, among.cons_cons _,
              .cons ⟨read, fields, name, object, named, isText, occurs⟩ stem⟩
          · exact ⟨sources, among.cons _, stem⟩

/-- A value that is refused and can be shown changes no answer. -/
theorem answer_of_refused (refused : entryOf? value = none)
    (shown : isUnshown limit level value = false) (front back : List (Json Wide)) :
    answer limit level (front ++ value :: back) text = answer limit level (front ++ back) text := by
  simp only [answer, kept, List.any_append, List.any_cons, shown, Bool.false_or,
    List.filterMap_append, List.filterMap_cons, refused]

/-- A value that is read as an entry or cannot be shown changes some answer. -/
theorem exists_answer_ne (changes : entryOf? value ≠ none ∨ isUnshown limit level value = true) :
    ∃ text, answer limit level [value] text ≠ answer limit level [] text := by
  have empty (text : List Glyph) : answer limit level [] text = .ok [] := rfl
  cases found : entryOf? value with
  | none =>
      have unshown := changes.resolve_left (absurd found)
      refine ⟨[], ?_⟩
      rw [empty, answer, kept, List.any_cons, unshown, Bool.true_or, if_pos rfl]
      exact nofun
  | some entry =>
      have shown : isUnshown limit level value = false := isUnshown_of_read found
      by_cases nameless : entry.name.asText? = none
      · have spoilt : ¬ ∀ other ∈ [value], IsSpared limit level other := fun spared =>
          (spared value (List.mem_singleton_self _)).named
            ⟨entry, entryOf?_eq_some.mp found, nameless⟩
        refine ⟨[], ?_⟩
        rw [empty]
        rcases exists_answer_of_not_spared spoilt [] with same | ⟨type, same⟩
        all_goals rw [same]; exact nofun
      obtain ⟨name, isText⟩ := Option.ne_none_iff_exists'.mp nameless
      have spared : ∀ other ∈ [value], IsSpared limit level other := by
        refine List.forall_mem_singleton.mpr ⟨?_, shown⟩
        rintro ⟨other, read, none⟩
        cases found.symm.trans (entryOf?_eq_some.mpr read)
        exact nameless none
      have matched : matchesName (.whole '#' :: glyphs name) entry = true := by
        rw [matchesName, isText]
        exact List.isSublist_iff_sublist.mpr (List.Sublist.refl _)
      refine ⟨.whole '#' :: glyphs name, ?_⟩
      rw [empty, answer_of_spared spared, listed, List.filterMap_cons, found, List.filterMap_nil]
      dsimp only
      rw [List.filter_cons, if_pos matched]
      exact nofun

/-- A value changes no answer just when it is not read as an entry and can be shown. -/
theorem changes_no_answer_iff (value : Json Wide) :
    (∀ front back text, answer limit level (front ++ value :: back) text =
        answer limit level (front ++ back) text) ↔
      (∀ entry, ofJson value ≠ .ok entry) ∧ isUnshown limit level value = false := by
  have refused_iff : entryOf? value = none ↔ ∀ entry, ofJson value ≠ .ok entry := by
    simp only [Option.eq_none_iff_forall_ne_some, ne_eq, entryOf?_eq_some]
  rw [← refused_iff]
  constructor
  · intro changeless
    by_contra changes
    rw [not_and_or, Bool.not_eq_false] at changes
    obtain ⟨text, differ⟩ := exists_answer_ne changes
    exact differ (changeless [] [] text)
  · rintro ⟨refused, shown⟩ front back text
    exact answer_of_refused refused shown front back

/-- Values answer when all of them are spared, and only then. -/
theorem exists_answer_iff :
    (∃ entries, answer limit level values text = .ok entries) ↔
      ∀ value ∈ values, IsSpared limit level value := by
  refine ⟨fun ⟨entries, same⟩ => ?_, fun spared => ⟨_, answer_of_spared spared⟩⟩
  by_contra spoilt
  rcases exists_answer_of_not_spared spoilt text with fails | ⟨_, fails⟩
  all_goals nomatch fails.symm.trans same

theorem eq_listed_of_answer {entries : List IndexEntry}
    (same : answer limit level values text = .ok entries) : entries = listed values text := by
  have spared := exists_answer_iff.mp ⟨entries, same⟩
  exact (Except.ok.inj ((answer_of_spared spared).symm.trans same)).symm

/-- What a spoilt answer fails with. -/
theorem fault_of_answer {fault : Fault} (fails : answer limit level values text = .error fault) :
    (∃ cause, fault = .nesting cause) ∨ ∃ type, fault = .misfit (.noOperation type "lower") := by
  have spoilt : ¬ ∀ value ∈ values, IsSpared limit level value := fun spared =>
    nomatch (answer_of_spared spared).symm.trans fails
  rcases exists_answer_of_not_spared spoilt text with same | ⟨type, same⟩
  · exact .inl ⟨_, Except.error.inj (fails.symm.trans same)⟩
  · exact .inr ⟨type, Except.error.inj (fails.symm.trans same)⟩

/-- A query of an index file is answered, in the order of the file, unless something in it goes too
deep or some entry is nameless. A malformed value changes no answer unless it is read as an entry or
cannot be shown. -/
theorem query_answers_iff {machine : Machine} {path : String} {bytes : List UInt8}
    (reads : machine.disk.read path = .ok bytes) (reach : Json.Reach) (text : List Glyph) :
    let result := ((query reach path text).start machine).1
    let answer := answer reach.shown machine.logLevel
    let deep := deepIn? reach.read bytes
    (deep = none → result = answer (valuesIn bytes) text) ∧
      ((∃ entries, result = .ok entries) ↔
        deep = none ∧ ∀ value ∈ valuesIn bytes, IsSpared reach.shown machine.logLevel value) ∧
      (∀ entries, result = .ok entries →
        entries = listed (valuesIn bytes) text ∧ StemInOrder text (valuesIn bytes) entries) ∧
      (∀ fault, result = .error fault → (∃ cause, fault = .nesting cause) ∨
        ∃ type, fault = .misfit (.noOperation type "lower")) ∧
      ∀ value, Malformed value →
        ((∀ front back text, answer (front ++ value :: back) text = answer (front ++ back) text) ↔
          (∀ entry, ofJson value ≠ .ok entry) ∧
            isUnshown reach.shown machine.logLevel value = false) ∧
        ∀ entry, ofJson value = .ok entry → IsNameless value ∨
          ∃ fields, value = .object fields ∧ Fields.get? fields "kind" = some (.bool true) := by
  intro result answer deep
  have course : result = match deep with
      | some cause => .error (.nesting cause)
      | none => answer (valuesIn bytes) text := start_query_of_read reads text
  have changes (value : Json Wide) (malformed : Malformed value) :=
    And.intro (@changes_no_answer_iff reach.shown machine.logLevel value)
      fun (entry : IndexEntry) (read : ofJson value = .ok entry) => malformed.nameless_or_true read
  rw [course]
  cases deep with
  | some cause =>
      refine ⟨nofun, iff_of_false nofun nofun, nofun, ?_, changes⟩
      rintro fault ⟨⟩
      exact .inl ⟨cause, rfl⟩
  | none =>
      refine ⟨fun _ => rfl, exists_answer_iff.trans (and_iff_right rfl).symm, ?_,
        fun fault => fault_of_answer, changes⟩
      intro entries same
      rw [eq_listed_of_answer same]
      exact ⟨rfl, stemInOrder_listed _ _⟩

/-- An index with a number among its entries is answered without it. -/
theorem query_answers_beside_number :
    let bytes := Utf8.encode
      "[5,\x7b\"name\":\"Af\",\"kind\":12,\"location\":\x7b\"uri\":\"/a\"\x7d,\"x\":NaN\x7d]"
    let disk : Files.Disk := { tree := .folder [("i.json", .file bytes)], current := [] }
    disk.read "/i.json" = .ok bytes ∧
      ∃ entries, ((query {} "/i.json" (wholes "f")).start { disk }).1 = .ok entries ∧
        StemInOrder (wholes "f") (valuesIn bytes) entries := by
  intro bytes disk
  have reads : disk.read "/i.json" = .ok bytes := by decide +kernel
  obtain ⟨-, ⟨-, answered⟩, stem, -⟩ := @query_answers_iff { disk } _ _ reads {} (wholes "f")
  have spared : ∀ value ∈ valuesIn bytes, IsSpared none none value := by
    have values : valuesIn bytes = [.int 5, .object [(wide "name", .text (wide "Af")),
        (wide "kind", .int 12), (wide "location", .object [(wide "uri", .text (wide "/a"))]),
        (wide "x", .float .nan)]] := by
      decide +kernel
    rw [values, List.forall_mem_cons, List.forall_mem_singleton]
    refine ⟨⟨?_, rfl⟩, @not_isNameless_of_text _ (wide "Af") ?_, rfl⟩
    · rintro ⟨entry, read, -⟩
      nomatch read
    · decide +kernel
  obtain ⟨entries, same⟩ := answered ⟨deepIn?_none _, spared⟩
  exact ⟨reads, entries, same, (stem entries same).2⟩

/-- An entry that is named by a number keeps an index from being answered, and the index without it
is answered. -/
theorem query_spoilt_by_number_for_name :
    let good : Json Wide := .object [(wide "name", .text (wide "f")), (wide "kind", .int 12),
      (wide "location", .object [(wide "uri", .text (wide "/a"))])]
    let bad : Json Wide := .object [(wide "name", .int 5), (wide "kind", .int 12),
      (wide "location", .object [(wide "uri", .text (wide "/a"))])]
    let bytes := Utf8.encode (Json.compact (.list [good, bad]))
    let disk : Files.Disk := { tree := .folder [("i.json", .file bytes)], current := [] }
    Malformed bad ∧ valuesIn bytes = [good, bad] ∧
      ((query {} "/i.json" (wholes "f")).start { disk }).1.toOption = none ∧
      (answer none none [good] (wholes "f")).toOption =
        some [⟨.text (wide "f"), .function, wholes "/a", .int 0, .int 0, .null⟩] := by
  intro good bad bytes disk
  have reads : disk.read "/i.json" = .ok bytes := by decide +kernel
  have values : valuesIn bytes = [good, bad] := by decide +kernel
  have spoilt : (answer none none [good, bad] (wholes "f")).toOption = none := by decide +kernel
  refine ⟨.name fun name same => ?_, values, ?_, by decide +kernel⟩
  · nomatch same
  · rw [start_query_of_read reads, values, deepIn?_none]
    exact spoilt

end IndexFile

end SymbolJump
