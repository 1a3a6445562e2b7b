/-
# Texts of state files

What is written as a state file is read back as the values it was written for, with the fields of
every object in the order of their keys. The text is plain: it holds no carriage return, so nothing
changes when line endings are unified.

Whatever bytes are in a file, it is a store of some values, or is damaged in one way that makes
reading it fail, or holds nothing. What it holds can be written again.
-/
import SymbolJump.Proofs.Bytes
import SymbolJump.Proofs.ReadValues
import SymbolJump.Proofs.WrittenValues
import SymbolJump.StateFile

namespace SymbolJump

open Text

namespace Text

/-- A text without carriage returns has unified line endings. -/
theorem unifyLineEndings_of_not_mem {text : List Char} (plain : '\r' ∉ text) :
    unifyLineEndings text = text := by
  induction text with
  | nil => rfl
  | cons c text ih =>
      obtain ⟨differ, plain⟩ := not_or.mp (List.mem_cons.not.mp plain)
      rw [unifyLineEndings, ih plain]
      · rintro rest rfl
        exact absurd rfl differ
      · rintro rfl
        exact differ rfl

theorem not_mem_hexPlaces (places value : Nat) : '\r' ∉ hexPlaces places value := by
  have digit : ∀ digit : Fin 16, hexDigit digit ≠ '\r' := by decide
  induction places generalizing value with
  | zero => exact List.not_mem_nil
  | succ places ih =>
      intro member
      rcases List.mem_append.mp member with front | last
      · exact ih _ front
      · apply digit ⟨value % 16, Nat.mod_lt _ (by decide)⟩
        exact (List.mem_singleton.mp last).symm

end Text

namespace Json

theorem not_mem_writtenUnit (unit : UInt16) : '\r' ∉ writtenUnit unit := by
  unfold writtenUnit
  dsimp only
  by_cases here : Char.ofNat unit.toNat = '\r'
  · simp [here]
  · split_ifs <;> simp [not_mem_hexPlaces, Ne.symm here]

theorem not_mem_writtenText (text : Wide) : '\r' ∉ writtenText text := by
  simp [writtenText, not_mem_writtenUnit]

theorem IsWordOf.not_mem {value : Json Wide} {word : List Char} (isWord : IsWordOf value word) :
    '\r' ∉ word :=
  fun member => absurd (isWord.chars _ member) (by decide)

theorem not_mem_newLine (level : Nat) : '\r' ∉ newLine level := by
  simp [newLine]

theorem not_mem_moreItemsOverLines {level : Nat} {items : List (Json Wide)}
    (each : ∀ item ∈ items, '\r' ∉ overLines level item) :
    '\r' ∉ moreItemsOverLines level items := by
  induction items with
  | nil => exact List.not_mem_nil
  | cons item items ih =>
      obtain ⟨here, others⟩ := List.forall_mem_cons.mp each
      simp [moreItemsOverLines, not_mem_newLine, here, ih others]

theorem not_mem_moreFieldsOverLines {level : Nat} {fields : Fields Wide}
    (each : ∀ field ∈ fields, '\r' ∉ overLines level field.2) :
    '\r' ∉ moreFieldsOverLines level fields := by
  induction fields with
  | nil => exact List.not_mem_nil
  | cons field fields ih =>
      obtain ⟨here, others⟩ := List.forall_mem_cons.mp each
      simp [moreFieldsOverLines, not_mem_newLine, not_mem_writtenText, here, ih others]

/-- The text of a proper value over several lines holds no carriage return. -/
theorem not_mem_overLines {value : Json Wide} (proper : value.IsProper) (level : Nat) :
    '\r' ∉ overLines level value := by
  induction value using induction generalizing level with
  | null => exact isWordOf_null.not_mem
  | bool value =>
      cases value with
      | true => exact isWordOf_true.not_mem
      | false => exact isWordOf_false.not_mem
  | int value => exact (isWordOf_int proper).not_mem
  | float value => exact (isWordOf_float value).not_mem
  | text value => exact not_mem_writtenText value
  | list items ih =>
      rw [isProper_list] at proper
      cases items with
      | nil => simp [overLines]
      | cons item items =>
          have each (item : Json Wide) (member : item ∈ _) :=
            ih item member (proper item member) (level + 1)
          obtain ⟨here, others⟩ := List.forall_mem_cons.mp each
          simp [overLines, not_mem_newLine, here, not_mem_moreItemsOverLines others]
  | object fields ih =>
      obtain ⟨_, proper⟩ := isProper_object.mp proper
      cases fields with
      | nil => simp [overLines]
      | cons field fields =>
          have each (field : Wide × Json Wide) (member : field ∈ _) :=
            ih field member (proper field member) (level + 1)
          obtain ⟨here, others⟩ := List.forall_mem_cons.mp each
          simp [overLines, not_mem_newLine, not_mem_writtenText, here,
            not_mem_moreFieldsOverLines others]

theorem eq_object_of_asObject? {τ : Type} {value : Json τ} {fields : Fields τ}
    (object : value.asObject? = some fields) : value = .object fields := by
  cases value with
  | object => exact congrArg Json.object (Option.some.inj object)
  | _ => exact nomatch object

end Json

namespace StateFile

open Json

/-- The values that a state file counts as holding. One that cannot be read holds none. -/
def Contents.fields : Contents → Fields Wide
  | .values found => found
  | .unreadable | .otherVersion _ => []

/-- A written value is a store of the given values: an object with the version of the layout and an
object of values. -/
def Stores (written : Json Wide) (values : Fields Wide) : Prop :=
  ∃ fields layout, written = .object fields ∧
    Fields.get? fields "meta" = some (.object layout) ∧
    (Fields.getOr layout "schema_version" (.int 0)).asInt? = version.asInt? ∧
    Fields.get? fields "values" = some (.object values)

/-- A written value is an object whose layout is no object. -/
def IsMisshapen (written layout : Json Wide) : Prop :=
  ∃ fields, written = .object fields ∧ Fields.get? fields "meta" = some layout ∧
    layout.asObject? = none

section Written

variable {written layout : Json Wide} {values : Fields Wide}

theorem contentsOf_of_stores (stores : Stores written values) :
    contentsOf written = .ok (.values values) := by
  obtain ⟨fields, layout, rfl, found, current, inside⟩ := stores
  simp [contentsOf, Fields.getOr, found, inside]
  exact current

theorem contentsOf_of_misshapen (misshapen : IsMisshapen written layout) :
    contentsOf written = .error (.misfit (.noOperation layout.typeName "get")) := by
  obtain ⟨fields, rfl, found, none⟩ := misshapen
  cases layout with
  | object => exact nomatch none
  | _ => simp [contentsOf, Fields.getOr, found]

/-- What an object holds goes by the version in its layout. -/
theorem contentsOf_object {fields layout : Fields Wide}
    (found : Fields.getOr fields "meta" (.object []) = .object layout) :
    contentsOf (.object fields) =
      if (Fields.getOr layout "schema_version" (.int 0)).asInt? = version.asInt? then
        .ok (.values (((Fields.get? fields "values").bind asObject?).getD []))
      else .ok (.otherVersion (Fields.getOr layout "schema_version" (.int 0))) := by
  rw [contentsOf, found]
  dsimp only
  split_ifs with current
  · rw [Fields.getOr]
    cases Fields.get? fields "values" with
    | none => rfl
    | some inner => cases inner <;> rfl
  · rfl

/-- A written value is a store, is misshapen, or holds nothing. -/
theorem contentsOf_cases (written : Json Wide) :
    (∃ values, Stores written values) ∨ (∃ layout, IsMisshapen written layout) ∨
      ∃ held, contentsOf written = .ok held ∧ held.fields = [] := by
  cases written with
  | object fields =>
      cases found : Fields.get? fields "meta" with
      | none =>
          refine .inr (.inr ⟨.otherVersion (.int 0), ?_, rfl⟩)
          have course := contentsOf_object (show Fields.getOr fields "meta" _ = .object [] by
            rw [Fields.getOr, found]
            rfl)
          rw [course]
          rfl
      | some layout =>
          cases object : layout.asObject? with
          | none => exact .inr (.inl ⟨layout, fields, rfl, found, object⟩)
          | some inner =>
              obtain rfl := eq_object_of_asObject? object
              have course := contentsOf_object (by rw [Fields.getOr, found]; rfl)
              by_cases current :
                  (Fields.getOr inner "schema_version" (.int 0)).asInt? = version.asInt?
              · rw [if_pos current] at course
                cases inside : (Fields.get? fields "values").bind asObject? with
                | none =>
                    rw [inside] at course
                    exact .inr (.inr ⟨_, course, rfl⟩)
                | some values =>
                    obtain ⟨value, inside, object⟩ := Option.bind_eq_some_iff.mp inside
                    obtain rfl := eq_object_of_asObject? object
                    exact .inl ⟨values, fields, inner, rfl, found, current, inside⟩
              · rw [if_neg current] at course
                exact .inr (.inr ⟨_, course, rfl⟩)
  | _ => exact .inr (.inr ⟨_, rfl, rfl⟩)

end Written

/-- The value that the bytes of a file write. -/
def ofBytes? (bytes : List UInt8) : Option (Json Wide) :=
  (Utf8.decode bytes).toOption.bind fun text => read? (String.ofList (unifyLineEndings text.toList))

section Document

variable {values : Fields Wide}

theorem isProper_document (proper : (Json.object values).IsProper) :
    (document values).IsProper := by
  have layout : (Json.object [(wide "schema_version", version)]).IsProper := by
    rw [isProper_object]
    refine ⟨by simp, fun field member => ?_⟩
    obtain rfl := List.mem_singleton.mp member
    rw [version, IsProper, Nat.pow_eq]
    exact Nat.one_lt_pow (show numeralLimit ≠ 0 by decide) (show 1 < 10 by decide)
  rw [document, isProper_object]
  refine ⟨by simp, ?_⟩
  rw [List.forall_mem_cons, List.forall_mem_singleton]
  exact ⟨layout, proper⟩

/-- The text of a state file is read back as it was written. -/
theorem ofBytes?_render (proper : (Json.object values).IsProper) :
    ofBytes? (Utf8.encode (render values)) = some (document values).sortKeys := by
  have proper := isProper_document proper
  have plain : unifyLineEndings (render values).toList = (render values).toList := by
    apply unifyLineEndings_of_not_mem
    rw [render, indented, String.toList_ofList]
    exact not_mem_overLines (isProper_sortKeys proper) 0
  rw [ofBytes?, Utf8.decode_encode]
  simp only [Except.toOption, Option.bind_some, plain, String.ofList_toList]
  exact read?_indented proper

/-- A sorted document holds the values that it was made of. -/
theorem exists_contentsOf_sortKeys (proper : (Json.object values).IsProper) :
    ∃ sorted : Fields Wide, contentsOf (document values).sortKeys = .ok (.values sorted) ∧
      ∀ key, Option.Rel Alike (Fields.get? values key) (Fields.get? sorted key) := by
  obtain ⟨layout, layoutSorts, layoutPerm⟩ :=
    sortKeys_object_perm [("schema_version", version)]
  obtain ⟨sorted, sorts, perm⟩ := sortKeys_object_perm values
  obtain ⟨whole, wholeSorts, wholePerm⟩ := sortKeys_object_perm
    [("meta", .object [("schema_version", version)]), ("values", .object values)]
  have found : Fields.get? layout "schema_version" = some version := by
    rw [get?_of_sortKeys (by simp) layoutPerm]
    rfl
  have meta_ : Fields.get? whole "meta" = some (.object layout) := by
    rw [get?_of_sortKeys (by simp) wholePerm, ← layoutSorts]
    rfl
  have values_ : Fields.get? whole "values" = some (.object sorted) := by
    rw [get?_of_sortKeys (by simp) wholePerm, ← sorts]
    rfl
  obtain ⟨distinct, inside⟩ := isProper_object.mp proper
  refine ⟨sorted, ?_, fun key => ?_⟩
  · rw [document, wholeSorts, contentsOf]
    simp [Fields.getOr, meta_, values_, found]
  · rw [get?_of_sortKeys distinct perm]
    cases here : Fields.get? values key with
    | none => exact .none
    | some value => exact .some (alike_sortKeys (inside _ (mem_of_get? here)))

end Document

section Contents

variable {disk : Files.Disk} {path : String}

/-- The value that the file of a path writes. -/
def written? (disk : Files.Disk) (path : String) : Option (Json Wide) :=
  (disk.read path).toOption.bind ofBytes?

theorem contents_of_missing (missing : disk.exists? path = .ok false) :
    contents disk path = .ok (.values []) := by
  rw [contents, missing]
  rfl

theorem readText_bind_read? (disk : Files.Disk) (path : String) :
    (disk.readText path).toOption.bind read? = written? disk path := by
  rw [Files.Disk.readText, written?]
  cases disk.read path with
  | error fault => rfl
  | ok bytes =>
      simp only [bind, Except.bind, Except.toOption, Option.bind_some, ofBytes?]
      cases Utf8.decode bytes <;> rfl

theorem contents_of_exists (there : disk.exists? path = .ok true) :
    contents disk path = match written? disk path with
      | some value => contentsOf value
      | none => .ok .unreadable := by
  rw [contents, there, ← readText_bind_read?]
  rfl

theorem exists?_of_read {bytes : List UInt8} (reads : disk.read path = .ok bytes) :
    disk.exists? path = .ok true := by
  rw [Files.Disk.read, Files.Disk.answered] at reads
  rw [Files.Disk.exists?, Files.Disk.locate?]
  split_ifs at reads ⊢
  cases leads : Files.resolve disk.tree disk.current (Path.tidy path) with
  | error trouble =>
      rw [leads] at reads
      exact nomatch reads
  | ok place => rfl

theorem contents_of_written {written : Json Wide} (writes : written? disk path = some written) :
    contents disk path = contentsOf written := by
  cases reads : disk.read path with
  | error fault =>
      rw [written?, reads] at writes
      exact nomatch writes
  | ok bytes => rw [contents_of_exists (exists?_of_read reads), writes]

/-- The file of a path is a store of the given values. -/
def IsStore (disk : Files.Disk) (path : String) (values : Fields Wide) : Prop :=
  ∃ written, written? disk path = some written ∧ Stores written values

/-- The file of a path writes an object whose layout is no object. -/
def IsDamaged (disk : Files.Disk) (path : String) (layout : Json Wide) : Prop :=
  ∃ written, written? disk path = some written ∧ IsMisshapen written layout

theorem contents_of_store {values : Fields Wide} (store : IsStore disk path values) :
    contents disk path = .ok (.values values) := by
  obtain ⟨written, writes, stores⟩ := store
  rw [contents_of_written writes, contentsOf_of_stores stores]

theorem contents_of_damaged {layout : Json Wide} (damaged : IsDamaged disk path layout) :
    contents disk path = .error (.misfit (.noOperation layout.typeName "get")) := by
  obtain ⟨written, writes, misshapen⟩ := damaged
  rw [contents_of_written writes, contentsOf_of_misshapen misshapen]

/-- A file that is neither a store nor damaged holds nothing. -/
theorem exists_contents_of_read {bytes : List UInt8} (reads : disk.read path = .ok bytes)
    (noStore : ∀ values, ¬ IsStore disk path values)
    (sound : ∀ layout, ¬ IsDamaged disk path layout) :
    ∃ held, contents disk path = .ok held ∧ held.fields = [] := by
  cases writes : written? disk path with
  | none =>
      refine ⟨.unreadable, ?_, rfl⟩
      rw [contents_of_exists (exists?_of_read reads), writes]
  | some written =>
      rw [contents_of_written writes]
      rcases contentsOf_cases written with ⟨values, stores⟩ | ⟨layout, misshapen⟩ | holds
      · exact absurd ⟨written, writes, stores⟩ (noStore values)
      · exact absurd ⟨written, writes, misshapen⟩ (sound layout)
      · exact holds

/-- What is held are the values of a store, or there is no store and nothing is held. -/
theorem fields_of_contents {held : Contents} (holds : contents disk path = .ok held) :
    IsStore disk path held.fields ∨ held.fields = [] ∧ ∀ values, ¬ IsStore disk path values := by
  by_cases stored : ∃ values, IsStore disk path values
  · obtain ⟨values, store⟩ := stored
    cases (contents_of_store store).symm.trans holds
    exact .inl store
  have noStore : ∀ values, ¬ IsStore disk path values := fun values here => stored ⟨values, here⟩
  refine .inr ⟨?_, noStore⟩
  cases reads : disk.read path with
  | ok bytes =>
      have sound (layout : Json Wide) : ¬ IsDamaged disk path layout := fun damaged =>
        nomatch (contents_of_damaged damaged).symm.trans holds
      obtain ⟨other, course, none⟩ := exists_contents_of_read reads noStore sound
      cases course.symm.trans holds
      exact none
  | error fault =>
      have nothing : written? disk path = none := by rw [written?, reads]; rfl
      cases there : disk.exists? path with
      | error fault =>
          rw [contents, there] at holds
          exact nomatch holds
      | ok present =>
          cases present with
          | false =>
              cases (contents_of_missing there).symm.trans holds
              rfl
          | true =>
              rw [contents_of_exists there, nothing] at holds
              cases holds
              rfl

/-- Whatever a state file holds, its values can be written again. -/
theorem isProper_of_contents {held : Contents} (holds : contents disk path = .ok held) :
    (Json.object held.fields).IsProper := by
  rcases fields_of_contents holds with ⟨written, writes, stores⟩ | ⟨none, _⟩
  · obtain ⟨fields, _, rfl, _, _, inside⟩ := stores
    rw [← readText_bind_read?] at writes
    obtain ⟨text, _, reads⟩ := Option.bind_eq_some_iff.mp writes
    exact (isProper_object.mp (isProper_of_read? reads)).2 _ (mem_of_get? inside)
  · rw [none]
    exact isProper_object.mpr ⟨by simp, by simp⟩

end Contents

end StateFile

end SymbolJump
