/-
# Documents that are accepted

A configuration file is to be a mapping of settings or to say nothing at all, and every other
document is to be refused. What a document is, is told by its value: this is an object just when the
document has fields, whether it is complete in itself or a knot. How a text is parsed into a
document is left open.

Two kinds of documents stand against the rule. A hollow one, such as an empty list, a zero, a no or
an empty text, is taken for a document that says nothing, and a mapping is not merged when the
language of one of its detectors cannot be told apart.
-/
import SymbolJump.Proofs.KeyPaths

namespace SymbolJump

namespace Value

/-- A value that does not count as given, although it is neither nothing nor an object. -/
inductive IsHollow : Value → Prop
  | list : IsHollow (.list [])
  | no : IsHollow (.scalar (.bool false))
  | zero : IsHollow (.int 0)
  | zeroDouble {value : Decimal.Floating} (zero : value.isZero = true) :
      IsHollow (.scalar (.float value))
  | empty : IsHollow (.text "")
  | noBytes : IsHollow (.scalar (.bytes []))
  | noItems : IsHollow (.set [])

theorem isHollow_iff {value : Value} :
    value.IsHollow ↔
      value.isTruthy = false ∧ (∀ fields, value ≠ .object fields) ∧ value ≠ .null := by
  constructor
  · rintro (_ | _ | _ | zero | _ | _ | _)
    case zeroDouble => exact ⟨congrArg not zero, nofun, nofun⟩
    all_goals exact ⟨rfl, nofun, nofun⟩
  rintro ⟨falsy, flat, some⟩
  cases value with
  | scalar value =>
      cases value with
      | null => exact absurd rfl some
      | bool value =>
          cases value with
          | false => exact .no
          | true => nomatch falsy
      | int value =>
          obtain rfl : value = 0 := by simpa [isTruthy, Scalar.isTruthy] using falsy
          exact .zero
      | float value => exact .zeroDouble (by simpa [isTruthy, Scalar.isTruthy] using falsy)
      | text value =>
          obtain rfl : value = "" := by simpa [isTruthy, Scalar.isTruthy] using falsy
          exact .empty
      | bytes value =>
          obtain rfl : value = [] := by simpa [isTruthy, Scalar.isTruthy] using falsy
          exact .noBytes
      | foreign value => nomatch falsy
  | set items =>
      obtain rfl : items = [] := by simpa [isTruthy] using falsy
      exact .noItems
  | list items =>
      obtain rfl : items = [] := by simpa [isTruthy] using falsy
      exact .list
  | object fields => exact absurd rfl (flat fields)
  | again isList => nomatch falsy

end Value

/-- A document has fields just when its value is an object. -/
theorem Document.isSome_fields?_iff (document : Document) (isOpened : Scalar → Bool) :
    (∃ config, document.fields? isOpened = some config) ↔
      ∃ fields, document.rootValue = .object fields := by
  unfold rootValue value fields?
  cases document.root with
  | value value =>
      cases value with
      | object fields => exact iff_of_true ⟨_, rfl⟩ ⟨fields, rfl⟩
      | scalar | list | set | again => simp [valueInside]
  | knot number =>
      unfold valueInside
      dsimp only
      rw [if_neg (by simp)]
      cases document.knotAt number with
      | list items =>
          exact iff_of_false (fun ⟨_, found⟩ => nomatch found) fun ⟨_, same⟩ => nomatch same
      | object fields => exact iff_of_true ⟨_, rfl⟩ ⟨_, rfl⟩

namespace Settings

/-- A document is a mapping or says nothing. -/
def IsMappingOrNothing (document : Document) : Prop :=
  (∃ fields, document.rootValue = .object fields) ∨ document.rootValue = .null

/-- Mappings and documents that say nothing come to a configuration, and all others are refused. -/
structure OnlyMappingsPass (path : String) (document : Document)
    (result : Except Fault Mapping) : Prop where
  passes : (∃ config, result = .ok config) ↔ IsMappingOrNothing document
  refuses : ¬ IsMappingOrNothing document →
    result = .error (.request (.badConfig (.notMapping (Path.tidy path))))

/-- A document is a mapping with a detector for a language that cannot be told apart. -/
def NamesUntold (document : Document) : Prop :=
  ∃ config entries, document.fields? listKeys.contains = some config ∧
    (detectorsKey, .list entries) ∈ config ∧ languagesAreTold entries = false

/-- What a document comes to, by what it is. -/
inductive DocumentComes (path : String) (document : Document) : Except Fault Mapping → Prop
  | merged {config merged : Mapping} (object : ∃ fields, document.rootValue = .object fields)
      (found : document.fields? listKeys.contains = some config)
      (laid : overlay? defaultConfig config = some merged) (told : ¬ NamesUntold document) :
      DocumentComes path document (.ok merged)
  | stuck (object : ∃ fields, document.rootValue = .object fields) (untold : NamesUntold document) :
      DocumentComes path document (.error (.misfit .wrongType))
  | nothing (missing : document.fields? listKeys.contains = none)
      (null : document.rootValue = .null) : DocumentComes path document (.ok defaultConfig)
  | hollow (missing : document.fields? listKeys.contains = none)
      (hollow : document.rootValue.IsHollow) : DocumentComes path document (.ok defaultConfig)
  | refused (missing : document.fields? listKeys.contains = none)
      (other : ¬ IsMappingOrNothing document) (full : ¬ document.rootValue.IsHollow) :
      DocumentComes path document (.error (.request (.badConfig (.notMapping path))))

section Document

variable {document : Document}

theorem not_namesUntold_of_fields?_eq_none
    (missing : document.fields? listKeys.contains = none) : ¬ NamesUntold document := by
  rintro ⟨config, -, found, -⟩
  nomatch missing.symm.trans found

theorem not_isMappingOrNothing_of_isHollow (hollow : document.rootValue.IsHollow) :
    ¬ IsMappingOrNothing document := by
  obtain ⟨-, flat, some⟩ := Value.isHollow_iff.mp hollow
  rintro (⟨fields, object⟩ | null)
  · exact flat fields object
  · exact some null

theorem documentComes_configOfDocument (path : String) (document : Document) :
    DocumentComes path document (configOfDocument path document) := by
  have sort := document.isSome_fields?_iff listKeys.contains
  unfold configOfDocument
  cases found : document.fields? listKeys.contains with
  | some config =>
      have object := sort.mp ⟨config, found⟩
      have laid := overlay?_eq_none_iff (Document.distinct_of_fields? found)
        (isReady_default config)
      dsimp only
      unfold overDefaults
      cases merges : overlay? defaultConfig config with
      | none =>
          obtain ⟨entries, member, untold⟩ := laid.mp merges
          exact .stuck object ⟨config, entries, found, member, untold⟩
      | some merged =>
          refine .merged object found merges ?_
          rintro ⟨other, entries, same, member, untold⟩
          cases found.symm.trans same
          nomatch merges.symm.trans (laid.mpr ⟨entries, member, untold⟩)
  | none =>
      have flat (fields : Mapping) : document.rootValue ≠ .object fields := by
        intro object
        obtain ⟨config, same⟩ := sort.mpr ⟨fields, object⟩
        nomatch found.symm.trans same
      dsimp only
      split
      · next given =>
        refine .refused found ?_ fun hollow => ?_
        · rintro (⟨fields, object⟩ | null)
          · exact flat fields object
          · rw [null] at given
            nomatch given
        · nomatch given.symm.trans (Value.isHollow_iff.mp hollow).1
      · next missing =>
        by_cases null : document.rootValue = .null
        · exact .nothing found null
        · exact .hollow found
            (Value.isHollow_iff.mpr ⟨eq_false_of_ne_true missing, flat, null⟩)

variable {path : String} {result : Except Fault Mapping}

/-- Only mappings and documents that say nothing pass, unless a document is one of the two
exceptions. -/
theorem DocumentComes.onlyMappingsPass_iff
    (comes : DocumentComes (Path.tidy path) document result) :
    OnlyMappingsPass path document result ↔
      ¬ document.rootValue.IsHollow ∧ ¬ NamesUntold document := by
  have not_hollow (fine : IsMappingOrNothing document) : ¬ document.rootValue.IsHollow :=
    fun hollow => not_isMappingOrNothing_of_isHollow hollow fine
  cases comes with
  | merged object _ _ told =>
      have fine : IsMappingOrNothing document := .inl object
      exact iff_of_true ⟨iff_of_true ⟨_, rfl⟩ fine, fun other => absurd fine other⟩
        ⟨not_hollow fine, told⟩
  | stuck object untold =>
      refine iff_of_false (fun only => ?_) fun fine => fine.2 untold
      obtain ⟨_, same⟩ := only.passes.mpr (.inl object)
      nomatch same
  | nothing missing null =>
      have fine : IsMappingOrNothing document := .inr null
      exact iff_of_true ⟨iff_of_true ⟨_, rfl⟩ fine, fun other => absurd fine other⟩
        ⟨not_hollow fine, not_namesUntold_of_fields?_eq_none missing⟩
  | hollow _ hollow =>
      refine iff_of_false (fun only => ?_) fun fine => fine.1 hollow
      exact not_hollow (only.passes.mp ⟨_, rfl⟩) hollow
  | refused missing other full =>
      exact iff_of_true ⟨iff_of_false (fun ⟨_, same⟩ => nomatch same) other, fun _ => rfl⟩
        ⟨full, not_namesUntold_of_fields?_eq_none missing⟩

theorem DocumentComes.overlay?_of_ok {config : Mapping}
    (comes : DocumentComes path document (.ok config)) :
    overlay? defaultConfig ((document.fields? listKeys.contains).getD []) = some config := by
  cases comes with
  | merged _ found laid => rwa [found]
  | nothing missing => rw [missing]; rfl
  | hollow missing => rw [missing]; rfl

theorem DocumentComes.eq_of_isHollow (comes : DocumentComes path document result)
    (hollow : document.rootValue.IsHollow) : result = .ok defaultConfig := by
  have other := not_isMappingOrNothing_of_isHollow hollow
  cases comes with
  | merged object => exact absurd (.inl object) other
  | stuck object => exact absurd (.inl object) other
  | nothing _ null => exact absurd (.inr null) other
  | hollow => rfl
  | refused _ _ full => exact absurd hollow full

theorem DocumentComes.eq_of_namesUntold (comes : DocumentComes path document result)
    (untold : NamesUntold document) : result = .error (.misfit .wrongType) := by
  cases comes with
  | merged _ _ _ told => exact absurd untold told
  | stuck => rfl
  | nothing missing => exact absurd untold (not_namesUntold_of_fields?_eq_none missing)
  | hollow missing => exact absurd untold (not_namesUntold_of_fields?_eq_none missing)
  | refused missing => exact absurd untold (not_namesUntold_of_fields?_eq_none missing)

end Document

/-- Whatever parser reads them, only mappings and documents that say nothing pass, except where a
document is hollow or a mapping has a detector for a language that cannot be told apart. A hollow
document leaves the default configuration as it is, and such a mapping is no matter of
configurations any more. Whatever passes comes to the default configuration with the fields of the
document, if any, laid over it. -/
theorem mappings_pass_iff {parse : Parser} {disk : Files.Disk} {path : String}
    {bytes : List UInt8} {text : String} {document : Document} (named : path ≠ "")
    (reads : disk.read path = .ok bytes)
    (decoded : textIn bytes = .ok text) (parsed : parse text = .ok document) :
    let result := configOfFile parse disk (some path)
    (OnlyMappingsPass path document result ↔
        ¬ document.rootValue.IsHollow ∧ ¬ NamesUntold document) ∧
      (∀ config, result = .ok config → overlay? defaultConfig
        ((document.fields? listKeys.contains).getD []) = some config) ∧
      (document.rootValue.IsHollow → result = .ok defaultConfig) ∧
      (NamesUntold document → result = .error (.misfit .wrongType)) := by
  intro result
  have read : result = configOfDocument (Path.tidy path) document := by
    show configOfFile parse disk (some path) = _
    rw [configOfFile_of_read reads named, decoded]
    dsimp only
    rw [parsed]
  have comes := documentComes_configOfDocument (Path.tidy path) document
  rw [← read] at comes
  refine ⟨comes.onlyMappingsPass_iff, ?_, comes.eq_of_isHollow, comes.eq_of_namesUntold⟩
  intro config same
  rw [same] at comes
  exact comes.overlay?_of_ok

/-- A list with an item is refused. -/
theorem mappings_pass_iff_of_filled_list :
    let bytes := Text.Utf8.encode "- a\n"
    let disk : Files.Disk := { tree := .folder [("c.yml", .file bytes)], current := [] }
    disk.read "/c.yml" = .ok bytes ∧ textIn bytes = .ok "- a\n" ∧
      ∃ document, Yaml.parser "- a\n" = .ok document ∧
        document.rootValue = .list [.text "a"] ∧
        OnlyMappingsPass "/c.yml" document (configOfFile Yaml.parser disk (some "/c.yml")) := by
  intro bytes disk
  have reads : disk.read "/c.yml" = .ok bytes := by decide +kernel
  have decoded : textIn bytes = .ok "- a\n" := by decide +kernel
  have parses : (Yaml.parser "- a\n").toOption.map (fun document =>
      (document.rootValue, document.fields? listKeys.contains)) =
        some (.list [.text "a"], none) := by
    decide +kernel
  cases parsed : Yaml.parser "- a\n" with
  | error problem =>
      rw [parsed] at parses
      nomatch parses
  | ok document =>
      rw [parsed] at parses
      obtain ⟨root, missing⟩ := Prod.mk.inj (Option.some.inj parses)
      refine ⟨reads, decoded, document, rfl, root, ?_⟩
      refine (mappings_pass_iff (by decide) reads decoded parsed).1.mpr ⟨?_, ?_⟩
      · rw [root]
        nofun
      · rintro ⟨config, -, same, -⟩
        nomatch missing.symm.trans same

/-- An empty list passes for a document that says nothing. -/
theorem not_onlyMappingsPass_of_empty_list :
    let disk : Files.Disk :=
      { tree := .folder [("c.yml", .file (Text.Utf8.encode "[]\n"))], current := [] }
    ∃ document, Yaml.parser "[]\n" = .ok document ∧ document.rootValue = .list [] ∧
      configOfFile Yaml.parser disk (some "/c.yml") = .ok defaultConfig ∧
      ¬ OnlyMappingsPass "/c.yml" document (configOfFile Yaml.parser disk (some "/c.yml")) := by
  intro disk
  have parses : (Yaml.parser "[]\n").toOption.map Document.rootValue =
      some (.list []) := by
    decide +kernel
  have passes : configOfFile Yaml.parser disk (some "/c.yml") = .ok defaultConfig := by
    decide +kernel
  cases parsed : Yaml.parser "[]\n" with
  | error problem =>
      rw [parsed] at parses
      nomatch parses
  | ok document =>
      rw [parsed] at parses
      have root : document.rootValue = .list [] := Option.some.inj parses
      refine ⟨document, rfl, root, passes, fun only => ?_⟩
      rcases only.passes.mp ⟨_, passes⟩ with object | null
      · rw [root] at object
        nomatch object
      · nomatch root.symm.trans null

end Settings

end SymbolJump
