/-
# Refused configurations

Whatever is in a configuration file, it should be read or be refused as a configuration, so that
the command line has a line for it. The text of the file is decoded, parsed into a document and laid
over the default configuration before the settings are checked. Of the parser it is only asked that
it gives a document or finds a problem of the language. Each of the other steps can get stuck: on
bytes that are no text, on detectors for a language that cannot be told apart, and on the values
that the checks cannot handle. The condition for a file to be read or refused says that none of this
happens before something is refused.
-/
import SymbolJump.CommandLine.Run
import SymbolJump.Proofs.StateFiles
import SymbolJump.Proofs.Verdicts
import SymbolJump.Yaml.Parser

namespace SymbolJump

namespace Mapping

/-- No two keys of a mapping are worth the same. -/
def Distinct (fields : Mapping) : Prop :=
  fields.Pairwise fun first second => first.1.alike second.1 = false

theorem mem_set {fields : Mapping} {key : Scalar} {value : Value} {field : Scalar × Value}
    (member : field ∈ fields.set key value) :
    field.1 = key ∨ ∃ other ∈ fields, other.1 = field.1 := by
  induction fields with
  | nil => exact .inl (congrArg Prod.fst (List.mem_singleton.mp member))
  | cons first fields ih =>
      obtain ⟨k, v⟩ := first
      unfold set at member
      split at member
      · rcases List.mem_cons.mp member with rfl | later
        · exact .inr ⟨_, List.mem_cons_self, rfl⟩
        · exact .inr ⟨field, List.mem_cons_of_mem _ later, rfl⟩
      · rcases List.mem_cons.mp member with rfl | later
        · exact .inr ⟨_, List.mem_cons_self, rfl⟩
        · rcases ih later with here | ⟨other, among, same⟩
          · exact .inl here
          · exact .inr ⟨other, List.mem_cons_of_mem _ among, same⟩

theorem Distinct.set {fields : Mapping} (distinct : Distinct fields) (key : Scalar)
    (value : Value) : Distinct (fields.set key value) := by
  induction fields with
  | nil => exact List.pairwise_singleton _ _
  | cons first fields ih =>
      obtain ⟨k, v⟩ := first
      obtain ⟨differ, distinct⟩ := List.pairwise_cons.mp distinct
      unfold Mapping.set
      split
      · exact List.pairwise_cons.mpr ⟨differ, distinct⟩
      · next other =>
        refine List.pairwise_cons.mpr ⟨fun field member => ?_, ih distinct⟩
        rcases mem_set member with here | ⟨field', among, same⟩
        · rw [here]
          exact eq_false_of_ne_true other
        · rw [← same]
          exact differ field' among

theorem distinct_ofFields (fields : List (Scalar × Value)) : Distinct (ofFields fields) :=
  List.foldlRecOn fields _ .nil fun _ distinct _ _ => distinct.set _ _

end Mapping

/-- The fields of a document have different keys. -/
theorem Document.distinct_of_fields? {document : Document} {isOpened : Scalar → Bool}
    {config : Mapping} (found : document.fields? isOpened = some config) : config.Distinct := by
  unfold fields? at found
  split at found
  · rw [← Option.some.inj found]
    exact Mapping.distinct_ofFields _
  · nomatch found
  · split at found
    · rw [← Option.some.inj found]
      exact Mapping.distinct_ofFields _
    · nomatch found

namespace Settings

/-- A mapping is ready to have fields laid over it: no object stands where they go, and a list of
detectors that can be told apart where such a list goes. -/
structure IsReady (base update : Mapping) : Prop where
  flat : ∀ field ∈ update, ∀ fields, base.get? field.1 ≠ some (.object fields)
  told : ∀ field ∈ update, field.1 = detectorsKey →
    ∃ known, base.get? field.1 = some (.list known) ∧ languagesAreTold known = true

theorem overlayValue?_eq_none_iff {base update : Mapping} {key : Scalar} {value : Value}
    (ready : IsReady base ((key, value) :: update)) :
    overlayValue? key (base.get? key) value = none ↔
      key = detectorsKey ∧ ∃ entries, value = .list entries ∧ languagesAreTold entries = false := by
  have flat := ready.flat _ List.mem_cons_self
  have told := ready.told _ List.mem_cons_self
  dsimp only at flat told
  have unlisted (other : ∀ entries, value ≠ .list entries) :
      ¬ (key = detectorsKey ∧
        ∃ entries, value = .list entries ∧ languagesAreTold entries = false) := by
    rintro ⟨-, entries, same, -⟩
    exact other entries same
  cases value with
  | object fields =>
      refine iff_of_false ?_ (unlisted fun _ => Value.noConfusion)
      unfold overlayValue?
      split
      · next base' there => exact absurd there (flat _)
      · exact Option.some_ne_none _
  | list entries =>
      by_cases here : key = detectorsKey
      · obtain ⟨known, there, told⟩ := told here
        rw [there, overlayValue?, if_pos here, overlayEntries?, told, Bool.true_and]
        cases mixed : languagesAreTold entries with
        | false => exact iff_of_true rfl ⟨here, entries, rfl, mixed⟩
        | true =>
            refine iff_of_false (Option.some_ne_none _) ?_
            rintro ⟨-, others, same, untold⟩
            cases same
            exact Bool.noConfusion (mixed.symm.trans untold)
      · refine iff_of_false ?_ fun both => here both.1
        unfold overlayValue?
        split
        · rw [if_neg here]
          exact Option.some_ne_none _
        · exact Option.some_ne_none _
  | _ => exact iff_of_false (Option.some_ne_none _) (unlisted fun _ => Value.noConfusion)

theorem IsReady.set {base update : Mapping} {key : Scalar} {value : Value}
    (ready : IsReady base ((key, value) :: update))
    (distinct : Mapping.Distinct ((key, value) :: update)) (merged : Value) :
    IsReady (base.set key merged) update := by
  have kept (field : Scalar × Value) (member : field ∈ update) :
      (base.set key merged).get? field.1 = base.get? field.1 :=
    Mapping.get?_set_of_not_alike _ _ ((List.pairwise_cons.mp distinct).1 field member)
  constructor
  · intro field member fields
    rw [kept field member]
    exact ready.flat field (List.mem_cons_of_mem _ member) fields
  · intro field member here
    rw [kept field member]
    exact ready.told field (List.mem_cons_of_mem _ member) here

/-- Laying fields over a mapping gets stuck just on detectors for a language that cannot be told
apart. -/
theorem overlay?_eq_none_iff {base update : Mapping} (distinct : update.Distinct)
    (ready : IsReady base update) :
    overlay? base update = none ↔
      ∃ entries, (detectorsKey, .list entries) ∈ update ∧ languagesAreTold entries = false := by
  induction update generalizing base with
  | nil => exact iff_of_false (fun same => nomatch same) fun ⟨_, member, _⟩ => nomatch member
  | cons field update ih =>
      obtain ⟨key, value⟩ := field
      have here := overlayValue?_eq_none_iff ready
      unfold overlay?
      cases laid : overlayValue? key (base.get? key) value with
      | none =>
          obtain ⟨rfl, entries, rfl, untold⟩ := here.mp laid
          exact iff_of_true rfl ⟨entries, List.mem_cons_self, untold⟩
      | some merged =>
          rw [laid] at here
          refine (ih (List.pairwise_cons.mp distinct).2 (ready.set distinct merged)).trans ?_
          refine exists_congr fun entries => and_congr_left fun untold => ?_
          rw [List.mem_cons]
          refine (or_iff_right fun same => ?_).symm
          obtain ⟨key, value⟩ := Prod.mk.inj same
          exact nomatch here.mpr ⟨key.symm, entries, value.symm, untold⟩

theorem isReady_default (update : Mapping) : IsReady defaultConfig update := by
  have found {key : Scalar} {value : Value} (there : Mapping.get? defaultConfig key = some value) :
      ∃ field ∈ defaultConfig, field.2 = value := by
    obtain ⟨field, found, same⟩ := Option.map_eq_some_iff.mp there
    exact ⟨field, List.mem_of_find?_eq_some found, same⟩
  constructor
  · intro field _ fields there
    obtain ⟨other, member, same⟩ := found there
    have flat : ∀ field ∈ defaultConfig, ∀ fields, field.2 ≠ .object fields := by
      simp [defaultConfig, textList]
    exact flat other member fields same
  · intro field _ here
    rw [here]
    exact ⟨defaultDetectors, rfl, by decide +kernel⟩

/-- The text that the bytes of a file encode, with line endings unified. -/
def textIn (bytes : List UInt8) : Except Text.Utf8.Malformed String :=
  (Text.Utf8.decode bytes).map fun text => String.ofList (Text.unifyLineEndings text.toList)

open Verdict (Comes)

section File

variable {parse : Parser} {disk : Files.Disk} {path : String} {bytes : List UInt8}

theorem readText_of_read (reads : disk.read path = .ok bytes) :
    disk.readText path = (textIn bytes).mapError .encoding := by
  rw [Files.Disk.readText, reads, textIn]
  dsimp only [bind, Except.bind]
  cases Text.Utf8.decode bytes <;> rfl

theorem configOfFile_of_read (reads : disk.read path = .ok bytes) (named : path ≠ "") :
    configOfFile parse disk (some path) =
      match textIn bytes with
      | .error malformed => .error (.encoding malformed)
      | .ok text =>
          match parse text with
          | .error error => .error (error.toFault (Path.tidy path))
          | .ok document => configOfDocument (Path.tidy path) document := by
  have file : configOfFile parse disk (some path) = do
      if ← disk.exists? path then
        match parse (← disk.readText path) with
        | .error error => .error (error.toFault (Path.tidy path))
        | .ok document => configOfDocument (Path.tidy path) document
      else return defaultConfig := by
    unfold configOfFile
    split
    · next none => nomatch none
    · next empty => exact absurd (Option.some.inj empty) named
    · next here => cases here; rfl
  rw [file, StateFile.exists?_of_read reads, readText_of_read reads]
  cases textIn bytes with
  | error malformed => rfl
  | ok text =>
      dsimp only [bind, Except.bind, Except.mapError]
      rw [if_pos rfl]

end File

end Settings

namespace CommandLine

open Settings

variable {installation : Installation}

/-- An installation whose parser takes a part of the language. -/
def plainInstallation : Installation where
  parse := Yaml.parser
  defaultState := "/state.json"

end CommandLine

end SymbolJump
