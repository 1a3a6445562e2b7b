/-
# Extensions read off a pattern

Whether a source document is open is told by extensions: those read off the text of a detector's
pattern, and that of the document, from its last dot on. The two agree exactly when every pattern
that the pattern stands for ends, from its last dot on, in plain characters that are one of the
extensions. Then each file that a search for the pattern finds is recognised once it is open, unless
its name has only dots in front of the last one; and an index that was woken by loading such a file
is left alone as long as the file stays open.

A pattern for which they disagree has a path that shows it: the one with a comma in the place of
each wildcard. No extension that is read off an option holds a comma, and no tail that is read as a
whole holds a wildcard.
-/
import SymbolJump.Proofs.Detection
import SymbolJump.Proofs.Endings

namespace SymbolJump

open Text

/-! ## Extensions of paths -/

namespace Path

variable {path : String}

/-- In the last component of a path something other than dots stands in front of its last dot. -/
def HasStem (path : String) : Prop :=
  ∃ c ∈ throughLast '.' (afterLast '/' path.toList), c ≠ '.'

instance (path : String) : Decidable (HasStem path) :=
  List.decidableBEx _ _

/-- A path is a relative path, or one below some folder. -/
def IsAt (relative path : String) : Prop :=
  path = relative ∨ ∃ folder, path = folder ++ "/" ++ relative

theorem IsAt.afterLast_eq {relative : String} (at_ : IsAt relative path) :
    afterLast '/' path.toList = afterLast '/' relative.toList := by
  rcases at_ with rfl | ⟨folder, rfl⟩
  · rfl
  · have chars : (folder ++ "/" ++ relative).toList = folder.toList ++ '/' :: relative.toList := by
      simp
    rw [chars, afterLast_append_cons]

theorem IsAt.hasStem_iff {relative : String} (at_ : IsAt relative path) :
    HasStem path ↔ HasStem relative := by
  rw [HasStem, HasStem, at_.afterLast_eq]

theorem IsAt.extension_eq {relative : String} (at_ : IsAt relative path) :
    extension path = extension relative := by
  rw [extension, extension, at_.afterLast_eq]

/-- The extension of a path with a stem begins at its last dot. -/
theorem extension_of_hasStem (stem : HasStem path) :
    extension path = String.ofList ('.' :: afterLast '.' (afterLast '/' path.toList)) := by
  obtain ⟨c, member, other⟩ := stem
  have whole := throughLast_append_afterLast '.' (afterLast '/' path.toList)
  rcases closedBy_throughLast '.' (afterLast '/' path.toList) with none | ⟨front, some⟩
  · rw [none] at member
    nomatch member
  · rw [some, List.mem_append, List.mem_singleton, or_iff_left other] at member
    rw [some, List.append_assoc, List.singleton_append] at whole
    have kept : (front.dropWhile (· = '.')).isEmpty = false := by
      rw [List.isEmpty_eq_false_iff, ne_eq, List.dropWhile_eq_nil_iff]
      exact fun all => other (of_decide_eq_true (all c member))
    unfold extension
    dsimp only
    rw [← whole, List.dropWhile_append, kept, if_neg Bool.false_ne_true, afterLast_append_cons,
      afterLast_append_cons]
    simp

theorem extension_of_not_hasStem (none : ¬ HasStem path) : extension path = "" := by
  have whole := throughLast_append_afterLast '.' (afterLast '/' path.toList)
  have dots : ∀ c ∈ throughLast '.' (afterLast '/' path.toList), decide (c = '.') = true := by
    intro c member
    by_contra other
    exact none ⟨c, member, by simpa using other⟩
  have without := not_mem_afterLast '.' (afterLast '/' path.toList)
  unfold extension
  dsimp only
  rw [← whole, List.dropWhile_append_of_pos dots, if_neg]
  rw [List.contains_iff_mem]
  exact fun dot => without ((List.dropWhile_suffix _).subset dot)

end Path

/-! ## Extensions of patterns -/

namespace Detector

open Glob

variable {pattern tail : List Char}

/-- A pattern ends, from its last dot on, in one of some extensions, spelt out in plain
characters. -/
def EndsInExtension (known : List String) (pattern : List Char) : Prop :=
  '.' ∈ pattern ∧ (∀ c ∈ afterLast '.' pattern, IsPlain c ∧ c ≠ '/') ∧
    String.ofList ('.' :: afterLast '.' pattern) ∈ known

instance (known : List String) (pattern : List Char) : Decidable (EndsInExtension known pattern) :=
  -- The characters of the extension are looked at, and not all characters there are.
  have : Decidable (∀ c ∈ afterLast '.' pattern, IsPlain c ∧ c ≠ '/') := List.decidableBAll _ _
  inferInstanceAs (Decidable (_ ∧ _ ∧ _))

/-- Every pattern that a pattern stands for ends in an extension that is read off. -/
def SpellsExtensions (pattern : List Char) : Prop :=
  ∀ alternative ∈ expandChars pattern,
    EndsInExtension (extensionsOfPattern pattern) alternative

instance (pattern : List Char) : Decidable (SpellsExtensions pattern) :=
  List.decidableBAll _ _

/-- Each path at which a pattern matches has an extension that is read off, if it has a stem. -/
def SelectsExtensions (pattern : List Char) : Prop :=
  ∀ path : String, matchesChars pattern path.toList = true → Path.HasStem path →
    Path.extension path ∈ extensionsOfPattern pattern

theorem SpellsExtensions.selects (spells : SpellsExtensions pattern) :
    SelectsExtensions pattern := by
  intro path matched stem
  obtain ⟨alternative, member, means⟩ := (matchesChars_iff _ _).mp matched
  obtain ⟨dot, plain, known⟩ := spells alternative member
  obtain ⟨front, cut⟩ :=
    suffix_of_means means (fun c inside => (plain c inside).1) (suffix_of_mem dot)
  have within : '/' ∉ '.' :: afterLast '.' alternative := by
    rw [List.mem_cons, not_or]
    exact ⟨by decide, fun slash => (plain _ slash).2 rfl⟩
  rwa [Path.extension_of_hasStem stem, ← cut, afterLast_append_of_not_mem front within,
    afterLast_append (not_mem_afterLast '.' alternative)]

/-- What a pattern with extensions ends by: a group, whose options hold no comma, or a tail without
wildcards that is read as a whole. -/
inductive IsRead (pattern : List Char) : List Char → Prop
  | group {inside : List Char} (plain : ∀ c ∈ inside, isBrace c = false)
      (known : ∀ letters, String.ofList ('.' :: letters) ∈ extensionsOfPattern pattern →
        ',' ∉ letters) : IsRead pattern ('\x7b' :: (inside ++ ['\x7d']))
  | whole {tail : List Char} (plain : ∀ c ∈ tail, IsPlain c) (unopened : '\x7b' ∉ tail)
      (known : extensionsOfPattern pattern = [String.ofList ('.' :: tail)]) : IsRead pattern tail

theorem exists_of_wholeGroup? {text : List Char} {options : List (List Char)}
    (found : wholeGroup? text = some options) :
    ∃ inside, text = '\x7b' :: (inside ++ ['\x7d']) ∧ (∀ c ∈ inside, isBrace c = false) ∧
      options = splitOn ',' inside := by
  unfold wholeGroup? at found
  split at found
  · next inside first =>
    cases found
    obtain ⟨cut, plain⟩ := eq_of_firstGroup? first
    exact ⟨inside, cut, plain, rfl⟩
  · nomatch found

theorem exists_endsBy (some : extensionsOfPattern pattern ≠ []) :
    ∃ tail, EndsBy tail pattern ∧ '/' ∉ tail ∧ IsRead pattern tail := by
  have known : extensionsOfPattern pattern = extensionsOfPattern pattern := rfl
  conv at known => rhs; unfold extensionsOfPattern
  split at known
  · next tail last =>
    have without := not_mem_afterLast '/' pattern
    have cut := throughLast_append_afterLast '/' pattern
    rw [last] at cut without
    have within : '/' ∉ tail := fun slash => without (by simp [slash])
    refine ⟨tail, ⟨_, closedBy_throughLast '/' pattern, cut.symm⟩, within, ?_⟩
    split at known
    · next options group =>
      obtain ⟨inside, rfl, plain, rfl⟩ := exists_of_wholeGroup? group
      refine .group plain fun letters member comma => ?_
      rw [known] at member
      obtain ⟨trimmed, among, same⟩ := List.mem_map.mp member
      obtain ⟨option, piece, rfl⟩ := List.mem_map.mp (List.mem_filter.mp among).1
      obtain rfl := (List.cons.inj (String.ofList_injective same)).2
      exact Path.not_mem_of_mem_splitOn piece (trimBoth_subset _ _ comma)
    · split at known
      · exact absurd known some
      · next special =>
        have plain : ∀ c ∈ tail, ¬ (c = '*' ∨ c = '?' ∨ c = '[' ∨ c = '\x7b') := by
          simpa [or_assoc] using special
        refine .whole (fun c member => ⟨fun star => ?_, fun mark => ?_⟩) (fun opens => ?_) known
        · exact plain c member (.inl star)
        · exact plain c member (.inr (.inl mark))
        · exact plain _ opens (.inr (.inr (.inr rfl)))
  · exact absurd known some

/-! ## The path that shows it -/

variable {alternative : List Char}

/-- With a comma in the place of each wildcard, a pattern that ends by a tail is a path with a stem,
and its extension is read off the tail. -/
theorem extension_fill (ends : EndsBy tail alternative) (within : '/' ∉ tail) :
    Path.HasStem (String.ofList (alternative.map fill)) ∧
      Path.extension (String.ofList (alternative.map fill)) =
        String.ofList ('.' :: (afterLast '.' tail).map fill) := by
  obtain ⟨front, closed, rfl⟩ := ends
  have slashes (c : Char) : fill c = '/' ↔ c = '/' := fill_eq_iff (by decide) (by decide)
  have dots (c : Char) : fill c = '.' ↔ c = '.' := fill_eq_iff (by decide) (by decide)
  have name : afterLast '/' (String.ofList ((front ++ '*' :: '.' :: tail).map fill)).toList =
      ',' :: '.' :: tail.map fill := by
    have none : '/' ∉ '*' :: '.' :: tail := by simpa using within
    rw [String.toList_ofList, afterLast_map slashes, closed.afterLast_append none]
    rfl
  have stem : Path.HasStem (String.ofList ((front ++ '*' :: '.' :: tail).map fill)) := by
    refine ⟨',', ?_, by decide⟩
    rw [name]
    exact throughLast_append_cons [','] (tail.map fill) ▸ List.mem_cons_self
  refine ⟨stem, ?_⟩
  rw [Path.extension_of_hasStem stem, name, ← afterLast_map dots]
  exact congrArg (fun letters => String.ofList ('.' :: letters))
    (afterLast_append_cons [','] (tail.map fill))

section Selecting

variable {less : List Char} (selects : SelectsExtensions pattern)
  (member : alternative ∈ expandChars pattern) (ends : EndsBy less alternative)
  (within : '/' ∉ less)
include selects member ends within

theorem SelectsExtensions.mem_fill :
    String.ofList ('.' :: (afterLast '.' less).map fill) ∈ extensionsOfPattern pattern := by
  obtain ⟨stem, same⟩ := extension_fill ends within
  rw [← same]
  refine selects _ ?_ stem
  rw [String.toList_ofList]
  exact (matchesChars_iff _ _).mpr ⟨alternative, member, means_fill alternative⟩

theorem SelectsExtensions.endsInExtension (plain : ∀ c ∈ afterLast '.' less, IsPlain c) :
    EndsInExtension (extensionsOfPattern pattern) alternative := by
  have known := selects.mem_fill member ends within
  rw [List.map_congr_left fun c inside => fill_of_isPlain (plain c inside), List.map_id'] at known
  obtain ⟨front, -, rfl⟩ := ends
  have last : afterLast '.' (front ++ '*' :: '.' :: less) = afterLast '.' less := by
    rw [List.append_cons, afterLast_append_cons]
  rw [EndsInExtension, last]
  refine ⟨by simp, fun c inside => ⟨plain c inside, ?_⟩, known⟩
  rintro rfl
  exact within ((afterLast_suffix '.' less).subset inside)

end Selecting

/-- With a wildcard in an option, the path with a comma in its place has an extension that is not
read off. So has any path that ends by less than a tail that is read as a whole. -/
theorem SelectsExtensions.spells (selects : SelectsExtensions pattern)
    (some : extensionsOfPattern pattern ≠ []) : SpellsExtensions pattern := by
  intro alternative member
  obtain ⟨tail, ends, within, read⟩ := exists_endsBy some
  cases read with
  | @group inside unbraced commas =>
      obtain ⟨option, among, ends⟩ := ends.of_mem_expandChars unbraced member
      have whole : '/' ∉ option := by
        intro slash
        have there := (Path.mem_iff_mem_splitOn (by decide) inside).mpr ⟨option, among, slash⟩
        exact within (by simp [there])
      refine selects.endsInExtension member ends whole fun c last => isPlain_of_fill ?_
      rintro comma
      exact commas _ (selects.mem_fill member ends whole) (comma ▸ List.mem_map_of_mem last)
  | whole plain unopened only =>
      rcases ends.expandsTo (expandsTo_expandChars pattern) unopened with
        all | ⟨other, there, less, ends, among, fewer⟩
      · exact selects.endsInExtension member (all alternative member) within fun c last =>
          plain c ((afterLast_suffix '.' tail).subset last)
      · have known := selects.mem_fill there ends fun slash => within (among slash)
        rw [only, List.mem_singleton] at known
        have same := congrArg List.length (List.cons.inj (String.ofList_injective known)).2
        rw [List.length_map] at same
        have bound := (afterLast_suffix '.' less).length_le
        omega

/-- The pattern of an entry of a list of detectors, when it is a text. -/
def patternOf? : Value → Option String
  | .object fields =>
      match Mapping.getOrNull fields "glob" with
      | .text word => some word
      | _ => none
  | _ => none

/-- Every default detector has a pattern that spells its extensions. -/
theorem spellsExtensions_of_default : ∀ word ∈ Settings.defaultDetectors.filterMap patternOf?,
    extensionsOfPattern word.toList ≠ [] ∧ SpellsExtensions word.toList := by
  decide +kernel

/-! ## Open documents -/

/-- An extension that is read off begins with a dot. -/
theorem exists_of_mem_extensionsOfPattern {extension : String}
    (member : extension ∈ extensionsOfPattern pattern) :
    ∃ letters, extension = String.ofList ('.' :: letters) := by
  unfold extensionsOfPattern at member
  split at member
  · split at member
    · obtain ⟨letters, -, rfl⟩ := List.mem_map.mp member
      exact ⟨letters, rfl⟩
    · split at member
      · nomatch member
      · exact ⟨_, List.mem_singleton.mp member⟩
  · nomatch member

variable {documents : List String} {detectors : List Detector} {detector : Detector}
  {word path : String}

/-- A source document is open when an open document has an extension of one of the detectors, all of
whose patterns are texts. -/
theorem anyOpen_of_mem (texts : ∀ detector ∈ detectors, ∃ word, detector.pattern = .text word)
    (member : detector ∈ detectors) (isText : detector.pattern = .text word)
    (opened : path ∈ documents)
    (known : Path.extension path ∈ extensionsOfPattern word.toList) :
    anyOpen documents detectors = .ok true := by
  obtain ⟨answer, answers⟩ := (anyOpen_iff documents detectors).mpr texts
  have read : detector.extensions = .ok (extensionsOfPattern word.toList).eraseDups := by
    rw [extensions, isText]
  have among := List.mem_eraseDups.mpr known
  rw [answers, (anyOpen_eq_true_iff answers).mpr
    ⟨path, opened, detector, member, _, read, among⟩]

theorem anyOpen_singleton_iff (isText : detector.pattern = .text word) :
    anyOpen [path] [detector] = .ok true ↔
      Path.extension path ∈ extensionsOfPattern word.toList := by
  have texts : ∀ other ∈ [detector], ∃ word, other.pattern = .text word :=
    List.forall_mem_singleton.mpr ⟨word, isText⟩
  constructor
  · intro answers
    obtain ⟨path, opened, other, member, known, read, among⟩ :=
      (anyOpen_eq_true_iff answers).mp rfl
    rw [List.mem_singleton.mp member, extensions, isText] at read
    cases read
    rw [← List.mem_singleton.mp opened]
    exact List.mem_eraseDups.mp among
  · exact anyOpen_of_mem texts List.mem_cons_self isText List.mem_cons_self

end Detector

end SymbolJump
