/-
# Expanded alternatives

What a tree stands for is said on the tree. Expanding works on the text instead, and replaces an
innermost group before the group around it. While the options of a group are expanded one after the
other, no brace has been closed in front of them, so what stands around a tree is carried along
unchanged, and the group itself is the first one when all its options are plain. By induction on
the tree the expansion lists one alternative of each option in turn, and all of these are what the
tree stands for.

Nothing is assumed about the braces of a pattern for the rest: whatever they are, the expansion
comes to an end, and no result holds a group that could still be replaced. With no group in another,
each group is the first one at its turn, so that the results are the product of the options.
-/
import SymbolJump.Proofs.Groups
import SymbolJump.Proofs.Nesting

namespace SymbolJump.Glob

open Text

/-! ## The first group -/

/-- A text holds a group that can be replaced: braces that pair up with no brace between them. -/
def HoldsGroup (text : List Char) : Prop :=
  ∃ before inside after, text = before ++ '\x7b' :: (inside ++ '\x7d' :: after) ∧
    ∀ c ∈ inside, isBrace c = false

/-- No brace is closed behind one that is opened. -/
def Unenclosing (text : List Char) : Prop :=
  text.Pairwise fun c later => c = '\x7b' → later ≠ '\x7d'

instance (text : List Char) : Decidable (Unenclosing text) :=
  inferInstanceAs (Decidable (List.Pairwise _ text))

section FirstGroup

variable {before inside after option pattern : List Char}

theorem unenclosing_of_not_mem (unclosed : '\x7d' ∉ before) : Unenclosing before :=
  List.Pairwise.imp_of_mem (fun _ member _ _ => ne_of_mem_of_not_mem member unclosed)
    (List.pairwise_of_forall fun _ _ => trivial)

/-- A text without braces can be put anywhere. -/
theorem Unenclosing.insert (apart : Unenclosing (before ++ after))
    (plain : ∀ c ∈ option, isBrace c = false) : Unenclosing (before ++ option ++ after) := by
  have opensNone : '\x7b' ∉ option := fun member => nomatch plain _ member
  have closesNone : '\x7d' ∉ option := fun member => nomatch plain _ member
  have inner := unenclosing_of_not_mem closesNone
  simp only [Unenclosing, List.pairwise_append] at apart inner ⊢
  grind

theorem firstGroup?_of_unenclosing (apart : Unenclosing pattern) : firstGroup? pattern = none := by
  cases found : firstGroup? pattern with
  | none => rfl
  | some cut =>
      obtain ⟨before, inside, after⟩ := cut
      rw [(eq_of_firstGroup? found).1] at apart
      have closes : '\x7d' ∈ inside ++ '\x7d' :: after := by simp
      have behind := (List.pairwise_cons.mp (List.pairwise_append.mp apart).2.1).1 _ closes
      exact absurd rfl (behind rfl)

theorem firstGroup?_cons (plain : ∀ c ∈ inside, isBrace c = false) :
    firstGroup? ('\x7b' :: (inside ++ '\x7d' :: after)) = some ([], inside, after) := by
  have passes : ∀ c ∈ inside, (!isBrace c) = true := fun c member => by rw [plain c member]; rfl
  have closes : isBrace '\x7d' = true := rfl
  rw [firstGroup?, if_pos rfl, List.dropWhile_append_of_pos passes,
    List.takeWhile_append_of_pos passes]
  simp [closes]

/-- The next brace is an opening one, when none is closed in front of one that is opened. -/
theorem dropWhile_ne_of_unclosed (unclosed : '\x7d' ∉ before) (rest : List Char) :
    (before ++ '\x7b' :: after).dropWhile (fun c => !isBrace c) ≠ '\x7d' :: rest := by
  induction before with
  | nil => simp [isBrace]
  | cons c before ih =>
      rw [List.cons_append]
      cases brace : isBrace c with
      | false => simpa [brace] using ih (List.not_mem_of_not_mem_cons unclosed)
      | true =>
          have differ := List.ne_of_not_mem_cons unclosed
          simpa [brace] using fun same : c = '\x7d' => absurd same.symm differ

/-- A group without inner braces is the first one, when nothing in front of it is enclosed. -/
theorem firstGroup?_append (apart : Unenclosing before)
    (plain : ∀ c ∈ inside, isBrace c = false) :
    firstGroup? (before ++ '\x7b' :: (inside ++ '\x7d' :: after)) =
      some (before, inside, after) := by
  induction before with
  | nil => exact firstGroup?_cons plain
  | cons c before ih =>
      obtain ⟨behind, apart⟩ := List.pairwise_cons.mp apart
      rw [List.cons_append, firstGroup?, ih apart]
      dsimp only [Option.map_some]
      split
      · next opens =>
        have unclosed : '\x7d' ∉ before := fun closes => behind _ closes opens rfl
        split
        · next closes => exact absurd closes (dropWhile_ne_of_unclosed unclosed _)
        · rfl
      · rfl

theorem not_holdsGroup_of_none (none : firstGroup? pattern = none) : ¬ HoldsGroup pattern := by
  rintro ⟨before, inside, after, rfl, plain⟩
  induction before with
  | nil => exact Option.some_ne_none _ ((firstGroup?_cons plain).symm.trans none)
  | cons c before ih =>
      have further : firstGroup? (before ++ '\x7b' :: (inside ++ '\x7d' :: after)) = .none := by
        rw [List.cons_append, firstGroup?] at none
        split at none
        · split at none
          · exact absurd none (Option.some_ne_none _)
          · exact Option.map_eq_none_iff.mp none
        · exact Option.map_eq_none_iff.mp none
      exact ih further

end FirstGroup

/-! ## The course of an expansion -/

/-- The results of replacing the first group as long as there is one. Nothing here limits how often
that happens. -/
inductive ExpandsTo : List Char → List (List Char) → Prop
  | done {pattern : List Char} (none : firstGroup? pattern = none) : ExpandsTo pattern [pattern]
  | replace {pattern before inside after : List Char} (results : List Char → List (List Char))
      (found : firstGroup? pattern = some (before, inside, after))
      (each : ∀ option ∈ splitOn ',' inside,
        ExpandsTo (before ++ option ++ after) (results option)) :
      ExpandsTo pattern ((splitOn ',' inside).flatMap results)

/-- An expansion comes to an end: each replacement takes an opening brace away. -/
theorem expandsTo_expandChars (pattern : List Char) :
    ExpandsTo pattern (expandChars pattern) := by
  induction groups : pattern.count '\x7b' using Nat.strong_induction_on generalizing pattern with
  | _ groups ih =>
      cases first : firstGroup? pattern with
      | none =>
          rw [expandChars_of_none first]
          exact .done first
      | some cut =>
          obtain ⟨before, inside, after⟩ := cut
          rw [expandChars_of_some first]
          refine .replace _ first fun option among => ih _ ?_ _ rfl
          have fewer := count_of_firstGroup? first among
          omega

/-- No result of an expansion holds a group. -/
theorem ExpandsTo.not_holdsGroup {pattern : List Char} {texts : List (List Char)}
    (expands : ExpandsTo pattern texts) : ∀ text ∈ texts, ¬ HoldsGroup text := by
  induction expands with
  | done none => exact List.forall_mem_singleton.mpr (not_holdsGroup_of_none none)
  | replace results found each ih =>
      intro text member
      obtain ⟨option, among, there⟩ := List.mem_flatMap.mp member
      exact ih option among text there

/-! ## Plain options -/

section Plain

variable {front : List Char} {options : List (List Char)}

theorem not_mem_of_isLiteral {inGroup : Bool} {text : List Char}
    (literal : ∀ c ∈ text, IsLiteral inGroup c) : '\x7d' ∉ text := by
  intro member
  nomatch (literal _ member).1

theorem isBrace_of_mem_intercalate
    (literal : ∀ option ∈ options, ∀ c ∈ option, IsLiteral true c) :
    ∀ c ∈ [','].intercalate options, isBrace c = false := by
  intro c member
  rcases mem_of_mem_intercalate member with rfl | ⟨option, among, inside⟩
  · rfl
  · exact (literal option among c inside).1

/-- A group of plain options is replaced by each of them in turn. -/
theorem expandChars_group (apart : Unenclosing front) (some : options ≠ [])
    (literal : ∀ option ∈ options, ∀ c ∈ option, IsLiteral true c) (back : List Char) :
    expandChars (front ++ '\x7b' :: ([','].intercalate options ++ '\x7d' :: back)) =
      options.flatMap fun option => expandChars (front ++ option ++ back) := by
  have whole : ∀ option ∈ options, ',' ∉ option := fun option among comma =>
    (literal option among _ comma).2 rfl rfl
  rw [expandChars_of_some (firstGroup?_append apart (isBrace_of_mem_intercalate literal)),
    splitOn_intercalate some whole]

end Plain

/-! ## Patterns without groups in groups -/

/-- A part of a pattern without groups in groups: a character, which may be a brace that pairs up
with none, or a group of plain options. -/
inductive Segment
  | char (c : Char)
  | group (options : List (List Char)) (some : options ≠ [])
      (literal : ∀ option ∈ options, ∀ c ∈ option, IsLiteral true c)

namespace Segment

def text : Segment → List Char
  | .char c => [c]
  | .group options _ _ => '\x7b' :: ([','].intercalate options ++ ['\x7d'])

/-- What stands outside of groups. -/
def outside : Segment → List Char
  | .char c => [c]
  | .group _ _ _ => []

/-- The texts that may take the place of a part. -/
def offers : Segment → List (List Char)
  | .char c => [[c]]
  | .group options _ _ => options

end Segment

/-- Each group is the first one at its turn, and a part at the front stays as it is. -/
theorem expandChars_append_segments (front : List Char) {segments : List Segment}
    (apart : Unenclosing (front ++ segments.flatMap Segment.outside)) :
    expandChars (front ++ segments.flatMap Segment.text) =
      (choices (segments.map Segment.offers)).map fun choice => front ++ choice.flatten := by
  induction segments generalizing front with
  | nil =>
      rw [List.flatMap_nil, List.append_nil] at *
      simpa [choices] using expandChars_of_none (firstGroup?_of_unenclosing apart)
  | cons segment segments ih =>
      cases segment with
      | char c =>
          have apart : Unenclosing (front ++ [c] ++ segments.flatMap Segment.outside) := by
            simpa [Segment.outside] using apart
          simpa [Segment.text, Segment.offers, choices, Function.comp_def] using ih _ apart
      | group options some literal =>
          have before := (List.pairwise_append.mp apart).1
          have expanded := expandChars_group before some literal (segments.flatMap Segment.text)
          have moved :
              front ++ (Segment.group options some literal :: segments).flatMap Segment.text =
                front ++ '\x7b' ::
                  ([','].intercalate options ++ '\x7d' :: segments.flatMap Segment.text) := by
            simp [Segment.text]
          rw [moved, expanded, List.map_cons, choices, List.map_flatMap]
          apply List.flatMap_congr
          intro option among
          rw [ih _ (apart.insert fun c inside => (literal option among c inside).1)]
          simp [Function.comp_def]

/-- With no group in a group, a pattern is expanded to the product of what its parts offer. -/
theorem expandChars_segments {segments : List Segment}
    (apart : Unenclosing (segments.flatMap Segment.outside)) :
    expandChars (segments.flatMap Segment.text) =
      (choices (segments.map Segment.offers)).map List.flatten := by
  simpa using expandChars_append_segments [] apart

/-! ## Expanding the text of a tree -/

section Expanding

variable {inGroup : Bool} {options : Options}

/-- By the time that the options of a group are chosen, they are plain. -/
theorem Options.isLiteral_of_mem_choices {choice : List (List Char)}
    (chosen : choice ∈ choices options.alternatives) :
    ∀ text ∈ choice, ∀ c ∈ text, IsLiteral true c := by
  intro text inside
  have among := (mem_flatten_choices_iff fun option _ => option.alternatives_ne_nil).mp
    (List.mem_flatten_of_mem chosen inside)
  obtain ⟨option, _, there⟩ := among
  exact option.isLiteral_of_mem_alternatives text there

theorem Options.ne_nil_of_mem_choices {choice : List (List Char)}
    (chosen : choice ∈ choices options.alternatives) : choice ≠ [] := by
  rintro rfl
  have none := (List.forall₂_nil_left_iff.mp (mem_choices_iff.mp chosen))
  rw [options.alternatives_eq] at none
  exact options.toList_ne_nil (List.map_eq_nil_iff.mp none)

/-- When each option may be expanded where it stands, so may all of them, one after the other. -/
theorem Options.expandChars_append (options : Options)
    (each : ∀ option ∈ options.toList, ∀ {front : List Char}, '\x7d' ∉ front → ∀ back,
      expandChars (front ++ option.text ++ back) =
        option.alternatives.flatMap fun text => expandChars (front ++ text ++ back))
    {front : List Char} (unclosed : '\x7d' ∉ front) (back : List Char) :
    expandChars (front ++ options.text ++ back) =
      (choices options.alternatives).flatMap fun choice =>
        expandChars (front ++ [','].intercalate choice ++ back) := by
  cases options with
  | last option =>
      rw [text, each option (by simp [toList]) unclosed]
      simp [alternatives, choices, List.flatMap_assoc]
  | more option others =>
      obtain ⟨here, later⟩ := List.forall_mem_cons.mp each
      have moved : front ++ (Options.more option others).text ++ back =
          front ++ option.text ++ (',' :: (others.text ++ back)) := by
        simp [text]
      rw [moved, here unclosed, alternatives, flatMap_choices_cons]
      apply List.flatMap_congr
      intro text member
      have closesNone := not_mem_of_isLiteral (option.isLiteral_of_mem_alternatives text member)
      have unclosed : '\x7d' ∉ front ++ text ++ [','] := by simp [unclosed, closesNone]
      have moved : front ++ text ++ ',' :: (others.text ++ back) =
          front ++ text ++ [','] ++ others.text ++ back := by simp
      rw [moved, others.expandChars_append later unclosed]
      apply List.flatMap_congr
      intro choice chosen
      rw [List.intercalate_cons_of_ne_nil (ne_nil_of_mem_choices chosen)]
      simp

/-- Where no brace is closed in front of a tree, expanding puts its alternatives in its place, and
leaves what stands around it as it is. -/
theorem Tree.expandChars_append (tree : Tree inGroup) {front : List Char}
    (unclosed : '\x7d' ∉ front) (back : List Char) :
    expandChars (front ++ tree.text ++ back) =
      tree.alternatives.flatMap fun text => expandChars (front ++ text ++ back) := by
  induction tree using Tree.induction generalizing front back with
  | nil => simp [text, alternatives]
  | char _ c literal rest ih =>
      have unclosed : '\x7d' ∉ front ++ [c] := by
        have differ : '\x7d' ≠ c := by
          rintro rfl
          exact absurd literal.1 (by decide)
        simp [unclosed, differ]
      have moved : front ++ (Tree.char c literal rest).text ++ back =
          front ++ [c] ++ rest.text ++ back := by simp [text]
      rw [moved, ih unclosed, alternatives, List.flatMap_map]
      simp
  | group _ options rest within ih =>
      have opened : '\x7d' ∉ front ++ ['\x7b'] := by simp [unclosed]
      have moved : front ++ (Tree.group options rest).text ++ back =
          front ++ ['\x7b'] ++ options.text ++ ('\x7d' :: (rest.text ++ back)) := by simp [text]
      rw [moved, options.expandChars_append within opened, alternatives, List.flatMap_assoc,
        List.flatten_eq_flatMap, List.flatMap_assoc]
      apply List.flatMap_congr
      intro choice chosen
      -- All options are plain by now, and nothing in front of the group is enclosed.
      have literal := Options.isLiteral_of_mem_choices chosen
      have expanded := expandChars_group (unenclosing_of_not_mem unclosed)
        (Options.ne_nil_of_mem_choices chosen) literal (rest.text ++ back)
      rw [List.append_assoc front, List.singleton_append, List.append_assoc front,
        List.cons_append, expanded]
      apply List.flatMap_congr
      intro option among
      have unclosed : '\x7d' ∉ front ++ option := by
        simp [unclosed, not_mem_of_isLiteral (literal option among)]
      rw [← List.append_assoc, ih unclosed, List.flatMap_map]
      simp

/-- A tree is expanded to its alternatives. -/
theorem Tree.expandChars_text (tree : Tree inGroup) :
    expandChars tree.text = tree.alternatives := by
  have expanded := tree.expandChars_append List.not_mem_nil []
  rw [List.nil_append, List.append_nil] at expanded
  rw [expanded]
  have same : ∀ text ∈ tree.alternatives, expandChars ([] ++ text ++ []) = [text] := by
    intro text member
    rw [List.nil_append, List.append_nil]
    have literal := tree.isLiteral_of_mem_alternatives text member
    exact expandChars_of_none
      (firstGroup?_of_unenclosing (unenclosing_of_not_mem (not_mem_of_isLiteral literal)))
  rw [List.flatMap_congr same, List.flatMap_singleton']

end Expanding

/-! ## The result -/

/-- The list holds what a tree stands for, and at least something; and no brace is left. -/
structure IsExpansion (tree : Tree false) (texts : List String) : Prop where
  some : texts ≠ []
  plain : ∀ text ∈ texts, ∀ c ∈ text.toList, isBrace c = false
  denoted : ∀ text, text ∈ texts ↔ tree.Denotes text.toList

theorem mem_expand_iff {pattern text : String} :
    text ∈ expand pattern ↔ text.toList ∈ expandChars pattern.toList := by
  rw [expand, List.mem_map]
  constructor
  · rintro ⟨text, member, rfl⟩
    rwa [String.toList_ofList]
  · intro member
    exact ⟨_, member, String.ofList_toList⟩

theorem Tree.isExpansion {tree : Tree false} {pattern : String}
    (reads : tree.text = pattern.toList) : IsExpansion tree (expand pattern) := by
  have expanded := tree.expandChars_text
  rw [reads] at expanded
  constructor
  · rw [expand, expanded]
    simpa using tree.alternatives_ne_nil
  · intro text member c inside
    rw [mem_expand_iff, expanded] at member
    exact (tree.isLiteral_of_mem_alternatives _ member c inside).1
  · intro text
    rw [mem_expand_iff, expanded, Tree.mem_alternatives_iff]

/-- The expansion of a pattern comes to an end, and no result holds a group. With no group in a
group the results are the product of the options, the leftmost group varying slowest. When the
braces pair up, the results are, as a set, what the tree of the pattern stands for. -/
theorem expand_alternatives (pattern : String) :
    ExpandsTo pattern.toList ((expand pattern).map String.toList) ∧
    (∀ text ∈ expand pattern, ¬ HoldsGroup text.toList) ∧
    (∀ segments : List Segment, segments.flatMap Segment.text = pattern.toList →
      Unenclosing (segments.flatMap Segment.outside) →
        expand pattern =
          (choices (segments.map Segment.offers)).map (String.ofList ·.flatten)) ∧
    (IsBalanced pattern.toList → ∃ tree : Tree false,
      (∀ other : Tree false, other.text = pattern.toList ↔ other = tree) ∧
        IsExpansion tree (expand pattern)) := by
  have ends : ExpandsTo pattern.toList ((expand pattern).map String.toList) := by
    simpa [expand] using expandsTo_expandChars pattern.toList
  refine ⟨ends, ?_, ?_, ?_⟩
  · exact fun text member => ends.not_holdsGroup _ (List.mem_map_of_mem member)
  · intro segments reads apart
    simp [expand, ← reads, expandChars_segments apart]
  · intro balanced
    obtain ⟨tree, reads⟩ := balanced.exists_text
    refine ⟨tree, fun other => ⟨fun same => ?_, fun same => by rw [same, reads]⟩, ?_⟩
    · exact Tree.eq_of_text_eq (same.trans reads.symm)
    · exact Tree.isExpansion reads

/-- A group within a group is read into the group around it, and the second of two groups varies
fastest. -/
theorem expand_alternatives_of_groups :
    (∃ tree : Tree false,
      tree.text = "\x7ba,\x7bb,c\x7dd\x7de".toList ∧ tree.Denotes "cde".toList) ∧
      expand "\x7ba,b\x7d/\x7bc,d\x7d" = ["a/c", "a/d", "b/c", "b/d"] := by
  have balanced : IsBalanced "\x7ba,\x7bb,c\x7dd\x7de".toList := by decide
  obtain ⟨tree, only, expansion⟩ := (expand_alternatives _).2.2.2 balanced
  refine ⟨⟨tree, (only tree).mpr rfl, (expansion.denoted "cde").mp (by decide)⟩, ?_⟩
  exact (expand_alternatives _).2.2.1
    [.group [['a'], ['b']] (by simp) (by simp [IsLiteral, isBrace]), .char '/',
      .group [['c'], ['d']] (by simp) (by simp [IsLiteral, isBrace])] rfl (by decide)

end SymbolJump.Glob
