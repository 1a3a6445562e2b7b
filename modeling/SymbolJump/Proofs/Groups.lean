/-
# Groups in patterns

The first group without inner braces cuts a pattern in three, and putting one of its options in
its place takes one opening brace away. So the number of groups that an expansion may replace is
never used up, and expanding is what it is said to be: a pattern without such a group stands for
itself, and any other stands for what it stands for with an option in place of the group, and
matches what it then matches. What is kept when the first group is replaced therefore holds of
every pattern that one stands for.
-/
import Mathlib.Data.List.TakeWhile
import SymbolJump.Proofs.Patterns
import SymbolJump.Proofs.Spelling

namespace SymbolJump.Glob

open Text

variable {pattern before inside after option : List Char}

/-- The first group cuts a pattern in three, and there is no brace inside it. -/
theorem eq_of_firstGroup? (found : firstGroup? pattern = some (before, inside, after)) :
    pattern = before ++ '\x7b' :: (inside ++ '\x7d' :: after) ∧
      ∀ c ∈ inside, isBrace c = false := by
  induction pattern generalizing before with
  | nil => nomatch found
  | cons c rest ih =>
      have further (later : (firstGroup? rest).map
          (fun cut => (c :: cut.1, cut.2.1, cut.2.2)) = some (before, inside, after)) :
          c :: rest = before ++ '\x7b' :: (inside ++ '\x7d' :: after) ∧
            ∀ c ∈ inside, isBrace c = false := by
        obtain ⟨⟨front, _, _⟩, there, same⟩ := Option.map_eq_some_iff.mp later
        cases same
        obtain ⟨cut, plain⟩ := ih there
        exact ⟨by rw [List.cons_append, ← cut], plain⟩
      rw [firstGroup?] at found
      split at found
      · next opens =>
        split at found
        · next closes =>
          cases found
          constructor
          · rw [opens, List.nil_append, ← closes, List.takeWhile_append_dropWhile]
          · intro c member
            have passes := List.mem_takeWhile_imp member
            simpa using passes
        · exact further found
      · exact further found

/-- With an option in its place, the pattern has one opening brace less. -/
theorem count_of_firstGroup? (found : firstGroup? pattern = some (before, inside, after))
    (member : option ∈ splitOn ',' inside) :
    pattern.count '\x7b' = (before ++ option ++ after).count '\x7b' + 1 := by
  obtain ⟨cut, plain⟩ := eq_of_firstGroup? found
  have whole : inside.count '\x7b' = 0 :=
    List.count_eq_zero.mpr fun brace => absurd (plain _ brace) (by decide)
  have piece : option.count '\x7b' = 0 := by
    apply List.count_eq_zero.mpr
    intro brace
    have differ : '\x7b' ≠ ',' := by decide
    have among := (Path.mem_iff_mem_splitOn differ inside).mpr ⟨option, member, brace⟩
    exact absurd (plain _ among) (by decide)
  rw [cut]
  simp [List.count_append, whole, piece]
  omega

theorem expandChars_of_none (none : firstGroup? pattern = none) :
    expandChars pattern = [pattern] := by
  unfold expandChars
  cases pattern.count '\x7b' with
  | zero => rfl
  | succ groups => rw [expandUpTo, none]

theorem expandChars_of_some (found : firstGroup? pattern = some (before, inside, after)) :
    expandChars pattern = (splitOn ',' inside).flatMap fun option =>
      expandChars (before ++ option ++ after) := by
  obtain ⟨first, member⟩ := List.exists_mem_of_ne_nil _ (splitOn_ne_nil ',' inside)
  rw [expandChars, count_of_firstGroup? found member, expandUpTo, found]
  apply List.flatMap_congr
  intro option among
  have same := (count_of_firstGroup? found member).symm.trans (count_of_firstGroup? found among)
  rw [expandChars, Nat.succ.inj same]

/-- A pattern without groups matches what it means. -/
theorem matchesChars_of_none (none : firstGroup? pattern = none) (path : List Char) :
    matchesChars pattern path = true ↔ Means pattern path := by
  simp [matchesChars_iff, expandChars_of_none none]

/-- Any other pattern matches what it matches with one of the options in place of the first
group. -/
theorem matchesChars_of_some (found : firstGroup? pattern = some (before, inside, after))
    (path : List Char) :
    matchesChars pattern path = true ↔
      ∃ option ∈ splitOn ',' inside, matchesChars (before ++ option ++ after) path = true := by
  simp only [matchesChars_iff, expandChars_of_some found, List.mem_flatMap]
  constructor
  · rintro ⟨alternative, ⟨option, member, stands⟩, means⟩
    exact ⟨option, member, alternative, stands, means⟩
  · rintro ⟨option, member, alternative, stands, means⟩
    exact ⟨alternative, ⟨option, member, stands⟩, means⟩

/-- What is kept when the first group is replaced holds of all that a pattern stands for. -/
theorem forall_mem_expandChars {p : List Char → Prop}
    (keeps : ∀ pattern before inside after option,
      firstGroup? pattern = some (before, inside, after) → option ∈ splitOn ',' inside →
        p pattern → p (before ++ option ++ after))
    (start : p pattern) : ∀ alternative ∈ expandChars pattern, p alternative := by
  unfold expandChars
  induction pattern.count '\x7b' generalizing pattern with
  | zero => exact List.forall_mem_singleton.mpr start
  | succ groups ih =>
      rw [expandUpTo]
      split
      · exact List.forall_mem_singleton.mpr start
      · next before inside after found =>
        intro alternative member
        obtain ⟨option, among, there⟩ := List.mem_flatMap.mp member
        exact ih (keeps _ _ _ _ option found among start) alternative there

end SymbolJump.Glob
