/-
# Lower case inside a longer text

The lower-case form of a text inside a longer one is its lower-case form alone, but for one letter.
A capital sigma takes its final form when a letter stands before it and none after it, and marks
such as dots and apostrophes are passed over in the look for these letters. So where a text starts
with marks and a capital sigma that no letter follows, a letter in front of the text turns this
sigma, and nothing else is turned by what stands in front.

A text whose sigma is turned occurs in the longer text, character by character, only when its part
up to that sigma occurs in what stands in front of it.
-/
import Mathlib.Data.List.Basic
import SymbolJump.Text.Subsequence

namespace SymbolJump.Text

/-- A character that is passed over in the look for a neighbouring letter. -/
def IsMark (c : Char) : Prop :=
  inRanges caseIgnorableRanges c = true

theorem not_isMark_sigma : ¬ IsMark 'Σ' := by
  unfold IsMark
  decide +kernel

/-! ## Looking for a letter -/

section Meets

variable {marks text rest : List Char} {c : Char}

/-- Marks are passed over. -/
theorem meetsCased_marks (all : ∀ c ∈ marks, IsMark c) (rest : List Char) :
    meetsCased (marks ++ rest) = meetsCased rest := by
  unfold meetsCased
  rw [List.dropWhile_append_of_pos fun c member => all c member]

/-- A character that is no mark ends the look. -/
theorem meetsCased_cons (stops : ¬ IsMark c) :
    meetsCased (c :: rest) = inRanges casedRanges c := by
  unfold meetsCased
  rw [List.dropWhile_cons_of_neg stops]

/-- What stands behind a character that is no mark does not matter. -/
theorem meetsCased_append_cons (stops : ¬ IsMark c) (rest : List Char) :
    meetsCased (text ++ c :: rest) = meetsCased (text ++ [c]) := by
  induction text with
  | nil => rw [List.nil_append, List.nil_append, meetsCased_cons stops, meetsCased_cons stops]
  | cons first text ih =>
      rw [List.cons_append, List.cons_append]
      by_cases mark : IsMark first
      · have passed : ∀ c ∈ [first], IsMark c := List.forall_mem_singleton.mpr mark
        have longer := meetsCased_marks passed (text ++ c :: rest)
        have shorter := meetsCased_marks passed (text ++ [c])
        exact longer.trans (ih.trans shorter.symm)
      · rw [meetsCased_cons mark, meetsCased_cons mark]

end Meets

/-! ## Between other texts -/

/-- The lower-case form of a text between the text before it, in reverse, and the text after
it. -/
def lowerAmid (before : List Char) : (text after : List Char) → List Char
  | [], _ => []
  | c :: rest, after => lowerBetween before c (rest ++ after) ++ lowerAmid (c :: before) rest after

theorem lowerFrom_append (before text after : List Char) :
    lowerFrom before (text ++ after) =
      lowerAmid before text after ++ lowerFrom (text.reverse ++ before) after := by
  induction text generalizing before with
  | nil => rfl
  | cons c rest ih =>
      rw [List.cons_append, lowerFrom, lowerAmid, ih, List.append_assoc, List.reverse_cons,
        List.append_assoc]
      rfl

theorem lowerFrom_eq_lowerAmid (before text : List Char) :
    lowerFrom before text = lowerAmid before text [] := by
  have whole := lowerFrom_append before text []
  rwa [List.append_nil, lowerFrom, List.append_nil] at whole

theorem lowerAmid_append (before text more after : List Char) :
    lowerAmid before (text ++ more) after =
      lowerAmid before text (more ++ after) ++ lowerAmid (text.reverse ++ before) more after := by
  induction text generalizing before with
  | nil => rfl
  | cons c rest ih =>
      rw [List.cons_append, lowerAmid, lowerAmid, ih, List.append_assoc, List.append_assoc,
        List.reverse_cons, List.append_assoc]
      rfl

/-- A text is lowered alike between texts that say the same of each capital sigma in it: no other
character looks at its neighbours. -/
theorem lowerAmid_congr {text before other after later : List Char}
    (same : ∀ front back, text = front ++ 'Σ' :: back →
      (meetsCased (front.reverse ++ before) && !meetsCased (back ++ after)) =
        (meetsCased (front.reverse ++ other) && !meetsCased (back ++ later))) :
    lowerAmid before text after = lowerAmid other text later := by
  induction text generalizing before other with
  | nil => rfl
  | cons c rest ih =>
      have here : lowerBetween before c (rest ++ after) = lowerBetween other c (rest ++ later) := by
        unfold lowerBetween
        split
        · next sigma =>
          have turns := same [] rest (by rw [sigma]; rfl)
          rw [List.reverse_nil, List.nil_append, List.nil_append] at turns
          rw [turns]
        · rfl
      have further : lowerAmid (c :: before) rest after = lowerAmid (c :: other) rest later := by
        apply ih
        intro front back cut
        have turns := same (c :: front) back (by rw [cut]; rfl)
        rwa [List.reverse_cons, List.append_assoc, List.append_assoc] at turns
      rw [lowerAmid, lowerAmid, here, further]

theorem lowerAmid_of_not_mem {text : List Char} (without : 'Σ' ∉ text)
    (before after : List Char) : lowerAmid before text after = lowercase text := by
  rw [lowercase, lowerFrom_eq_lowerAmid]
  apply lowerAmid_congr
  intro front back cut
  exact absurd (by rw [cut]; exact List.mem_append_cons_self) without

/-! ## The turned sigma -/

/-- A text starts with marks and a capital sigma, with no letter where marks after it end. -/
structure StartsOpen (text marks rest : List Char) : Prop where
  cut : text = marks ++ 'Σ' :: rest
  front : ∀ c ∈ marks, IsMark c
  back : meetsCased rest = false

/-- The marks end at the first capital sigma. -/
theorem StartsOpen.unique {text marks rest others later : List Char}
    (first : StartsOpen text marks rest) (second : StartsOpen text others later) :
    marks = others := by
  rcases List.append_eq_append_iff.mp (first.cut.symm.trans second.cut) with
    ⟨gap, whole, sigma⟩ | ⟨gap, whole, sigma⟩
  · cases gap with
    | nil => rw [whole, List.append_nil]
    | cons c gap =>
        have mark := second.front c (by rw [whole]; exact List.mem_append_cons_self)
        rw [← (List.cons.inj sigma).1] at mark
        exact absurd mark not_isMark_sigma
  · cases gap with
    | nil => rw [whole, List.append_nil]
    | cons c gap =>
        have mark := first.front c (by rw [whole]; exact List.mem_append_cons_self)
        rw [← (List.cons.inj sigma).1] at mark
        exact absurd mark not_isMark_sigma

/-- Without a letter before it, or without a sigma at its start to be turned, a text is lowered as
it is alone. -/
theorem lowerAmid_of_unturned {before text : List Char}
    (unturned : ¬ (meetsCased before = true ∧ ∃ marks rest, StartsOpen text marks rest)) :
    lowerAmid before text [] = lowercase text := by
  rw [lowercase, lowerFrom_eq_lowerAmid]
  apply lowerAmid_congr
  intro front back cut
  by_cases all : ∀ c ∈ front, IsMark c
  · have marks : ∀ c ∈ front.reverse, IsMark c := fun c member => all c (List.mem_reverse.mp member)
    rw [meetsCased_marks marks, meetsCased_marks marks, List.append_nil]
    cases letter : meetsCased before with
    | false => rfl
    | true =>
        cases follows : meetsCased back with
        | true => rfl
        | false => exact absurd ⟨letter, front, back, cut, all, follows⟩ unturned
  · obtain ⟨c, member, stops⟩ : ∃ c ∈ front.reverse, ¬ IsMark c := by
      by_contra none
      exact all fun c member =>
        by_contra fun stops => none ⟨c, List.mem_reverse.mpr member, stops⟩
    obtain ⟨near, far, cut⟩ := List.append_of_mem member
    rw [cut, List.append_assoc, List.append_assoc, List.cons_append, List.cons_append,
      meetsCased_append_cons stops, meetsCased_append_cons stops (far ++ [])]

/-- A letter before a text turns the sigma that it starts with, and nothing else. -/
theorem lowerAmid_of_turned {before text marks rest : List Char}
    (letter : meetsCased before = true) (starts : StartsOpen text marks rest) :
    ∃ tail, lowercase text = lowercase marks ++ 'σ' :: tail ∧
      lowerAmid before text [] = lowercase marks ++ 'ς' :: tail := by
  obtain ⟨rfl, front, back⟩ := starts
  have without : 'Σ' ∉ marks := fun member => not_isMark_sigma (front _ member)
  have marksBack : ∀ c ∈ marks.reverse, IsMark c :=
    fun c member => front c (List.mem_reverse.mp member)
  have tail (other : List Char) : lowerAmid ('Σ' :: (marks.reverse ++ other)) rest [] =
      lowerAmid ['Σ'] rest [] := by
    apply lowerAmid_congr
    intro near far cut
    rw [meetsCased_append_cons not_isMark_sigma]
  have whole (other : List Char) : lowerAmid other (marks ++ 'Σ' :: rest) [] =
      lowercase marks ++ ((if meetsCased other then ['ς'] else ['σ']) ++
        lowerAmid ['Σ'] rest []) := by
    rw [lowerAmid_append, lowerAmid_of_not_mem without, lowerAmid, tail, List.append_nil,
      lowerBetween, if_pos rfl, meetsCased_marks marksBack, back, Bool.not_false, Bool.and_true]
  refine ⟨lowerAmid ['Σ'] rest [], ?_, ?_⟩
  · rw [lowercase, lowerFrom_eq_lowerAmid, whole]
    rfl
  · rw [whole, letter]
    rfl

/-! ## Characters that are lowered to a sigma -/

/-- A run lowers no mark to a small sigma. -/
theorem not_isMark_of_run : ∀ run ∈ caseRuns,
    run.covers (0x3c3 - run.offset).toNat = true →
      ¬ inRanges caseIgnorableRanges (Char.ofNat (0x3c3 - run.offset).toNat) := by
  decide +kernel

theorem not_isMark_of_lowerChar {c : Char} (lowered : lowerChar c = 'σ') : ¬ IsMark c := by
  unfold lowerChar at lowered
  split at lowered
  · next run found =>
    have covers := List.find?_some found
    have code : ((c.toNat : Int) + run.offset).toNat = 0x3c3 := by
      unfold Char.ofNat at lowered
      by_cases valid : ((c.toNat : Int) + run.offset).toNat.isValidChar
      · rw [dif_pos valid] at lowered
        exact congrArg Char.toNat lowered
      · rw [dif_neg valid] at lowered
        exact absurd lowered (by decide)
    have origin : (0x3c3 - run.offset).toNat = c.toNat := by omega
    have unmarked := not_isMark_of_run run (List.mem_of_find?_eq_some found)
    rw [origin, Char.ofNat_toNat] at unmarked
    exact unmarked covers
  · rw [lowered, IsMark]
    decide +kernel

theorem exists_lowerBetween_of_mem {d : Char} {before text : List Char}
    (member : d ∈ lowerFrom before text) :
    ∃ c ∈ text, ∃ front back, d ∈ lowerBetween front c back := by
  induction text generalizing before with
  | nil => nomatch member
  | cons c rest ih =>
      rcases List.mem_append.mp member with here | later
      · exact ⟨c, List.mem_cons_self, before, rest, here⟩
      · obtain ⟨c, among, front, back, here⟩ := ih later
        exact ⟨c, List.mem_cons_of_mem _ among, front, back, here⟩

/-- No mark is lowered to a small sigma. -/
theorem not_mem_lowercase_marks {marks : List Char} (all : ∀ c ∈ marks, IsMark c) :
    'σ' ∉ lowercase marks := by
  intro member
  obtain ⟨c, among, front, back, lowered⟩ := exists_lowerBetween_of_mem member
  unfold lowerBetween at lowered
  split at lowered
  · next sigma => exact not_isMark_sigma (sigma ▸ all c among)
  split at lowered
  · exact absurd lowered (by decide)
  · exact not_isMark_of_lowerChar (List.mem_singleton.mp lowered).symm (all c among)

/-! ## Occurrences -/

section Sublist

variable {α : Type} [DecidableEq α] {small final : α} {front tail before after : List α}

/-- Where one item of a list is replaced by another, what is left of the list occurs in order only
when its part up to that item occurs in front. -/
theorem sublist_replaced_iff (differ : small ≠ final) (fresh : small ∉ front)
    (none : small ∉ after) :
    (front ++ small :: tail).Sublist (before ++ ((front ++ final :: tail) ++ after)) ↔
      (front ++ [small]).Sublist before := by
  constructor
  · intro occurs
    obtain ⟨early, late, cut, first, second⟩ := List.sublist_append_iff.mp occurs
    -- In the late part the item would occur once more than where that part has to occur.
    have early_enough : ¬ (small :: tail).Sublist late := by
      intro inside
      have counts := (inside.trans second).count_le small
      rw [List.count_cons_self, List.count_append, List.count_append,
        List.count_cons_of_ne differ.symm, List.count_eq_zero_of_not_mem fresh,
        List.count_eq_zero_of_not_mem none] at counts
      omega
    rcases List.append_eq_append_iff.mp cut with ⟨gap, rfl, rest⟩ | ⟨gap, -, rfl⟩
    · cases gap with
      | nil => exact absurd (List.Sublist.refl _) (rest ▸ early_enough)
      | cons item gap =>
          obtain ⟨rfl, -⟩ := List.cons.inj rest
          have part : (front ++ [small]).Sublist (front ++ small :: gap) :=
            (List.Sublist.refl front).append (List.singleton_sublist.mpr List.mem_cons_self)
          exact part.trans first
    · exact absurd (List.sublist_append_right gap _) early_enough
  · intro occurs
    have rest : tail.Sublist ((front ++ final :: tail) ++ after) :=
      ((List.sublist_cons_self final tail).trans (List.sublist_append_right front _)).trans
        (List.sublist_append_left _ after)
    have both := occurs.append rest
    rwa [List.append_assoc] at both

end Sublist

end SymbolJump.Text
