/-
# Rough matches are embeddings

A query matches a name roughly when its lower-case characters occur in order in the lower-case name.
The test takes them one after another, each at its first place behind the one before it, and never
goes back. Nothing is missed by this: wherever some increasing choice of places has come to, the
first places have come no further, so what that choice takes next still lies ahead of the test.

Leaving characters out of a query or putting some into a name undoes no embedding. But lower case
stands between a text and its characters, and makes of a capital sigma what its neighbours ask for.
A text that is in lower case already holds none. Its characters are themselves wherever they stand,
so less of such a query, and more around such a name, match where the whole one did.
-/
import Mathlib.Data.List.NodupEquivFin
import SymbolJump.Proofs.Lowercasing
import SymbolJump.Text.Subsequence

namespace SymbolJump

namespace Text

/-! ## Places -/

/-- Increasing places in a text, at which the characters of a query stand. -/
structure Embeds (query text : List Char) (places : List Nat) : Prop where
  increasing : places.Pairwise (· < ·)
  spelled : places.map (text[·]?) = query.map some

/-- The first place of a character in a text, from a start on. -/
def placeFrom? (text : List Char) (start : Nat) (c : Char) : Option Nat :=
  ((text.drop start).idxOf? c).map (start + ·)

/-- The places at which the characters of a query are taken from a text, from a start on: each is
taken at its first place behind the one before it. -/
def firstPlaces? (text : List Char) : (query : List Char) → (start : Nat) → Option (List Nat)
  | [], _ => some []
  | c :: rest, start => do
      let place ← placeFrom? text start c
      let places ← firstPlaces? text rest (place + 1)
      return place :: places

section Places

variable {query fewer text longer : List Char} {places : List Nat} {start place : Nat} {c : Char}

theorem placeFrom?_eq_some_iff :
    placeFrom? text start c = some place ↔
      start ≤ place ∧ text[place]? = some c ∧
        ∀ earlier, start ≤ earlier → earlier < place → text[earlier]? ≠ some c := by
  unfold placeFrom?
  rw [Option.map_eq_some_iff]
  constructor
  · rintro ⟨gap, found, rfl⟩
    obtain ⟨within, here, before⟩ := List.idxOf?_eq_some_iff.mp found
    refine ⟨Nat.le_add_right start gap, ?_, ?_⟩
    · rw [← List.getElem?_drop, List.getElem?_eq_getElem within, here]
    · intro earlier behind ahead also
      obtain ⟨less, rfl⟩ := Nat.exists_eq_add_of_le behind
      have ahead : less < gap := Nat.lt_of_add_lt_add_left ahead
      rw [← List.getElem?_drop, List.getElem?_eq_getElem (ahead.trans within)] at also
      exact before less ahead (Option.some.inj also)
  · rintro ⟨behind, here, before⟩
    obtain ⟨gap, rfl⟩ := Nat.exists_eq_add_of_le behind
    rw [← List.getElem?_drop] at here
    obtain ⟨within, here⟩ := List.getElem?_eq_some_iff.mp here
    refine ⟨gap, List.idxOf?_eq_some_iff.mpr ⟨within, here, ?_⟩, rfl⟩
    intro less ahead also
    apply before (start + less) (Nat.le_add_right start less) (Nat.add_lt_add_left ahead start)
    rw [← List.getElem?_drop, List.getElem?_eq_getElem (ahead.trans within), also]

/-- A character that stands behind the start is found there or earlier. -/
theorem exists_placeFrom?_le (behind : start ≤ place) (here : text[place]? = some c) :
    ∃ first, placeFrom? text start c = some first ∧ first ≤ place := by
  cases found : placeFrom? text start c with
  | none =>
      rw [placeFrom?, Option.map_eq_none_iff, List.idxOf?_eq_none_iff] at found
      obtain ⟨gap, rfl⟩ := Nat.exists_eq_add_of_le behind
      rw [← List.getElem?_drop] at here
      exact absurd (List.mem_of_getElem? here) found
  | some first =>
      obtain ⟨-, -, before⟩ := placeFrom?_eq_some_iff.mp found
      exact ⟨first, rfl, Nat.le_of_not_lt fun ahead => before place behind ahead here⟩

theorem embeds_cons_iff {rest : List Char} :
    Embeds (c :: rest) text places ↔
      ∃ place later, places = place :: later ∧ text[place]? = some c ∧
        (∀ other ∈ later, place < other) ∧ Embeds rest text later := by
  constructor
  · rintro ⟨increasing, spelled⟩
    obtain ⟨place, later, rfl, here, spelled⟩ := List.map_eq_cons_iff.mp spelled
    obtain ⟨ahead, increasing⟩ := List.pairwise_cons.mp increasing
    exact ⟨place, later, rfl, here, ahead, increasing, spelled⟩
  · rintro ⟨place, later, rfl, here, ahead, embeds⟩
    refine ⟨List.pairwise_cons.mpr ⟨ahead, embeds.increasing⟩, ?_⟩
    rw [List.map_cons, List.map_cons, here, embeds.spelled]

theorem firstPlaces?_cons_eq_some_iff {rest : List Char} :
    firstPlaces? text (c :: rest) start = some places ↔
      ∃ place later, places = place :: later ∧ placeFrom? text start c = some place ∧
        firstPlaces? text rest (place + 1) = some later := by
  rw [firstPlaces?, Option.bind_eq_bind, Option.bind_eq_some_iff]
  constructor
  · rintro ⟨place, taken, found⟩
    obtain ⟨later, found, same⟩ := Option.bind_eq_some_iff.mp found
    exact ⟨place, later, (Option.some.inj same).symm, taken, found⟩
  · rintro ⟨place, later, rfl, taken, found⟩
    exact ⟨place, taken, Option.bind_eq_some_iff.mpr ⟨later, found, rfl⟩⟩

/-- The first places of a query are places where it embeds. -/
theorem embeds_of_firstPlaces? (found : firstPlaces? text query start = some places) :
    Embeds query text places ∧ ∀ place ∈ places, start ≤ place := by
  induction query generalizing start places with
  | nil =>
      obtain rfl := Option.some.inj found
      exact ⟨⟨.nil, rfl⟩, List.forall_mem_nil _⟩
  | cons c rest ih =>
      obtain ⟨place, later, rfl, taken, found⟩ := firstPlaces?_cons_eq_some_iff.mp found
      obtain ⟨behind, here, -⟩ := placeFrom?_eq_some_iff.mp taken
      obtain ⟨embeds, ahead⟩ := ih found
      constructor
      · exact embeds_cons_iff.mpr ⟨place, later, rfl, here, ahead, embeds⟩
      · exact List.forall_mem_cons.mpr
          ⟨behind, fun other among => behind.trans (Nat.le_of_succ_le (ahead other among))⟩

/-- Where a query embeds, it is taken, and each of its characters no later. -/
theorem Embeds.exists_firstPlaces?_le (embeds : Embeds query text places)
    (behind : ∀ place ∈ places, start ≤ place) :
    ∃ first, firstPlaces? text query start = some first ∧ List.Forall₂ (· ≤ ·) first places := by
  induction query generalizing start places with
  | nil =>
      obtain rfl := List.map_eq_nil_iff.mp embeds.spelled
      exact ⟨[], rfl, .nil⟩
  | cons c rest ih =>
      obtain ⟨place, later, rfl, here, ahead, embeds⟩ := embeds_cons_iff.mp embeds
      -- The rest of the choice lies behind its own place for the character, and so behind the
      -- first one.
      obtain ⟨first, taken, early⟩ := exists_placeFrom?_le (behind place List.mem_cons_self) here
      obtain ⟨others, found, earlier⟩ :=
        ih embeds fun other among => early.trans_lt (ahead other among)
      exact ⟨first :: others,
        firstPlaces?_cons_eq_some_iff.mpr ⟨first, others, rfl, taken, found⟩, .cons early earlier⟩

/-- Characters that are left out of a query leave the places of the others. -/
theorem Embeds.of_sublist (embeds : Embeds query text places) (part : fewer.Sublist query) :
    ∃ kept, Embeds fewer text kept := by
  have among : (fewer.map some).Sublist (places.map (text[·]?)) := embeds.spelled ▸ part.map some
  obtain ⟨kept, among, spelled⟩ := List.sublist_map_iff.mp among
  exact ⟨kept, embeds.increasing.sublist among, spelled.symm⟩

/-- Characters that are put into a text move the places of the others, and keep their order. -/
theorem Embeds.of_longer (embeds : Embeds query text places) (part : text.Sublist longer) :
    ∃ moved, Embeds query longer moved := by
  obtain ⟨move, same⟩ := List.sublist_iff_exists_orderEmbedding_getElem?_eq.mp part
  refine ⟨places.map move, embeds.increasing.map move fun _ _ less => move.strictMono less, ?_⟩
  rw [← embeds.spelled, List.map_map]
  exact List.map_congr_left fun place _ => (same place).symm

end Places

/-! ## The test -/

section Test

variable {query name : String}

theorem isSublist_cons (c : Char) (rest text : List Char) :
    (c :: rest).isSublist text =
      (text.idxOf? c).any fun place => rest.isSublist (text.drop (place + 1)) := by
  induction text with
  | nil => rfl
  | cons first text ih =>
      rw [List.isSublist, List.idxOf?_cons, Bool.beq_comm, ih]
      split
      · rfl
      · rw [Option.any_map]
        rfl

/-- The test goes on as long as there is a first place for each character. -/
theorem isSublist_drop_eq_isSome (query text : List Char) (start : Nat) :
    query.isSublist (text.drop start) = (firstPlaces? text query start).isSome := by
  induction query generalizing start with
  | nil => simp [List.isSublist, firstPlaces?]
  | cons c rest ih =>
      rw [isSublist_cons, firstPlaces?, placeFrom?]
      cases (text.drop start).idxOf? c with
      | none => rfl
      | some gap =>
          have further : rest.isSublist ((text.drop start).drop (gap + 1)) =
              (firstPlaces? text rest (start + gap + 1)).isSome := by
            rw [List.drop_drop, ← Nat.add_assoc, ih]
          rw [Option.any_some, further]
          cases found : firstPlaces? text rest (start + gap + 1) <;> simp [found]

theorem matchesRoughly_eq_isSome (query name : String) :
    matchesRoughly query name =
      (firstPlaces? (lowercase name.toList) (lowercase query.toList) 0).isSome :=
  isSublist_drop_eq_isSome _ _ 0

theorem matchesRoughly_iff_exists_embeds :
    matchesRoughly query name = true ↔
      ∃ places, Embeds (lowercase query.toList) (lowercase name.toList) places := by
  rw [matchesRoughly_eq_isSome, Option.isSome_iff_exists]
  constructor
  · rintro ⟨places, found⟩
    exact ⟨places, (embeds_of_firstPlaces? found).1⟩
  · rintro ⟨places, embeds⟩
    obtain ⟨first, found, -⟩ := embeds.exists_firstPlaces?_le fun place _ => Nat.zero_le place
    exact ⟨first, found⟩

end Test

/-! ## Texts in lower case -/

/-- A character that is its own lower-case form, whatever stands around it. -/
def IsLower (c : Char) : Prop :=
  ∀ before after, lowerBetween before c after = [c]

section Lower

variable {c : Char} {before after text part longer : List Char}

theorem length_lowerBetween_pos (before : List Char) (c : Char) (after : List Char) :
    0 < (lowerBetween before c after).length := by
  unfold lowerBetween
  split
  · split <;> exact Nat.one_pos
  · split
    · exact Nat.two_pos
    · exact Nat.one_pos

theorem length_le_length_lowerFrom (before text : List Char) :
    text.length ≤ (lowerFrom before text).length := by
  induction text generalizing before with
  | nil => exact Nat.zero_le _
  | cons c rest ih =>
      have here := length_lowerBetween_pos before c rest
      have further := ih (c :: before)
      rw [lowerFrom, List.length_append, List.length_cons]
      omega

/-- What stays as it is somewhere does so everywhere: a capital sigma, which looks around, is
lowered in any case. -/
theorem isLower_of_lowerBetween (stays : lowerBetween before c after = [c]) : IsLower c := by
  intro front back
  unfold lowerBetween at stays ⊢
  by_cases sigma : c = 'Σ'
  · subst sigma
    rw [if_pos rfl] at stays
    split at stays
    · exact absurd stays (by decide)
    · exact absurd stays (by decide)
  · rwa [if_neg sigma] at stays ⊢

/-- A text is its own lower-case form when each of its characters is one. -/
theorem lowerFrom_eq_self_iff : lowerFrom before text = text ↔ ∀ c ∈ text, IsLower c := by
  induction text generalizing before with
  | nil => exact iff_of_true rfl (List.forall_mem_nil _)
  | cons c rest ih =>
      rw [lowerFrom, List.forall_mem_cons, ← @ih (c :: before)]
      constructor
      · intro same
        -- No character is lost, so the first one cannot become two.
        have short : (lowerBetween before c rest).length = [c].length := by
          have whole := congrArg List.length same
          have here := length_lowerBetween_pos before c rest
          have further := length_le_length_lowerFrom (c :: before) rest
          rw [List.length_append, List.length_cons] at whole
          rw [List.length_singleton]
          omega
        obtain ⟨stays, further⟩ := List.append_inj same short
        exact ⟨isLower_of_lowerBetween stays, further⟩
      · rintro ⟨lower, further⟩
        rw [lower, further]
        rfl

theorem lowercase_of_sublist (lower : lowercase text = text) (among : part.Sublist text) :
    lowercase part = part :=
  lowerFrom_eq_self_iff.mpr fun c member => lowerFrom_eq_self_iff.mp lower c (among.subset member)

/-- Characters in lower case are left in the lower-case form of a text around them. -/
theorem sublist_lowerFrom (lower : ∀ c ∈ text, IsLower c) (among : text.Sublist longer) :
    text.Sublist (lowerFrom before longer) := by
  induction among generalizing before with
  | slnil => exact List.Sublist.refl _
  | cons c _ ih => exact (ih lower).trans (List.sublist_append_right _ _)
  | @cons_cons text longer c _ ih =>
      obtain ⟨here, others⟩ := List.forall_mem_cons.mp lower
      rw [lowerFrom, here]
      exact (ih others).cons_cons c

end Lower

/-! ## Shorter queries and longer names -/

section Changes

variable {query name fewer longer : String}

/-- A query in lower case matches with any of its characters left out. -/
theorem matchesRoughly_of_part (lower : lowercase query.toList = query.toList)
    (part : fewer.toList.Sublist query.toList) (matched : matchesRoughly query name = true) :
    matchesRoughly fewer name = true := by
  obtain ⟨places, embeds⟩ := matchesRoughly_iff_exists_embeds.mp matched
  rw [lower] at embeds
  rw [matchesRoughly_iff_exists_embeds, lowercase_of_sublist lower part]
  exact embeds.of_sublist part

/-- A name in lower case is matched with any characters put into it. -/
theorem matchesRoughly_of_longer (lower : lowercase name.toList = name.toList)
    (part : name.toList.Sublist longer.toList) (matched : matchesRoughly query name = true) :
    matchesRoughly query longer = true := by
  obtain ⟨places, embeds⟩ := matchesRoughly_iff_exists_embeds.mp matched
  rw [lower] at embeds
  rw [matchesRoughly_iff_exists_embeds]
  exact embeds.of_longer (sublist_lowerFrom (lowerFrom_eq_self_iff.mp lower) part)

/-- The test, which takes each character at its first place, succeeds exactly where the lower-case
query embeds in the lower-case name by some increasing choice of places, and takes no character
later than any such choice does. Leaving characters out of a query in lower case, or putting some
into a name in lower case, undoes no match. -/
theorem rough_match_is_embedding (query name : String) :
    let needle := lowercase query.toList
    let text := lowercase name.toList
    (matchesRoughly query name = true ↔ ∃ places, Embeds needle text places) ∧
      (matchesRoughly query name = (firstPlaces? text needle 0).isSome ∧
        ∀ places, Embeds needle text places →
          ∃ first, firstPlaces? text needle 0 = some first ∧ Embeds needle text first ∧
            List.Forall₂ (· ≤ ·) first places) ∧
      (matchesRoughly query name = true →
        (lowercase query.toList = query.toList → ∀ fewer : String,
          fewer.toList.Sublist query.toList → matchesRoughly fewer name = true) ∧
        (lowercase name.toList = name.toList → ∀ longer : String,
          name.toList.Sublist longer.toList → matchesRoughly query longer = true)) := by
  intro needle text
  refine ⟨matchesRoughly_iff_exists_embeds, ⟨matchesRoughly_eq_isSome query name, ?_⟩, ?_⟩
  · intro places embeds
    obtain ⟨first, found, earlier⟩ := embeds.exists_firstPlaces?_le fun place _ => Nat.zero_le place
    exact ⟨first, found, (embeds_of_firstPlaces? found).1, earlier⟩
  · intro matched
    exact ⟨fun lower fewer part => matchesRoughly_of_part lower part matched,
      fun lower longer part => matchesRoughly_of_longer lower part matched⟩

/-- A query that embeds in two ways is taken at its first places. A capital sigma that is put behind
a word in lower case does not turn the sigma at its end. -/
theorem rough_match_is_embedding_of_word :
    lowercase "σς".toList = "σς".toList ∧ lowercase "σύσσωμος".toList = "σύσσωμος".toList ∧
      Embeds "σς".toList "σύσσωμος".toList [3, 7] ∧
      (∃ first, firstPlaces? "σύσσωμος".toList "σς".toList 0 = some first ∧
        List.Forall₂ (· ≤ ·) first [3, 7]) ∧
      matchesRoughly "ς" "σύσσωμος" = true ∧ matchesRoughly "σς" "Σσύσσωμος.Σ" = true := by
  obtain ⟨exactly, ⟨-, earliest⟩, changes⟩ := rough_match_is_embedding "σς" "σύσσωμος"
  have query : lowercase "σς".toList = "σς".toList := by decide +kernel
  have name : lowercase "σύσσωμος".toList = "σύσσωμος".toList := by decide +kernel
  have embeds : Embeds "σς".toList "σύσσωμος".toList [3, 7] := ⟨by decide, by decide⟩
  rw [query, name] at exactly earliest
  obtain ⟨first, found, -, earlier⟩ := earliest _ embeds
  obtain ⟨fewer, longer⟩ := changes (exactly.mpr ⟨_, embeds⟩)
  exact ⟨query, name, embeds, ⟨first, found, earlier⟩, fewer query "ς" (by decide),
    longer name "Σσύσσωμος.Σ" (by decide)⟩

-- A capital sigma undoes a match when a letter is put in front of it, or left out there.
example : matchesRoughly "σ" "Σ" = true ∧ matchesRoughly "σ" "ΑΣ" = false := by decide +kernel
example : matchesRoughly "ΑΣ" "ας" = true ∧ matchesRoughly "Σ" "ας" = false := by decide +kernel

end Changes

end Text

end SymbolJump
