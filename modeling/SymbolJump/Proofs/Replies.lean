/-
# Replies to the picker

The picker in a terminal numbers its items and reads one line. A reply that spells the number of
an item chooses it: a numeral of decimal digits, of one script or of several, with nothing but
blanks around it. All else should dismiss the picker.

A reply is held for a number when all of its characters look like digits, and more do than numerals
are made of: a superscript and a digit in a circle look like digits, and are none. Nor is a numeral
read that has too many digits, even if they are zeros. The picker fails on replies of these two
kinds, and heeds every other one.
-/
import Mathlib.Data.List.Forall2
import Mathlib.Data.Nat.Digits.Defs
import SymbolJump.Proofs.Courses
import SymbolJump.Proofs.Cuts
import SymbolJump.Terminal

namespace SymbolJump

namespace Text

/-- A character is a digit of a value: it comes so many places behind the digit zero of its
script. -/
def IsDigitOf (c : Char) (value : ℕ) : Prop :=
  ∃ first ∈ zeroDigits, value < 10 ∧ c.toNat = first + value

/-- A text is a numeral of a number: digits, at least one, with the most significant first. -/
structure IsNumeral (text : List Char) (number : ℕ) : Prop where
  filled : text ≠ []
  denotes : ∃ digits, List.Forall₂ IsDigitOf text digits ∧
    Nat.ofDigits 10 digits.reverse = number

section Numerals

variable {c : Char} {value number : ℕ} {text : List Char} {digits : List ℕ}

/-- The digits of no two scripts overlap. -/
theorem zeroDigits_pairwise : zeroDigits.Pairwise fun first second => first + 10 ≤ second := by
  decide

theorem eq_of_near {first second : ℕ} (here : first ∈ zeroDigits) (there : second ∈ zeroDigits)
    (near : first < second + 10) (close : second < first + 10) : first = second := by
  have apart := List.pairwise_iff_getElem.mp zeroDigits_pairwise
  obtain ⟨i, bound, rfl⟩ := List.mem_iff_getElem.mp here
  obtain ⟨j, limit, rfl⟩ := List.mem_iff_getElem.mp there
  rcases Nat.lt_trichotomy i j with before | rfl | after
  · have := apart i j bound limit before
    omega
  · rfl
  · have := apart j i limit bound after
    omega

theorem digitValue?_eq_some_iff : digitValue? c = some value ↔ IsDigitOf c value := by
  unfold digitValue?
  rw [Option.map_eq_some_iff]
  constructor
  · rintro ⟨first, found, rfl⟩
    have within := List.find?_some found
    rw [Bool.and_eq_true, decide_eq_true_eq, decide_eq_true_eq] at within
    exact ⟨first, List.mem_of_find?_eq_some found, by omega, by omega⟩
  · rintro ⟨first, member, small, place⟩
    have some : (zeroDigits.find? fun first =>
        decide (first ≤ c.toNat) && decide (c.toNat < first + 10)).isSome := by
      rw [List.find?_isSome]
      refine ⟨first, member, ?_⟩
      rw [Bool.and_eq_true, decide_eq_true_eq, decide_eq_true_eq]
      omega
    obtain ⟨other, found⟩ := Option.isSome_iff_exists.mp some
    have within := List.find?_some found
    rw [Bool.and_eq_true, decide_eq_true_eq, decide_eq_true_eq] at within
    -- The scan finds a script that the character is a digit of, and there is no other.
    have same := eq_of_near member (List.mem_of_find?_eq_some found) (by omega) (by omega)
    exact ⟨other, found, by omega⟩

theorem mapM_digitValue?_eq_some_iff :
    text.mapM digitValue? = some digits ↔ List.Forall₂ IsDigitOf text digits := by
  induction text generalizing digits with
  | nil =>
      rw [List.mapM_nil, List.forall₂_nil_left_iff]
      exact Option.some_inj.trans eq_comm
  | cons c rest ih =>
      rw [List.forall₂_cons_left_iff]
      simp only [List.mapM_cons, Option.bind_eq_bind, Option.bind_eq_some_iff, Option.pure_def,
        Option.some.injEq, digitValue?_eq_some_iff, ih, @eq_comm _ digits]
      tauto

/-- A text consists of digits just when there are values that they have. -/
theorem exists_digits_iff :
    (∃ digits, List.Forall₂ IsDigitOf text digits) ↔ ∀ c ∈ text, ∃ value, IsDigitOf c value := by
  induction text with
  | nil => exact ⟨fun _ => List.forall_mem_nil _, fun _ => ⟨[], .nil⟩⟩
  | cons c rest ih =>
      rw [List.forall_mem_cons, ← ih]
      constructor
      · rintro ⟨_, here | ⟨here, later⟩⟩
        exact ⟨⟨_, here⟩, _, later⟩
      · rintro ⟨⟨value, here⟩, digits, later⟩
        exact ⟨value :: digits, .cons here later⟩

theorem ofDigits_eq (base : ℕ) (digits : List ℕ) :
    ofDigits base digits = Nat.ofDigits base digits.reverse := by
  rw [Nat.ofDigits_eq_foldr, List.foldr_reverse, ofDigits]
  refine congrArg (fun step => digits.foldl step 0) (funext₂ fun value digit => ?_)
  rw [Nat.cast_id, Nat.mul_comm, Nat.add_comm]

theorem decimal?_eq_some_iff :
    decimal? text = some number ↔
      ∃ digits, List.Forall₂ IsDigitOf text digits ∧ Nat.ofDigits 10 digits.reverse = number := by
  unfold decimal?
  simp only [Option.map_eq_some_iff, mapM_digitValue?_eq_some_iff, ofDigits_eq]

theorem IsNumeral.unique {other : ℕ} (first : IsNumeral text number)
    (second : IsNumeral text other) : number = other := by
  have here := decimal?_eq_some_iff.mpr first.denotes
  have there := decimal?_eq_some_iff.mpr second.denotes
  exact Option.some_inj.mp (here.symm.trans there)

end Numerals

/-- A text looks like a numeral: there is something in it, and all of it looks like digits. -/
structure LooksNumeral (text : List Char) : Prop where
  filled : text ≠ []
  digits : ∀ c ∈ text, isDigitLike c = true

/-- A numeral is read if it consists of digits, not too many of them. -/
structure IsReadable (text : List Char) : Prop where
  digits : ∀ c ∈ text, ∃ value, IsDigitOf c value
  short : text.length ≤ numeralLimit

/-- A word stands alone in a text: nothing but blanks is around it. -/
def StandsAlone (word : List Char) (text : String) : Prop :=
  ∃ front back, text.toList = front ++ word ++ back ∧ ∀ c ∈ front ++ back, isBlank c = true

section Looks

variable {c : Char} {value number : ℕ} {text : String} {word : List Char}

theorem isDigitLike_of_isDigitOf (digit : IsDigitOf c value) : isDigitLike c = true := by
  rw [isDigitLike, digitValue?_eq_some_iff.mpr digit]
  rfl

theorem IsNumeral.looksNumeral (numeral : IsNumeral word number) : LooksNumeral word where
  filled := numeral.filled
  digits := by
    intro c member
    obtain ⟨digits, read, -⟩ := numeral.denotes
    obtain ⟨value, digit⟩ := exists_digits_iff.mp ⟨digits, read⟩ c member
    exact isDigitLike_of_isDigitOf digit

/-- What looks like a digit is not blank. -/
theorem isBlank_eq_false_of_isDigitLike (looks : isDigitLike c = true) : isBlank c = false := by
  have digits : ∀ first ∈ zeroDigits, ∀ range ∈ blankRanges,
      range.2 < first ∨ first + 10 ≤ range.1 := by decide
  have others : ∀ like ∈ digitLikeRanges, ∀ range ∈ blankRanges,
      range.2 < like.1 ∨ like.2 < range.1 := by decide
  rw [← Bool.not_eq_true]
  intro blank
  obtain ⟨range, among, low, high⟩ := (inRanges_eq_true_iff _ _).mp blank
  rcases Bool.or_eq_true_iff.mp looks with digit | like
  · obtain ⟨value, read⟩ := Option.isSome_iff_exists.mp digit
    obtain ⟨first, member, small, place⟩ := digitValue?_eq_some_iff.mp read
    have := digits first member range among
    omega
  · obtain ⟨like, member, above, below⟩ := (inRanges_eq_true_iff _ _).mp like
    have := others like member range among
    omega

theorem standsAlone_trim (text : String) : StandsAlone (trim text).toList text := by
  rw [trim, String.toList_ofList]
  exact exists_trimBoth isBlank text.toList

/-- What looks like a numeral and stands alone is left when the text is trimmed. -/
theorem StandsAlone.eq_trim (alone : StandsAlone word text) (looks : LooksNumeral word) :
    word = (trim text).toList := by
  obtain ⟨front, back, cut, blank⟩ := alone
  rw [trim, String.toList_ofList, cut]
  exact (trimBoth_append blank looks.filled fun c member =>
    isBlank_eq_false_of_isDigitLike (looks.digits c member)).symm

end Looks

end Text

namespace Terminal

open Act Text

/-- A reply spells a number: a numeral of the number stands alone in it. -/
def Spells (reply : String) (number : ℕ) : Prop :=
  ∃ word, StandsAlone word reply ∧ IsNumeral word number

/-- A reply makes the picker stumble: what stands alone in it looks like a numeral and cannot be
read as one. -/
def Stumbles (reply : String) : Prop :=
  ∃ word, StandsAlone word reply ∧ LooksNumeral word ∧ ¬ IsReadable word

/-- A pick heeds a reply: it comes to an answer, which is the candidate whose number the reply
spells, counted from one, and nothing when it spells no number of a candidate or there is no
reply. -/
def Heeds (candidates : List Candidate) (reply : Option String)
    (answer : Except Fault (Option Candidate)) : Prop :=
  ∃ choice, answer = .ok choice ∧ ∀ candidate, choice = some candidate ↔
    ∃ text ∈ reply, ∃ place, Spells text (place + 1) ∧ candidates[place]? = some candidate

section Replies

variable {reply : String} {number : ℕ} {candidates : List Candidate}

theorem spells_iff : Spells reply number ↔ IsNumeral (trim reply).toList number := by
  constructor
  · rintro ⟨word, alone, numeral⟩
    exact alone.eq_trim numeral.looksNumeral ▸ numeral
  · intro numeral
    exact ⟨_, standsAlone_trim reply, numeral⟩

theorem stumbles_iff :
    Stumbles reply ↔ LooksNumeral (trim reply).toList ∧ ¬ IsReadable (trim reply).toList := by
  constructor
  · rintro ⟨word, alone, looks, unreadable⟩
    exact alone.eq_trim looks ▸ ⟨looks, unreadable⟩
  · intro trimmed
    exact ⟨_, standsAlone_trim reply, trimmed⟩

theorem looksNumeral_iff {word : List Char} :
    LooksNumeral word ↔ ¬ (word.isEmpty || !word.all isDigitLike) = true := by
  rw [Bool.or_eq_true, List.isEmpty_iff, Bool.not_eq_true', ← Bool.not_eq_true, List.all_eq_true]
  constructor
  · rintro ⟨filled, digits⟩
    tauto
  · intro both
    exact ⟨by tauto, by tauto⟩

theorem chosen_of_not_looksNumeral (other : ¬ LooksNumeral reply.toList) :
    chosen reply = .ok none :=
  if_pos (not_not.mp (mt looksNumeral_iff.mpr other))

theorem takeWhile_digits {word : List Char} (digits : ∀ c ∈ word, ∃ value, IsDigitOf c value) :
    (word.takeWhile fun c => (digitValue? c).isSome) = word := by
  refine List.takeWhile_eq_self_iff.mpr fun c member => ?_
  obtain ⟨value, digit⟩ := digits c member
  rw [digitValue?_eq_some_iff.mpr digit]
  rfl

theorem chosen_of_isReadable (looks : LooksNumeral reply.toList)
    (readable : IsReadable reply.toList) :
    ∃ number, IsNumeral reply.toList number ∧ chosen reply = .ok (some number) := by
  obtain ⟨digits, read⟩ := exists_digits_iff.mpr readable.digits
  have numeral : IsNumeral reply.toList (Nat.ofDigits 10 digits.reverse) :=
    ⟨looks.filled, digits, read, rfl⟩
  refine ⟨_, numeral, ?_⟩
  unfold chosen
  dsimp only
  rw [if_neg (looksNumeral_iff.mp looks), takeWhile_digits readable.digits,
    if_neg (Nat.not_lt.mpr readable.short), decimal?_eq_some_iff.mpr numeral.denotes]

theorem chosen_of_not_isReadable (looks : LooksNumeral reply.toList)
    (unreadable : ¬ IsReadable reply.toList) : ∃ refusal, chosen reply = .error refusal := by
  unfold chosen
  dsimp only
  rw [if_neg (looksNumeral_iff.mp looks)]
  split
  · exact ⟨_, rfl⟩
  · next short =>
    cases read : decimal? reply.toList with
    | none => exact ⟨_, rfl⟩
    | some number =>
        obtain ⟨values, digits, -⟩ := decimal?_eq_some_iff.mp read
        have all := exists_digits_iff.mp ⟨values, digits⟩
        rw [takeWhile_digits all] at short
        exact absurd ⟨all, Nat.not_lt.mp short⟩ unreadable

/-- A reply that makes the picker stumble is refused, and any other one chooses the candidate whose
number it spells. -/
theorem choose_cases (candidates : List Candidate) (reply : String) :
    (Stumbles reply ∧ ∃ refusal, choose candidates reply = .error refusal) ∨
      (¬ Stumbles reply ∧ ∃ choice, choose candidates reply = .ok choice ∧
        ∀ candidate, choice = some candidate ↔
          ∃ place, Spells reply (place + 1) ∧ candidates[place]? = some candidate) := by
  unfold choose
  simp only [stumbles_iff, spells_iff]
  by_cases looks : LooksNumeral (trim reply).toList
  · by_cases readable : IsReadable (trim reply).toList
    · obtain ⟨number, numeral, read⟩ := chosen_of_isReadable looks readable
      have spelled (other : ℕ) : IsNumeral (trim reply).toList other ↔ number = other :=
        ⟨numeral.unique, fun same => same ▸ numeral⟩
      refine .inr ⟨fun stumbles => stumbles.2 readable, ?_⟩
      simp only [spelled]
      rw [read]
      cases number with
      | zero => exact ⟨none, rfl, fun candidate => ⟨nofun, fun ⟨_, other, _⟩ => nomatch other⟩⟩
      | succ index =>
          refine ⟨candidates[index]?, rfl, fun candidate => ?_⟩
          constructor
          · intro here
            exact ⟨index, rfl, here⟩
          · rintro ⟨place, same, here⟩
            exact Nat.succ.inj same ▸ here
    · obtain ⟨refusal, refused⟩ := chosen_of_not_isReadable looks readable
      rw [refused]
      exact .inl ⟨⟨looks, readable⟩, refusal, rfl⟩
  · rw [chosen_of_not_looksNumeral looks]
    refine .inr ⟨fun stumbles => looks stumbles.1, none, rfl, fun candidate => ⟨nofun, ?_⟩⟩
    rintro ⟨place, numeral, -⟩
    exact absurd numeral.looksNumeral looks

/-- The answer of a pick to what is replied, if anything is. -/
def answerTo (candidates : List Candidate) : Option String → Except Fault (Option Candidate)
  | none => .ok none
  | some reply => (choose candidates reply).mapError .refusal

/-- Every reply but those that make the picker stumble is heeded, and those are refused. -/
theorem heeds_answerTo_iff (candidates : List Candidate) (reply : Option String) :
    (Heeds candidates reply (answerTo candidates reply) ↔ ¬ ∃ text ∈ reply, Stumbles text) ∧
    ((∃ text ∈ reply, Stumbles text) →
      ∃ refusal, answerTo candidates reply = .error (.refusal refusal)) := by
  cases reply with
  | none =>
      have none : ¬ ∃ text ∈ (Option.none : Option String), Stumbles text :=
        fun ⟨_, member, _⟩ => nomatch member
      refine ⟨iff_of_true ⟨Option.none, rfl, fun candidate => ⟨nofun, ?_⟩⟩ none, (absurd · none)⟩
      exact fun ⟨_, member, _⟩ => nomatch member
  | some reply =>
      simp only [Heeds, Option.mem_def, Option.some.injEq, exists_eq_left', answerTo]
      rcases choose_cases candidates reply with ⟨stumbles, refusal, refused⟩ | ⟨reads, chosen⟩
      · rw [refused]
        refine ⟨iff_of_false ?_ (not_not.mpr stumbles), fun _ => ⟨refusal, rfl⟩⟩
        rintro ⟨choice, answered, -⟩
        exact nomatch answered
      · obtain ⟨choice, answered, spelled⟩ := chosen
        rw [answered]
        exact ⟨iff_of_true ⟨choice, rfl, spelled⟩ reads, (absurd · reads)⟩

theorem start_print (text : String) (machine : Machine) :
    (Machine.print text).start machine =
      (.ok (), { machine with output := machine.output ++ text }) := rfl

/-- Reading a line answers with the first that is left, and nothing when none is. -/
theorem exists_start_readLine (machine : Machine) :
    ∃ after, Machine.readLine.start machine = (.ok machine.input.head?, after) := by
  unfold Machine.readLine
  rw [start_bind_of_ok (start_get machine)]
  cases machine.input with
  | nil => exact ⟨_, rfl⟩
  | cons line rest => exact ⟨_, rfl⟩

/-- A pick prints its items and answers to one line of the input. -/
theorem start_pick (prompt : String) (candidates : List Candidate) (machine : Machine) :
    ((pick prompt candidates).start machine).1 = answerTo candidates machine.input.head? := by
  unfold pick printItems Machine.printLine
  rw [start_bind_of_ok (start_print _ _), start_bind_of_ok (start_print _ _),
    start_bind_of_ok (start_print _ _)]
  obtain ⟨after, course⟩ := exists_start_readLine
    { machine with output := machine.output ++ (prompt ++ "\n") ++
        String.join ((candidates.zipIdx 1).map fun item => itemText item.2 item.1 ++ "\n") ++ "> " }
  rw [start_bind_of_ok course]
  dsimp only
  cases machine.input.head? with
  | none => rfl
  | some reply =>
      dsimp only [answerTo]
      cases choose candidates reply with
      | ok choice => rfl
      | error refusal => rfl

/-- The law of the picker in a terminal. Whatever is listed, a pick heeds every reply but those that
make it stumble, and on those it fails. -/
theorem pick_heeds_reply_iff (prompt : String) (candidates : List Candidate) (machine : Machine) :
    let reply := machine.input.head?
    let course := (pick prompt candidates).start machine
    (Heeds candidates reply course.1 ↔ ¬ ∃ text ∈ reply, Stumbles text) ∧
    ((∃ text ∈ reply, Stumbles text) → ∃ refusal, course.1 = .error (.refusal refusal)) := by
  intro reply course
  have answer : course.1 = answerTo candidates reply := start_pick prompt candidates machine
  rw [answer]
  exact heeds_answerTo_iff candidates reply

/-- A superscript two spells no number, and the pick fails where it should be dismissed. -/
theorem pick_not_dismissed_of_superscript :
    let first : Candidate := ⟨"A", .function, { path := "/p/foo.ts" }, .null⟩
    let second : Candidate := ⟨"B", .function, { path := "/p/foo.ts" }, .null⟩
    let disk : Files.Disk := { tree := .folder [], current := [] }
    (∀ number, ¬ Spells "²" number) ∧
      ((pick "P" [first, second]).start { disk, input := ["²"] }).1 =
        .error (.refusal (.noNumeral 10 "²")) := by
  intro first second disk
  constructor
  · intro number spells
    have alone : (trim "²").toList = ['²'] := by decide
    have numeral := alone ▸ spells_iff.mp spells
    exact nomatch (decimal?_eq_some_iff.mpr numeral.denotes).symm.trans
      (show decimal? ['²'] = none by decide)
  · rw [start_pick]
    have refused : choose [first, second] "²" = .error (.noNumeral 10 "²") := rfl
    exact congrArg (Except.mapError Fault.refusal) refused

end Replies

end Terminal

end SymbolJump
