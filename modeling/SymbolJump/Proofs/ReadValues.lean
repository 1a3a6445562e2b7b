/-
# Values that were read

Whatever text a value was read from, the value can be written and read again: no object in it has a
key twice, since a key that comes again takes the place of the one before, and no whole number in it
is too long, since a longer one is refused. The first is an invariant of the objects that are still
open.
-/
import SymbolJump.Json.Reader
import SymbolJump.Proofs.KeyOrder
import SymbolJump.Proofs.Numerals

namespace SymbolJump

open Text

namespace Text

theorem ofDigitChars_lt {text : List Char} (digits : ∀ c ∈ text, isAsciiDigit c = true) :
    Nat.ofDigitChars 10 text 0 < 10 ^ text.length := by
  induction text with
  | nil => decide
  | cons c text ih =>
      obtain ⟨here, later⟩ := List.forall_mem_cons.mp digits
      obtain ⟨low, high⟩ := isAsciiDigit_iff.mp here
      have rest := ih later
      have digit : c.toNat - '0'.toNat ≤ 9 := by
        show c.toNat - 48 ≤ 9
        omega
      have scaled := Nat.mul_le_mul_left (10 ^ text.length) digit
      rw [Nat.ofDigitChars_cons, Nat.ofDigitChars_eq_ofDigitChars_zero, Nat.mul_zero, Nat.zero_add,
        List.length_cons, Nat.pow_succ]
      omega

end Text

namespace Json

theorem isDigits_of_digits? {text : List Char} {n : Nat} (reads : digits? text = some n) :
    IsDigits text := by
  unfold digits? at reads
  split at reads
  · exact nomatch reads
  · next digits =>
    simp only [Bool.or_eq_true, not_or, Bool.not_eq_true] at digits
    exact ⟨by simpa using digits.1, by simpa using digits.2⟩

theorem natAbs_lt_of_isDigits {digits : List Char} {limit : Nat} (isDigits : IsDigits digits)
    (short : digits.length ≤ limit) (negative : Bool) :
    (if negative then -(Nat.ofDigitChars 10 digits 0 : Int)
      else Nat.ofDigitChars 10 digits 0).natAbs < Nat.pow 10 limit := by
  have small : Nat.ofDigitChars 10 digits 0 < Nat.pow 10 limit :=
    Nat.lt_of_lt_of_le (ofDigitChars_lt isDigits.digits) (Nat.pow_le_pow_right (by decide) short)
  cases negative with
  | true => simpa using small
  | false => simpa using small

/-- A number that is read is not too long. -/
theorem isProper_of_value? {negative : Bool} {numeral : Numeral} {value : Json Wide}
    (reads : numeral.value? negative = some value) : value.IsProper := by
  unfold Numeral.value? at reads
  rw [Option.bind_eq_bind, Option.bind_eq_some_iff] at reads
  obtain ⟨whole, digits, reads⟩ := reads
  split at reads
  · exact nomatch reads
  cases fraction : numeral.fraction with
  | none =>
      cases exponent : numeral.exponent with
      | none =>
          have isDigits := isDigits_of_digits? digits
          obtain rfl := Option.some.inj ((digits?_of_isDigits isDigits).symm.trans digits)
          simp only [fraction, exponent] at reads
          split at reads
          · exact nomatch reads
          · next short =>
            obtain rfl := Option.some.inj reads
            exact natAbs_lt_of_isDigits isDigits (Nat.le_of_not_lt short) negative
      | some text =>
          simp [fraction, exponent, Option.bind_eq_some_iff] at reads
          obtain ⟨_, _, rfl⟩ := reads
          trivial
  | some part =>
      cases exponent : numeral.exponent with
      | none =>
          simp [fraction, exponent, Option.bind_eq_some_iff] at reads
          obtain ⟨_, _, rfl⟩ := reads
          trivial
      | some text =>
          simp [fraction, exponent, Option.bind_eq_some_iff] at reads
          obtain ⟨_, _, _, _, rfl⟩ := reads
          trivial

theorem isProper_of_word? {word : List Char} {value : Json Wide}
    (reads : word? word = some value) : value.IsProper := by
  have named : ∀ entry ∈ namedWords, entry.2.IsProper := by simp [namedWords, IsProper]
  unfold word? at reads
  split at reads
  · next found =>
    obtain rfl := Option.some.inj reads
    obtain ⟨before, after, table, _⟩ := List.lookup_eq_some_iff.mp found
    exact named (_, _) (table ▸ List.mem_append_right _ List.mem_cons_self)
  · split at reads <;> exact isProper_of_value? reads

/-- The value of a token is proper, if it has one. -/
def Token.IsProper (token : Token) : Prop :=
  ∀ value, token = .scalar value → value.IsProper

theorem isProper_of_enter {c : Char} {tokens : List Token} {next : Mode}
    (step : Mode.take.enter c = some (tokens, next)) : ∀ token ∈ tokens, token.IsProper := by
  have none : ∀ token ∈ ([] : List Token), token.IsProper := fun _ member => nomatch member
  unfold Mode.take.enter at step
  split at step
  · obtain ⟨rfl, _⟩ := Prod.mk.inj (Option.some.inj step)
    exact none
  split at step
  · obtain ⟨rfl, _⟩ := Prod.mk.inj (Option.some.inj step)
    exact none
  split at step
  · next token mark =>
    obtain ⟨rfl, _⟩ := Prod.mk.inj (Option.some.inj step)
    rintro _ here value rfl
    obtain rfl := List.mem_singleton.mp here
    unfold punctuation? at mark
    split at mark <;> exact nomatch mark
  split at step
  · obtain ⟨rfl, _⟩ := Prod.mk.inj (Option.some.inj step)
    exact none
  · exact nomatch step

/-- The tokens that a character completes have proper values. -/
theorem isProper_of_take {mode next : Mode} {c : Char} {tokens : List Token}
    (step : mode.take c = some (tokens, next)) : ∀ token ∈ tokens, token.IsProper := by
  have none : ∀ token ∈ ([] : List Token), token.IsProper := fun _ member => nomatch member
  cases mode with
  | between => exact isProper_of_enter step
  | inText units =>
      simp only [Mode.take] at step
      split at step
      · obtain ⟨rfl, _⟩ := Prod.mk.inj (Option.some.inj step)
        rintro _ here value rfl
        exact nomatch List.mem_singleton.mp here
      split at step
      · obtain ⟨rfl, _⟩ := Prod.mk.inj (Option.some.inj step)
        exact none
      split at step
      · exact nomatch step
      · obtain ⟨rfl, _⟩ := Prod.mk.inj (Option.some.inj step)
        exact none
  | afterBackslash units =>
      simp only [Mode.take] at step
      split at step
      · obtain ⟨rfl, _⟩ := Prod.mk.inj (Option.some.inj step)
        exact none
      · obtain ⟨_, _, same⟩ := Option.map_eq_some_iff.mp step
        obtain ⟨rfl, _⟩ := Prod.mk.inj same
        exact none
  | inCodeUnit units digits =>
      simp only [Mode.take] at step
      obtain ⟨_, _, same⟩ := Option.map_eq_some_iff.mp step
      split at same <;> obtain ⟨rfl, _⟩ := Prod.mk.inj same <;> exact none
  | inWord chars =>
      simp only [Mode.take, Option.bind_eq_bind] at step
      split at step
      · obtain ⟨rfl, _⟩ := Prod.mk.inj (Option.some.inj step)
        exact none
      · obtain ⟨value, reads, step⟩ := Option.bind_eq_some_iff.mp step
        obtain ⟨⟨more, mode⟩, enters, same⟩ := Option.bind_eq_some_iff.mp step
        obtain ⟨rfl, _⟩ := Prod.mk.inj (Option.some.inj same)
        refine List.forall_mem_cons.mpr ⟨?_, isProper_of_enter enters⟩
        rintro _ ⟨⟩
        exact isProper_of_word? reads

theorem isProper_of_tokensFrom {mode : Mode} {chars : List Char} {tokens : List Token}
    (reads : tokensFrom mode chars = some tokens) : ∀ token ∈ tokens, token.IsProper := by
  induction chars generalizing mode tokens with
  | nil =>
      cases mode with
      | between =>
          obtain rfl := Option.some.inj reads
          exact fun _ member => nomatch member
      | inWord chars =>
          obtain ⟨value, word, rfl⟩ := Option.map_eq_some_iff.mp reads
          rintro _ here value' rfl
          obtain ⟨⟩ := List.mem_singleton.mp here
          exact isProper_of_word? word
      | inText _ | afterBackslash _ | inCodeUnit _ _ => exact nomatch reads
  | cons c rest ih =>
      rw [tokensFrom, Option.bind_eq_bind, Option.bind_eq_some_iff] at reads
      obtain ⟨⟨now, next⟩, step, reads⟩ := reads
      obtain ⟨later, rest, same⟩ := Option.bind_eq_some_iff.mp reads
      obtain rfl := Option.some.inj same
      intro token member
      rcases List.mem_append.mp member with here | there
      · exact isProper_of_take step token here
      · exact ih rest token there

/-- What is complete in an open list or object is proper. -/
def Frame.IsProper : Frame → Prop
  | .items done => ∀ value ∈ done, value.IsProper
  | .fields done _ => (Json.object done).IsProper

/-- What is complete where reading stands is proper. -/
def Awaiting.IsProper : Awaiting → Prop
  | .key fields | .colon fields _ => (Json.object fields).IsProper
  | .done whole => whole.IsProper
  | .value | .firstItem | .firstKey => True

/-- All that is complete is proper. -/
structure Position.IsProper (position : Position) : Prop where
  awaiting : position.awaiting.IsProper
  stack : ∀ frame ∈ position.stack, frame.IsProper

section Fields

variable {τ : Type} [DecidableEq τ]

theorem mem_of_mem_set {fields : Fields τ} {key : τ} {value : Json τ} {field : τ × Json τ}
    (member : field ∈ Fields.set fields key value) : field ∈ fields ∨ field = (key, value) := by
  induction fields with
  | nil => exact .inr (List.mem_singleton.mp member)
  | cons first fields ih =>
      obtain ⟨other, old⟩ := first
      rw [Fields.set] at member
      split at member
      · next same =>
        subst same
        rcases List.mem_cons.mp member with here | there
        · exact .inr here
        · exact .inl (List.mem_cons_of_mem _ there)
      · rcases List.mem_cons.mp member with here | there
        · exact .inl (here ▸ List.mem_cons_self)
        · rcases ih there with old | new
          · exact .inl (List.mem_cons_of_mem _ old)
          · exact .inr new

/-- Setting a field leaves the keys of an object distinct. -/
theorem nodup_set {fields : Fields τ} (distinct : (fields.map Prod.fst).Nodup) (key : τ)
    (value : Json τ) : ((Fields.set fields key value).map Prod.fst).Nodup := by
  induction fields with
  | nil => simp [Fields.set]
  | cons first fields ih =>
      obtain ⟨other, old⟩ := first
      obtain ⟨fresh, distinct⟩ := List.nodup_cons.mp distinct
      rw [Fields.set]
      split
      · exact List.nodup_cons.mpr ⟨fresh, distinct⟩
      · next differ =>
        refine List.nodup_cons.mpr ⟨fun member => ?_, ih distinct⟩
        obtain ⟨field, there, same⟩ := List.mem_map.mp member
        rcases mem_of_mem_set there with old | rfl
        · exact fresh (List.mem_map.mpr ⟨field, old, same⟩)
        · exact differ same.symm

theorem isProper_set {fields : Fields τ} {value : Json τ} (proper : (Json.object fields).IsProper)
    (key : τ) (new : value.IsProper) :
    (Json.object (Fields.set fields key value)).IsProper := by
  obtain ⟨distinct, each⟩ := isProper_object.mp proper
  refine isProper_object.mpr ⟨nodup_set distinct key value, fun field member => ?_⟩
  rcases mem_of_mem_set member with old | rfl
  · exact each field old
  · exact new

theorem isProper_erase {fields : Fields τ} (proper : (Json.object fields).IsProper) (key : τ) :
    (Json.object (Fields.erase fields key)).IsProper := by
  obtain ⟨distinct, each⟩ := isProper_object.mp proper
  refine isProper_object.mpr ⟨distinct.sublist (List.filter_sublist.map _), fun field member => ?_⟩
  exact each field (List.mem_of_mem_filter member)

end Fields

theorem isProper_of_startValue {stack : List Frame} {token : Token} {next : Position}
    (frames : ∀ frame ∈ stack, frame.IsProper) (proper : token.IsProper)
    (step : Position.startValue stack token = some next) : next.IsProper := by
  cases token with
  | closeList | closeObject | comma | colon => exact nomatch step
  | scalar value =>
      obtain rfl := Option.some.inj step
      exact ⟨proper value rfl, frames⟩
  | openList | openObject | text _ =>
      obtain rfl := Option.some.inj step
      exact ⟨trivial, frames⟩

theorem isProper_of_afterValue {value : Json Wide} {stack : List Frame} {token : Token}
    {next : Position} (complete : value.IsProper) (frames : ∀ frame ∈ stack, frame.IsProper)
    (step : Position.afterValue value stack token = some next) : next.IsProper := by
  cases stack with
  | nil => exact nomatch step
  | cons frame stack =>
      obtain ⟨here, others⟩ := List.forall_mem_cons.mp frames
      cases frame with
      | items done =>
          have items : ∀ item ∈ value :: done, item.IsProper :=
            List.forall_mem_cons.mpr ⟨complete, here⟩
          cases token with
          | comma =>
              obtain rfl := Option.some.inj step
              exact ⟨trivial, List.forall_mem_cons.mpr ⟨items, others⟩⟩
          | closeList =>
              obtain rfl := Option.some.inj step
              refine ⟨isProper_list.mpr fun item member => ?_, others⟩
              exact items item (List.mem_reverse.mp member)
          | _ => exact nomatch step
      | fields done key =>
          have fields := isProper_set here key complete
          cases token with
          | comma | closeObject =>
              obtain rfl := Option.some.inj step
              exact ⟨fields, others⟩
          | _ => exact nomatch step

/-- A token leaves what is complete proper. -/
theorem Position.IsProper.take {position next : Position} {token : Token}
    (here : position.IsProper) (proper : token.IsProper)
    (step : position.take token = some next) : next.IsProper := by
  obtain ⟨awaiting, stack⟩ := position
  obtain ⟨complete, frames⟩ := here
  cases awaiting with
  | value => exact isProper_of_startValue frames proper step
  | done value => exact isProper_of_afterValue complete frames step
  | firstItem =>
      have opened : ∀ frame ∈ Frame.items [] :: stack, frame.IsProper :=
        List.forall_mem_cons.mpr ⟨fun _ member => (nomatch member), frames⟩
      cases token with
      | closeList =>
          obtain rfl := Option.some.inj step
          exact ⟨trivial, frames⟩
      | _ => exact isProper_of_startValue opened proper step
  | firstKey =>
      cases token with
      | closeObject | text _ =>
          obtain rfl := Option.some.inj step
          exact ⟨isProper_object.mpr ⟨List.nodup_nil, fun _ member => nomatch member⟩, frames⟩
      | _ => exact nomatch step
  | key fields =>
      cases token with
      | text key =>
          obtain rfl := Option.some.inj step
          exact ⟨complete, frames⟩
      | _ => exact nomatch step
  | colon fields key =>
      cases token with
      | colon =>
          obtain rfl := Option.some.inj step
          exact ⟨trivial, List.forall_mem_cons.mpr ⟨complete, frames⟩⟩
      | _ => exact nomatch step

theorem Position.IsProper.takeAll {position next : Position} {tokens : List Token}
    (here : position.IsProper) (proper : ∀ token ∈ tokens, token.IsProper)
    (course : position.takeAll tokens = some next) : next.IsProper := by
  induction tokens generalizing position with
  | nil =>
      obtain rfl := Option.some.inj course
      exact here
  | cons token tokens ih =>
      obtain ⟨now, later⟩ := List.forall_mem_cons.mp proper
      rw [Position.takeAll, List.foldlM_cons, Option.bind_eq_bind] at course
      obtain ⟨middle, step, course⟩ := Option.bind_eq_some_iff.mp course
      exact ih (here.take now step) later course

/-- Every value that is read is proper. -/
theorem isProper_of_read? {text : String} {value : Json Wide} (reads : read? text = some value) :
    value.IsProper := by
  unfold read? at reads
  rw [Option.bind_eq_bind] at reads
  obtain ⟨tokens, lexes, reads⟩ := Option.bind_eq_some_iff.mp reads
  unfold ofTokens? at reads
  rw [Option.bind_eq_bind] at reads
  obtain ⟨position, course, reads⟩ := Option.bind_eq_some_iff.mp reads
  have start : Position.IsProper ⟨.value, []⟩ := ⟨trivial, fun _ member => nomatch member⟩
  have last := start.takeAll (isProper_of_tokensFrom lexes) course
  split at reads
  · obtain rfl := Option.some.inj reads
    exact last.awaiting
  · exact nomatch reads

end Json

end SymbolJump
