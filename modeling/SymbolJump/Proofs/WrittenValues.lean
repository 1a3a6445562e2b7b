/-
# Values read back

The text of a value over several lines reads as the value. Its characters are told apart into tokens
first: a bare word ends where a line or an object does, and blanks stand between tokens only. The
tokens then lead from where a value is awaited to where it is complete, with the open lists and
objects as they were. What is written is the value with its keys in order.
-/
import SymbolJump.Json.Reader
import SymbolJump.Proofs.KeyOrder
import SymbolJump.Proofs.Numerals
import SymbolJump.Proofs.WrittenTexts

namespace SymbolJump.Json

open Text

/-- A bare word ends before a text. -/
def Separates (rest : List Char) : Prop :=
  ∀ c ∈ rest.head?, isWordChar c = false

/-- Characters are read as tokens when a bare word ends after them. -/
def LexesTo (chars : List Char) (tokens : List Token) : Prop :=
  ∀ rest, Separates rest →
    tokensFrom .between (chars ++ rest) = (tokensFrom .between rest).map (tokens ++ ·)

theorem separates_cons {c : Char} (ends : isWordChar c = false) (rest : List Char) :
    Separates (c :: rest) := by
  rintro _ ⟨⟩
  exact ends

theorem Separates.append {chars rest : List Char} (first : Separates chars)
    (second : Separates rest) : Separates (chars ++ rest) := by
  cases chars with
  | nil => exact second
  | cons c chars => exact first

theorem lexesTo_nil : LexesTo [] [] := by
  intro rest _
  rw [List.nil_append]
  cases tokensFrom .between rest <;> rfl

theorem LexesTo.append {first second : List Char} {tokens later : List Token}
    (here : LexesTo first tokens) (separates : Separates second) (there : LexesTo second later) :
    LexesTo (first ++ second) (tokens ++ later) := by
  intro rest ends
  rw [List.append_assoc, here _ (separates.append ends), there _ ends, Option.map_map]
  congr 1
  funext more
  simp

theorem plain_of_punctuation? {c : Char} {token : Token} (mark : punctuation? c = some token) :
    isSpace c = false ∧ c ≠ '"' ∧ isWordChar c = false := by
  unfold punctuation? at mark
  split at mark
  case h_7 => exact nomatch mark
  all_goals decide

theorem not_isWordChar_of_isSpace {c : Char} (space : isSpace c = true) :
    isWordChar c = false := by
  simp only [isSpace, Bool.or_eq_true, beq_iff_eq] at space
  rcases space with ((rfl | rfl) | rfl) | rfl <;> decide

theorem LexesTo.space {c : Char} {chars : List Char} {tokens : List Token}
    (space : isSpace c = true) (lexes : LexesTo chars tokens) : LexesTo (c :: chars) tokens := by
  intro rest ends
  have step : Mode.take .between c = some ([], .between) := by
    rw [Mode.take, Mode.take.enter, if_pos space]
  rw [List.cons_append, tokensFrom_cons_of_silent _ step, lexes rest ends]

theorem LexesTo.punctuation {c : Char} {token : Token} {chars : List Char} {tokens : List Token}
    (mark : punctuation? c = some token) (lexes : LexesTo chars tokens) :
    LexesTo (c :: chars) (token :: tokens) := by
  intro rest ends
  obtain ⟨space, quote, _⟩ := plain_of_punctuation? mark
  have step : Mode.take .between c = some ([token], .between) := by
    rw [Mode.take, Mode.take.enter, space, if_neg Bool.false_ne_true, if_neg quote, mark]
  rw [List.cons_append, tokensFrom_cons step, lexes rest ends, Option.map_map]
  rfl

theorem lexesTo_writtenText (text : Wide) : LexesTo (writtenText text) [.text text] := by
  intro rest _
  exact tokensFrom_writtenText text rest

theorem enter_of_isWordChar {c : Char} (word : isWordChar c = true) :
    Mode.take .between c = some ([], .inWord [c]) := by
  have space : isSpace c = false := by
    cases space : isSpace c with
    | false => rfl
    | true => simp [not_isWordChar_of_isSpace space] at word
  have quote : c ≠ '"' := by
    rintro rfl
    exact absurd word (by decide)
  have mark : punctuation? c = none := by
    cases mark : punctuation? c with
    | none => rfl
    | some token => simp [(plain_of_punctuation? mark).2.2] at word
  rw [Mode.take, Mode.take.enter, space, if_neg Bool.false_ne_true, if_neg quote, mark]
  exact if_pos word

theorem tokensFrom_inWord {read word : List Char} (chars : ∀ c ∈ word, isWordChar c = true)
    (rest : List Char) :
    tokensFrom (.inWord read) (word ++ rest) =
      tokensFrom (.inWord (word.reverse ++ read)) rest := by
  induction word generalizing read with
  | nil => rfl
  | cons c word ih =>
      obtain ⟨here, later⟩ := List.forall_mem_cons.mp chars
      have step : (Mode.inWord read).take c = some ([], .inWord (c :: read)) := by
        rw [Mode.take, if_pos here]
      rw [List.cons_append, tokensFrom_cons_of_silent _ step, ih later, List.reverse_cons,
        List.append_assoc, List.singleton_append]

/-- A bare word ends where another character comes, and is one token. -/
theorem tokensFrom_inWord_of_separates {read rest : List Char} {value : Json Wide}
    (reads : word? read.reverse = some value) (separates : Separates rest) :
    tokensFrom (.inWord read) rest = (tokensFrom .between rest).map (.scalar value :: ·) := by
  cases rest with
  | nil => simp [tokensFrom, Mode.finish, reads]
  | cons c rest =>
      have ends := separates c rfl
      have step : (Mode.inWord read).take c =
          (Mode.take .between c).map fun next => (.scalar value :: next.1, next.2) := by
        simp only [Mode.take, ends, reads, Option.bind_eq_bind, Option.bind_some]
        cases Mode.take.enter c <;> rfl
      cases enters : Mode.take .between c with
      | none => simp [tokensFrom, step, enters]
      | some next =>
          rw [enters, Option.map_some] at step
          rw [tokensFrom_cons step, tokensFrom_cons enters, Option.map_map]
          rfl

theorem IsWordOf.lexesTo {value : Json Wide} {word : List Char} (isWord : IsWordOf value word) :
    LexesTo word [.scalar value] := by
  intro rest separates
  cases word with
  | nil => exact absurd rfl isWord.ne_nil
  | cons c word =>
      obtain ⟨here, later⟩ := List.forall_mem_cons.mp isWord.chars
      have reads : word? (word.reverse ++ [c]).reverse = some value := by
        rw [List.reverse_append, List.reverse_reverse]
        exact isWord.reads
      rw [List.cons_append, tokensFrom_cons_of_silent _ (enter_of_isWordChar here),
        tokensFrom_inWord later, tokensFrom_inWord_of_separates reads separates]
      rfl

theorem separates_newLine (level : Nat) (chars : List Char) : Separates (newLine level ++ chars) :=
  separates_cons (by decide) _

theorem LexesTo.newLine {chars : List Char} {tokens : List Token} (level : Nat)
    (lexes : LexesTo chars tokens) : LexesTo (newLine level ++ chars) tokens := by
  have blanks (count : Nat) : LexesTo (List.replicate count ' ' ++ chars) tokens := by
    induction count with
    | zero => exact lexes
    | succ count ih => exact ih.space rfl
  exact (blanks _).space rfl

/-- An item is read after the mark in front of it. -/
theorem lexesTo_item {c : Char} {token : Token} {item rest : List Char} {tokens later : List Token}
    (mark : punctuation? c = some token) (level : Nat) (lexes : LexesTo item tokens)
    (separates : Separates rest) (lexesOn : LexesTo rest later) :
    LexesTo (c :: (newLine level ++ (item ++ rest))) (token :: (tokens ++ later)) :=
  ((lexes.append separates lexesOn).newLine level).punctuation mark

/-- A field is read after the mark in front of it. -/
theorem lexesTo_field {c : Char} {token : Token} {item rest : List Char} {tokens later : List Token}
    (mark : punctuation? c = some token) (level : Nat) (key : Wide) (lexes : LexesTo item tokens)
    (separates : Separates rest) (lexesOn : LexesTo rest later) :
    LexesTo (c :: (newLine level ++ (writtenText key ++ (':' :: ' ' :: (item ++ rest)))))
      (token :: .text key :: .colon :: (tokens ++ later)) := by
  have spaced := (lexes.append separates lexesOn).space (show isSpace ' ' = true from rfl)
  have valued := spaced.punctuation (show punctuation? ':' = some .colon from rfl)
  have keyed := (lexesTo_writtenText key).append (separates_cons (by decide) _) valued
  exact (keyed.newLine level).punctuation mark

open Position

theorem takeAll_append (position : Position) (tokens later : List Token) :
    position.takeAll (tokens ++ later) = (position.takeAll tokens).bind (takeAll · later) :=
  List.foldlM_append

theorem takeAll_cons {position next : Position} {token : Token}
    (step : position.take token = some next) (tokens : List Token) :
    position.takeAll (token :: tokens) = next.takeAll tokens := by
  rw [takeAll, List.foldlM_cons, step]
  rfl

theorem takeAll_append_of_some {position next : Position} {tokens : List Token}
    (course : position.takeAll tokens = some next) (later : List Token) :
    position.takeAll (tokens ++ later) = next.takeAll later := by
  rw [takeAll_append, course, Option.bind_some]

/-- Characters are read as a value where one is awaited. -/
def ReadsAs (chars : List Char) (value : Json Wide) : Prop :=
  ∃ tokens, LexesTo chars tokens ∧
    ∀ stack, takeAll ⟨.value, stack⟩ tokens = some ⟨.done value, stack⟩

/-- What is read as a value is read so at the start of a list too. -/
theorem takeAll_firstItem {tokens : List Token} {value : Json Wide}
    (reads : ∀ stack, takeAll ⟨.value, stack⟩ tokens = some ⟨.done value, stack⟩)
    (stack : List Frame) :
    takeAll ⟨.firstItem, stack⟩ tokens = some ⟨.done value, .items [] :: stack⟩ := by
  have course := reads (.items [] :: stack)
  cases tokens with
  | nil => exact nomatch course
  | cons token tokens =>
      cases token with
      | closeList => exact nomatch course
      | _ => exact course

/-- Where an entry of an object is added under a new key, it comes last. -/
theorem set_of_not_mem {fields : Fields Wide} {key : Wide} (fresh : key ∉ fields.map Prod.fst)
    (value : Json Wide) : Fields.set fields key value = fields ++ [(key, value)] := by
  induction fields with
  | nil => rfl
  | cons field fields ih =>
      obtain ⟨differ, fresh⟩ := not_or.mp (List.mem_cons.not.mp fresh)
      rw [Fields.set, if_neg (Ne.symm differ), ih fresh, List.cons_append]

theorem separates_moreItems (inner outer : Nat) (items : List (Json Wide)) (chars : List Char) :
    Separates (moreItemsOverLines inner items ++ (newLine outer ++ chars)) := by
  cases items with
  | nil => exact separates_newLine outer chars
  | cons item items => exact separates_cons (by decide) _

theorem separates_moreFields (inner outer : Nat) (fields : Fields Wide) (chars : List Char) :
    Separates (moreFieldsOverLines inner fields ++ (newLine outer ++ chars)) := by
  cases fields with
  | nil => exact separates_newLine outer chars
  | cons field fields => exact separates_cons (by decide) _

/-- What follows an item of a list is read as the other items and the end. -/
theorem exists_moreItems {inner : Nat} (outer : Nat) {items : List (Json Wide)}
    (each : ∀ item ∈ items, ReadsAs (overLines inner item) item) :
    ∃ tokens, LexesTo (moreItemsOverLines inner items ++ (newLine outer ++ [']'])) tokens ∧
      ∀ value done stack, takeAll ⟨.done value, .items done :: stack⟩ tokens =
        some ⟨.done (.list (done.reverse ++ value :: items)), stack⟩ := by
  induction items with
  | nil =>
      refine ⟨[.closeList], (lexesTo_nil.punctuation rfl).newLine outer, fun value done stack => ?_⟩
      rw [← List.reverse_cons]
      rfl
  | cons item items ih =>
      obtain ⟨here, others⟩ := List.forall_mem_cons.mp each
      obtain ⟨tokens, lexes, reads⟩ := here
      obtain ⟨later, lexesOn, readsOn⟩ := ih others
      refine ⟨.comma :: (tokens ++ later), ?_, fun value done stack => ?_⟩
      · have separates := separates_moreItems inner outer items [']']
        simpa [moreItemsOverLines] using lexesTo_item (c := ',') rfl inner lexes separates lexesOn
      · have comma : take ⟨.done value, .items done :: stack⟩ .comma =
            some ⟨.value, .items (value :: done) :: stack⟩ := rfl
        rw [takeAll_cons comma, takeAll_append_of_some (reads _), readsOn]
        simp

/-- What follows a field of an object is read as the other fields and the end. -/
theorem exists_moreFields {inner : Nat} (outer : Nat) {fields : Fields Wide}
    (each : ∀ field ∈ fields, ReadsAs (overLines inner field.2) field.2) :
    ∃ tokens, LexesTo (moreFieldsOverLines inner fields ++ (newLine outer ++ ['}'])) tokens ∧
      ∀ key value done stack, ((done ++ (key, value) :: fields).map Prod.fst).Nodup →
        takeAll ⟨.done value, .fields done key :: stack⟩ tokens =
          some ⟨.done (.object (done ++ (key, value) :: fields)), stack⟩ := by
  have fresh {key : Wide} {value : Json Wide} {done rest : Fields Wide}
      (distinct : ((done ++ (key, value) :: rest).map Prod.fst).Nodup) :
      Fields.set done key value = done ++ [(key, value)] := by
    refine set_of_not_mem (fun member => ?_) value
    rw [List.map_append, List.nodup_append] at distinct
    exact distinct.2.2 key member key (by simp) rfl
  induction fields with
  | nil =>
      refine ⟨[.closeObject], (lexesTo_nil.punctuation rfl).newLine outer,
        fun key value done stack distinct => ?_⟩
      rw [← fresh distinct]
      rfl
  | cons field fields ih =>
      obtain ⟨next, item⟩ := field
      obtain ⟨here, others⟩ := List.forall_mem_cons.mp each
      obtain ⟨tokens, lexes, reads⟩ := here
      obtain ⟨later, lexesOn, readsOn⟩ := ih others
      refine ⟨.comma :: .text next :: .colon :: (tokens ++ later), ?_,
        fun key value done stack distinct => ?_⟩
      · have separates := separates_moreFields inner outer fields ['}']
        simpa [moreFieldsOverLines] using
          lexesTo_field (c := ',') rfl inner next lexes separates lexesOn
      · have comma : take ⟨.done value, .fields done key :: stack⟩ .comma =
            some ⟨.key (done ++ [(key, value)]), stack⟩ := by
          rw [← fresh distinct]
          rfl
        rw [List.append_cons] at distinct ⊢
        rw [takeAll_cons comma, takeAll_cons rfl, takeAll_cons rfl,
          takeAll_append_of_some (reads _), readsOn _ _ _ _ distinct]

theorem readsAs_of_isWordOf {value : Json Wide} {word : List Char} (isWord : IsWordOf value word) :
    ReadsAs word value :=
  ⟨_, isWord.lexesTo, fun _ => rfl⟩

/-- A list is read back when its items are. -/
theorem readsAs_list {items : List (Json Wide)} {level : Nat}
    (each : ∀ item ∈ items, ReadsAs (overLines (level + 1) item) item) :
    ReadsAs (overLines level (.list items)) (.list items) := by
  cases items with
  | nil =>
      exact ⟨[.openList, .closeList], (lexesTo_nil.punctuation rfl).punctuation rfl, fun _ => rfl⟩
  | cons item items =>
      obtain ⟨here, others⟩ := List.forall_mem_cons.mp each
      obtain ⟨tokens, lexes, reads⟩ := here
      obtain ⟨later, lexesOn, readsOn⟩ := exists_moreItems level others
      refine ⟨.openList :: (tokens ++ later), ?_, fun stack => ?_⟩
      · have separates := separates_moreItems (level + 1) level items [']']
        simpa [overLines] using lexesTo_item (c := '[') rfl (level + 1) lexes separates lexesOn
      · rw [takeAll_cons rfl, takeAll_append_of_some (takeAll_firstItem reads _), readsOn]
        rfl

/-- An object with distinct keys is read back when its values are. -/
theorem readsAs_object {fields : Fields Wide} {level : Nat} (distinct : (fields.map Prod.fst).Nodup)
    (each : ∀ field ∈ fields, ReadsAs (overLines (level + 1) field.2) field.2) :
    ReadsAs (overLines level (.object fields)) (.object fields) := by
  cases fields with
  | nil =>
      exact ⟨[.openObject, .closeObject], (lexesTo_nil.punctuation rfl).punctuation rfl,
        fun _ => rfl⟩
  | cons field fields =>
      obtain ⟨key, item⟩ := field
      obtain ⟨here, others⟩ := List.forall_mem_cons.mp each
      obtain ⟨tokens, lexes, reads⟩ := here
      obtain ⟨later, lexesOn, readsOn⟩ := exists_moreFields level others
      refine ⟨.openObject :: .text key :: .colon :: (tokens ++ later), ?_, fun stack => ?_⟩
      · have separates := separates_moreFields (level + 1) level fields ['}']
        simpa [overLines] using lexesTo_field (c := '{') rfl (level + 1) key lexes separates lexesOn
      · rw [takeAll_cons rfl, takeAll_cons rfl, takeAll_cons rfl,
          takeAll_append_of_some (reads _), readsOn _ _ [] _ distinct]
        rfl

/-- A proper value is read back from its text over several lines. -/
theorem readsAs_overLines {value : Json Wide} (proper : value.IsProper) (level : Nat) :
    ReadsAs (overLines level value) value := by
  induction value using induction generalizing level with
  | null => exact readsAs_of_isWordOf isWordOf_null
  | bool value =>
      cases value with
      | true => exact readsAs_of_isWordOf isWordOf_true
      | false => exact readsAs_of_isWordOf isWordOf_false
  | int value => exact readsAs_of_isWordOf (isWordOf_int proper)
  | float value => exact readsAs_of_isWordOf (isWordOf_float value)
  | text value => exact ⟨_, lexesTo_writtenText value, fun _ => rfl⟩
  | list items ih =>
      rw [isProper_list] at proper
      apply readsAs_list
      intro item member
      exact ih item member (proper item member) (level + 1)
  | object fields ih =>
      obtain ⟨distinct, proper⟩ := isProper_object.mp proper
      apply readsAs_object distinct
      intro field member
      exact ih field member (proper field member) (level + 1)

theorem read?_of_readsAs {chars : List Char} {value : Json Wide} (reads : ReadsAs chars value) :
    read? (String.ofList chars) = some value := by
  obtain ⟨tokens, lexes, course⟩ := reads
  have found : tokensFrom .between chars = some tokens := by
    have whole := lexes [] (fun _ none => nomatch none)
    rw [List.append_nil] at whole
    rw [whole]
    simp [tokensFrom, Mode.finish]
  simp [read?, Json.tokens, found, ofTokens?, course]

/-- A proper value is read back from its text with its keys in order. -/
theorem read?_indented {value : Json Wide} (proper : value.IsProper) :
    read? value.indented = some value.sortKeys :=
  read?_of_readsAs (readsAs_overLines (isProper_sortKeys proper) 0)

end SymbolJump.Json
