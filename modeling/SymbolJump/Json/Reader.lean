/-
# Reading written values

The tokens of a written value are taken one at a time, with the lists and objects that are
still open on a stack. A key that an object has twice keeps its first place and its last value.
Reading is total: the stack makes the recursion a plain one over the tokens.
-/
import SymbolJump.Json.Token

namespace SymbolJump.Json

open Text

/-- A list or an object that is still open. The items of a list are in reverse; an object has
the key whose value comes next. -/
inductive Frame
  | items (done : List (Json Wide))
  | fields (done : Fields Wide) (key : Wide)

/-- What may come next. -/
inductive Awaiting
  /-- A value must follow. -/
  | value
  /-- A list has just been opened: a value or its end. -/
  | firstItem
  /-- An object has just been opened: a key or its end. -/
  | firstKey
  /-- A comma in an object: a key must follow. -/
  | key (done : Fields Wide)
  /-- A key: its colon must follow. -/
  | colon (done : Fields Wide) (key : Wide)
  /-- A value is complete. -/
  | done (value : Json Wide)

/-- Where reading stands: what may come next, and the open lists and objects, innermost first. -/
structure Position where
  awaiting : Awaiting
  stack : List Frame

namespace Position

/-- A value stands where one was awaited. -/
def startValue (stack : List Frame) : Token → Option Position
  | .openList => some ⟨.firstItem, stack⟩
  | .openObject => some ⟨.firstKey, stack⟩
  | .text value => some ⟨.done (.text value), stack⟩
  | .scalar value => some ⟨.done value, stack⟩
  | .closeList | .closeObject | .comma | .colon => none

/-- A token after a complete value. -/
def afterValue (value : Json Wide) : List Frame → Token → Option Position
  | .items done :: stack, .comma => some ⟨.value, .items (value :: done) :: stack⟩
  | .items done :: stack, .closeList => some ⟨.done (.list (value :: done).reverse), stack⟩
  | .fields done key :: stack, .comma => some ⟨.key (Fields.set done key value), stack⟩
  | .fields done key :: stack, .closeObject =>
      some ⟨.done (.object (Fields.set done key value)), stack⟩
  | _, _ => none

/-- What one token does. -/
def take (position : Position) (token : Token) : Option Position :=
  let stack := position.stack
  match position.awaiting, token with
  | .value, token => startValue stack token
  | .firstItem, .closeList => some ⟨.done (.list []), stack⟩
  | .firstItem, token => startValue (.items [] :: stack) token
  | .firstKey, .closeObject => some ⟨.done (.object []), stack⟩
  | .firstKey, .text key => some ⟨.colon [] key, stack⟩
  | .key done, .text key => some ⟨.colon done key, stack⟩
  | .colon done key, .colon => some ⟨.value, .fields done key :: stack⟩
  | .done value, token => afterValue value stack token
  | _, _ => none

/-- What the tokens that follow do. -/
def takeAll (position : Position) (tokens : List Token) : Option Position :=
  tokens.foldlM take position

end Position

/-- The value that a list of tokens writes. -/
def ofTokens? (tokens : List Token) : Option (Json Wide) := do
  match ← Position.takeAll ⟨.value, []⟩ tokens with
  | ⟨.done value, []⟩ => some value
  | _ => none

/-- The value that a text writes. -/
def read? (text : String) : Option (Json Wide) := do
  ofTokens? (← tokens text.toList)

end SymbolJump.Json
