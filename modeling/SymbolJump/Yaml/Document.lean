/-
# Documents

The tokens of a document are read into its content. A part with an anchor can be used again
under its name, from where it starts. A text holds one document at most, and none is the empty
word. Where cutting the text into tokens failed, reading fails in the same way, unless the
tokens before it are wrong already.
-/
import SymbolJump.Yaml.Graph
import SymbolJump.Yaml.Token

namespace SymbolJump.Yaml

/-- The tokens still to be read with the problem that ends them, the anchors seen so far, and the
collections. -/
structure Rest where
  tokens : List Token
  problem : Option Problem := none
  anchors : List (String × Node) := []
  collections : Array Collection := #[]
  /-- The numbers of the collections that have ended, the last one first. -/
  ended : List Nat := []

/-- A part of a document being read. -/
abbrev Read := StateT Rest (Except Problem)

namespace Read

/-- The next token. -/
def next : Read Token := do
  let rest ← get
  match rest.tokens, rest.problem with
  | token :: _, _ => return token
  | [], some problem => throw problem
  | [], none => return .finish

/-- Whether the next token is one of some. -/
def nextIs (tokens : List Token) : Read Bool := do
  return tokens.contains (← next)

/-- Drop the next token. -/
def drop : Read Unit :=
  modify fun rest => { rest with tokens := rest.tokens.tail }

/-- Drop the next token if it is a given one, and say whether it was. -/
def dropIf (token : Token) : Read Bool := do
  if (← next) = token then
    drop
    return true
  else return false

/-- The next token must be a given one. -/
def expect (token : Token) : Read Unit := do
  if !(← dropIf token) then throw .unexpectedToken

/-- The part under a name. -/
def anchored (name : String) : Read Node := do
  match (← get).anchors.lookup name with
  | some node => return node
  | none => throw (.unknownAlias name)

/-- Keep a part under the name of its anchor, if it has one. -/
def keep (anchor : Option String) (node : Node) : Read Unit :=
  match anchor with
  | none => pure ()
  | some name => modify fun rest => { rest with anchors := (name, node) :: rest.anchors }

/-- A scalar under the name of its anchor. -/
def scalar (anchor : Option String) (text : List Char) (plain : Bool) : Read Node := do
  let node := Node.scalar text plain
  keep anchor node
  return node

/-- A collection under the name of its anchor. It has its number from its start on. -/
def numbered (anchor : Option String) (read : Read Collection) : Read Node := do
  let number := (← get).collections.size
  modify fun rest => { rest with collections := rest.collections.push default }
  keep anchor (.collection number)
  let collection ← read
  modify fun rest => { rest with
    collections := rest.collections.setIfInBounds number collection
    ended := number :: rest.ended }
  return .collection number

end Read

open Read

/-- The scalar of a part that is left out. -/
def emptyNode : Node := .scalar [] true

/-- Whether the content of a part comes next. -/
def startsNode (inBlock mayBeFlush : Bool) : Read Bool := do
  match ← next with
  | .scalar _ _ | .openList | .openMapping => return true
  | .blockList | .blockMapping => return inBlock
  | .item => return mayBeFlush
  | _ => return false

mutual

/-- A part. Outside brackets it may be an indented structure, and after a key also a list that
is not indented further. -/
def node (inBlock mayBeFlush : Bool) : (fuel : Nat) → Read Node
  | 0 => throw .unexpectedToken
  | fuel + 1 => do
      match ← next with
      | .aliasOf name =>
          drop
          anchored name
      | .anchor name =>
          drop
          if ((← get).anchors.lookup name).isSome then throw (.repeatedAnchor name)
          if ← startsNode inBlock mayBeFlush then content (some name) inBlock mayBeFlush fuel
          else scalar (some name) [] true
      | _ => content none inBlock mayBeFlush fuel

/-- The content of a part, under the name of its anchor. -/
def content (anchor : Option String) (inBlock mayBeFlush : Bool) : (fuel : Nat) → Read Node
  | 0 => throw .unexpectedToken
  | fuel + 1 => do
      if !(← startsNode inBlock mayBeFlush) then throw .unexpectedToken
      let token ← next
      match token with
      | .item => numbered anchor (return .list (← flushItems [] fuel))
      | .scalar text plain =>
          drop
          scalar anchor text plain
      | .openList =>
          drop
          numbered anchor (return .list (← flowItems true [] fuel))
      | .openMapping =>
          drop
          numbered anchor (return .mapping (← flowFields true [] fuel))
      | .blockList =>
          drop
          numbered anchor (return .list (← blockItems [] fuel))
      | .blockMapping =>
          drop
          numbered anchor (return .mapping (← blockFields [] fuel))
      | _ => throw .unexpectedToken

/-- A part, or the empty one when one of some tokens comes next. -/
def nodeUnless (stops : List Token) (inBlock mayBeFlush : Bool) : (fuel : Nat) → Read Node
  | 0 => throw .unexpectedToken
  | fuel + 1 => do
      if ← nextIs stops then return emptyNode else node inBlock mayBeFlush fuel

/-- The items of an indented list, up to its end. -/
def blockItems (items : List Node) : (fuel : Nat) → Read (List Node)
  | 0 => throw .unexpectedToken
  | fuel + 1 => do
      if ← dropIf .item then
        let item ← nodeUnless [.item, .blockEnd] true false fuel
        blockItems (item :: items) fuel
      else
        expect .blockEnd
        return items.reverse

/-- The items of a list that is not indented further than its key. -/
def flushItems (items : List Node) : (fuel : Nat) → Read (List Node)
  | 0 => throw .unexpectedToken
  | fuel + 1 => do
      if ← dropIf .item then
        let item ← nodeUnless [.item, .key, .value, .blockEnd] true false fuel
        flushItems (item :: items) fuel
      else return items.reverse

/-- The fields of an indented mapping, up to its end. -/
def blockFields (fields : List (Node × Node)) : (fuel : Nat) → Read (List (Node × Node))
  | 0 => throw .unexpectedToken
  | fuel + 1 => do
      if ← dropIf .key then
        let stops := [.key, .value, .blockEnd]
        let key ← nodeUnless stops true true fuel
        let value ← if ← dropIf .value then nodeUnless stops true true fuel else pure emptyNode
        blockFields ((key, value) :: fields) fuel
      else
        expect .blockEnd
        return fields.reverse

/-- The items of a list between brackets, up to its end. A key among them makes a mapping of one
field. -/
def flowItems (first : Bool) (items : List Node) : (fuel : Nat) → Read (List Node)
  | 0 => throw .unexpectedToken
  | fuel + 1 => do
      if ← dropIf .closeList then return items.reverse
      if !first then expect .comma
      if ← dropIf .closeList then return items.reverse
      if ← dropIf .key then
        let item ← numbered none do
          let key ← nodeUnless [.value, .comma, .closeList] false false fuel
          let value ←
            if ← dropIf .value then nodeUnless [.comma, .closeList] false false fuel
            else pure emptyNode
          return .mapping [(key, value)]
        flowItems false (item :: items) fuel
      else
        let item ← node false false fuel
        flowItems false (item :: items) fuel

/-- The fields of a mapping between brackets, up to its end. A part without a colon is a key
for the empty one. -/
def flowFields (first : Bool) (fields : List (Node × Node)) :
    (fuel : Nat) → Read (List (Node × Node))
  | 0 => throw .unexpectedToken
  | fuel + 1 => do
      if ← dropIf .closeMapping then return fields.reverse
      if !first then expect .comma
      if ← dropIf .closeMapping then return fields.reverse
      if ← dropIf .key then
        let key ← nodeUnless [.value, .comma, .closeMapping] false false fuel
        let value ←
          if ← dropIf .value then nodeUnless [.comma, .closeMapping] false false fuel
          else pure emptyNode
        flowFields false ((key, value) :: fields) fuel
      else
        let key ← node false false fuel
        flowFields false ((key, emptyNode) :: fields) fuel

end

/-- Drop the marks that end a document. -/
def dropEnds : (fuel : Nat) → Read Unit
  | 0 => pure ()
  | fuel + 1 => do if ← dropIf .documentEnd then dropEnds fuel

/-- The outermost part of the document of a text. -/
def document (fuel : Nat) : Read Node := do
  if (← next) = .finish then return emptyNode
  let marked ← dropIf .documentStart
  let root ←
    if marked then
      nodeUnless [.documentStart, .documentEnd, .finish] true false fuel
    else node true false fuel
  dropEnds fuel
  match ← next with
  | .finish => return root
  | .documentStart => throw .severalDocuments
  | _ => throw .unexpectedToken

/-- The content of the document that a text writes. Every level of a part takes a token, and each
is entered through a few steps. -/
def Graph.read (text : String) : Except Problem Graph := do
  let (tokens, problem) := tokens text.toList
  let (root, rest) ← (document (4 * tokens.length + 8)).run { tokens, problem }
  return { root, collections := rest.collections, ended := rest.ended.reverse }

end SymbolJump.Yaml
