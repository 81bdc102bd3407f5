import WireSchema.Document
import WireSchema.Yaml.Token

/-! The document that a YAML text holds. Aliases are replaced by what they stand for; an alias
inside its own anchor is unusable. A text has exactly one document, which may be empty. -/
namespace WireSchema.Yaml

/-- What the anchors stand for that have been passed, the latest first. -/
abbrev Anchors := List (String × Node)

abbrev Handles := List (String × String)

def defaultHandles : Handles := [("!", "!"), ("!!", "tag:yaml.org,2002:")]

structure Properties where
  anchor : Option String := none
  tag : Option String := none

def Properties.isEmpty (p : Properties) : Bool := p.anchor.isNone && p.tag.isNone

/-- An anchor is known, as something unusable, while its own node is being read. -/
def Properties.enter (p : Properties) (anchors : Anchors) : Anchors :=
  match p.anchor with
  | some name => (name, .unusable) :: anchors
  | none => anchors

def Properties.leave (p : Properties) (count : Nat) (node : Node) (anchors : Anchors) : Anchors :=
  if p.anchor.isSome then
    anchors.modify (anchors.length - 1 - count) fun entry => (entry.1, node)
  else anchors

/-- A scalar under its tag. The tag `!` says nothing about a scalar. -/
def scalarNode (tag : Option String) (text : String) (plain : Bool) : Node :=
  let node := if plain then Node.plain text else .text text
  match tag with
  | none => node
  | some tag => if tag = "!" then node else .tagged tag node

def taggedNode (tag : Option String) (node : Node) : Node :=
  match tag with
  | none => node
  | some tag => .tagged tag node

def tagName? (handles : Handles) (handle suffix : String) : Option String :=
  if handle.isEmpty then some suffix else (handles.lookup handle).map (· ++ suffix)

def properties? (handles : Handles) : List Token → Option (Properties × List Token)
  | .anchor a :: .tag h s :: rest => (tagName? handles h s).map fun t => (⟨some a, some t⟩, rest)
  | .anchor a :: rest => some (⟨some a, none⟩, rest)
  | .tag h s :: .anchor a :: rest => (tagName? handles h s).map fun t => (⟨some a, some t⟩, rest)
  | .tag h s :: rest => (tagName? handles h s).map fun t => (⟨none, some t⟩, rest)
  | rest => some ({}, rest)

abbrev Read (α : Type) := α × Anchors × List Token

def emptyNode : Node := .plain ""

/-- Whether a block has no node here: the next token belongs to the block around it. -/
def endsEntry : List Token → Bool
  | .key :: _ => true
  | .value :: _ => true
  | .blockEnd :: _ => true
  | _ => false

def isFlowStop (close : Token) : List Token → Bool
  | .flowEntry :: _ => true
  | t :: _ => t == close
  | [] => false

mutual

/-- A node. `block` allows block collections, and `indentless` a sequence that is indented no
further than the mapping around it. -/
def node (handles : Handles) (block indentless : Bool) :
    Nat → Anchors → List Token → Option (Read Node)
  | 0, _, _ => none
  | _, anchors, .alias name :: rest => (anchors.lookup name).map (·, anchors, rest)
  | fuel + 1, anchors, tokens => do
    let (p, tokens) ← properties? handles tokens
    let inner := p.enter anchors
    let finish (result : Option (Read (List Node))) : Option (Read Node) := do
      let (items, anchors', rest) ← result
      let n := taggedNode p.tag (.list items)
      return (n, p.leave anchors.length n anchors', rest)
    let finishMap (result : Option (Read (List (Node × Node)))) : Option (Read Node) := do
      let (entries, anchors', rest) ← result
      let n := taggedNode p.tag (.map entries)
      return (n, p.leave anchors.length n anchors', rest)
    let scalar (text : String) (plain : Bool) (rest : List Token) : Option (Read Node) :=
      let n := scalarNode p.tag text plain
      some (n, p.leave anchors.length n inner, rest)
    match tokens with
    | .scalar text plain :: rest => scalar text plain rest
    | .flowSequence :: rest => finish (flowItems handles true fuel inner rest)
    | .flowMapping :: rest => finishMap (flowEntries handles true fuel inner rest)
    | .blockEntry :: rest =>
      if indentless then finish (indentlessItems handles fuel inner (.blockEntry :: rest))
      else if p.isEmpty then none else scalar "" true (.blockEntry :: rest)
    | .blockSequence :: rest =>
      if block then finish (blockItems handles fuel inner rest)
      else if p.isEmpty then none else scalar "" true (.blockSequence :: rest)
    | .blockMapping :: rest =>
      if block then finishMap (blockEntries handles fuel inner rest)
      else if p.isEmpty then none else scalar "" true (.blockMapping :: rest)
    | rest => if p.isEmpty then none else scalar "" true rest

def blockItems (handles : Handles) : Nat → Anchors → List Token → Option (Read (List Node))
  | 0, _, _ => none
  | fuel + 1, anchors, .blockEntry :: rest => do
    let absent := match rest with
      | .blockEntry :: _ => true
      | .blockEnd :: _ => true
      | _ => false
    let (item, anchors, rest) ←
      if absent then some (emptyNode, anchors, rest) else node handles true false fuel anchors rest
    let (items, anchors, rest) ← blockItems handles fuel anchors rest
    return (item :: items, anchors, rest)
  | _, anchors, .blockEnd :: rest => some ([], anchors, rest)
  | _, _, _ => none

def indentlessItems (handles : Handles) : Nat → Anchors → List Token → Option (Read (List Node))
  | 0, _, _ => none
  | fuel + 1, anchors, .blockEntry :: rest => do
    let absent := match rest with
      | .blockEntry :: _ => true
      | rest => endsEntry rest
    let (item, anchors, rest) ←
      if absent then some (emptyNode, anchors, rest) else node handles true false fuel anchors rest
    let (items, anchors, rest) ← indentlessItems handles fuel anchors rest
    return (item :: items, anchors, rest)
  | _, anchors, rest => some ([], anchors, rest)

def blockEntries (handles : Handles) :
    Nat → Anchors → List Token → Option (Read (List (Node × Node)))
  | 0, _, _ => none
  | fuel + 1, anchors, .key :: rest => do
    let (key, anchors, rest) ←
      if endsEntry rest then some (emptyNode, anchors, rest)
      else node handles true true fuel anchors rest
    let (value, anchors, rest) ← match rest with
      | .value :: rest =>
        if endsEntry rest then some (emptyNode, anchors, rest)
        else node handles true true fuel anchors rest
      | rest => some (emptyNode, anchors, rest)
    let (entries, anchors, rest) ← blockEntries handles fuel anchors rest
    return ((key, value) :: entries, anchors, rest)
  | _, anchors, .blockEnd :: rest => some ([], anchors, rest)
  | _, _, _ => none

/-- The items of a flow sequence, up to its bracket. A key makes its item a mapping of one entry. -/
def flowItems (handles : Handles) (first : Bool) :
    Nat → Anchors → List Token → Option (Read (List Node))
  | 0, _, _ => none
  | _, anchors, .flowSequenceEnd :: rest => some ([], anchors, rest)
  | fuel + 1, anchors, tokens => do
    let tokens ← match first, tokens with
      | true, tokens => some tokens
      | false, .flowEntry :: rest => some rest
      | false, _ => none
    match tokens with
    | .flowSequenceEnd :: rest => return ([], anchors, rest)
    | .key :: rest =>
      let (key, anchors, rest) ← match rest with
        | .value :: rest => some (emptyNode, anchors, rest)
        | rest =>
          if isFlowStop .flowSequenceEnd rest then some (emptyNode, anchors, rest.drop 1)
          else node handles false false fuel anchors rest
      let (value, anchors, rest) ← match rest with
        | .value :: rest =>
          if isFlowStop .flowSequenceEnd rest then some (emptyNode, anchors, rest)
          else node handles false false fuel anchors rest
        | rest => some (emptyNode, anchors, rest)
      let (items, anchors, rest) ← flowItems handles false fuel anchors rest
      return (.map [(key, value)] :: items, anchors, rest)
    | tokens =>
      let (item, anchors, rest) ← node handles false false fuel anchors tokens
      let (items, anchors, rest) ← flowItems handles false fuel anchors rest
      return (item :: items, anchors, rest)

def flowEntries (handles : Handles) (first : Bool) :
    Nat → Anchors → List Token → Option (Read (List (Node × Node)))
  | 0, _, _ => none
  | _, anchors, .flowMappingEnd :: rest => some ([], anchors, rest)
  | fuel + 1, anchors, tokens => do
    let tokens ← match first, tokens with
      | true, tokens => some tokens
      | false, .flowEntry :: rest => some rest
      | false, _ => none
    match tokens with
    | .flowMappingEnd :: rest => return ([], anchors, rest)
    | .key :: rest =>
      let atValue := match rest with
        | .value :: _ => true
        | _ => false
      let (key, anchors, rest) ←
        if atValue || isFlowStop .flowMappingEnd rest then some (emptyNode, anchors, rest)
        else node handles false false fuel anchors rest
      let (value, anchors, rest) ← match rest with
        | .value :: rest =>
          if isFlowStop .flowMappingEnd rest then some (emptyNode, anchors, rest)
          else node handles false false fuel anchors rest
        | rest => some (emptyNode, anchors, rest)
      let (entries, anchors, rest) ← flowEntries handles false fuel anchors rest
      return ((key, value) :: entries, anchors, rest)
    | tokens =>
      let (key, anchors, rest) ← node handles false false fuel anchors tokens
      let (entries, anchors, rest) ← flowEntries handles false fuel anchors rest
      return ((key, emptyNode) :: entries, anchors, rest)

end

/-- The directives in front of a document: at most one version, which has to be 1.1 or 1.2, and at
most one definition for each handle. -/
def directives? : List Token → Option Bool → Handles → Option (Handles × List Token)
  | .version major minor :: rest, version, handles =>
    if version.isSome || major != 1 || (minor != 1 && minor != 2) then none
    else directives? rest (some true) handles
  | .tagDirective handle stem :: rest, version, handles =>
    if (handles.lookup handle).isSome then none
    else directives? rest version (handles ++ [(handle, stem)])
  | rest, _, handles => some (handles ++ defaultHandles, rest)

def isDirective : Token → Bool
  | .version .. => true
  | .tagDirective .. => true
  | _ => false

def endsDocument : List Token → Bool
  | [] => true
  | .documentStart :: _ => true
  | .documentEnd :: _ => true
  | t :: _ => isDirective t

def firstDocument? : List Token → Option (Node × List Token)
  | [] => some (emptyNode, [])
  | t :: rest => do
    if t == .documentStart || isDirective t then
      let (handles, tokens) ← directives? (t :: rest) none []
      let .documentStart :: tokens := tokens | none
      if endsDocument tokens then return (emptyNode, tokens)
      let (n, _, tokens) ← node handles true false (2 * tokens.length + 2) [] tokens
      return (n, tokens)
    else
      let tokens := t :: rest
      let (n, _, tokens) ← node defaultHandles true false (2 * tokens.length + 2) [] tokens
      return (n, tokens)

def maxDepth : Nat := 128

def document? (text : String) : Option Node := do
  let (n, rest) ← firstDocument? (← tokens? text)
  if rest.all (· == .documentEnd) then some (n.cap maxDepth) else none

end WireSchema.Yaml
