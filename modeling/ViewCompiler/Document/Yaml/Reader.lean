import ViewCompiler.Document.Shape
import ViewCompiler.Document.Yaml.Token

/-!
# YAML nodes

The nodes of a document as they were written: scalars with their tags and quotes, sequences, and
mappings whose keys are nodes themselves. An alias is replaced by the node it stands for, and the
entries of merged mappings are added behind the ones that are written out.
-/

namespace ViewCompiler.Document.Yaml

open ViewCompiler.Text

/-- A node of a document. -/
inductive Node where
  /-- A scalar with its tag, which may be empty. -/
  | scalar (tag : String) (plain : Bool) (text : String)
  | sequence (items : List Node)
  | mapping (entries : List (Node × Node))
  deriving Repr, Inhabited

namespace Node

/-- A node that is left out. -/
def empty : Node := .scalar "" true ""

/-- The text of a scalar; collections have none. -/
def text : Node → String
  | scalar _ _ t => t
  | sequence _ | mapping _ => ""

/-- Whether two nodes are of the same kind and, as keys, the same. -/
def sameKey : Node → Node → Bool
  | scalar _ _ a, scalar _ _ b => a = b
  | sequence _, sequence _ | mapping _, mapping _ => true
  | _, _ => false

/-- Whether a key asks for the entries of other mappings. -/
def isMerge : Node → Bool
  | scalar tag plain t => t = "<<" && ((tag = "" && plain) || tag = "!!merge")
  | sequence _ | mapping _ => false

/-- The entries of a mapping or of several mappings. -/
def entriesToMerge : Node → Except Malformed (List (Node × Node))
  | mapping es => .ok es
  | sequence items =>
    items.foldlM (fun found item =>
      match item with
      | mapping es => .ok (found ++ es.filter fun e => !found.any (·.1.sameKey e.1))
      | _ => .error {}) []
  | scalar .. => .error {}

/-- The mapping with the given entries, merged ones included. -/
def ofEntries (entries : List (Node × Node)) : Except Malformed Node := do
  let own := entries.filter (!·.1.isMerge)
  let merged ← entries.foldlM (fun found e =>
    if e.1.isMerge then (found ++ ·) <$> e.2.entriesToMerge else .ok found) []
  return .mapping (own ++ merged.filter fun e => !own.any (·.1.sameKey e.1))

end Node

/-! ### Reading tokens -/

/-- What is left to read, and the nodes that aliases can stand for. -/
structure Reader where
  tokens : List Token
  anchors : List (String × Node) := []

/-- The properties written in front of a node. -/
structure Properties where
  anchor : Option String := none
  tag : Option String := none

namespace Properties

/-- Whether there are any properties. -/
def isSome (p : Properties) : Bool := p.anchor.isSome || p.tag.isSome

/-- Reads the properties in front of a node, at most one of each kind. -/
def read : List Token → Properties × List Token
  | .anchor a :: .tag t :: ts => (⟨some a, some t⟩, ts)
  | .tag t :: .anchor a :: ts => (⟨some a, some t⟩, ts)
  | .anchor a :: ts => (⟨some a, none⟩, ts)
  | .tag t :: ts => (⟨none, some t⟩, ts)
  | ts => ({}, ts)

/-- The tag of a scalar; a lone exclamation mark says nothing. -/
def tagText (p : Properties) : String :=
  match p.tag with
  | some t => if t = "!" then "" else t
  | none => ""

end Properties

namespace Reader

/-- Whether the next token is one of the given ones. -/
def peeks (r : Reader) (ts : List Token) : Bool := r.tokens.head?.any ts.contains

/-- Drops the next token. -/
def drop (r : Reader) : Reader := { r with tokens := r.tokens.tail }

/-- Remembers the node under its anchor. -/
def name (r : Reader) (p : Properties) (n : Node) : Reader :=
  match p.anchor with
  | some a => { r with anchors := (a, n) :: r.anchors }
  | none => r

mutual

/-- Reads a node. `block` tells that block collections may stand here, `bare` that the items of a
list may stand here without an indentation of their own. -/
def node (block bare : Bool) (r : Reader) : (fuel : Nat) → Except Malformed (Node × Reader)
  | 0 => .error {}
  | fuel + 1 =>
    match r.tokens with
    | .alias a :: ts =>
      match r.anchors.lookup a with
      | some n => .ok (n, { r with tokens := ts })
      | none => .error {}
    | tokens => do
      let (p, ts) := Properties.read tokens
      let r := { r with tokens := ts }
      let (n, r) ← match ts with
        | .scalar plain t :: _ => pure (.scalar p.tagText plain t, r.drop)
        | .flowSequenceStart :: _ => do
          let (items, r) ← flowItems true r.drop fuel
          pure (.sequence items, r)
        | .flowMappingStart :: _ => do
          let (entries, r) ← flowEntries true r.drop fuel
          pure (← Node.ofEntries entries, r)
        | .blockEntry :: _ =>
          if bare then do
            let (items, r) ← bareItems r fuel
            pure (.sequence items, r)
          else if p.isSome then pure (.scalar p.tagText true "", r)
          else throw {}
        | .blockSequenceStart :: _ =>
          if block then do
            let (items, r) ← blockItems r.drop fuel
            pure (.sequence items, r)
          else throw {}
        | .blockMappingStart :: _ =>
          if block then do
            let (entries, r) ← blockEntries r.drop fuel
            pure (← Node.ofEntries entries, r)
          else throw {}
        | .malformed :: _ => throw {}
        | _ => if p.isSome then pure (.scalar p.tagText true "", r) else throw {}
      return (n, r.name p n)

/-- Reads a node, or an empty one before any of the given tokens. -/
def nodeUnless (stops : List Token) (block bare : Bool) (r : Reader) :
    (fuel : Nat) → Except Malformed (Node × Reader)
  | 0 => .error {}
  | fuel + 1 => if r.peeks stops then .ok (.empty, r) else node block bare r fuel

/-- Reads the items of a block list up to its end. -/
def blockItems (r : Reader) : (fuel : Nat) → Except Malformed (List Node × Reader)
  | 0 => .error {}
  | fuel + 1 =>
    match r.tokens with
    | .blockEntry :: _ => do
      let (n, r) ← nodeUnless [.blockEntry, .blockEnd] true false r.drop fuel
      let (ns, r) ← blockItems r fuel
      return (n :: ns, r)
    | .blockEnd :: _ => .ok ([], r.drop)
    | _ => .error {}

/-- Reads the items of a list without an indentation of its own. -/
def bareItems (r : Reader) : (fuel : Nat) → Except Malformed (List Node × Reader)
  | 0 => .error {}
  | fuel + 1 =>
    match r.tokens with
    | .blockEntry :: _ => do
      let (n, r) ← nodeUnless [.blockEntry, .key, .value, .blockEnd] true false r.drop fuel
      let (ns, r) ← bareItems r fuel
      return (n :: ns, r)
    | _ => .ok ([], r)

/-- Reads the entries of a block mapping up to its end. -/
def blockEntries (r : Reader) : (fuel : Nat) → Except Malformed (List (Node × Node) × Reader)
  | 0 => .error {}
  | fuel + 1 =>
    match r.tokens with
    | .key :: _ => do
      let stops := [.key, .value, .blockEnd]
      let (k, r) ← nodeUnless stops true true r.drop fuel
      let (v, r) ← match r.tokens with
        | .value :: _ => nodeUnless stops true true r.drop fuel
        | _ => pure (.empty, r)
      let (es, r) ← blockEntries r fuel
      return ((k, v) :: es, r)
    | .blockEnd :: _ => .ok ([], r.drop)
    | _ => .error {}

/-- Reads the items of a list in brackets up to the closing one. -/
def flowItems (first : Bool) (r : Reader) : (fuel : Nat) → Except Malformed (List Node × Reader)
  | 0 => .error {}
  | fuel + 1 =>
    match r.tokens with
    | .flowSequenceEnd :: _ => .ok ([], r.drop)
    | tokens =>
      if !first && tokens.head? ≠ some .flowEntry then .error {}
      else
        let r := if first then r else r.drop
        match r.tokens with
        | .flowSequenceEnd :: _ => .ok ([], r.drop)
        | .key :: _ => do
          let (k, r) ← nodeUnless [.value, .flowEntry, .flowSequenceEnd] false false r.drop fuel
          let (v, r) ← match r.tokens with
            | .value :: _ => nodeUnless [.flowEntry, .flowSequenceEnd] false false r.drop fuel
            | _ => pure (.empty, r)
          let (ns, r) ← flowItems false r fuel
          return (.mapping [(k, v)] :: ns, r)
        | _ => do
          let (n, r) ← node false false r fuel
          let (ns, r) ← flowItems false r fuel
          return (n :: ns, r)

/-- Reads the entries of a mapping in braces up to the closing one. -/
def flowEntries (first : Bool) (r : Reader) :
    (fuel : Nat) → Except Malformed (List (Node × Node) × Reader)
  | 0 => .error {}
  | fuel + 1 =>
    match r.tokens with
    | .flowMappingEnd :: _ => .ok ([], r.drop)
    | tokens =>
      if !first && tokens.head? ≠ some .flowEntry then .error {}
      else
        let r := if first then r else r.drop
        match r.tokens with
        | .flowMappingEnd :: _ => .ok ([], r.drop)
        | .key :: _ => do
          let (k, r) ← nodeUnless [.value, .flowEntry, .flowMappingEnd] false false r.drop fuel
          let (v, r) ← match r.tokens with
            | .value :: _ => nodeUnless [.flowEntry, .flowMappingEnd] false false r.drop fuel
            | _ => pure (.empty, r)
          let (es, r) ← flowEntries false r fuel
          return ((k, v) :: es, r)
        | _ => do
          let (k, r) ← node false false r fuel
          let (es, r) ← flowEntries false r fuel
          return ((k, .empty) :: es, r)

end

end Reader

/-- Reads the first document of a text. -/
def read (text : String) : Except ReadError Node :=
  let ts := tokens text
  let body := ts.dropWhile (· = .directive)
  let explicit := body.head? = some .documentStart
  let content := if explicit then body.tail else body
  match content with
  | .streamEnd :: _ =>
    if explicit then .ok .empty
    else if body.length < ts.length then .error .malformed
    else .error .endOfText
  | .documentEnd :: _ | .documentStart :: _ => if explicit then .ok .empty else .error .malformed
  | _ =>
    -- Each level of the reader takes at most two steps for a token.
    match Reader.node true false { tokens := content } (4 * ts.length + 4) with
    | .error _ => .error .malformed
    | .ok (n, r) => if r.tokens.head? = some .malformed then .error .malformed else .ok n

end ViewCompiler.Document.Yaml
