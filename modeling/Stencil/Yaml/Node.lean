import Stencil.Yaml.Token

/-!
# `Stencil.Yaml.Node` — the structure of a YAML document

## Contents
- **Nodes.** A `Node` is a scalar, a list or a mapping. A place where nothing stands holds an empty
  plain scalar. There are no anchors, so that no alias is a node.
- **Reading.** `Node.ofTokens` reads the one document of a text; a text without a document has no
  node. A list below a key may stand at the column of the key, so that only its dashes show it
  (`looseItems`). What ended the tokens early is a fault only if the structure before it is right.

A node is read with fuel, twice the number of tokens: of two calls one takes a token.
-/

namespace Stencil.Yaml

/-- A part of a document. -/
inductive Node where
  /-- A scalar. -/
  | scalar (s : Scalar)
  /-- A list. -/
  | list (items : List Node)
  /-- Keys with their values, in order. -/
  | mapping (pairs : List (Node × Node))
  deriving Repr, Inhabited

namespace Node

/-- What stands where nothing is written. -/
def empty : Node := .scalar (.plain "")

/-- What has been read, and the tokens behind it. -/
abbrev Parsed (α : Type) := Except Fault (α × List Token)

/-- The next token does not continue the structure, or there is none because something bad stands there. -/
def stray {α : Type} : List Token → Except Fault α
  | .fault v :: _ => .error (.badValue v)
  | _ => .error (.malformed .unexpectedToken)

/-- Whether the next token is one of these. -/
def comes (ts : List Token) (ends : List Token) : Bool := ts.head?.any ends.contains

/-- An empty node if one of these tokens comes, else what another function reads. -/
def orEmpty (ends : List Token) (read : List Token → Parsed Node) (ts : List Token) : Parsed Node :=
  if comes ts ends then .ok (empty, ts) else read ts

/-- The node behind a colon if one comes, else an empty node. -/
def valueOrEmpty (ends : List Token) (read : List Token → Parsed Node) : List Token → Parsed Node
  | .value :: ts => orEmpty ends read ts
  | ts => .ok (empty, ts)

/-- Whether items may follow: at once before the first item, behind a comma before the others. -/
def behindComma (isFirst : Bool) : List Token → Option (List Token)
  | .comma :: ts => if isFirst then none else some ts
  | ts => if isFirst then some ts else none

mutual

/-- A node. Block collections may start only where `inBlock` is set, a list without its own indentation only where
    `loose` is set. -/
def read : (fuel : Nat) → (inBlock loose : Bool) → List Token → Parsed Node
  | 0, _, _, ts => stray ts
  | fuel + 1, inBlock, loose, ts =>
    match ts with
    | .scalar s :: ts => .ok (.scalar s, ts)
    | .flowListStart :: ts => (flowItems fuel true ts).map fun r => (.list r.1, r.2)
    | .flowMappingStart :: ts => (flowPairs fuel true ts).map fun r => (.mapping r.1, r.2)
    | .blockListStart :: ts =>
      if inBlock then (blockItems fuel ts).map fun r => (.list r.1, r.2) else stray ts
    | .blockMappingStart :: ts =>
      if inBlock then (blockPairs fuel ts).map fun r => (.mapping r.1, r.2) else stray ts
    | .item :: _ => if loose then (looseItems fuel ts).map fun r => (.list r.1, r.2) else stray ts
    | _ => stray ts

/-- The items of a block list. -/
def blockItems : (fuel : Nat) → List Token → Parsed (List Node)
  | 0, ts => stray ts
  | fuel + 1, ts =>
    match ts with
    | .item :: ts =>
      match orEmpty [.item, .blockEnd] (read fuel true false) ts with
      | .error e => .error e
      | .ok (n, ts) => (blockItems fuel ts).map fun r => (n :: r.1, r.2)
    | .blockEnd :: ts => .ok ([], ts)
    | _ => stray ts

/-- The items of a list without its own indentation. -/
def looseItems : (fuel : Nat) → List Token → Parsed (List Node)
  | 0, ts => stray ts
  | fuel + 1, ts =>
    match ts with
    | .item :: ts =>
      match orEmpty [.item, .key, .value, .blockEnd] (read fuel true false) ts with
      | .error e => .error e
      | .ok (n, ts) => (looseItems fuel ts).map fun r => (n :: r.1, r.2)
    | _ => .ok ([], ts)

/-- The keys and values of a block mapping. -/
def blockPairs : (fuel : Nat) → List Token → Parsed (List (Node × Node))
  | 0, ts => stray ts
  | fuel + 1, ts =>
    match ts with
    | .key :: ts =>
      match orEmpty [.key, .value, .blockEnd] (read fuel true true) ts with
      | .error e => .error e
      | .ok (k, ts) =>
        match valueOrEmpty [.key, .value, .blockEnd] (read fuel true true) ts with
        | .error e => .error e
        | .ok (v, ts) => (blockPairs fuel ts).map fun r => ((k, v) :: r.1, r.2)
    | .blockEnd :: ts => .ok ([], ts)
    | _ => stray ts

/-- The items of a flow list. A key among them makes a mapping of one pair. -/
def flowItems : (fuel : Nat) → (isFirst : Bool) → List Token → Parsed (List Node)
  | 0, _, ts => stray ts
  | fuel + 1, isFirst, ts =>
    match ts with
    | .flowListEnd :: ts => .ok ([], ts)
    | _ =>
      match behindComma isFirst ts with
      | none => stray ts
      | some (.flowListEnd :: ts) => .ok ([], ts)
      | some (.key :: ts) =>
        match orEmpty [.value, .comma, .flowListEnd] (read fuel false false) ts with
        | .error e => .error e
        | .ok (k, ts) =>
          match valueOrEmpty [.comma, .flowListEnd] (read fuel false false) ts with
          | .error e => .error e
          | .ok (v, ts) => (flowItems fuel false ts).map fun r => (.mapping [(k, v)] :: r.1, r.2)
      | some ts =>
        match read fuel false false ts with
        | .error e => .error e
        | .ok (n, ts) => (flowItems fuel false ts).map fun r => (n :: r.1, r.2)

/-- The keys and values of a flow mapping. -/
def flowPairs : (fuel : Nat) → (isFirst : Bool) → List Token → Parsed (List (Node × Node))
  | 0, _, ts => stray ts
  | fuel + 1, isFirst, ts =>
    match ts with
    | .flowMappingEnd :: ts => .ok ([], ts)
    | _ =>
      match behindComma isFirst ts with
      | none => stray ts
      | some (.flowMappingEnd :: ts) => .ok ([], ts)
      | some (.key :: ts) =>
        match orEmpty [.value, .comma, .flowMappingEnd] (read fuel false false) ts with
        | .error e => .error e
        | .ok (k, ts) =>
          match valueOrEmpty [.comma, .flowMappingEnd] (read fuel false false) ts with
          | .error e => .error e
          | .ok (v, ts) => (flowPairs fuel false ts).map fun r => ((k, v) :: r.1, r.2)
      | some ts =>
        match read fuel false false ts with
        | .error e => .error e
        | .ok (k, ts) => (flowPairs fuel false ts).map fun r => ((k, empty) :: r.1, r.2)

end

/-! ## Documents -/

/-- The tokens behind the directives before a document. A version has to be 1 and may be given once. -/
def skipDirectives : (versionSeen : Bool) → List Token → Except Fault (List Token)
  | seen, .version major :: ts =>
    if seen || major != 1 then .error (.malformed .badDirective) else skipDirectives true ts
  | seen, .directive :: ts => skipDirectives seen ts
  | _, ts => .ok ts

/-- Whether a document has no content: the text ends, or another document follows. -/
def isContentEnd : List Token → Bool
  | [] => true
  | .version _ :: _ => true
  | .directive :: _ => true
  | .documentStart :: _ => true
  | .documentEnd :: _ => true
  | _ => false

/-- The content of a document that starts with three dashes, behind them. -/
def explicitContent (fuel : Nat) (ts : List Token) : Parsed Node :=
  if isContentEnd ts then .ok (empty, ts) else read fuel true false ts

/-- The node of the first document, if there is one, and the tokens behind it. -/
def firstDocument (fuel : Nat) (ts : List Token) : Parsed (Option Node) :=
  match skipDirectives false ts with
  | .error e => .error e
  | .ok (.documentStart :: rest) => (explicitContent fuel rest).map fun r => (some r.1, r.2)
  | .ok rest =>
    if ts.isEmpty then .ok (none, [])
    else if rest.length < ts.length then stray rest
    else (read fuel true false ts).map fun r => (some r.1, r.2)

/-- Makes sure that no other document follows. -/
def checkEnd (ts : List Token) : Except Fault Unit :=
  match ts.dropWhile (· == .documentEnd) with
  | [] => .ok ()
  | ts =>
    match skipDirectives false ts with
    | .ok (.fault v :: _) => .error (.badValue v)
    | _ => .error (.malformed .severalDocuments)

/-- The node of the only document of a text. -/
def ofTokens (ts : List Token) : Except Fault (Option Node) :=
  match firstDocument (2 * ts.length + 2) ts with
  | .error e => .error e
  | .ok (n, rest) => (checkEnd rest).map fun () => n

end Node

end Stencil.Yaml
