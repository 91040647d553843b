import Stencil.Yaml.Node
import Stencil.Yaml.Datum

/-!
# `Stencil.Yaml.Document` — what a YAML text says

## Contents
- **Documents.** A `Document` is nothing, a mapping, or something else. Of the values of a mapping
  only the scalars are kept; that a value is a list or mapping itself is all that is said of it.
- **Checking.** The whole document has to have values: every scalar has to be one, and no key may be
  a list or mapping. Collections are checked level by level, from the outside in.
- **Other readers.** What this library does not read is left to a `Reader`.
-/

namespace Stencil.Yaml

/-- A value of a mapping. -/
inductive Content where
  /-- A scalar. -/
  | scalar (d : Datum)
  /-- A list or a mapping. -/
  | collection
  deriving Repr, DecidableEq

/-- What a text says. -/
inductive Document where
  /-- Nothing. -/
  | nothing
  /-- Keys with their values. -/
  | mapping (entries : List (Datum × Content))
  /-- A list, or a scalar that is not null. -/
  | other
  deriving Repr, DecidableEq

namespace Document

/-- The value of a node, if it is a scalar. -/
def contentOf : Node → Except Fault Content
  | .scalar s => (Datum.ofScalar s).map .scalar
  | _ => .ok .collection

/-- The value of a key. The default's sign is a text here. -/
def keyOf : Node → Except Fault Datum
  | .scalar s => if s = .plain "=" then .ok (.text (.ofString "=")) else Datum.ofScalar s
  | _ => .error (.malformed .collectionKey)

/-- Whether a node is the key of a merge. -/
def isMerge : Node → Bool
  | .scalar s => s == .plain "<<"
  | _ => false

/-- Puts a pair behind others; of keys that are the same, the first stays, with the last value. -/
def insert (k : Datum) (v : Content) : List (Datum × Content) → List (Datum × Content)
  | [] => [(k, v)]
  | e :: es => if e.1.same k then (e.1, v) :: es else e :: insert k v es

/-- Checks the keys and values of a mapping in order and puts them behind others. -/
def pairsInto (es : List (Datum × Content)) : List (Node × Node) → Except Fault (List (Datum × Content))
  | [] => .ok es
  | (k, v) :: ps =>
    match keyOf k with
    | .error e => .error e
    | .ok key =>
      match contentOf v with
      | .error e => .error e
      | .ok content => pairsInto (insert key content es) ps

/-- The entries of a mapping, which must not have a merge. -/
def entriesOf (ps : List (Node × Node)) : Except Fault (List (Datum × Content)) :=
  if ps.any fun p => isMerge p.1 then .error .unsupported else pairsInto [] ps

/-- Checks the scalars directly inside a node. -/
def checkNode : Node → Except Fault Unit
  | .scalar s => (Datum.ofScalar s).map fun _ => ()
  | .list items => items.forM fun n => (contentOf n).map fun _ => ()
  | .mapping ps => (entriesOf ps).map fun _ => ()

/-- The lists and mappings directly inside a node. -/
def collectionsIn (n : Node) : List Node :=
  let parts :=
    match n with
    | .scalar _ => []
    | .list items => items
    | .mapping ps => ps.map Prod.snd
  parts.filter fun n => match n with | .scalar _ => false | _ => true

/-- Checks nodes and then the collections inside them, level by level. -/
def checkLevels : (fuel : Nat) → List Node → Except Fault Unit
  | 0, _ => .ok ()
  | fuel + 1, level =>
    match level.forM checkNode with
    | .error e => .error e
    | .ok () =>
      match level.flatMap collectionsIn with
      | [] => .ok ()
      | deeper => checkLevels fuel deeper

/-- The document that a checked node stands for. -/
def ofNode : Node → Except Fault Document
  | .scalar s => (Datum.ofScalar s).map fun d => if d = .null then .nothing else .other
  | .list _ => .ok .other
  | .mapping ps => (entriesOf ps).map .mapping

/-- What a text says. -/
def ofText (text : List Char) : Except Fault Document :=
  match (Token.ofText text).bind Node.ofTokens with
  | .error e => .error e
  | .ok none => .ok .nothing
  | .ok (some n) =>
    match checkLevels (text.length + 1) [n] with
    | .error e => .error e
    | .ok () => ofNode n

end Document

/-! ## Other readers -/

/-- A reader of documents that this library does not read: those with anchors, tags or merges. -/
def Reader : Type := List Char → Except ReaderFault Document

/-- There is no other reader. -/
def Reader.none : Reader := fun _ => .error .malformed

end Stencil.Yaml
