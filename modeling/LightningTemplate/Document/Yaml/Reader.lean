import LightningTemplate.Document.Yaml.Scalar
import LightningTemplate.Document.Yaml.Token
import LightningTemplate.Text.Lines

/-! Values of mapping files; a key that occurs again replaces the value and keeps its
place.  Files that need anchors, tags, block scalars or directives are refused. -/
namespace LightningTemplate.Yaml
open Text

def isKeyable : Value → Bool
  | .list _ | .map _ => false
  | _ => true

abbrev Entries := List (Value × Value)

def entry? (k v : Value) (es : Entries) : Option Entries :=
  if isKeyable k then some (Value.insertEntry k v es) else none

def endsNode (inFlow : Bool) : List Token → Bool
  | .key :: _ | .value :: _ => true
  | .closeBlock :: _ => !inFlow
  | .comma :: _ | .closeList :: _ | .closeMap :: _ => inFlow
  | _ => false

/-- The steps of reading one node and the rest of a collection that has begun. -/
inductive Task
  | node (inFlow indentless : Bool)
  | blockList (done : List Value)
  | indentlessList (done : List Value)
  | blockMap (done : Entries)
  | flowList (first : Bool) (done : List Value)
  | flowMap (first : Bool) (done : Entries)

def nodeOrNull (inFlow indentless : Bool)
    (read : Task → List Token → Option (Value × List Token)) (ts : List Token) :
    Option (Value × List Token) :=
  if endsNode inFlow ts then some (.null, ts) else read (.node inFlow indentless) ts

def valueAfter (inFlow : Bool) (read : Task → List Token → Option (Value × List Token)) :
    List Token → Option (Value × List Token)
  | .value :: ts => nodeOrNull inFlow (!inFlow) read ts
  | ts => some (.null, ts)

def readTask : Nat → Task → List Token → Option (Value × List Token)
  | 0, _, _ => none
  | fuel + 1, task, ts =>
    let read := readTask fuel
    match task with
    | .node inFlow indentless =>
      match ts with
      | .item :: _ => if indentless then read (.indentlessList []) ts else none
      | .scalar true t :: ts => (ofPlain? t).map (·, ts)
      | .scalar false t :: ts => some (.text t, ts)
      | .openList :: ts => read (.flowList true []) ts
      | .openMap :: ts => read (.flowMap true []) ts
      | .openBlockList :: ts => if inFlow then none else read (.blockList []) ts
      | .openBlockMap :: ts => if inFlow then none else read (.blockMap []) ts
      | _ => none
    | .blockList done =>
      match ts with
      | .item :: .item :: ts => read (.blockList (.null :: done)) (.item :: ts)
      | .item :: .closeBlock :: ts => read (.blockList (.null :: done)) (.closeBlock :: ts)
      | .item :: ts => do
        let (v, ts) ← read (.node false false) ts
        read (.blockList (v :: done)) ts
      | .closeBlock :: ts => some (.list done.reverse, ts)
      | _ => none
    | .indentlessList done =>
      match ts with
      | .item :: ts => do
        let (v, ts) ← match ts with
          | .item :: _ => some (.null, ts)
          | _ => nodeOrNull false false read ts
        read (.indentlessList (v :: done)) ts
      | _ => some (.list done.reverse, ts)
    | .blockMap done =>
      match ts with
      | .key :: ts => do
        let (k, ts) ← nodeOrNull false true read ts
        let (v, ts) ← valueAfter false read ts
        read (.blockMap (← entry? k v done)) ts
      | .closeBlock :: ts => some (.map done, ts)
      | _ => none
    | .flowList first done =>
      match ts with
      | .closeList :: ts => some (.list done.reverse, ts)
      | _ => do
        let ts ← if first then some ts else match ts with
          | .comma :: ts => some ts
          | _ => none
        match ts with
        | .closeList :: ts => some (.list done.reverse, ts)
        | .key :: ts =>
          let (k, ts) ← nodeOrNull true false read ts
          let (v, ts) ← valueAfter true read ts
          read (.flowList false (.map (← entry? k v []) :: done)) ts
        | _ =>
          let (v, ts) ← read (.node true false) ts
          read (.flowList false (v :: done)) ts
    | .flowMap first done =>
      match ts with
      | .closeMap :: ts => some (.map done, ts)
      | _ => do
        let ts ← if first then some ts else match ts with
          | .comma :: ts => some ts
          | _ => none
        match ts with
        | .closeMap :: ts => some (.map done, ts)
        | .key :: ts =>
          let (k, ts) ← nodeOrNull true false read ts
          let (v, ts) ← valueAfter true read ts
          read (.flowMap false (← entry? k v done)) ts
        | _ =>
          let (k, ts) ← read (.node true false) ts
          read (.flowMap false (← entry? k .null done)) ts

def isEnd (ts : List Token) : Bool := ts.all (· == .documentEnd)

/-- The one document of a file; an empty file holds nothing. -/
def document? (ts : List Token) : Option Value :=
  let fuel := 4 * ts.length + 4
  let finish (r : Option (Value × List Token)) : Option Value := do
    let (v, rest) ← r
    if isEnd rest then some v else none
  match ts with
  | [] => some .null
  | .documentStart :: rest =>
    match rest with
    | [] => some .null
    | .documentStart :: _ => none
    | .documentEnd :: rest => finish (some (.null, rest))
    | _ => finish (readTask fuel (.node false false) rest)
  | _ => finish (readTask fuel (.node false false) ts)

/-- The value of a file; none when the file is malformed. -/
def read? (t : Text) : Option Value := (tokens? (unifyLineEnds t)).bind document?

end LightningTemplate.Yaml
