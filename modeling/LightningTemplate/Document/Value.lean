import LightningTemplate.Text.Quoted

/-! Values of mapping files and of written records: nothing, truth values, whole
numbers, texts, lists, and maps that keep the order of their entries.  A mapping file may
hold values of other sorts too, which no table has a use for. -/
namespace LightningTemplate

/-- A number with a point, a date or a time, as far as it can be told from others. -/
structure Atom where
  sort : Text
  /-- Its written form on its own, and inside another value. -/
  display : Text
  shown : Text
  given : Bool
  /-- The number that it counts as in comparisons. -/
  number : Option Rat
  deriving DecidableEq, Repr

inductive Value
  | null
  | bool (b : Bool)
  | int (n : Int)
  | text (t : Text)
  | list (items : List Value)
  | map (entries : List (Value × Value))
  | atom (a : Atom)
  | octets (bytes : List UInt8)
  | set (items : List Value)
  | tuple (items : List Value)

namespace Value

instance : Inhabited Value := ⟨.null⟩

def isGiven : Value → Bool
  | .null => false
  | .bool b => b
  | .int n => n != 0
  | .text t => !t.isEmpty
  | .list items | .set items | .tuple items => !items.isEmpty
  | .map entries => !entries.isEmpty
  | .atom a => a.given
  | .octets bytes => !bytes.isEmpty

def sort : Value → Text
  | .null => "NoneType".toList
  | .bool _ => "bool".toList
  | .int _ => "int".toList
  | .text _ => "str".toList
  | .list _ => "list".toList
  | .map _ => "dict".toList
  | .atom a => a.sort
  | .octets _ => "bytes".toList
  | .set _ => "set".toList
  | .tuple _ => "tuple".toList

def number? : Value → Option Rat
  | .bool b => some (if b then 1 else 0)
  | .int n => some n
  | .atom a => a.number
  | _ => none

mutual
/-- Equality of values: numbers of all sorts are compared as numbers, truth values among
them, and the order of map entries and of what is in a set does not matter. -/
def same : Value → Value → Bool
  | .null, .null => true
  | .bool a, v => v.number? == some (if a then 1 else 0)
  | .int a, v => v.number? == some (a : Rat)
  | .atom a, v =>
    match a.number, v with
    | some n, v => v.number? == some n
    | none, .atom b => a == b
    | none, _ => false
  | .text a, .text b => a == b
  | .octets a, .octets b => a == b
  | .list as, .list bs => sameItems as bs
  | .tuple as, .tuple bs => sameItems as bs
  | .map as, .map bs => as.length == bs.length && entriesIn as bs
  | .set as, .set bs => as.length == bs.length && itemsIn as bs
  | _, _ => false

def sameItems : List Value → List Value → Bool
  | [], [] => true
  | a :: as, b :: bs => same a b && sameItems as bs
  | _, _ => false

def entriesIn : List (Value × Value) → List (Value × Value) → Bool
  | [], _ => true
  | (k, v) :: es, bs => bs.any (fun e => same k e.1 && same v e.2) && entriesIn es bs

def itemsIn : List Value → List Value → Bool
  | [], _ => true
  | a :: as, bs => bs.any (same a) && itemsIn as bs
end

theorem same_text (a b : Text) : same (.text a) (.text b) = (a == b) := by
  rw [same]

def shownOctet (mark : Char) (b : UInt8) : Text :=
  let c := Char.ofNat b.toNat
  if c = mark || c = '\\' then ['\\', c]
  else if c = '\t' then ['\\', 't']
  else if c = '\n' then ['\\', 'n']
  else if c = '\r' then ['\\', 'r']
  else if b < 0x20 || 0x7F ≤ b then '\\' :: 'x' :: Text.hex 2 b.toNat
  else [c]

/-- Octets in quotes; single ones unless only these occur. -/
def shownOctets (bytes : List UInt8) : Text :=
  let mark := if bytes.contains 0x27 && !bytes.contains 0x22 then '"' else '\''
  'b' :: mark :: (bytes.flatMap (shownOctet mark) ++ [mark])

mutual
def shown : Value → Text
  | .null => "None".toList
  | .bool true => "True".toList
  | .bool false => "False".toList
  | .int n => Text.ofInt n
  | .text t => Text.quoted t
  | .list items => '[' :: (Text.join ", ".toList (shownItems items) ++ [']'])
  | .map entries => '{' :: (Text.join ", ".toList (shownEntries entries) ++ ['}'])
  | .atom a => a.shown
  | .octets bytes => shownOctets bytes
  | .set [] => "set()".toList
  | .set (v :: vs) => '{' :: (Text.join ", ".toList (shown v :: shownItems vs) ++ ['}'])
  | .tuple [v] => '(' :: (shown v ++ [',', ')'])
  | .tuple items => '(' :: (Text.join ", ".toList (shownItems items) ++ [')'])

def shownItems : List Value → List Text
  | [] => []
  | v :: vs => shown v :: shownItems vs

def shownEntries : List (Value × Value) → List Text
  | [] => []
  | (k, v) :: es => (shown k ++ ": ".toList ++ shown v) :: shownEntries es
end

/-- The written form of a value on its own: a text stands for itself. -/
def display : Value → Text
  | .text t => t
  | .atom a => a.display
  | v => shown v

@[simp] theorem display_text (t : Text) : display (.text t) = t := rfl

/-- Puts an entry into a map: an old key keeps its place and takes the new value. -/
def insertEntry (key value : Value) : List (Value × Value) → List (Value × Value)
  | [] => [(key, value)]
  | e :: es => if e.1.same key then (e.1, value) :: es else e :: insertEntry key value es

def ofEntries (entries : List (Value × Value)) : List (Value × Value) :=
  entries.foldl (fun m e => insertEntry e.1 e.2 m) []

def field? (name : Text) (entries : List (Value × Value)) : Option Value :=
  (entries.find? fun e => e.1.same (.text name)).map (·.2)

def field (name : Text) (entries : List (Value × Value)) : Value := (field? name entries).getD .null

def ofOptionText : Option Text → Value
  | none => .null
  | some t => .text t

def texts (ts : List Text) : Value := .list (ts.map .text)

def record (fields : List (String × Value)) : Value :=
  .map (fields.map fun f => (.text f.1.toList, f.2))

end Value
end LightningTemplate
