import LightningTemplate.Diagnostic
import LightningTemplate.Keyed
import LightningTemplate.Mapping.BuiltIn

/-! Mapping files.  A file's entries replace built-in entries with the same key as a
whole; an entry of the wrong shape is passed over with a message, and values that
cannot be read as tables at all are faults. -/
namespace LightningTemplate

inductive MappingFault
  /-- The file is not well-formed. -/
  | malformed
  /-- The file holds something, but no map. -/
  | noMap (file : Text)
  /-- A table is a value without entries. -/
  | noEntries (sort : Text)
  /-- Attributes are a value without elements. -/
  | notIterable (sort : Text)
  /-- An element of an attribute list is no sequence. -/
  | elementNoSequence (index : Nat)
  /-- An element of an attribute list is no pair. -/
  | elementLength (index length : Nat)
  /-- A collection stands as the name of an attribute. -/
  | unhashable (sort : Text)
  deriving DecidableEq, Repr

def MappingFault.message : MappingFault → Text
  | .malformed => "malformed mapping file".toList
  | .noMap file =>
    "Mapping file ".toList ++ file ++ " must contain a mapping at the top level".toList
  | .noEntries sort => '\'' :: (sort ++ "' object has no attribute 'items'".toList)
  | .notIterable sort => '\'' :: (sort ++ "' object is not iterable".toList)
  | .elementNoSequence i =>
    "cannot convert dictionary update sequence element #".toList ++ Text.ofNat i
      ++ " to a sequence".toList
  | .elementLength i n =>
    "dictionary update sequence element #".toList ++ Text.ofNat i ++ " has length ".toList
      ++ Text.ofNat n ++ "; 2 is required".toList
  | .unhashable sort => "unhashable type: '".toList ++ sort ++ ['\'']

namespace Mapping

def elements? : Value → Option (List Value)
  | .text t => some (t.map fun c => .text [c])
  | .list items | .set items | .tuple items => some items
  | .map entries => some (entries.map (·.1))
  | .octets bytes => some (bytes.map fun b => .int b.toNat)
  | _ => none

def isCollection : Value → Bool
  | .list _ | .map _ | .set _ | .tuple _ => true
  | _ => false

mutual
/-- The sort of what keeps a value from being a key: it or, for a tuple, something in it. -/
def unhashable? : Value → Option Text
  | .tuple items => unhashableIn? items
  | v => if isCollection v then some v.sort else none

def unhashableIn? : List Value → Option Text
  | [] => none
  | v :: vs => (unhashable? v).or (unhashableIn? vs)
end

def pairsOf (i : Nat) : List Value → Except MappingFault (List (Value × Value))
  | [] => .ok []
  | v :: vs =>
    match elements? v with
    | none => .error (.elementNoSequence i)
    | some [a, b] =>
      match unhashable? a with
      | some sort => .error (.unhashable sort)
      | none => (pairsOf (i + 1) vs).map ((a, b) :: ·)
    | some xs => .error (.elementLength i xs.length)

def attributesOf (v : Value) : Except MappingFault (List (Value × Value)) :=
  if v.isGiven then
    match v with
    | .map entries => .ok entries
    | v =>
      match elements? v with
      | none => .error (.notIterable v.sort)
      | some items => (pairsOf 0 items).map Value.ofEntries
  else .ok []

def entriesOf (v : Value) : Except MappingFault (List (Value × Value)) :=
  if v.isGiven then
    match v with
    | .map entries => .ok entries
    | v => .error (.noEntries v.sort)
  else .ok []

abbrev Reading := Logged MappingFault

def warn (t : Text) : Reading Unit := .say ⟨.warning, .mapping, t⟩

/-- One component: its key and entry, or none when it has the wrong shape. -/
def readComponent (key value : Value) : Reading (Option (Text × ComponentEntry)) :=
  let build (fields : List (Value × Value)) : Reading (Option (Text × ComponentEntry)) := do
    let attrs ← Logged.ofOutcome (attributesOf (Value.field "attributes".toList fields))
    return some (Text.lower key.display, ⟨key.display, Value.field "lwc".toList fields, attrs⟩)
  match value with
  | .null => build []
  | .map fields => build fields
  | v => do
    warn ("Ignoring malformed mapping for ".toList ++ key.display ++ ": ".toList ++ v.shown)
    return none

def readComponents : List (Value × Value) → Reading (List (Text × ComponentEntry))
  | [] => return []
  | (k, v) :: rest => do
    let first ← readComponent k v
    return first.toList ++ (← readComponents rest)

def readSlots (key value : Value) : Reading (Option (Text × List Text)) :=
  match value with
  | .list names => return some (key.display, names.map Value.display)
  | v => do
    warn ("Ignoring malformed slot list for ".toList ++ key.display ++ ": ".toList ++ v.shown)
    return none

def readSlotTables : List (Value × Value) → Reading (List (Text × List Text))
  | [] => return []
  | (k, v) :: rest => do
    let first ← readSlots k v
    return first.toList ++ (← readSlotTables rest)

/-- The built-in tables with the entries of a file over them.  Messages name the file
as it was given; a fault names its path. -/
def override (given path : Text) (content : Value) : Reading Mapping := do
  let entries ← Logged.ofOutcome (match content with
    | .map entries => .ok entries
    | v => if v.isGiven then .error (.noMap path) else .ok [])
  let rawComponents ← Logged.ofOutcome (entriesOf (Value.field "components".toList entries))
  let components ← readComponents rawComponents
  let rawSlots ← Logged.ofOutcome (entriesOf (Value.field "slots".toList entries))
  let slots ← readSlotTables rawSlots
  Logged.say ⟨.info, .mapping,
    "Loaded mapping overrides from ".toList ++ given ++ ": ".toList
      ++ Text.ofNat rawComponents.length ++ " components, ".toList
      ++ Text.ofNat rawSlots.length ++ " slot tables".toList⟩
  return ⟨Keyed.insertAll builtIn.components components, Keyed.insertAll builtIn.slots slots⟩

end Mapping
end LightningTemplate
