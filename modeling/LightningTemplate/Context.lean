import LightningTemplate.Findings

/-! Contexts and the lists that they write to.  A context knows a place in the store for each of
its seven lists, and the template tag that encloses.  A context that is made for a parent
has the lists of the one that it is made from. -/
namespace LightningTemplate

/-- All lists of all contexts, and the tags of unknown namespaces that were met so far. -/
structure Store where
  warnings : List (List Warning) := []
  usedDirectives : List (List Text) := []
  usedComponents : List (List Value) := []
  channels : List (List MessageChannel) := []
  recordData : List (List RecordData) := []
  facets : List (List Facet) := []
  getters : List (List Getter) := []
  unmapped : List Text := []

structure Context where
  warnings : Nat
  usedDirectives : Nat
  usedComponents : Nat
  channels : Nat
  recordData : Nat
  facets : Nat
  getters : Nat
  parent : Value

instance : Inhabited Context := ⟨⟨0, 0, 0, 0, 0, 0, 0, .null⟩⟩

abbrev StoreM := StateM Store

namespace Store
variable {α : Type}

def listAt (lists : List (List α)) (place : Nat) : List α := (lists[place]?).getD []

def push (a : α) (lists : List (List α)) (place : Nat) : List (List α) := lists.modify place (· ++ [a])

/-- Adds to the list at a place unless it holds the same already. -/
def pushNew (same : α → α → Bool) (a : α) (lists : List (List α)) (place : Nat) : List (List α) :=
  lists.modify place fun held => if held.any (same · a) then held else held ++ [a]

def register (getters : List Getter) (expression : Text) : List Getter :=
  getters ++ [⟨Expression.getterName (getters.length + 1), expression⟩]

def addLists (st : Store) : Store :=
  { st with
    warnings := st.warnings ++ [[]], usedDirectives := st.usedDirectives ++ [[]]
    usedComponents := st.usedComponents ++ [[]], channels := st.channels ++ [[]]
    recordData := st.recordData ++ [[]], facets := st.facets ++ [[]]
    getters := st.getters ++ [[]] }

def nextContext (st : Store) : Context :=
  ⟨st.warnings.length, st.usedDirectives.length, st.usedComponents.length, st.channels.length,
    st.recordData.length, st.facets.length, st.getters.length, .null⟩

end Store

def reportUnmapped (tag : Text) : StoreM Unit :=
  modify fun st => { st with unmapped := st.unmapped ++ [tag] }

namespace Context
open Store

def new : StoreM Context := do
  let st ← get
  set st.addLists
  return st.nextContext

def forParent (c : Context) (tag : Value) : Context := { c with parent := tag }

def findings (c : Context) (st : Store) : Findings where
  warnings := listAt st.warnings c.warnings
  usedDirectives := listAt st.usedDirectives c.usedDirectives
  usedComponents := listAt st.usedComponents c.usedComponents
  channels := listAt st.channels c.channels
  recordData := listAt st.recordData c.recordData
  facets := listAt st.facets c.facets
  getters := listAt st.getters c.getters

variable (c : Context)

def warn (w : Warning) : StoreM Unit :=
  modify fun st => { st with warnings := push w st.warnings c.warnings }

def useDirective (name : Text) : StoreM Unit :=
  modify fun st => { st with usedDirectives := pushNew (· == ·) name st.usedDirectives c.usedDirectives }

def useComponent (target : Value) : StoreM Unit :=
  modify fun st => { st with
    usedComponents := pushNew Value.same target st.usedComponents c.usedComponents }

def addChannel (m : MessageChannel) : StoreM Unit :=
  modify fun st => { st with channels := push m st.channels c.channels }

def addRecordData (r : RecordData) : StoreM Unit :=
  modify fun st => { st with recordData := push r st.recordData c.recordData }

def addFacet (f : Facet) : StoreM Unit :=
  modify fun st => { st with facets := push f st.facets c.facets }

/-- Replaces the expressions of a text, and registers a getter for each that computes. -/
def convert (text : Text) : StoreM Text := do
  let st ← get
  let r := Expression.substitute (listAt st.getters c.getters).length text
  set { st with getters := st.getters.modify c.getters fun gs => r.hoisted.foldl register gs }
  return r.text

end Context
end LightningTemplate
