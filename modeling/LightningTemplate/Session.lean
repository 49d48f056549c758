import LightningTemplate.Conversion

/-! Work in several contexts at a time, all of whose lists are in one store. -/
namespace LightningTemplate

structure Session where
  mapping : Mapping
  store : Store
  contexts : List Context

namespace Session

def addContext (s : Session) (c : Context) : Session := { s with contexts := s.contexts ++ [c] }

def addNew (s : Session) : Session :=
  let r := Context.new.run s.store
  { s.addContext r.1 with store := r.2 }

def start (m : Mapping) : Session := addNew ⟨m, {}, []⟩

inductive Action
  | transform (node : Node) (indent : Text)
  | children (nodes : List Node) (indent : Text)
  | iterationChildren (nodes : List Node) (indent itemVar : Text)
  | convert (text : Text)
  | forParent (tag : Value)
  | newContext
  | warn (message : Text)
  | useDirective (name : Text)
  | useComponent (name : Text)
  | document (nodes : List Node)

def context (s : Session) (i : Nat) : Context := (s.contexts[i]?).getD default

def findings (s : Session) (c : Context) : Findings := c.findings s.store

/-- The answer to an action: a value, and the context whose state is then of interest. -/
structure Reply where
  value : Value
  context : Nat

/-- The session after some work, with what the work gives and the tags of unknown namespaces
that it met. -/
def perform {α : Type} (s : Session) (work : StoreM α) : Session × α × List Text :=
  let r := work.run { s.store with unmapped := [] }
  ({ s with store := { r.2 with unmapped := s.store.unmapped } }, r.1, r.2.unmapped)

def step (s : Session) (i : Nat) (a : Action) : Logged UnnamedComponent (Session × Reply) :=
  let c := s.context i
  let render (work : StoreM Text) : Logged UnnamedComponent (Session × Reply) :=
    let r := s.perform work
    ⟨.ok (r.1, ⟨.text r.2.1, i⟩), r.2.2.map unmappedMessage⟩
  let record (work : StoreM Unit) : Logged UnnamedComponent (Session × Reply) :=
    return ((s.perform work).1, ⟨.null, i⟩)
  let made : Reply := ⟨.int s.contexts.length, s.contexts.length⟩
  match a with
  | .transform node indent => render (Transformer.transform s.mapping c indent [] node)
  | .children nodes indent => render (Transformer.transformChildren s.mapping c indent nodes)
  | .iterationChildren nodes indent itemVar =>
    render (Transformer.transformIterationChildren s.mapping c indent itemVar nodes)
  | .convert text => render (c.convert text)
  | .forParent tag => return (s.addContext (c.forParent tag), made)
  | .newContext => return (s.addNew, made)
  | .warn message => record (c.warn (.remark message))
  | .useDirective name => record (c.useDirective name)
  | .useComponent name => record (c.useComponent (.text name))
  | .document nodes => do
    let d ← Conversion.convert s.mapping nodes
    return (s, ⟨d.toValue, i⟩)

end Session
end LightningTemplate
