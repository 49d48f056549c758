import LightningTemplate.Document.Value
import LightningTemplate.Expression.Scan
import LightningTemplate.Directive
import LightningTemplate.Text.Word

/-! Elements that produce no markup but records: message channels, record data
and facets.  Reading is permissive, and a missing or malformed attribute is an
empty one.  A reader of attributes gives the stripped value of a name, empty when
it is missing. -/
namespace LightningTemplate
open Text

structure MessageChannel where
  channelName : Text
  bindingId : Text
  handler : Option Text
  scope : Option Text
  publisherOnly : Bool
  deriving DecidableEq, Repr

structure RecordData where
  bindingId : Text
  recordId : Text
  fields : List Text
  targetFields : Option Text
  targetRecord : Option Text
  targetError : Option Text
  mode : Text
  deriving DecidableEq, Repr

structure Facet where
  slot : Text
  content : Text
  deriving DecidableEq, Repr

abbrev AttributeReader := Text → Text

/-- Reads attributes of any sort of value; nothing counts as missing, also in the
first name that differs in letter case at most. -/
def readValues (attrs : List (Text × Value)) : AttributeReader := fun name =>
  let given (v : Option Value) : Option Value :=
    match v with
    | some .null => none
    | v => v
  let exact := given ((attrs.find? fun a => a.1 == name).map (·.2))
  let other := given ((attrs.find? fun a => lower a.1 == lower name).map (·.2))
  match exact.or other with
  | some v => strip v.display
  | none => []

def handlerAt? : Text → Option Text
  | '{' :: s :: cs =>
    if Expression.isSign s then
      match cs.dropWhile isBlank with
      | 'c' :: '.' :: rest =>
        match (rest.dropWhile isWord).dropWhile isBlank with
        | '}' :: _ => if rest.head?.any isWord then some (rest.takeWhile isWord) else none
        | _ => none
      | _ => none
    else none
  | _ => none

/-- The first handler of a text; empty when there is none. -/
def handlerName : Text → Text
  | [] => []
  | c :: cs => (handlerAt? (c :: cs)).getD (handlerName cs)

/-- The path of a binding without its sign; other values stay as they are. -/
def bindingPath (value : Text) : Text :=
  let value := strip value
  match Expression.single? value with
  | none => value
  | some inner =>
    match strip inner with
    | 'v' :: '.' :: path => path
    | 'c' :: '.' :: path => path
    | path => path

def bracketed (t : Text) : Text :=
  match cut '[' t with
  | (_, none) => t
  | (_, some rest) =>
    match cut ']' rest with
    | (inner, some _) => inner
    | (_, none) => t

def isQuoteMark (c : Char) : Bool := c == '\'' || c == '"'

/-- Names separated by commas, quoted or bare, in brackets or not. -/
def fieldList (value : Text) : List Text :=
  let value := strip value
  if Expression.occurs value then []
  else
    ((splitOn ',' (bracketed value)).map fun part =>
      strip (stripBoth isQuoteMark (strip part))).filter (!·.isEmpty)

def nonEmpty? (t : Text) : Option Text := if t.isEmpty then none else some t

def MessageChannel.ofAttributes (read : AttributeReader) : MessageChannel :=
  let handler := nonEmpty? (handlerName (read "onMessage".toList))
  { channelName := read "type".toList
    bindingId := read "aura:id".toList
    handler := handler
    scope := nonEmpty? (read "scope".toList)
    publisherOnly := handler.isNone }

def RecordData.ofAttributes (read : AttributeReader) : RecordData :=
  { bindingId := read "aura:id".toList
    recordId := bindingPath (read "recordId".toList)
    fields := fieldList (read "fields".toList)
    targetFields := nonEmpty? (bindingPath (read "targetFields".toList))
    targetRecord := nonEmpty? (bindingPath (read "targetRecord".toList))
    targetError := nonEmpty? (bindingPath (read "targetError".toList))
    mode := (nonEmpty? (upper (read "mode".toList))).getD "VIEW".toList }

def facetName (read : AttributeReader) : Text := read "attribute".toList

def Node.isOtherBranch (n : Node) : Bool :=
  n.directive == .slot && facetName n.attributes.trimmed == "else".toList

theorem Node.directive_of_isOtherBranch {n : Node} (h : n.isOtherBranch = true) :
    n.directive = .slot := by
  simp only [isOtherBranch, Bool.and_eq_true, beq_iff_eq] at h
  exact h.1

end LightningTemplate
