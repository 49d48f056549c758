import LightningTemplate.Markup.Entity
import LightningTemplate.Markup.Tree
import LightningTemplate.Text.Blank
import LightningTemplate.Text.Lines
import LightningTemplate.Text.Word

/-! Reading markup whose namespace aliases are not declared.  The aliases in use are
bound on an element around the markup, and the names are named by them again. -/
namespace LightningTemplate.Markup
open Text

def dropDeclaration (t : Text) : Text :=
  let trimmed := t.dropWhile isBlank
  if "<?xml".toList.isPrefixOf trimmed then
    match cut '>' (trimmed.drop 5) with
    | (inner, some rest) => if inner.getLast? = some '?' then rest else t
    | (_, none) => t
  else t

def isAliasChar (c : Char) : Bool := isWord c || c == '.' || c == '-'

/-- A name that a colon and a letter follow, and what comes after the colon. -/
def aliasAt? (t : Text) : Option (Text × Text) :=
  if t.head?.any isLatinStart then
    match t.dropWhile isAliasChar with
    | ':' :: rest =>
      if rest.head?.any isLatinStart then some (t.takeWhile isAliasChar, rest) else none
    | _ => none
  else none

def tagAlias? : Text → Option Text
  | '<' :: '/' :: cs => (aliasAt? cs).map (·.1)
  | '<' :: cs => (aliasAt? cs).map (·.1)
  | _ => none

def attributeAlias? : Text → Option Text
  | c :: cs =>
    if isBlank c then
      match aliasAt? cs with
      | some (alias_, rest) =>
        if ((rest.dropWhile isAliasChar).dropWhile isBlank).head? = some '=' then some alias_
        else none
      | none => none
    else none
  | [] => none

def aliasesIn : Text → List Text
  | [] => []
  | c :: cs =>
    (tagAlias? (c :: cs)).toList ++ (attributeAlias? (c :: cs)).toList ++ aliasesIn cs

def boundAliases (t : Text) : List Text :=
  ((aliasesIn t).filter fun a => a ≠ "xmlns".toList ∧ a ≠ "xml".toList).eraseDups.mergeSort Text.le

def addressStart : Text := "urn:aura-lwc-converter:".toList

def addressOf (alias_ : Text) : Text := addressStart ++ alias_

def outerTag : Text := "aura-lwc-converter-root".toList

def bindingText (alias_ : Text) : Text :=
  " xmlns:".toList ++ alias_ ++ "=\"".toList ++ addressOf alias_ ++ ['"']

def wrap (aliases : List Text) (body : Text) : Text :=
  '<' :: (outerTag ++ aliases.flatMap bindingText ++ ['>']) ++ body
    ++ '<' :: '/' :: (outerTag ++ ['>'])

/-- Markup ready to be read, and the aliases bound around it. -/
structure Prepared where
  text : Text
  aliases : List Text

def prepare (markup : Text) : Prepared :=
  let body := numberEntities (dropDeclaration markup)
  let aliases := boundAliases body
  ⟨unifyLineEnds (wrap aliases body), aliases⟩

def Prepared.naming (p : Prepared) : Naming := fun address =>
  p.aliases.find? fun a => addressOf a = address

/-- The tree of the wrapped markup, or the description of the first fault. -/
def read (markup : Text) : Except Text Node :=
  let p := prepare markup
  (tree p.naming p.text).mapError fun f => f.describe p.text

end LightningTemplate.Markup
