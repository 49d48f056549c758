import LightningTemplate.Document.Value

/-! Values written as JSON in ASCII, two spaces of indent for every level. -/
namespace LightningTemplate.Value
open Text

def jsonUnit (n : Nat) : Text := '\\' :: 'u' :: hex 4 n

def jsonChar (c : Char) : Text :=
  if c = '"' ∨ c = '\\' then ['\\', c]
  else if c = '\n' then ['\\', 'n']
  else if c = '\r' then ['\\', 'r']
  else if c = '\t' then ['\\', 't']
  else if c = '\x0c' then ['\\', 'f']
  else if c = '\x08' then ['\\', 'b']
  else if 32 ≤ c.toNat ∧ c.toNat ≤ 126 then [c]
  else if c.toNat < 0x10000 then jsonUnit c.toNat
  else
    let n := c.toNat - 0x10000
    jsonUnit (0xD800 + n / 0x400) ++ jsonUnit (0xDC00 + n % 0x400)

def jsonText (t : Text) : Text := '"' :: (t.flatMap jsonChar ++ ['"'])

def jsonBreak (level : Nat) : Text := '\n' :: List.replicate (2 * level) ' '

def jsonBrackets (opening closing : Char) (level : Nat) (parts : List Text) : Text :=
  match parts with
  | [] => [opening, closing]
  | _ => opening :: (jsonBreak (level + 1) ++ join (',' :: jsonBreak (level + 1)) parts
      ++ jsonBreak level ++ [closing])

mutual
def jsonAt (level : Nat) : Value → Text
  | .null => "null".toList
  | .bool true => "true".toList
  | .bool false => "false".toList
  | .int n => ofInt n
  | .text t => jsonText t
  | .list items => jsonBrackets '[' ']' level (jsonItems (level + 1) items)
  | .map entries => jsonBrackets '{' '}' level (jsonEntries (level + 1) entries)
  -- no record holds a value of the other sorts
  | v => jsonText v.display

def jsonItems (level : Nat) : List Value → List Text
  | [] => []
  | v :: vs => jsonAt level v :: jsonItems level vs

def jsonEntries (level : Nat) : List (Value × Value) → List Text
  | [] => []
  | (k, v) :: es => (jsonText k.display ++ ": ".toList ++ jsonAt level v) :: jsonEntries level es
end

def json (v : Value) : Text := jsonAt 0 v

end LightningTemplate.Value
