import LightningTemplate.Text.Basic

/-! What a batch prints around its work: a banner, and a table of outcomes in columns
of fixed width. -/
namespace LightningTemplate.Summary
open Text

structure Row where
  component : Text
  status : Text
  time : Text
  warnings : Text
  deriving DecidableEq, Repr

def unlines (ls : List Text) : Text := ls.flatMap (· ++ ['\n'])

def rule (c : Char) (width : Nat) : Text := List.replicate width c

def banner : Text :=
  unlines [[], rule '=' 60, "  Aura -> LWC Markup Converter".toList, rule '=' 60, []]

def columns (component status time warnings : Text) : Text :=
  padRight 35 component ++ (' ' :: padRight 15 status) ++ (' ' :: padRight 8 time)
    ++ (' ' :: padRight 8 warnings)

/-- Only the component is cut to its column. -/
def Row.text (r : Row) : Text := columns (r.component.take 34) r.status r.time r.warnings

def Row.isSuccess (r : Row) : Bool := occursIn "Success".toList r.status

def successCount (rows : List Row) : Nat := (rows.filter Row.isSuccess).length

def failureCount (rows : List Row) : Nat := rows.length - successCount rows

def totals (rows : List Row) : Text :=
  "Total: ".toList ++ ofNat rows.length ++ " components | ".toList ++ ofNat (successCount rows)
    ++ " success | ".toList ++ ofNat (failureCount rows) ++ " failed".toList

def congratulation (rows : List Row) : List Text :=
  if !rows.isEmpty && rows.all Row.isSuccess then
    [[], "All components converted successfully!".toList]
  else []

def table (rows : List Row) : Text :=
  unlines ([[], rule '=' 70, "CONVERSION SUMMARY".toList, rule '=' 70,
      columns "Component".toList "Status".toList "Time".toList "Warnings".toList, rule '-' 70]
    ++ rows.map Row.text ++ [rule '-' 70, totals rows] ++ congratulation rows ++ [[]])

end LightningTemplate.Summary
