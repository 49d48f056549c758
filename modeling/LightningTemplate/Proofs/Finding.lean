import Mathlib.Data.List.Basic
import LightningTemplate.Findings

/-! Findings as a log.  What a transformation writes is told by the findings that it makes, in
their order, and `Findings.extend` says what a log makes of the findings that were there before:
lists grow at their ends, getters are counted on, and a name in use is taken in when it is
new. -/
namespace LightningTemplate
open Expression

inductive Finding
  | warning (w : Warning)
  | directive (name : Text)
  | component (target : Value)
  | channel (c : MessageChannel)
  | recordData (r : RecordData)
  | facet (f : Facet)
  | getter (expression : Text)
  /-- A tag of a namespace that no table and no rule knows. -/
  | unmapped (tag : Text)

namespace Finding

@[simp] def warning? : Finding → Option Warning
  | .warning w => some w
  | _ => none

@[simp] def directive? : Finding → Option Text
  | .directive d => some d
  | _ => none

@[simp] def component? : Finding → Option Value
  | .component v => some v
  | _ => none

@[simp] def channel? : Finding → Option MessageChannel
  | .channel c => some c
  | _ => none

@[simp] def recordData? : Finding → Option RecordData
  | .recordData r => some r
  | _ => none

@[simp] def facet? : Finding → Option Facet
  | .facet f => some f
  | _ => none

@[simp] def getter? : Finding → Option Text
  | .getter e => some e
  | _ => none

@[simp] def unmapped? : Finding → Option Text
  | .unmapped tag => some tag
  | _ => none

def getterCount (log : List Finding) : Nat := (log.filterMap getter?).length

@[simp] theorem getterCount_nil : getterCount [] = 0 := rfl

@[simp] theorem getterCount_append (a b : List Finding) :
    getterCount (a ++ b) = getterCount a + getterCount b := by simp [getterCount]

theorem filterMap_getter (es : List Text) : (es.map Finding.getter).filterMap getter? = es := by
  induction es with
  | nil => rfl
  | cons e es ih => simp [getter?, ih]

end Finding

namespace Findings

/-- Findings with one more. -/
def record (fs : Findings) : Finding → Findings
  | .warning w => { fs with warnings := fs.warnings ++ [w] }
  | .directive d =>
    if fs.usedDirectives.contains d then fs
    else { fs with usedDirectives := fs.usedDirectives ++ [d] }
  | .component v =>
    if fs.usedComponents.any (·.same v) then fs
    else { fs with usedComponents := fs.usedComponents ++ [v] }
  | .channel c => { fs with channels := fs.channels ++ [c] }
  | .recordData r => { fs with recordData := fs.recordData ++ [r] }
  | .facet f => { fs with facets := fs.facets ++ [f] }
  | .getter e =>
    { fs with
      getters := fs.getters ++ [⟨Expression.getterName (fs.getters.length + 1), e⟩] }
  | .unmapped _ => fs

def named (count : Nat) (es : List Text) : List Getter :=
  (es.zipIdx count).map fun e => ⟨getterName (e.2 + 1), e.1⟩

@[simp] theorem named_nil (count : Nat) : named count [] = [] := rfl

theorem named_append (count : Nat) (es fs : List Text) :
    named count (es ++ fs) = named count es ++ named (count + es.length) fs := by
  simp [named, List.zipIdx_append]

@[simp] theorem length_named (count : Nat) (es : List Text) : (named count es).length = es.length := by
  simp [named]

@[simp] theorem expression_named (count : Nat) (es : List Text) :
    (named count es).map (·.expression) = es := by
  simp [named, Function.comp_def, List.zipIdx_map_fst]

theorem name_named (count : Nat) (es : List Text) :
    (named count es).map (·.name) = (List.range' count es.length).map fun i => getterName (i + 1) := by
  simp [named, Function.comp_def, ← List.zipIdx_map_snd]

variable {α : Type} {same : α → α → Bool}

/-- The names of the second list that the first does not hold, each at its first place. -/
def newNames (same : α → α → Bool) (held attempted : List α) : List α :=
  (attempted.filter fun a => !held.any (same · a)).eraseDupsBy fun later first => same first later

@[simp] theorem newNames_nil (held : List α) : newNames same held [] = [] := rfl

theorem newNames_cons_held {held : List α} {a : α} (h : held.any (same · a) = true) (as : List α) :
    newNames same held (a :: as) = newNames same held as := by
  simp [newNames, h]

theorem newNames_cons_new {held : List α} {a : α} (h : held.any (same · a) = false) (as : List α) :
    newNames same held (a :: as) = a :: newNames same (held ++ [a]) as := by
  rw [newNames, List.filter_cons_of_pos (by simp [h]), List.eraseDupsBy_cons, List.filter_filter, newNames]
  congr 3
  funext b
  simp [Bool.and_comm]

theorem append_newNames (held : List α) (a : α) :
    held ++ newNames same held [a] = if held.any (same · a) then held else held ++ [a] := by
  cases h : held.any (same · a) with
  | true => rw [newNames_cons_held h, newNames_nil, List.append_nil, if_pos rfl]
  | false => rw [newNames_cons_new h, newNames_nil, if_neg Bool.false_ne_true]

/-- Names that come in two parts are new in the second part when the first did not bring them. -/
theorem newNames_append (held as bs : List α) :
    newNames same held (as ++ bs) =
      newNames same held as ++ newNames same (held ++ newNames same held as) bs := by
  induction as generalizing held with
  | nil => simp [newNames_nil]
  | cons a as ih =>
    cases h : held.any (same · a) with
    | true => rw [List.cons_append, newNames_cons_held h, newNames_cons_held h, ih]
    | false =>
      rw [List.cons_append, newNames_cons_new h, newNames_cons_new h, ih]
      simp

/-- Findings with a log after them: lists grow at their ends, getters are counted on, and a
name in use is taken in when it is new. -/
def extend (old : Findings) (log : List Finding) : Findings where
  warnings := old.warnings ++ log.filterMap Finding.warning?
  usedDirectives := old.usedDirectives
    ++ newNames (· == ·) old.usedDirectives (log.filterMap Finding.directive?)
  usedComponents := old.usedComponents
    ++ newNames Value.same old.usedComponents (log.filterMap Finding.component?)
  channels := old.channels ++ log.filterMap Finding.channel?
  recordData := old.recordData ++ log.filterMap Finding.recordData?
  facets := old.facets ++ log.filterMap Finding.facet?
  getters := old.getters ++ named old.getters.length (log.filterMap Finding.getter?)

theorem extend_nil (old : Findings) : old.extend [] = old := by
  simp [extend, newNames_nil, named]

theorem extend_append (old : Findings) (a b : List Finding) :
    old.extend (a ++ b) = (old.extend a).extend b := by
  simp [extend, newNames_append, named_append]

theorem record_eq_extend (old : Findings) (f : Finding) : old.record f = old.extend [f] := by
  have hnames : named old.getters.length [] = [] := rfl
  cases f with
  | directive d =>
    by_cases hd : d ∈ old.usedDirectives
    · have hheld : old.usedDirectives.any (· == d) = true := by simpa using hd
      simp [record, hd, extend, List.filterMap_cons, newNames_cons_held hheld, newNames_nil,
        Finding.getter?, hnames]
    · have hnew : old.usedDirectives.any (· == d) = false := by
        simp only [List.any_eq_false, beq_iff_eq]
        rintro e he rfl
        exact hd he
      simp [record, hd, extend, List.filterMap_cons, newNames_cons_new hnew, newNames_nil,
        Finding.getter?, hnames]
  | component v =>
    cases h : old.usedComponents.any (·.same v) with
    | true =>
      simp [record, h, extend, List.filterMap_cons, newNames_cons_held h, newNames_nil,
        Finding.getter?, hnames]
    | false =>
      simp [record, h, extend, List.filterMap_cons, newNames_cons_new h, newNames_nil,
        Finding.getter?, hnames]
  | _ => simp [record, extend, List.filterMap_cons, newNames_nil, Finding.getter?, named]

theorem extend_cons (old : Findings) (f : Finding) (log : List Finding) :
    old.extend (f :: log) = (old.record f).extend log := by
  rw [record_eq_extend, ← extend_append, List.singleton_append]

theorem length_getters_extend (old : Findings) (log : List Finding) :
    (old.extend log).getters.length = old.getters.length + Finding.getterCount log := by
  simp [extend, Finding.getterCount]

end Findings
end LightningTemplate
