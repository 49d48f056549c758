import Mathlib.Data.List.Basic
import LightningTemplate.Proofs.Trials

/-! What the summary of a batch counts.  Whether a component was converted is read off the
text of its status, and that text holds the message of what went wrong.  A failure is
counted as a success when its message speaks of success, and only then. -/
namespace LightningTemplate

/-- A character that the text does not begin with is no place where it can occur. -/
theorem Text.occursIn_cons_of_ne {c d : Char} (h : c ≠ d) (part t : Text) :
    occursIn (c :: part) (d :: t) = occursIn (c :: part) t := by
  simp [occursIn, h]

namespace Summary
open Text

theorem unlines_append (a b : List Text) : unlines (a ++ b) = unlines a ++ unlines b :=
  List.flatMap_append

/-- The numbers at the end of a summary. -/
structure Tally where
  components : Nat
  success : Nat
  failed : Nat
  /-- The batch is congratulated on. -/
  cheers : Bool
  deriving DecidableEq, Repr

def Tally.text (t : Tally) : Text :=
  unlines (["Total: ".toList ++ ofNat t.components ++ " components | ".toList ++ ofNat t.success
      ++ " success | ".toList ++ ofNat t.failed ++ " failed".toList]
    ++ (if t.cheers then [[], "All components converted successfully!".toList] else []) ++ [[]])

def Tally.ofRows (rows : List Row) : Tally :=
  ⟨rows.length, successCount rows, failureCount rows, !rows.isEmpty && rows.all Row.isSuccess⟩

def tableTop (rows : List Row) : List Text :=
  [[], rule '=' 70, "CONVERSION SUMMARY".toList, rule '=' 70,
    columns "Component".toList "Status".toList "Time".toList "Warnings".toList, rule '-' 70]
  ++ rows.map Row.text ++ [rule '-' 70]

theorem table_eq (rows : List Row) :
    table rows = unlines (tableTop rows) ++ (Tally.ofRows rows).text := by
  have hlines : ∀ top lines cheers : List Text, ∀ total : Text,
      top ++ lines ++ [rule '-' 70, total] ++ cheers ++ [[]] =
        (top ++ lines ++ [rule '-' 70]) ++ ([total] ++ cheers ++ [[]]) := by simp
  rw [Tally.text, ← unlines_append, table]
  exact congrArg unlines (hlines _ _ _ _)

/-- What a tally should say of trials, each given by the message of what stopped it if
something did. -/
structure Tally.Truthful (t : Tally) (raised : List (Option Text)) : Prop where
  components : t.components = raised.length
  success : t.success = raised.countP Option.isNone
  failed : t.failed = raised.countP Option.isSome
  cheers : t.cheers = true → ∀ message ∈ raised, message = none

end Summary

namespace Batch
open Text Summary

/-- The part of a message that gets into the status holds the word. -/
def speaksOfSuccess (message : Text) : Bool :=
  occursIn "Success".toList (message.take Attempt.statusLimit)

namespace Attempt

theorem isSuccess_row (a : Attempt) : (row a).isSuccess = a.outcome.failure?.all speaksOfSuccess := by
  have hword : occursIn "Success".toList "Success".toList = true := by decide
  -- no letter of what stands before the message begins the word
  have hfailed (message : Text) : occursIn "Success".toList ("Failed: ".toList ++ message.take statusLimit)
      = speaksOfSuccess message := by
    rw [speaksOfSuccess]
    simp only [String.reduceToList, List.cons_append, List.nil_append]
    iterate 8 rw [occursIn_cons_of_ne (by decide)]
  obtain ⟨p, outcome, log, moments⟩ := a
  cases outcome with
  | unconverted f => exact hfailed _
  | unwritten c f => exact hfailed _
  | previewed c => exact hword
  | written c b => exact hword

end Attempt

def tallyOf (raised : List (Option Text)) : Tally :=
  ⟨raised.length, raised.countP (·.all speaksOfSuccess),
    raised.length - raised.countP (·.all speaksOfSuccess), raised.all (·.all speaksOfSuccess)⟩

theorem ofRows_eq_tallyOf {attempts : List Attempt} (hne : attempts ≠ []) :
    Tally.ofRows (attempts.map Attempt.row) = tallyOf (attempts.map (·.outcome.failure?)) := by
  have hsuccess : ∀ a : Attempt, a.row.isSuccess = a.outcome.failure?.all speaksOfSuccess :=
    Attempt.isSuccess_row
  have hempty : attempts.isEmpty = false := by simpa using hne
  simp [Tally.ofRows, tallyOf, failureCount, successCount, ← List.countP_eq_length_filter,
    List.countP_map, Function.comp_def, hsuccess, hempty]

/-- Those without a message are as many as those that pass a test of messages, exactly when
no message passes it. -/
theorem countP_all_eq_iff (p : Text → Bool) (raised : List (Option Text)) :
    raised.countP (·.all p) = raised.countP Option.isNone ↔
      ∀ message, some message ∈ raised → p message = false := by
  have hsplit : raised.countP (·.all p) = raised.countP Option.isNone + raised.countP (·.any p) := by
    induction raised with
    | nil => rfl
    | cons x xs ih =>
      cases x with
      | none => simp [ih]; omega
      | some m => cases hm : p m <;> simp [ih, hm]; omega
  rw [hsplit, Nat.add_eq_left, List.countP_eq_zero]
  constructor
  · intro h message hmem
    simpa using h _ hmem
  · rintro h (_ | message) hmem
    · simp
    · simpa using h message hmem

theorem truthful_iff (raised : List (Option Text)) :
    (tallyOf raised).Truthful raised ↔
      ∀ message, some message ∈ raised → speaksOfSuccess message = false := by
  constructor
  · exact fun h => (countP_all_eq_iff _ _).1 h.success
  · intro h
    have hsuccess := (countP_all_eq_iff speaksOfSuccess raised).2 h
    refine ⟨rfl, hsuccess, ?_, ?_⟩
    · have hlength := raised.length_eq_countP_add_countP Option.isNone
      have hsome : raised.countP (fun x => ¬ x.isNone) = raised.countP Option.isSome :=
        List.countP_congr fun x _ => by cases x <;> simp
      dsimp only [tallyOf]
      omega
    · rintro hall (_ | message) hmem
      · rfl
      · have := List.all_eq_true.1 hall _ hmem
        simp [h message hmem] at this

/-- The summary at the end of a batch is truthful exactly when no failure's message speaks of
success.  Truthful is that it counts the components that nothing stopped as successes and
the others as failures, and congratulates only when nothing stopped any. -/
theorem summary_truthful_iff {e : Environment} {o : Options} {fs : FileSystem} {r : Report}
    (h : (run e o fs).outcome = .ok r) (hne : r.attempts ≠ []) :
    ∃ m, (loadMapping e.readYaml fs o.mappingFile).outcome = .ok m ∧
      let s : Setting := ⟨m, .ofText o.output, o.dryRun⟩
      let raised := (Attempt.trials s e.clock (collect fs o.paths) fs).map fun t =>
        Attempt.raised? s t.1 t.2
      ∃ (before : Text) (tally : Tally), r.console = before ++ tally.text ∧
        (tally.Truthful raised ↔
          ∀ message, some message ∈ raised → speaksOfSuccess message = false) := by
  rcases run_cases h with ⟨exit, notice, rfl, -⟩ | ⟨m, -, hm, rfl, -⟩
  · exact absurd rfl hne
  · refine ⟨m, hm, ?_⟩
    intro s raised
    let attempts := (Attempt.runAll s e.clock (collect fs o.paths) fs).1
    have hraised : attempts.map (·.outcome.failure?) = raised :=
      Attempt.failures_runAll s e.clock (collect fs o.paths) fs
    obtain ⟨before, hconsole⟩ : ∃ before, (reportOn o (collect fs o.paths) attempts).console =
        before ++ table (attempts.map Attempt.row) := ⟨_, rfl⟩
    have hsome : attempts ≠ [] := hne
    rw [table_eq, ofRows_eq_tallyOf hsome, hraised, ← List.append_assoc] at hconsole
    exact ⟨_, _, hconsole, truthful_iff raised⟩

/-- One component, and one whose element is not closed. -/
def mixedFiles : FileSystem :=
  systemOf [("Card.cmp", "<aura:component>a</aura:component>"), ("Broken.cmp", "<aura:component>")]

def mixedOptions : Options := plainOptions ["Card.cmp", "Broken.cmp"]

theorem summary_truthful_mixed :
    ∃ r, (run stillEnvironment mixedOptions mixedFiles).outcome = .ok r ∧ r.attempts ≠ [] ∧
      ∃ m, (loadMapping stillEnvironment.readYaml mixedFiles mixedOptions.mappingFile).outcome = .ok m ∧
        let s : Setting := ⟨m, .ofText mixedOptions.output, mixedOptions.dryRun⟩
        let raised := (Attempt.trials s stillEnvironment.clock (collect mixedFiles mixedOptions.paths)
          mixedFiles).map fun t => Attempt.raised? s t.1 t.2
        ∃ (before : Text) (tally : Tally), r.console = before ++ tally.text ∧
          (tally.Truthful raised ↔
            ∀ message, some message ∈ raised → speaksOfSuccess message = false) := by
  have hrun : (run stillEnvironment mixedOptions mixedFiles).outcome.toOption.any
      (!·.attempts.isEmpty) = true := by decide +kernel
  obtain ⟨r, hr, hne⟩ := exists_ok_of_any hrun
  have hne : r.attempts ≠ [] := by simpa using hne
  exact ⟨r, hr, hne, summary_truthful_iff hr hne⟩

/-- A component with the word in its name, whose element is not closed. -/
def successCard : FileSystem := systemOf [("SuccessCard.cmp", "<aura:component>")]

/-- A component that could not be read is counted as a success because of its name. -/
theorem successCard_counted :
    ∃ r, (run stillEnvironment (plainOptions ["SuccessCard.cmp"]) successCard).outcome = .ok r ∧
      r.attempts.map (·.outcome.failure?) = [some ("Failed to parse Aura markup for SuccessCard: " ++
        "mismatched tag: line 1, column 84").toList] ∧
      (Tally.mk 1 1 0 true).text <:+ r.console := by
  have hrun : (run stillEnvironment (plainOptions ["SuccessCard.cmp"])
      successCard).outcome.toOption.any (fun r =>
      r.attempts.map (·.outcome.failure?) == [some ("Failed to parse Aura markup for SuccessCard: " ++
        "mismatched tag: line 1, column 84").toList] &&
      (Tally.mk 1 1 0 true).text.isSuffixOf r.console) = true := by decide +kernel
  obtain ⟨r, hr, hcounted⟩ := exists_ok_of_any hrun
  simp only [Bool.and_eq_true, beq_iff_eq, List.isSuffixOf_iff_suffix] at hcounted
  exact ⟨r, hr, hcounted⟩

end Batch
end LightningTemplate
