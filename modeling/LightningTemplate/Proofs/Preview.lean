import LightningTemplate.Proofs.Isolation

/-! Dry runs.  A dry run goes through the batch as the run that writes does, component by
component: what was written in between changes no conversion.  So it tells what the run
would tell, and it leaves the files alone. -/
namespace LightningTemplate
open Text FileSystem

def Summary.Row.untimed (r : Row) : Row := { r with time := [] }

namespace Batch

/-- What an outcome would have been without the writing. -/
def Outcome.preview : Outcome → Outcome
  | .unconverted f => .unconverted f
  | .unwritten c _ | .previewed c | .written c _ => .previewed c

def isBundleLine (line : Text) : Bool := "   Written to: ".toList.isPrefixOf line

def dryRunNotice : Text := "Dry-run mode -- nothing will be written".toList

namespace Attempt
variable {a : Attempt} {s : Setting} {fs : FileSystem}

def preview (a : Attempt) : Attempt := { a with outcome := a.outcome.preview }

/-- Something was converted and could not be written. -/
def IsUnwritten (a : Attempt) : Prop := ∃ c f, a.outcome = .unwritten c f

theorem row_preview (h : ¬ a.IsUnwritten) : a.preview.row = a.row := by
  cases ha : a.outcome with
  | unwritten c f => exact absurd ⟨c, f, ha⟩ h
  | _ => simp [row, preview, ha, Outcome.preview, Outcome.failure?, Outcome.conversion?, name, time]

theorem isBundleLine_counts {c : Conversion} {l : Text} (h : l ∈ counts c) : isBundleLine l = false := by
  simp only [counts, List.mem_cons, List.not_mem_nil, or_false] at h
  rcases h with rfl | rfl | rfl | rfl <;> rfl

theorem lines_preview (h : ¬ a.IsUnwritten) : a.preview.lines = a.lines.filter (!isBundleLine ·) := by
  have hopening : [[], "Converting: ".toList ++ a.path.text].filter (!isBundleLine ·) =
      [[], "Converting: ".toList ++ a.path.text] := rfl
  have hcounts : ∀ c, (counts c).filter (!isBundleLine ·) = counts c := fun c =>
    List.filter_eq_self.2 fun l hl => by rw [isBundleLine_counts hl]; rfl
  rw [lines, lines, List.filter_append, List.filter_append, List.filter_append]
  cases ha : a.outcome with
  | unwritten c f => exact absurd ⟨c, f, ha⟩ h
  | unconverted f =>
    have hfailed : ["   Failed: ".toList ++ f.message].filter (!isBundleLine ·) =
        ["   Failed: ".toList ++ f.message] := rfl
    simp only [preview, ha, Outcome.preview, Outcome.conversion?, Outcome.bundle?, Outcome.failure?,
      Option.map_none, Option.map_some, Option.toList_none, Option.toList_some, Option.getD_none,
      hopening, hfailed, List.filter_nil]
  | previewed c =>
    simp only [preview, ha, Outcome.preview, Outcome.conversion?, Outcome.bundle?, Outcome.failure?,
      Option.map_none, Option.map_some, Option.toList_none, Option.getD_some, hopening, hcounts,
      List.filter_nil]
  | written c bundle =>
    have hbundle : ["   Written to: ".toList ++ bundle.text ++ " (".toList ++ a.time ++ [')']].filter
        (!isBundleLine ·) = [] := rfl
    simp only [preview, ha, Outcome.preview, Outcome.conversion?, Outcome.bundle?, Outcome.failure?,
      Option.map_none, Option.map_some, Option.toList_none, Option.toList_some, Option.getD_some,
      hopening, hcounts, hbundle, List.filter_nil]

theorem untimed_row_preview {d : Attempt} (h : ¬ a.IsUnwritten) (hd : d.SameButTime a.preview) :
    d.row.untimed = a.row.untimed := by
  have hrow (b : Attempt) : b.untimed.row.untimed = b.row.untimed := by
    cases hb : b.outcome <;>
      simp [row, untimed, Summary.Row.untimed, hb, Outcome.failure?, Outcome.conversion?, name]
  rw [← hrow d, hd, hrow, row_preview h]

/-- A preview says all that the attempt says, but for where its bundle is. -/
theorem lines_of_preview {d : Attempt} (h : ¬ a.IsUnwritten) (hd : d.SameButTime a.preview) :
    d.lines = a.lines.filter (!isBundleLine ·) := by
  have hlines {b : Attempt} (hb : b.outcome.bundle? = none) : b.untimed.lines = b.lines := by
    simp only [lines, untimed, hb, Option.map_none]
  have hsame : d.untimed = a.preview.untimed := hd
  have houtcome := congrArg Attempt.outcome hsame
  have hnone : a.preview.outcome.bundle? = none := by
    simp only [preview]
    cases a.outcome <;> rfl
  have hnone' : d.outcome.bundle? = none := (congrArg Outcome.bundle? houtcome).trans hnone
  rw [← hlines hnone', hsame, hlines hnone, lines_preview h]

/-- A turn of a dry run is the turn with the writing left out, wherever and whenever that one
starts. -/
theorem finish_preview (converted : Path → Logged Failure Conversion) (p : Path)
    (moments moments' : Moments) (fs fs' : FileSystem) :
    let dry := finish { s with dryRun := true } converted moments p fs
    let real := finish { s with dryRun := false } converted moments' p fs'
    dry.1.SameButTime real.1.preview ∧ dry.2 = fs := by
  intro dry real
  simp only [dry, real, finish]
  cases (converted p).outcome with
  | error f => exact ⟨rfl, rfl⟩
  | ok c =>
    cases hresult : (Bundle.write s.output p.stem c).result fs' <;>
      simp [hresult, outcomeOf, preview, Outcome.preview, SameButTime, untimed]

theorem finishAll_preview (converted : Path → Logged Failure Conversion) (clock clock' : Clock)
    (ps : List Path) (fs fs' : FileSystem) :
    let dry := finishAll { s with dryRun := true } converted clock ps fs
    let real := finishAll { s with dryRun := false } converted clock' ps fs'
    List.Forall₂ (fun d a => SameButTime d a.preview) dry.1 real.1 ∧ dry.2 = fs := by
  induction ps generalizing clock clock' fs fs' with
  | nil => exact ⟨.nil, rfl⟩
  | cons p ps ih =>
    obtain ⟨hturn, hfiles⟩ := finish_preview (s := s) converted p (clock 0) (clock' 0) fs fs'
    dsimp only [finishAll]
    rw [hfiles]
    exact ⟨.cons hturn (ih _ _ fs _).1, (ih clock.later clock'.later fs fs').2⟩

theorem files_runAll (h : s.dryRun = true) (clock : Clock) (ps : List Path) :
    (runAll s clock ps fs).2 = fs := by
  induction ps generalizing clock with
  | nil => rfl
  | cons p ps ih =>
    have hturn : (run s (clock 0) p fs).2 = fs := by
      simp only [run]
      split
      · rfl
      · rw [if_pos h]
    rw [runAll, hturn, ih]

/-- Attempts of a dry run tell what those of the run that writes do. -/
theorem tells_preview {dry real : List Attempt}
    (h : List.Forall₂ (fun d a => SameButTime d a.preview) dry real)
    (hwritten : ∀ a ∈ real, ¬ a.IsUnwritten) :
    dry.map (·.row.untimed) = real.map (·.row.untimed) ∧
      dry.flatMap lines = (real.flatMap lines).filter (!isBundleLine ·) := by
  induction h with
  | nil => exact ⟨rfl, rfl⟩
  | cons hd _ ih =>
    rw [List.forall_mem_cons] at hwritten
    obtain ⟨hrows, hlines⟩ := ih hwritten.2
    rw [List.map_cons, List.map_cons, List.flatMap_cons, List.flatMap_cons, List.filter_append,
      untimed_row_preview hwritten.1 hd, lines_of_preview hwritten.1 hd, hrows, hlines]
    exact ⟨rfl, rfl⟩

theorem log_preview {dry real : List Attempt}
    (h : List.Forall₂ (fun d a => SameButTime d a.preview) dry real) :
    dry.flatMap log = real.flatMap log := by
  induction h with
  | nil => rfl
  | cons hd _ ih =>
    have hlog := congrArg log (hd : untimed _ = untimed _)
    rw [List.flatMap_cons, List.flatMap_cons, ih]
    exact congrArg (· ++ _) hlog

end Attempt

def foundLine (paths : List Path) : Text :=
  "Found ".toList ++ ofNat paths.length ++ " component(s)".toList

theorem opening_eq (o : Options) (paths : List Path) :
    opening o paths = foundLine paths :: if o.dryRun then [dryRunNotice] else [] := rfl

def Report.closing (r : Report) : Text :=
  if r.attempts.isEmpty then [] else Summary.table (r.attempts.map Attempt.row)

/-- The first report tells what the second does.  Their tables have the same rows but for the
times, and they print the same lines before them, but for the notice of the one and the bundles
of the other. -/
structure Foretells (dry real : Report) : Prop where
  exit : dry.exit = real.exit
  rows : dry.attempts.map (·.row.untimed) = real.attempts.map (·.row.untimed)
  console : ∃ said told, dry.console = Summary.banner ++ Summary.unlines said ++ dry.closing ∧
    real.console = Summary.banner ++ Summary.unlines told ++ real.closing ∧
    said.erase dryRunNotice = told.filter (!isBundleLine ·)

section batch
variable {e : Environment} {o : Options} {fs : FileSystem} {m : Mapping}

/-- Files change only in a run that writes, with all its paths there and its mapping loaded. -/
theorem writing_of_files_ne (h : (run e o fs).files ≠ fs) :
    o.dryRun = false ∧ firstMissing? fs o.paths = .ok none ∧
      ∃ m, (loadMapping e.readYaml fs o.mappingFile).outcome = .ok m := by
  cases hrun : (run e o fs).outcome with
  | error f => exact absurd (files_of_error hrun) h
  | ok r =>
    rcases run_cases hrun with ⟨exit, notice, -, hfiles⟩ | ⟨m, hpresent, hm, -, hfiles⟩
    · exact absurd hfiles h
    · refine ⟨?_, hpresent, m, hm⟩
      by_contra hdry
      rw [hfiles] at h
      exact h (Attempt.files_runAll (Bool.not_eq_false _ ▸ hdry) _ _)

theorem attempts_preview (hfs : fs.Tree) (hpresent : firstMissing? fs o.paths = .ok none)
    (m : Mapping) (clock clock' : Clock) :
    let dry := Attempt.runAll ⟨m, .ofText o.output, true⟩ clock (collect fs o.paths) fs
    let real := Attempt.runAll ⟨m, .ofText o.output, false⟩ clock' (collect fs o.paths) fs
    List.Forall₂ (fun d a => Attempt.SameButTime d a.preview) dry.1 real.1 := by
  intro dry real
  let s : Setting := ⟨m, .ofText o.output, o.dryRun⟩
  have hall (clock : Clock) (dryRun : Bool) :
      Attempt.runAll { s with dryRun := dryRun } clock (collect fs o.paths) fs =
        Attempt.finishAll { s with dryRun := dryRun } (convertFile m fs) clock
          (collect fs o.paths) fs :=
    runAll_eq_finishAll hfs hpresent _ clock (fun q hq => hq) (.refl _ fs)
  have hpreview := Attempt.finishAll_preview (s := s) (convertFile m fs) clock clock'
    (collect fs o.paths) fs fs
  rw [← hall clock true, ← hall clock' false] at hpreview
  exact hpreview.1

theorem foretells_stop (notice : Text) (h : notice ≠ dryRunNotice) (hline : isBundleLine notice = false) :
    Foretells (stop 0 notice) (stop 0 notice) := by
  refine ⟨rfl, rfl, [notice], [notice], (List.append_nil _).symm, (List.append_nil _).symm, ?_⟩
  rw [List.erase_cons_tail (by simpa using h), List.erase_nil, List.filter_cons_of_pos (by simp [hline]),
    List.filter_nil]

theorem foretells_reportOn {dryRun realRun : Options} {paths : List Path} {dry real : List Attempt}
    (hdry : dryRun.dryRun = true) (hreal : realRun.dryRun = false)
    (h : List.Forall₂ (fun d a => Attempt.SameButTime d a.preview) dry real) (hsome : real ≠ [])
    (hwritten : ∀ a ∈ real, ¬ a.IsUnwritten) :
    Foretells (reportOn dryRun paths dry) (reportOn realRun paths real) := by
  obtain ⟨hrows, hlines⟩ := Attempt.tells_preview h hwritten
  have hclosing (o : Options) {attempts : List Attempt} (hne : attempts ≠ []) :
      (reportOn o paths attempts).closing = Summary.table (attempts.map Attempt.row) :=
    if_neg (by simpa [reportOn] using hne)
  have hsomeDry : dry ≠ [] := by
    rintro rfl
    exact hsome (List.forall₂_nil_left_iff.1 h)
  refine ⟨rfl, hrows, opening dryRun paths ++ dry.flatMap Attempt.lines,
    opening realRun paths ++ real.flatMap Attempt.lines,
    by rw [hclosing _ hsomeDry]; rfl, by rw [hclosing _ hsome]; rfl, ?_⟩
  have hfound : foundLine paths ≠ dryRunNotice := fun h => by
    have hhead : dryRunNotice.head? = some 'D' := rfl
    rw [← h] at hhead
    cases hhead
  have hline : isBundleLine (foundLine paths) = false := rfl
  rw [opening_eq, opening_eq, hdry, hreal, if_pos rfl, if_neg Bool.false_ne_true, hlines,
    List.cons_append, List.cons_append, List.cons_append, List.nil_append, List.nil_append,
    List.erase_cons_tail (by simpa using hfound), List.erase_cons_head,
    List.filter_cons_of_pos (by simp [hline])]

end batch

/-- Only a run that writes, with all its paths there and its mapping loaded, changes any file.
Where every file has one name, a dry run also foretells such a run but for the times, as far
as that writes all it has to write. -/
theorem dry_run_foretells (readYaml : Text → Option Value) (clock clock' : Clock) (o : Options)
    (fs : FileSystem) :
    let dryRun := run ⟨readYaml, clock⟩ { o with dryRun := true } fs
    let realRun := run ⟨readYaml, clock'⟩ { o with dryRun := false } fs
    dryRun.files = fs ∧
      (realRun.files ≠ fs → firstMissing? fs o.paths = .ok none ∧
        ∃ m, (loadMapping readYaml fs o.mappingFile).outcome = .ok m) ∧
      ∀ m, fs.Tree → firstMissing? fs o.paths = .ok none →
        (loadMapping readYaml fs o.mappingFile).outcome = .ok m →
        ∃ dry real, dryRun.outcome = .ok dry ∧ realRun.outcome = .ok real ∧
          dryRun.log = realRun.log ∧
          ((∀ a ∈ real.attempts, ¬ a.IsUnwritten) → Foretells dry real) := by
  intro dryRun realRun
  refine ⟨?_, fun h => (writing_of_files_ne h).2, fun m hfs hpresent hm => ?_⟩
  · by_contra h
    exact Bool.noConfusion (writing_of_files_ne h).1
  · have hdry : dryRun = _ := run_of_present (e := ⟨readYaml, clock⟩)
      (o := { o with dryRun := true }) hpresent hm
    have hreal : realRun = _ := run_of_present (e := ⟨readYaml, clock'⟩)
      (o := { o with dryRun := false }) hpresent hm
    have hattempts := attempts_preview hfs hpresent m clock clock'
    rw [hdry, hreal]
    cases hpaths : collect fs o.paths with
    | nil => exact ⟨_, _, rfl, rfl, rfl, fun _ => foretells_stop _ (by decide) rfl⟩
    | cons p ps =>
      rw [hpaths] at hattempts
      refine ⟨_, _, rfl, rfl, congrArg (_ ++ ·) (Attempt.log_preview hattempts),
        foretells_reportOn rfl rfl hattempts (List.cons_ne_nil _ _)⟩

/-- One component whose element is not closed, and two with one bundle name. -/
def previewFiles : FileSystem :=
  systemOf [("Broken.cmp", "<aura:component>"), ("a/Card.cmp", "<aura:component>one</aura:component>"),
    ("b/Card.cmp", "<aura:component>two</aura:component>")]

theorem dry_run_foretells_cards :
    let o := plainOptions ["Broken.cmp", "a", "b"]
    let fs := previewFiles
    let dryRun := run stillEnvironment { o with dryRun := true } fs
    let realRun := run stillEnvironment o fs
    fs.Tree ∧ firstMissing? fs o.paths = .ok none ∧
      (loadMapping stillEnvironment.readYaml fs o.mappingFile).outcome = .ok .builtIn ∧
      dryRun.files = fs ∧ realRun.files ≠ fs ∧
      ∃ dry real, dryRun.outcome = .ok dry ∧ realRun.outcome = .ok real ∧
        (∀ a ∈ real.attempts, ¬ a.IsUnwritten) ∧ Foretells dry real := by
  intro o fs dryRun realRun
  have hfs : fs.Tree := ⟨⟨by decide +kernel, by decide +kernel⟩, rfl⟩
  have hpresent : firstMissing? fs o.paths = .ok none := by decide +kernel
  have hm : (loadMapping stillEnvironment.readYaml fs o.mappingFile).outcome = .ok .builtIn := rfl
  obtain ⟨hfiles, -, hforetells⟩ := dry_run_foretells Yaml.read? .still .still o fs
  obtain ⟨dry, real, hdry, hreal, -, htells⟩ := hforetells .builtIn hfs hpresent hm
  have hrun : realRun.outcome.toOption.any (fun r =>
      r.attempts.all (fun a => a.outcome matches .unconverted _ | .written _ _) &&
        realRun.files.entries.length == 10) = true := by decide +kernel
  obtain ⟨r, hr, hwritten⟩ := exists_ok_of_any hrun
  obtain rfl : real = r := Except.ok.inj (hreal.symm.trans hr)
  simp only [Bool.and_eq_true, List.all_eq_true, beq_iff_eq] at hwritten
  have hnone : ∀ a ∈ real.attempts, ¬ a.IsUnwritten := by
    rintro a ha ⟨c, f, hunwritten⟩
    simpa [hunwritten] using hwritten.1 a ha
  have hchanged : realRun.files ≠ fs := by
    intro h
    rw [h] at hwritten
    exact absurd hwritten.2 (by decide +kernel)
  exact ⟨hfs, hpresent, hm, hfiles, hchanged, dry, real, hdry, hr, hnone, htells hnone⟩

/-- The rows of a batch that comes to its end, each with whether something could not be written. -/
def rowsOf (clock : Clock) (output : String) (dryRun : Bool) (paths : List String)
    (fs : FileSystem) : Option (List (Bool × Text × Text)) :=
  let options := { plainOptions paths with output := output.toList, dryRun }
  (run ⟨Yaml.read?, clock⟩ options fs).outcome.toOption.map fun r =>
    r.attempts.map fun a => (a.outcome matches .unwritten _ _, a.row.status, a.row.time)

/-- A component beside a file that stands where the output directory is wanted. -/
def takenOutput : FileSystem :=
  systemOf [("Card.cmp", "<aura:component>a</aura:component>"), ("taken", "")]

/-- Three runs that tell otherwise than their dry runs.  In the first two all is written, but
a template is also the next component, or the clock goes on; in the third no file fails to
be written, since the directory for them cannot be made. -/
theorem dry_run_misleads :
    (rowsOf .still "./output" true ["a.cmp", "b.cmp"] linkedFiles = some
        [(false, "Success".toList, "0.0s".toList), (false, "Success".toList, "0.0s".toList)] ∧
      rowsOf .still "./output" false ["a.cmp", "b.cmp"] linkedFiles = some
        [(false, "Success".toList, "0.0s".toList),
          (false, "Failed: No <aura:component> found in markup for b".toList, "0.0s".toList)]) ∧
    (rowsOf .still "out" true ["Card.cmp"] takenOutput = some
        [(false, "Success".toList, "0.0s".toList)] ∧
      rowsOf (fun _ => ⟨0, 1, 1⟩) "out" false ["Card.cmp"] takenOutput = some
        [(false, "Success".toList, "1.0s".toList)]) ∧
    rowsOf .still "taken" true ["Card.cmp"] takenOutput = some
        [(false, "Success".toList, "0.0s".toList)] ∧
      rowsOf .still "taken" false ["Card.cmp"] takenOutput = some
        [(true, "Failed: [Errno 20] Not a directory: 'taken/card'".toList, "0.0s".toList)] := by
  refine ⟨⟨?_, ?_⟩, ⟨?_, ?_⟩, ?_, ?_⟩ <;> decide +kernel

end Batch
end LightningTemplate
