import LightningTemplate.Batch.Run
import LightningTemplate.Document.Yaml.Reader

/-! A batch as a run of trials.  A trial is a component file together with the file system
that its turn finds, the one that the trials before it have left. -/
namespace LightningTemplate.Batch
open Text

namespace Attempt

/-- The files of a batch, each with what the ones before it made of the file system. -/
def trials (s : Setting) (clock : Clock) : List Path → FileSystem → List (Path × FileSystem)
  | [], _ => []
  | p :: ps, fs => (p, fs) :: trials s clock.later ps (run s (clock 0) p fs).2

def raised? (s : Setting) (p : Path) (fs : FileSystem) : Option Text :=
  match (convertFile s.mapping fs p).outcome with
  | .error f => some f.message
  | .ok c =>
    if s.dryRun then none
    else match (Bundle.write s.output p.stem c).run fs with
      | .ok _ _ => none
      | .error f _ => some f.message

variable (s : Setting)

theorem failure?_run (moments : Moments) (p : Path) (fs : FileSystem) :
    (run s moments p fs).1.outcome.failure? = raised? s p fs := by
  simp only [run, raised?]
  cases (convertFile s.mapping fs p).outcome with
  | error f => rfl
  | ok c =>
    dsimp only
    split
    · rfl
    · cases (Bundle.write s.output p.stem c).run fs <;> rfl

theorem failures_runAll (clock : Clock) (ps : List Path) (fs : FileSystem) :
    (runAll s clock ps fs).1.map (·.outcome.failure?) =
      (trials s clock ps fs).map fun t => raised? s t.1 t.2 := by
  induction ps generalizing clock fs with
  | nil => rfl
  | cons p ps ih => simp only [runAll, trials, List.map_cons, ih, failure?_run]

end Attempt

def Attempt.untimed (a : Attempt) : Attempt := { a with moments := ⟨0, 0, 0⟩ }

theorem Part.run_ask {α : Type} (answer : FileSystem → Logged Fault α) (b : Progress) :
    (Part.ask answer).run b = match (answer b.files).outcome with
      | .ok a => .ok a { b with log := b.log ++ (answer b.files).log }
      | .error f => .error f { b with log := b.log ++ (answer b.files).log } := rfl

/-- A batch from its first look at the paths to its last component. -/
theorem run_eq (e : Environment) (o : Options) (fs : FileSystem) :
    run e o fs = match firstMissing? fs o.paths with
      | .error f => ⟨.error (.file f), [], fs⟩
      | .ok (some t) => ⟨.ok (stop 1 ("  Input path not found: ".toList ++ t)), [], fs⟩
      | .ok none => match collect fs o.paths with
        | [] => ⟨.ok (stop 0 "  No .cmp files found.".toList), [], fs⟩
        | p :: ps =>
          let loaded := loadMapping e.readYaml fs o.mappingFile
          match loaded.outcome with
          | .error f => ⟨.error f, loaded.log, fs⟩
          | .ok m =>
            let done := Attempt.runAll ⟨m, .ofText o.output, o.dryRun⟩ e.clock (p :: ps) fs
            ⟨.ok (reportOn o (p :: ps) done.1), loaded.log ++ done.1.flatMap Attempt.log, done.2⟩ := by
  rw [run, course, EStateM.run_bind, Part.run_ask]
  cases firstMissing? fs o.paths with
  | error f => rfl
  | ok missing =>
    cases missing with
    | some t => rfl
    | none =>
      have hpresent : Except.mapError Fault.file (.ok none : Except FileFault (Option Text)) =
          .ok none := rfl
      simp only [Logged.ofOutcome, hpresent, EStateM.run_bind, Part.run_ask, Logged.outcome_pure]
      cases collect fs o.paths with
      | nil => rfl
      | cons p ps =>
        simp only [EStateM.run_bind, Part.run_ask]
        cases (loadMapping e.readYaml fs o.mappingFile).outcome <;> rfl

/-- A batch whose paths are all there and whose mapping has loaded. -/
theorem run_of_present {e : Environment} {o : Options} {fs : FileSystem} {m : Mapping}
    (hpresent : firstMissing? fs o.paths = .ok none)
    (hm : (loadMapping e.readYaml fs o.mappingFile).outcome = .ok m) :
    run e o fs = match collect fs o.paths with
      | [] => ⟨.ok (stop 0 "  No .cmp files found.".toList), [], fs⟩
      | p :: ps =>
        let done := Attempt.runAll ⟨m, .ofText o.output, o.dryRun⟩ e.clock (p :: ps) fs
        ⟨.ok (reportOn o (p :: ps) done.1),
          (loadMapping e.readYaml fs o.mappingFile).log ++ done.1.flatMap Attempt.log, done.2⟩ := by
  rw [run_eq, hpresent]
  cases collect fs o.paths with
  | nil => rfl
  | cons p ps => simp only [hm]

theorem files_of_error {e : Environment} {o : Options} {fs : FileSystem} {f : Fault}
    (h : (run e o fs).outcome = .error f) : (run e o fs).files = fs := by
  rw [run_eq] at h ⊢
  split at h
  · rfl
  · cases h
  · split at h
    · cases h
    · dsimp only at h ⊢
      split at h
      · rfl
      · cases h

/-- A batch that comes to its end has either stopped before its first component, with the
files as they were, or found all its paths and converted what it collected. -/
theorem run_cases {e : Environment} {o : Options} {fs : FileSystem} {r : Report}
    (h : (run e o fs).outcome = .ok r) :
    (∃ exit notice, r = stop exit notice ∧ (run e o fs).files = fs) ∨
      ∃ m, firstMissing? fs o.paths = .ok none ∧
        (loadMapping e.readYaml fs o.mappingFile).outcome = .ok m ∧
        let done := Attempt.runAll ⟨m, .ofText o.output, o.dryRun⟩ e.clock (collect fs o.paths) fs
        r = reportOn o (collect fs o.paths) done.1 ∧ (run e o fs).files = done.2 := by
  rw [run_eq] at h ⊢
  split at h
  · cases h
  · exact .inl ⟨_, _, (Except.ok.inj h).symm, rfl⟩
  · rename_i hpresent
    cases hpaths : collect fs o.paths with
    | nil =>
      rw [hpaths] at h
      exact .inl ⟨_, _, (Except.ok.inj h).symm, rfl⟩
    | cons p ps =>
      rw [hpaths] at h
      dsimp only at h ⊢
      cases hm : (loadMapping e.readYaml fs o.mappingFile).outcome with
      | error f =>
        rw [hm] at h
        cases h
      | ok m =>
        rw [hm] at h
        exact .inr ⟨m, hpresent, rfl, (Except.ok.inj h).symm, rfl⟩

theorem exists_ok_of_any {ε α : Type} {x : Except ε α} {p : α → Bool}
    (h : x.toOption.any p = true) : ∃ a, x = .ok a ∧ p a = true := by
  cases x with
  | error e => simp [Except.toOption] at h
  | ok a => exact ⟨a, rfl, by simpa [Except.toOption] using h⟩

/-- Files by their paths, with the directories above them.  The root is the working directory. -/
def systemOf (files : List (String × String)) : FileSystem where
  entries := Keyed.insertAll [] (files.flatMap fun f =>
    let place := Path.stepsOf f.1.toList
    (List.range' 1 (place.length - 1)).map (fun n => (place.take n, .directory))
      ++ [(place, .file (Utf8.encode f.2.toList))])
  working := []

/-- Two components, the second of which has another name where the first one's template goes. -/
def linkedFiles : FileSystem :=
  { systemOf [("a.cmp", "<aura:component>one</aura:component>"),
      ("b.cmp", "<aura:component>two</aura:component>"),
      ("output/a/a.html", "<aura:component>two</aura:component>")] with
    links := [[["b.cmp".toList], ["output".toList, "a".toList, "a.html".toList]]] }

/-- Mapping files are read as they are, and no time passes. -/
def stillEnvironment : Environment := ⟨Yaml.read?, .still⟩

def plainOptions (paths : List String) : Options :=
  { CommandLine.State.start.options with paths := paths.map String.toList }

end LightningTemplate.Batch
