import Mathlib.Data.List.Nodup
import LightningTemplate.Proofs.Collected
import LightningTemplate.Proofs.Naming
import LightningTemplate.Proofs.Trials

/-! What a batch leaves on disk.  The bundle of a component stands under a name made from
the name of its file alone, so of two components with one such name the later takes the
place of the earlier.  A bundle whose name no later component has is there at the end. -/
namespace LightningTemplate
open Text FileSystem

namespace Bundle
variable {fs fs' : FileSystem} {place : Location} {component : Text} {c : Conversion}

theorem slash_notMem_name (h : '/' ∉ component) : '/' ∉ name component := by
  cases component with
  | nil => simp [name, uncapitalize]
  | cons d ds =>
    rw [name, uncapitalize, List.mem_append, not_or]
    refine ⟨fun hmem => ?_, fun hmem => h (List.mem_cons_of_mem _ hmem)⟩
    rcases mem_lower hmem with hmem | hsmall
    · exact h (List.mem_singleton.1 hmem ▸ List.mem_cons_self)
    · exact absurd hsmall (by decide)

theorem exists_ending {f : Text × Text} (hf : f ∈ files component c) :
    ∃ e ∈ endings, f.1 = name component ++ e := by
  have hmem : f.1 ∈ endings.map (name component ++ ·) :=
    names_files component c ▸ List.mem_map_of_mem hf
  obtain ⟨e, he, hname⟩ := List.mem_map.1 hmem
  exact ⟨e, he, hname.symm⟩

/-- A file's name that is one step and does not stay in place or lead upwards. -/
def IsStep (s : Text) : Prop := '/' ∉ s ∧ 2 < s.length

theorem isStep_of_mem_files (h : '/' ∉ component) {f : Text × Text} (hf : f ∈ files component c) :
    IsStep f.1 := by
  have hending : ∀ e ∈ endings, '/' ∉ e ∧ 2 < e.length := by decide
  obtain ⟨e, he, hname⟩ := exists_ending hf
  obtain ⟨hslash, hlong⟩ := hending e he
  rw [hname, IsStep, List.mem_append, not_or, List.length_append]
  exact ⟨⟨slash_notMem_name h, hslash⟩, by omega⟩

theorem getLast?_locate_child {p : Path} {s : Text} (hs : IsStep s)
    (hl : fs.locate (p.child s) = .ok place) : place.getLast? = some s := by
  have hlong := hs.2
  have hsteps : (p.child s).steps = p.steps ++ [s] := by
    rw [Path.child, Path.below, Path.stepsOf_of_notMem hs.1 _ _] <;>
      (rintro rfl; simp at hlong)
  refine getLast?_locate (by rw [hsteps, List.getLast?_concat]) ?_ hl
  rintro rfl
  simp [Path.upStep] at hlong

theorem keeps_writeAll {p : Path} {fs : List (Text × Text)} (h : ∀ f ∈ fs, IsStep f.1) :
    FileAction.Keeps (fun place => ∃ f ∈ fs, place.getLast? = some f.1) (writeAll p fs) := by
  induction fs with
  | nil => exact FileAction.keeps_pure _ ()
  | cons f fs ih =>
    rw [List.forall_mem_cons] at h
    refine (FileAction.keeps_write (fun fs' place hl => ?_) _).bind fun _ => (ih h.2).mono ?_
    · exact ⟨f, List.mem_cons_self, getLast?_locate_child h.1 hl⟩
    · rintro place ⟨g, hg, hplace⟩
      exact ⟨g, List.mem_cons_of_mem _ hg, hplace⟩

theorem isPlace_of_mem_files {f : Text × Text} (hf : f ∈ files component c)
    (hplace : place.getLast? = some f.1) : IsPlace (name component) place := by
  obtain ⟨e, he, hname⟩ := exists_ending hf
  exact ⟨e, he, hname ▸ hplace⟩

theorem isPlace_of_locate {output : Path} (h : '/' ∉ component) {f : Text × Text}
    (hf : f ∈ files component c)
    (hl : fs.locate ((directory output component).child f.1) = .ok place) :
    IsPlace (name component) place :=
  isPlace_of_mem_files hf (getLast?_locate_child (isStep_of_mem_files h hf) hl)

theorem keeps_write (output : Path) (h : '/' ∉ component) (c : Conversion) :
    FileAction.Keeps (IsPlace (name component)) (write output component c) := by
  refine (FileAction.keeps_ensureDirectory _ _).bind fun _ => ?_
  refine FileAction.Keeps.bind ?_ fun _ => FileAction.keeps_pure _ _
  refine (keeps_writeAll fun f hf => isStep_of_mem_files h hf).mono ?_
  exact fun place ⟨f, hf, hplace⟩ => isPlace_of_mem_files hf hplace

theorem read_writeAll {p : Path} {files : List (Text × Text)} (hs : fs.links = [])
    (hsteps : ∀ f ∈ files, IsStep f.1) (hnames : (files.map (·.1)).Nodup)
    (h : (writeAll p files).run fs = .ok () fs') :
    ∀ f ∈ files, fs'.read (p.child f.1) = .ok (Utf8.encode f.2) := by
  induction files generalizing fs with
  | nil => simp
  | cons f files ih =>
    rw [List.forall_mem_cons] at hsteps
    rw [List.map_cons, List.nodup_cons] at hnames
    rw [writeAll, EStateM.run_bind] at h
    cases hwritten : (FileAction.write (p.child f.1) (Utf8.encode f.2)).run fs with
    | error e middle => simp [hwritten] at h
    | ok _ middle =>
      have hrest : (writeAll p files).run middle = .ok () fs' := by simpa [hwritten] using h
      obtain ⟨place, hl, hframe, hread⟩ := FileAction.frame_write hs hwritten
      have hs' : middle.links = [] := hframe.links.trans hs
      refine List.forall_mem_cons.2 ⟨?_, ih hs' hsteps.2 hnames.2 hrest⟩
      have hkept := keeps_writeAll (p := p) hsteps.2 middle hs'
      rw [FileAction.filesAfter, hrest] at hkept
      refine hkept.read_ok (hframe.locate_ok hl) ?_ hread
      rintro ⟨g, hg, hplace⟩
      have hname := (getLast?_locate_child hsteps.1 hl).symm.trans hplace
      exact hnames.1 (List.mem_map.2 ⟨g, hg, (Option.some.inj hname).symm⟩)

theorem nodup_names (component : Text) (c : Conversion) : ((files component c).map (·.1)).Nodup := by
  have hendings : endings.Nodup := by decide
  rw [names_files]
  exact hendings.map (List.append_right_injective _)

theorem read_write {output bundle : Path} (hs : fs.links = []) (h : '/' ∉ component)
    (hrun : (write output component c).run fs = .ok bundle fs') :
    ∀ f ∈ files component c,
      fs'.read ((directory output component).child f.1) = .ok (Utf8.encode f.2) := by
  rw [write, EStateM.run_bind] at hrun
  cases hmade : (FileAction.ensureDirectory (directory output component)).run fs with
  | error e middle => simp [hmade] at hrun
  | ok _ middle =>
    have hkept := FileAction.keeps_ensureDirectory (fun _ => False) (directory output component) fs hs
    rw [FileAction.filesAfter, hmade] at hkept
    simp only [hmade, EStateM.run_bind] at hrun
    cases hwritten : (writeAll (directory output component) (files component c)).run middle with
    | error e middle => simp [hwritten] at hrun
    | ok _ after =>
      simp only [hwritten] at hrun
      obtain rfl : after = fs' := (EStateM.Result.ok.inj hrun).2
      exact read_writeAll (hkept.links.trans hs) (fun f hf => isStep_of_mem_files h hf)
        (nodup_names component c) hwritten

end Bundle

namespace Batch
namespace Attempt
variable {s : Setting} {clock : Clock} {moments : Moments} {p : Path} {fs : FileSystem}

def MayTouch (a : Attempt) (place : Location) : Prop :=
  a.outcome.conversion?.isSome ∧ Bundle.IsPlace (Bundle.name a.name) place

theorem path_run : (run s moments p fs).1.path = p := by
  simp only [run]
  split
  · rfl
  · split
    · rfl
    · split <;> rfl

theorem moments_run : (run s moments p fs).1.moments = moments := by
  simp only [run]
  split
  · rfl
  · split
    · rfl
    · split <;> rfl

theorem frame_run (s : Setting) (moments : Moments) (hs : fs.links = []) (hp : '/' ∉ p.stem) :
    Frame (run s moments p fs).1.MayTouch fs (run s moments p fs).2 := by
  cases hc : (convertFile s.mapping fs p).outcome with
  | error f =>
    have hrun : (run s moments p fs).2 = fs := by simp only [run, hc]
    rw [hrun]
    exact .refl _ fs
  | ok c =>
    by_cases hdry : s.dryRun = true
    · have hrun : (run s moments p fs).2 = fs := by simp only [run, hc, if_pos hdry]
      rw [hrun]
      exact .refl _ fs
    · have hkept := Bundle.keeps_write s.output hp c fs hs
      rw [FileAction.filesAfter] at hkept
      cases hw : (Bundle.write s.output p.stem c).run fs with
      | ok bundle fs' =>
        have hrun : run s moments p fs =
            (⟨p, .written c bundle, (convertFile s.mapping fs p).log, moments⟩, fs') := by
          simp only [run, hc, if_neg hdry, hw]
        rw [hw] at hkept
        rw [hrun]
        exact hkept.mono fun place hplace => ⟨rfl, hplace⟩
      | error f fs' =>
        have hrun : run s moments p fs =
            (⟨p, .unwritten c f, (convertFile s.mapping fs p).log, moments⟩, fs') := by
          simp only [run, hc, if_neg hdry, hw]
        rw [hw] at hkept
        rw [hrun]
        exact hkept.mono fun place hplace => ⟨rfl, hplace⟩

theorem frame_runAll (s : Setting) (clock : Clock) {fs : FileSystem} (hs : fs.links = [])
    {ps : List Path} (hps : ∀ p ∈ ps, '/' ∉ p.stem) :
    Frame (fun place => ∃ a ∈ (runAll s clock ps fs).1, a.MayTouch place) fs
      (runAll s clock ps fs).2 := by
  induction ps generalizing clock fs with
  | nil => exact .refl _ fs
  | cons p ps ih =>
    rw [List.forall_mem_cons] at hps
    have hfirst := frame_run s (clock 0) hs hps.1
    refine (hfirst.mono ?_).trans ((ih clock.later (hfirst.links.trans hs) hps.2).mono ?_)
    · exact fun place hplace => ⟨_, List.mem_cons_self, hplace⟩
    · rintro place ⟨a, ha, hplace⟩
      exact ⟨a, List.mem_cons_of_mem _ ha, hplace⟩

/-- A file of a bundle stays as it is while components with other bundle names are converted. -/
theorem read_runAll {component : Text} {c : Conversion} {output : Path} {octets : List UInt8}
    {f : Text × Text} (hcomponent : '/' ∉ component) (hf : f ∈ Bundle.files component c)
    {ps : List Path} (hs : fs.links = []) (hps : ∀ q ∈ ps, '/' ∉ q.stem)
    (hother : ∀ b ∈ (runAll s clock ps fs).1, b.outcome.conversion?.isSome →
      Bundle.name b.name ≠ Bundle.name component)
    (h : fs.read ((Bundle.directory output component).child f.1) = .ok octets) :
    (runAll s clock ps fs).2.read ((Bundle.directory output component).child f.1) = .ok octets := by
  obtain ⟨place, hl, -⟩ := read_eq_ok_iff.1 h
  refine (frame_runAll s clock hs hps).read_ok hl ?_ h
  rintro ⟨b, hb, hconverted, hplace⟩
  exact hother b hb hconverted (hplace.name_eq (Bundle.isPlace_of_locate hcomponent hf hl))

/-- After an attempt that nothing stopped, the bundle of the component is there. -/
theorem read_run (moments : Moments) (hs : fs.links = []) (hp : '/' ∉ p.stem)
    (hreal : s.dryRun = false) (h : raised? s p fs = none) :
    ∃ c, (convertFile s.mapping fs p).outcome = .ok c ∧ ∀ f ∈ Bundle.files p.stem c,
      (run s moments p fs).2.read ((Bundle.directory s.output p.stem).child f.1) =
        .ok (Utf8.encode f.2) := by
  rw [raised?] at h
  cases hc : (convertFile s.mapping fs p).outcome with
  | error f => simp [hc] at h
  | ok c =>
    cases hw : (Bundle.write s.output p.stem c).run fs with
    | error f fs' => simp [hc, hreal, hw] at h
    | ok bundle fs' =>
      have hrun : (run s moments p fs).2 = fs' := by simp [run, hc, hreal, hw]
      exact ⟨c, rfl, hrun ▸ Bundle.read_write hs hp hw⟩

/-- An attempt of a batch is the run of its file between the files before it and those after. -/
theorem runAll_split {ps : List Path} {before after : List Attempt} {a : Attempt}
    (h : (runAll s clock ps fs).1 = before ++ a :: after) : ∃ first p last, ∃ moments : Moments,
      ∃ later : Clock, let met := (runAll s clock first fs).2
      let left := (run s moments p met).2
      ps = first ++ p :: last ∧ a = (run s moments p met).1 ∧ after = (runAll s later last left).1 ∧
        (runAll s clock ps fs).2 = (runAll s later last left).2 := by
  induction before generalizing clock ps fs with
  | nil =>
    cases ps with
    | nil => simp [runAll] at h
    | cons p ps =>
      obtain ⟨ha, hafter⟩ := List.cons.inj h
      exact ⟨[], p, ps, _, _, rfl, ha.symm, hafter.symm, rfl⟩
  | cons b before ih =>
    cases ps with
    | nil => simp [runAll] at h
    | cons q ps =>
      obtain ⟨-, hrest⟩ := List.cons.inj h
      obtain ⟨first, p, last, moments, later, rfl, ha, hafter, hfiles⟩ := ih hrest
      exact ⟨q :: first, p, last, moments, later, rfl, ha, hafter, hfiles⟩

theorem failure?_of_status {a : Attempt} (h : a.row.status = "Success".toList) :
    a.outcome.failure? = none := by
  cases hf : a.outcome.failure? with
  | none => rfl
  | some message => simp [row, hf] at h

end Attempt

theorem slash_notMem_stem {paths : List Text} {fs : FileSystem} {p : Path} (hfs : fs.WellFormed)
    (h : p ∈ collect fs paths) : '/' ∉ p.stem := fun hslash =>
  slash_notMem_name hfs h (Path.mem_of_mem_stem hslash)

/-- What is converted in a component's turn is what stood there before the batch. -/
theorem convertFile_met {s : Setting} {clock : Clock} {paths : List Text} {fs : FileSystem}
    {first last : List Path} {p : Path} (hfs : fs.Tree) (hpresent : firstMissing? fs paths = .ok none)
    (hpaths : collect fs paths = first ++ p :: last) (m : Mapping) :
    convertFile m (Attempt.runAll s clock first fs).2 p = convertFile m fs p := by
  have hfirst : ∀ q ∈ first, '/' ∉ q.stem := fun q hq =>
    slash_notMem_stem hfs.toWellFormed (hpaths ▸ List.mem_append_left _ hq)
  have hp : p ∈ collect fs paths := hpaths ▸ List.mem_append_right _ List.mem_cons_self
  have hread := read_collected hfs.toWellFormed hpresent hp
    ((Attempt.frame_runAll s clock hfs.single hfirst).mono fun place ⟨b, _, _, hplace⟩ => ⟨_, hplace⟩)
  rw [convertFile, convertFile, hread]

/-- A component that a batch reports as a success has its bundle on disk, with its own
template, record and notes, if no later component that was converted has the same bundle name. -/
theorem bundle_kept {e : Environment} {o : Options} {fs : FileSystem} {r : Report} (hfs : fs.Tree)
    (h : (run e o fs).outcome = .ok r) (hreal : o.dryRun = false)
    {before after : List Attempt} {a : Attempt} (hsplit : r.attempts = before ++ a :: after)
    (hsuccess : a.row.status = "Success".toList)
    (hlast : ∀ b ∈ after, b.outcome.conversion?.isSome → Bundle.name b.name ≠ Bundle.name a.name) :
    ∃ m c, (loadMapping e.readYaml fs o.mappingFile).outcome = .ok m ∧
      (convertFile m fs a.path).outcome = .ok c ∧
      ∀ f ∈ Bundle.files a.name c,
        (run e o fs).files.read ((Bundle.directory (.ofText o.output) a.name).child f.1) =
          .ok (Utf8.encode f.2) := by
  rcases run_cases h with ⟨exit, notice, rfl, -⟩ | ⟨m, hpresent, hm, rfl, hleft⟩
  · simp [stop] at hsplit
  · let s : Setting := ⟨m, .ofText o.output, o.dryRun⟩
    obtain ⟨first, p, last, moments, later, hpaths, rfl, rfl, hfiles⟩ :=
      Attempt.runAll_split hsplit
    have hp : '/' ∉ p.stem :=
      slash_notMem_stem hfs.toWellFormed (hpaths ▸ List.mem_append_right _ List.mem_cons_self)
    have hfirst : ∀ q ∈ first, '/' ∉ q.stem := fun q hq =>
      slash_notMem_stem hfs.toWellFormed (hpaths ▸ List.mem_append_left _ hq)
    have hlater : ∀ q ∈ last, '/' ∉ q.stem := fun q hq =>
      slash_notMem_stem hfs.toWellFormed (hpaths ▸ List.mem_append_right _ (List.mem_cons_of_mem _ hq))
    let met := (Attempt.runAll s e.clock first fs).2
    have hmet : met.links = [] :=
      (Attempt.frame_runAll s e.clock hfs.single hfirst).links.trans hfs.single
    have hname : (Attempt.run s moments p met).1.name = p.stem := congrArg Path.stem Attempt.path_run
    have hraised : Attempt.raised? s p met = none := by
      rw [← Attempt.failure?_run s moments]
      exact Attempt.failure?_of_status hsuccess
    obtain ⟨c, hc, hwritten⟩ := Attempt.read_run moments hmet hp hreal hraised
    rw [convertFile_met hfs hpresent hpaths] at hc
    refine ⟨m, c, hm, Attempt.path_run ▸ hc, ?_⟩
    rw [hname] at hlast ⊢
    rw [hleft, hfiles]
    have hleftSingle := (Attempt.frame_run s moments hmet hp).links.trans hmet
    exact fun f hf => Attempt.read_runAll hp hf hleftSingle hlater hlast (hwritten f hf)

def twoDirectories (other : String) : FileSystem :=
  systemOf [("a/Card.cmp", "<aura:component>one</aura:component>"),
    ("b/" ++ other, "<aura:component>two</aura:component>")]

theorem bundle_kept_card :
    let fs := twoDirectories "Panel.cmp"
    let done := run stillEnvironment (plainOptions ["a", "b"]) fs
    ∃ r before a after, fs.Tree ∧ done.outcome = .ok r ∧ r.attempts = before ++ a :: after ∧
      a.path.text = "a/Card.cmp".toList ∧
      ∃ m c, (loadMapping stillEnvironment.readYaml fs none).outcome = .ok m ∧
        (convertFile m fs a.path).outcome = .ok c ∧ ∀ f ∈ Bundle.files a.name c,
          done.files.read ((Bundle.directory (.ofText "./output".toList) a.name).child f.1) =
            .ok (Utf8.encode f.2) := by
  intro fs done
  have hfs : fs.Tree := ⟨⟨by decide +kernel, by decide +kernel⟩, rfl⟩
  have hrun : done.outcome.toOption.any (fun r =>
      r.attempts.map (fun a => (a.path.text, a.row.status, Bundle.name a.name)) ==
        [("a/Card.cmp".toList, "Success".toList, "card".toList),
          ("b/Panel.cmp".toList, "Success".toList, "panel".toList)]) = true := by decide +kernel
  obtain ⟨r, hr, hattempts⟩ := exists_ok_of_any hrun
  obtain ⟨a, rest, hsplit, ha, hrest⟩ := List.map_eq_cons_iff.1 (eq_of_beq hattempts)
  obtain ⟨b, after, rfl, hb, hafter⟩ := List.map_eq_cons_iff.1 hrest
  obtain rfl := List.map_eq_nil_iff.1 hafter
  simp only [Prod.mk.injEq] at ha hb
  have hsplit' : r.attempts = [] ++ a :: [b] := hsplit
  refine ⟨r, [], a, [b], hfs, hr, hsplit', ha.1, ?_⟩
  refine bundle_kept hfs hr rfl hsplit' ha.2.1 fun b' hb' _ => ?_
  rw [List.mem_singleton.1 hb', hb.2.2, ha.2.2]
  decide

/-- Two components with one name: both are reported as successes, and no file holds the
template of the first. -/
theorem sameName_overwrites :
    let fs := twoDirectories "Card.cmp"
    let done := run stillEnvironment (plainOptions ["a", "b"]) fs
    ∃ r c, done.outcome = .ok r ∧
      r.attempts.map (fun a => (a.path.text, a.row.status)) =
        [("a/Card.cmp".toList, "Success".toList), ("b/Card.cmp".toList, "Success".toList)] ∧
      (convertFile .builtIn fs (.ofText "a/Card.cmp".toList)).outcome = .ok c ∧
      ∀ e ∈ done.files.entries, e.2 ≠ .file (Utf8.encode c.template) := by
  intro fs done
  let template := "<template>\n    one\n</template>".toList
  have hconvert : (convertFile .builtIn fs (.ofText "a/Card.cmp".toList)).outcome.toOption.any
      (·.template == template) = true := by decide +kernel
  have hrun : done.outcome.toOption.any (fun r => r.attempts.map (fun a => (a.path.text, a.row.status)) ==
          [("a/Card.cmp".toList, "Success".toList), ("b/Card.cmp".toList, "Success".toList)] &&
        done.files.entries.all fun e => e.2 != .file (Utf8.encode template)) = true := by
    decide +kernel
  obtain ⟨r, hr, hreport⟩ := exists_ok_of_any hrun
  obtain ⟨c, hc, htemplate⟩ := exists_ok_of_any hconvert
  rw [Bool.and_eq_true, List.all_eq_true] at hreport
  refine ⟨r, c, hr, eq_of_beq hreport.1, hc, fun e he => ?_⟩
  rw [eq_of_beq htemplate]
  exact bne_iff_ne.1 (hreport.2 e he)

end Batch
end LightningTemplate
