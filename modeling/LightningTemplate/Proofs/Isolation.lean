import LightningTemplate.Proofs.Confined

/-! Components of one batch leave each other alone.  With different bundle names, each attempt
comes out as it would if its component were the only one, but for the time, whatever became
of the others.  What the turns share is the output directory: where it can be made, it does
not matter which of them makes it; where it cannot, every one of them fails to write. -/
namespace LightningTemplate
open Text FileSystem

namespace Bundle
open FileAction
variable {output : Path} {component : Text} {fs made : FileSystem}

/-- Writing goes as if the output directory had been made before, unless it does nothing at all. -/
theorem write_made (hs : fs.links = []) (hname : IsOwn (name component))
    (hmade : (ensureDirectory output).run fs = .ok () made) (c : Conversion) :
    (write output component c).run fs = (write output component c).run made ∨
      ∃ f, (write output component c).run fs = .error f fs ∧
        (write output component c).run made = .error f made := by
  rw [write, EStateM.run_bind, EStateM.run_bind, directory, child_of_isOwn hname]
  rcases ensureDirectory_child hs hmade (name component) with h | ⟨f, hfs, hafter⟩
  · rw [h]
    exact .inl rfl
  · rw [hfs, hafter]
    exact .inr ⟨f, rfl, rfl⟩

/-- Where the output directory cannot be made, writing fails and leaves directories at most. -/
theorem write_fails (hs : fs.links = []) (hname : IsOwn (name component))
    (hnone : ∀ made, (ensureDirectory output).run fs ≠ .ok () made) (h : Grows fs made)
    (c : Conversion) : ∃ f, (write output component c).result made = .error f ∧
      Grows fs ((write output component c).filesAfter made) := by
  have hgrows : Grows fs ((ensureDirectory (output.below [name component])).filesAfter made) :=
    h.trans (grows_ensureDirectory (h.links.trans hs) _)
  rw [write, result_bind, filesAfter_bind, directory, child_of_isOwn hname]
  cases hrun : (ensureDirectory (output.below [name component])).run made with
  | error f after =>
    rw [filesAfter, hrun] at hgrows
    simp only [result, filesAfter, hrun]
    exact ⟨f, rfl, hgrows⟩
  | ok _ after =>
    rw [filesAfter, hrun] at hgrows
    obtain ⟨made', hmade', -⟩ := exists_made hgrows (find_above (find_of_ensureDirectory hrun))
    exact absurd hmade' (hnone made')

end Bundle

theorem Path.stem_ne_nil {p : Path} (h : p.name ≠ []) : p.stem ≠ [] := by
  rw [stem, splitName]
  split
  · split
    · exact h
    · simp
  · exact h

theorem Bundle.name_ne_nil {component : Text} (h : component ≠ []) : name component ≠ [] := by
  cases component with
  | nil => exact absurd rfl h
  | cons c cs => simp [name, uncapitalize, lower_ne_nil]

namespace Batch
namespace Attempt
variable {s : Setting} {p : Path} {converted : Path → Logged Failure Conversion}
  {clock : Clock} {moments moments' : Moments}

def outcomeOf (c : Conversion) : Except FileFault Path → Outcome
  | .ok bundle => .written c bundle
  | .error f => .unwritten c f

/-- The turn of a component whose conversion has come out. -/
def finish (s : Setting) (converted : Path → Logged Failure Conversion) (moments : Moments)
    (p : Path) (fs : FileSystem) : Attempt × FileSystem :=
  match (converted p).outcome with
  | .error f => (⟨p, .unconverted f, (converted p).log, moments⟩, fs)
  | .ok c =>
    if s.dryRun then (⟨p, .previewed c, (converted p).log, moments⟩, fs)
    else
      (⟨p, outcomeOf c ((Bundle.write s.output p.stem c).result fs), (converted p).log, moments⟩,
        (Bundle.write s.output p.stem c).filesAfter fs)

def finishAll (s : Setting) (converted : Path → Logged Failure Conversion) (clock : Clock) :
    List Path → FileSystem → List Attempt × FileSystem
  | [], fs => ([], fs)
  | p :: ps, fs =>
    let first := finish s converted (clock 0) p fs
    let rest := finishAll s converted clock.later ps first.2
    (first.1 :: rest.1, rest.2)

theorem run_eq_finish (moments : Moments) (fs : FileSystem)
    (h : convertFile s.mapping fs p = converted p) :
    run s moments p fs = finish s converted moments p fs := by
  rw [run, finish, h]
  cases (converted p).outcome with
  | error f => rfl
  | ok c =>
    dsimp only
    split
    · rfl
    · rw [FileAction.run_eq]
      cases (Bundle.write s.output p.stem c).result fs <;> rfl

theorem path_finish (fs : FileSystem) : (finish s converted moments p fs).1.path = p := by
  simp only [finish]
  split
  · rfl
  · split <;> rfl

/-- A turn writes nothing and comes out the same everywhere, or it writes a bundle. -/
theorem finish_cases (s : Setting) (converted : Path → Logged Failure Conversion) (p : Path) :
    (∃ a : Attempt, ∀ moments fs, finish s converted moments p fs = ({ a with moments }, fs)) ∨
      ∃ c, ∀ moments fs, finish s converted moments p fs =
        (⟨p, outcomeOf c ((Bundle.write s.output p.stem c).result fs), (converted p).log, moments⟩,
          (Bundle.write s.output p.stem c).filesAfter fs) := by
  simp only [finish]
  cases (converted p).outcome with
  | error f => exact .inl ⟨⟨p, .unconverted f, (converted p).log, ⟨0, 0, 0⟩⟩, fun _ _ => rfl⟩
  | ok c =>
    dsimp only
    split
    · exact .inl ⟨⟨p, .previewed c, (converted p).log, ⟨0, 0, 0⟩⟩, fun _ _ => rfl⟩
    · exact .inr ⟨c, fun _ _ => rfl⟩

theorem finishAll_append (s : Setting) (converted : Path → Logged Failure Conversion)
    (clock : Clock) (first : List Path) (p : Path) (last : List Path) (fs : FileSystem) :
    ∃ later : Clock, finishAll s converted clock (first ++ p :: last) fs =
      let before := finishAll s converted clock first fs
      let turn := finish s converted (clock first.length) p before.2
      let after := finishAll s converted later last turn.2
      (before.1 ++ turn.1 :: after.1, after.2) := by
  induction first generalizing clock fs with
  | nil => exact ⟨_, rfl⟩
  | cons q first ih =>
    obtain ⟨later, hlater⟩ := ih clock.later (finish s converted (clock 0) q fs).2
    exact ⟨later, by simp only [List.cons_append, finishAll, hlater]; rfl⟩

def SameButTime (a b : Attempt) : Prop := a.untimed = b.untimed

variable (converted)

section there
variable {place : Location} {fs fs' : FileSystem}

/-- The component's name gives its bundle a directory of its own. -/
def HasOwn (p : Path) : Prop := '/' ∉ p.stem ∧ Bundle.IsOwn (Bundle.name p.stem)

theorem finish_leads (moments : Moments) (hp : HasOwn p) (h : LeadsTo fs s.output place) :
    LeadsTo (finish s converted moments p fs).2 s.output place := by
  rcases finish_cases s converted p with ⟨a, ha⟩ | ⟨c, hc⟩
  · rw [ha]
    exact h
  · rw [hc]
    exact (Bundle.confined_write hp.1 hp.2 c).leads fs h

theorem finish_apart (moments : Moments) (hp : HasOwn p) (h : LeadsTo fs s.output place)
    {other : Text} (hne : other ≠ Bundle.name p.stem) :
    AlikeUnder place other fs (finish s converted moments p fs).2 := by
  rcases finish_cases s converted p with ⟨a, ha⟩ | ⟨c, hc⟩
  · rw [ha]
    exact .refl place other fs
  · rw [hc]
    exact (Bundle.confined_write hp.1 hp.2 c).apart fs h other hne

theorem finish_alike (moments moments' : Moments) (hp : HasOwn p) (h : LeadsTo fs s.output place)
    (h' : LeadsTo fs' s.output place) (halike : AlikeUnder place (Bundle.name p.stem) fs fs') :
    SameButTime (finish s converted moments p fs).1 (finish s converted moments' p fs').1 ∧
      AlikeUnder place (Bundle.name p.stem) (finish s converted moments p fs).2
        (finish s converted moments' p fs').2 := by
  rcases finish_cases s converted p with ⟨a, ha⟩ | ⟨c, hc⟩
  · rw [ha, ha]
    exact ⟨rfl, halike⟩
  · have hconfined : FileAction.Confined s.output place _ (Bundle.write s.output p.stem c) :=
      Bundle.confined_write hp.1 hp.2 c
    rw [hc, hc, hconfined.result_eq fs fs' h h' halike]
    exact ⟨rfl, hconfined.alike fs fs' h h' halike⟩

/-- Turns of other components leave what stands under a bundle's name. -/
theorem finishAll_apart (clock : Clock) {ps : List Path} (hps : ∀ q ∈ ps, HasOwn q)
    (h : LeadsTo fs s.output place) {other : Text} (hne : ∀ q ∈ ps, other ≠ Bundle.name q.stem) :
    LeadsTo (finishAll s converted clock ps fs).2 s.output place ∧
      AlikeUnder place other fs (finishAll s converted clock ps fs).2 := by
  induction ps generalizing clock fs with
  | nil => exact ⟨h, .refl place other fs⟩
  | cons q ps ih =>
    rw [List.forall_mem_cons] at hps hne
    obtain ⟨hleads, halike⟩ := ih clock.later hps.2 (finish_leads converted (clock 0) hps.1 h) hne.2
    exact ⟨hleads, (finish_apart converted (clock 0) hps.1 h hne.1).trans halike⟩

/-- Between other components, a turn comes out as it does alone. -/
theorem finish_between (clock : Clock) (moments' : Moments) {first last : List Path}
    (hps : ∀ q ∈ first ++ p :: last, HasOwn q) (hne : ∀ q ∈ first ++ last, Bundle.name p.stem ≠ Bundle.name q.stem)
    (h : LeadsTo fs s.output place) :
    let before := finishAll s converted clock first fs
    SameButTime (finish s converted (clock first.length) p before.2).1
        (finish s converted moments' p fs).1 ∧
      LeadsTo (finishAll s converted clock (first ++ p :: last) fs).2 s.output place ∧
      AlikeUnder place (Bundle.name p.stem)
        (finishAll s converted clock (first ++ p :: last) fs).2
        (finish s converted moments' p fs).2 := by
  intro before
  rw [List.forall_mem_append, List.forall_mem_cons] at hps
  rw [List.forall_mem_append] at hne
  obtain ⟨hfirst, hp, hlast⟩ := hps
  obtain ⟨hleads, halike⟩ := finishAll_apart converted clock hfirst h hne.1
  obtain ⟨hturn, hafter⟩ :=
    finish_alike converted (clock first.length) moments' hp hleads h halike.symm
  obtain ⟨later, hlater⟩ := finishAll_append s converted clock first p last fs
  obtain ⟨hend, hrest⟩ := finishAll_apart converted later hlast
    (finish_leads converted (clock first.length) hp hleads) hne.2
  rw [hlater]
  exact ⟨hturn, hend, hrest.symm.trans hafter⟩

end there

section made
variable {fs made x y : FileSystem}

/-- The second state is the first with the output directory made, if nothing is written yet. -/
def Behind (fs made x y : FileSystem) : Prop := x = y ∨ x = fs ∧ y = made

theorem Behind.grows (hs : fs.links = [])
    (hmade : (FileAction.ensureDirectory s.output).run fs = .ok () made)
    (h : Behind fs made x y) : Grows x y := by
  rcases h with rfl | ⟨rfl, rfl⟩
  · exact .refl _ _
  · exact FileAction.grows_of_ensureDirectory hs hmade

theorem finish_behind (moments : Moments) (hs : fs.links = []) (hp : HasOwn p)
    (hmade : (FileAction.ensureDirectory s.output).run fs = .ok () made) (h : Behind fs made x y) :
    (finish s converted moments p x).1 = (finish s converted moments p y).1 ∧
      Behind fs made (finish s converted moments p x).2 (finish s converted moments p y).2 := by
  rcases h with rfl | ⟨rfl, rfl⟩
  · exact ⟨rfl, .inl rfl⟩
  · rcases finish_cases s converted p with ⟨a, ha⟩ | ⟨c, hc⟩
    · rw [ha, ha]
      exact ⟨rfl, .inr ⟨rfl, rfl⟩⟩
    · rw [hc, hc]
      rcases Bundle.write_made hs hp.2 hmade c with hrun | ⟨f, hx, hy⟩
      · simp only [FileAction.result, FileAction.filesAfter, hrun]
        exact ⟨trivial, .inl rfl⟩
      · simp only [FileAction.result, FileAction.filesAfter, hx, hy]
        exact ⟨trivial, .inr ⟨rfl, rfl⟩⟩

theorem finishAll_behind (clock : Clock) (hs : fs.links = []) {ps : List Path} (hps : ∀ q ∈ ps, HasOwn q)
    (hmade : (FileAction.ensureDirectory s.output).run fs = .ok () made) (h : Behind fs made x y) :
    (finishAll s converted clock ps x).1 = (finishAll s converted clock ps y).1 ∧
      Behind fs made (finishAll s converted clock ps x).2
        (finishAll s converted clock ps y).2 := by
  induction ps generalizing clock x y with
  | nil => exact ⟨rfl, h⟩
  | cons q ps ih =>
    rw [List.forall_mem_cons] at hps
    obtain ⟨hfirst, hbehind⟩ := finish_behind converted (clock 0) hs hps.1 hmade h
    obtain ⟨hrest, hafter⟩ := ih clock.later hps.2 hbehind
    exact ⟨congrArg₂ List.cons hfirst hrest, hafter⟩

end made

section none
variable {fs x y : FileSystem}

theorem finish_grows (moments : Moments) (hs : fs.links = []) (hp : HasOwn p)
    (hnone : ∀ made, (FileAction.ensureDirectory s.output).run fs ≠ .ok () made) (h : Grows fs x) :
    Grows fs (finish s converted moments p x).2 := by
  rcases finish_cases s converted p with ⟨a, ha⟩ | ⟨c, hc⟩
  · rw [ha]
    exact h
  · rw [hc]
    obtain ⟨f, -, hgrows⟩ := Bundle.write_fails hs hp.2 hnone h c
    exact hgrows

theorem finishAll_grows (clock : Clock) (hs : fs.links = []) {ps : List Path} (hps : ∀ q ∈ ps, HasOwn q)
    (hnone : ∀ made, (FileAction.ensureDirectory s.output).run fs ≠ .ok () made) (h : Grows fs x) :
    Grows fs (finishAll s converted clock ps x).2 := by
  induction ps generalizing clock x with
  | nil => exact h
  | cons q ps ih =>
    rw [List.forall_mem_cons] at hps
    exact ih clock.later hps.2 (finish_grows converted (clock 0) hs hps.1 hnone h)

/-- Both attempts are the same but for the clock, or both fail to write the same conversion. -/
def SameButFault (a b : Attempt) : Prop :=
  SameButTime a b ∨ ∃ c f f', a.outcome = .unwritten c f ∧
    SameButTime { a with outcome := .unwritten c f' } b

theorem finish_sameButFault (hs : fs.links = []) (hp : HasOwn p)
    (hnone : ∀ made, (FileAction.ensureDirectory s.output).run fs ≠ .ok () made) (hx : Grows fs x)
    (hy : Grows fs y) :
    SameButFault (finish s converted moments p x).1 (finish s converted moments' p y).1 := by
  rcases finish_cases s converted p with ⟨a, ha⟩ | ⟨c, hc⟩
  · rw [ha, ha]
    exact .inl rfl
  · obtain ⟨f, hf, -⟩ := Bundle.write_fails hs hp.2 hnone hx c
    obtain ⟨f', hf', -⟩ := Bundle.write_fails hs hp.2 hnone hy c
    rw [hc, hc, hf, hf']
    exact .inr ⟨c, f, f', rfl, rfl⟩

end none

section any
variable {fs : FileSystem} {first last : List Path}

def SameFiles (output : Path) (name : Text) (fs fs' : FileSystem) : Prop :=
  ∀ place, fs.locate output = .ok place ∨ fs'.locate output = .ok place → ∀ steps octets,
    fs.entryAt? (place ++ name :: steps) = some (.file octets) ↔
      fs'.entryAt? (place ++ name :: steps) = some (.file octets)

theorem turn_where_made (hps : ∀ q ∈ first ++ p :: last, HasOwn q)
    (hne : ∀ q ∈ first ++ last, Bundle.name p.stem ≠ Bundle.name q.stem) {made : FileSystem}
    (hs : fs.links = []) (hi : fs.Impartial)
    (hmade : (FileAction.ensureDirectory s.output).run fs = .ok () made) :
    SameButTime (finish s converted (clock first.length) p (finishAll s converted clock first fs).2).1
        (finish s converted moments' p fs).1 ∧
      SameFiles s.output (Bundle.name p.stem)
        (finishAll s converted clock (first ++ p :: last) fs).2
        (finish s converted moments' p fs).2 := by
  have hmadeGrows := FileAction.grows_of_ensureDirectory hs hmade
  obtain ⟨place, hleads⟩ := exists_leadsTo (hmadeGrows.links.trans hs) (hmadeGrows.impartial hi)
    (FileAction.find_of_ensureDirectory hmade)
  -- turns keep apart once the directory is there, so they are compared from where it was made
  obtain ⟨hturn, hend, halike⟩ := finish_between converted clock moments' hps hne hleads
  have hstart : Behind fs made fs made := .inr ⟨rfl, rfl⟩
  have hfirst : ∀ q ∈ first, HasOwn q := fun q hq => hps q (List.mem_append_left _ hq)
  have hp : HasOwn p := hps p (by simp)
  -- and each run from the files as they were stays behind the one from there
  obtain ⟨-, hbefore⟩ := finishAll_behind converted clock hs hfirst hmade hstart
  obtain ⟨hmet, -⟩ := finish_behind converted (clock first.length) hs hp hmade hbefore
  obtain ⟨halone, haloneFiles⟩ := finish_behind converted moments' hs hp hmade hstart
  obtain ⟨-, hfiles⟩ := finishAll_behind converted clock hs hps hmade hstart
  have haloneLeads := finish_leads converted moments' hp hleads
  refine ⟨by rwa [hmet, halone], fun found hl steps octets => ?_⟩
  have hgrows := hfiles.grows hs hmade
  have haloneGrows := haloneFiles.grows hs hmade
  obtain rfl : found = place := by
    rcases hl with hl | hl
    · exact Except.ok.inj ((hgrows.locate_ok hl).symm.trans hend.located)
    · exact Except.ok.inj ((haloneGrows.locate_ok hl).symm.trans haloneLeads.located)
  rw [← hgrows.file _ octets id, halike.entry steps, haloneGrows.file _ octets id]

theorem turn_where_not_made (hs : fs.links = []) (hps : ∀ q ∈ first ++ p :: last, HasOwn q)
    (hnone : ∀ made, (FileAction.ensureDirectory s.output).run fs ≠ .ok () made) :
    SameButFault (finish s converted moments p (finishAll s converted clock first fs).2).1
        (finish s converted moments' p fs).1 ∧
      SameFiles s.output (Bundle.name p.stem)
        (finishAll s converted clock (first ++ p :: last) fs).2
        (finish s converted moments' p fs).2 := by
  have hstart : Grows fs fs := .refl _ fs
  have hfirst : ∀ q ∈ first, HasOwn q := fun q hq => hps q (List.mem_append_left _ hq)
  have hp : HasOwn p := hps p (by simp)
  refine ⟨finish_sameButFault converted hs hp hnone
    (finishAll_grows converted clock hs hfirst hnone hstart) hstart, fun found _ steps octets => ?_⟩
  rw [(finishAll_grows converted clock hs hps hnone hstart).file _ octets id,
    (finish_grows converted moments' hs hp hnone hstart).file _ octets id]

end any

end Attempt

variable {e : Environment} {o : Options} {fs : FileSystem} {paths : List Text} {m : Mapping} {p : Path}

theorem hasOwn_of_collected (hfs : fs.WellFormed) (hp : p ∈ collect fs paths)
    (hdot : Bundle.name p.stem ≠ ['.']) (hup : Bundle.name p.stem ≠ Path.upStep) :
    Attempt.HasOwn p := by
  have hslash := slash_notMem_stem hfs hp
  exact ⟨hslash, Bundle.slash_notMem_name hslash,
    Bundle.name_ne_nil (Path.stem_ne_nil (name_ne_nil hp)), hdot, hup⟩

theorem runAll_eq_finishAll (hfs : fs.Tree) (hpresent : firstMissing? fs paths = .ok none)
    (s : Setting) (clock : Clock) {ps : List Path} (hps : ∀ q ∈ ps, q ∈ collect fs paths) {met : FileSystem}
    (hframe : Frame (fun place => ∃ b, Bundle.IsPlace b place) fs met) :
    Attempt.runAll s clock ps met =
      Attempt.finishAll s (convertFile s.mapping fs) clock ps met := by
  induction ps generalizing clock met with
  | nil => rfl
  | cons q ps ih =>
    rw [List.forall_mem_cons] at hps
    have hconvert : convertFile s.mapping met q = convertFile s.mapping fs q := by
      rw [convertFile, convertFile, read_collected hfs.toWellFormed hpresent hps.1 hframe]
    have hturn : Frame _ met (Attempt.run s (clock 0) q met).2 :=
      Attempt.frame_run s (clock 0) (hframe.links.trans hfs.single)
        (slash_notMem_stem hfs.toWellFormed hps.1)
    have hafter := hframe.trans (hturn.mono fun place htouched => ⟨_, htouched.2⟩)
    rw [Attempt.run_eq_finish _ met hconvert] at hafter
    rw [Attempt.runAll, Attempt.finishAll, Attempt.run_eq_finish _ met hconvert,
      ih clock.later hps.2 hafter]

theorem paths_runAll (s : Setting) (clock : Clock) (ps : List Path) (fs : FileSystem) :
    (Attempt.runAll s clock ps fs).1.map (·.path) = ps := by
  induction ps generalizing clock fs with
  | nil => rfl
  | cons q ps ih => rw [Attempt.runAll, List.map_cons, Attempt.path_run, ih]

theorem run_of_collected (hpresent : firstMissing? fs o.paths = .ok none)
    (hm : (loadMapping e.readYaml fs o.mappingFile).outcome = .ok m)
    (hp : p ∈ collect fs o.paths) :
    let done := Attempt.runAll ⟨m, .ofText o.output, o.dryRun⟩ e.clock (collect fs o.paths) fs
    (run e o fs).outcome = .ok (reportOn o (collect fs o.paths) done.1) ∧
      (run e o fs).files = done.2 := by
  rw [run_of_present hpresent hm]
  cases hpaths : collect fs o.paths with
  | nil => simp [hpaths] at hp
  | cons q qs => exact ⟨rfl, rfl⟩

/-- In a batch with different bundle names, all of them names of directories of their own, the
attempts stand in the order of the collected files, and the attempt on each, which its row and
its lines on the console are taken from, is but for the time the one that it gets alone, with
the same files for its bundle.  Only where the output directory cannot be made, so that the
writing fails both times, may the words of the two faults differ. -/
theorem components_isolated (clock : Clock) (hfs : fs.Tree) (hi : fs.Impartial)
    (hpresent : firstMissing? fs o.paths = .ok none)
    (hm : (loadMapping e.readYaml fs o.mappingFile).outcome = .ok m)
    (hnames : ((collect fs o.paths).map fun q => Bundle.name q.stem).Nodup)
    (hown : ∀ q ∈ collect fs o.paths,
      Bundle.name q.stem ≠ ['.'] ∧ Bundle.name q.stem ≠ Path.upStep)
    (hp : p ∈ collect fs o.paths) :
    ∃ attempts a b,
      let alone := Attempt.runAll ⟨m, .ofText o.output, o.dryRun⟩ clock [p] fs
      (run e o fs).outcome = .ok (reportOn o (collect fs o.paths) attempts) ∧
        attempts.map (·.path) = collect fs o.paths ∧ a ∈ attempts ∧ a.path = p ∧ alone.1 = [b] ∧
        (Attempt.SameButTime a b ∨ Attempt.SameButFault a b ∧
          ∀ made, (FileAction.ensureDirectory (.ofText o.output)).run fs ≠ .ok () made) ∧
        Attempt.SameFiles (.ofText o.output) (Bundle.name p.stem) (run e o fs).files alone.2 := by
  obtain ⟨first, last, hsplit⟩ := List.append_of_mem hp
  have hps : ∀ q ∈ first ++ p :: last, Attempt.HasOwn q := by
    rw [← hsplit]
    exact fun q hq => hasOwn_of_collected hfs.toWellFormed hq (hown q hq).1 (hown q hq).2
  have hne : ∀ q ∈ first ++ last, Bundle.name p.stem ≠ Bundle.name q.stem := by
    rw [hsplit, List.map_append, List.map_cons] at hnames
    have hnotMem := (List.nodup_middle.1 hnames).notMem
    rw [← List.map_append] at hnotMem
    exact fun q hq h => hnotMem (List.mem_map.2 ⟨q, hq, h.symm⟩)
  let s : Setting := ⟨m, .ofText o.output, o.dryRun⟩
  let converted := convertFile m fs
  have hall : Attempt.runAll s e.clock (collect fs o.paths) fs =
      Attempt.finishAll s converted e.clock (first ++ p :: last) fs := by
    rw [← hsplit]
    exact runAll_eq_finishAll hfs hpresent s e.clock (fun q hq => hq) (.refl _ fs)
  have halone : Attempt.run s (clock 0) p fs = Attempt.finish s converted (clock 0) p fs :=
    Attempt.run_eq_finish _ fs rfl
  obtain ⟨houtcome, hfiles⟩ := run_of_collected hpresent hm hp
  obtain ⟨later, hlater⟩ := Attempt.finishAll_append s converted e.clock first p last fs
  let turn := Attempt.finish s converted (e.clock first.length) p
    (Attempt.finishAll s converted e.clock first fs).2
  refine ⟨(Attempt.runAll s e.clock (collect fs o.paths) fs).1, turn.1,
    (Attempt.finish s converted (clock 0) p fs).1, houtcome, paths_runAll s _ _ fs, ?_, Attempt.path_finish _,
    congrArg (fun r : Attempt × FileSystem => [r.1]) halone, ?_⟩
  · rw [hall, hlater]
    simp [turn]
  · have hfilesAlone : (Attempt.runAll s clock [p] fs).2 =
        (Attempt.finish s converted (clock 0) p fs).2 := congrArg Prod.snd halone
    rw [hfiles, hall, hfilesAlone]
    by_cases hmade : ∃ made, (FileAction.ensureDirectory s.output).run fs = .ok () made
    · obtain ⟨made, hmade⟩ := hmade
      obtain ⟨hturn, hsame⟩ :=
        Attempt.turn_where_made converted hps hne hfs.single hi hmade
      exact ⟨.inl hturn, hsame⟩
    · have hnone := not_exists.1 hmade
      obtain ⟨hturn, hsame⟩ := Attempt.turn_where_not_made converted hfs.single hps hnone
      exact ⟨.inr ⟨hturn, hnone⟩, hsame⟩

/-- A component whose element is not closed, and one that comes after it. -/
def besideBroken : FileSystem :=
  systemOf [("Broken.cmp", "<aura:component>"), ("Card.cmp", "<aura:component>a</aura:component>")]

theorem components_isolated_card :
    let fs := besideBroken
    let o := plainOptions ["Broken.cmp", "Card.cmp"]
    let paths := collect fs o.paths
    let p := Path.ofText "Card.cmp".toList
    let e := stillEnvironment
    fs.Tree ∧ fs.Impartial ∧ firstMissing? fs o.paths = .ok none ∧
      (loadMapping e.readYaml fs o.mappingFile).outcome = .ok .builtIn ∧
      (paths.map fun q => Bundle.name q.stem).Nodup ∧
      (∀ q ∈ paths, Bundle.name q.stem ≠ ['.'] ∧ Bundle.name q.stem ≠ Path.upStep) ∧ p ∈ paths ∧
      ∃ attempts a b,
        let alone := Attempt.runAll ⟨.builtIn, .ofText o.output, o.dryRun⟩ Clock.still [p] fs
        (run e o fs).outcome = .ok (reportOn o paths attempts) ∧
          attempts.map (·.path) = paths ∧ a ∈ attempts ∧ a.path = p ∧ alone.1 = [b] ∧
          (Attempt.SameButTime a b ∨ Attempt.SameButFault a b ∧
            ∀ made, (FileAction.ensureDirectory (.ofText o.output)).run fs ≠ .ok () made) ∧
          Attempt.SameFiles (.ofText o.output) (Bundle.name p.stem) (run e o fs).files alone.2 := by
  intro fs o paths p e
  have hfs : fs.Tree := ⟨⟨by decide +kernel, by decide +kernel⟩, rfl⟩
  have hi : fs.Impartial := fun _ _ => rfl
  have hpresent : firstMissing? fs o.paths = .ok none := by decide +kernel
  have hm : (loadMapping e.readYaml fs o.mappingFile).outcome = .ok .builtIn := rfl
  have hnames : (paths.map fun q => Bundle.name q.stem).Nodup := by decide +kernel
  have hown : ∀ q ∈ paths, Bundle.name q.stem ≠ ['.'] ∧ Bundle.name q.stem ≠ Path.upStep := by
    decide +kernel
  have hp : p ∈ paths := by decide +kernel
  exact ⟨hfs, hi, hpresent, hm, hnames, hown, hp,
    components_isolated Clock.still hfs hi hpresent hm hnames hown hp⟩

/-- The bundle names of a batch that comes to its end, each with what went wrong. -/
def messagesOf (output : String) (paths : List String) (fs : FileSystem) :
    Option (List (Text × Option Text)) :=
  let options := { plainOptions paths with output := output.toList }
  (run stillEnvironment options fs).outcome.toOption.map fun r =>
    r.attempts.map fun a => (Bundle.name a.name, a.outcome.failure?)

/-- Two components, and a file that stands in the way of the output directory. -/
def besideFile : FileSystem :=
  systemOf [("a.cmp", "<aura:component>one</aura:component>"),
    ("b.cmp", "<aura:component>two</aura:component>"), ("f", "")]

/-- Components whose bundles go to the output directory itself or above it, each with a
component whose bundle is named like a file of the first. -/
def besideDots : FileSystem :=
  systemOf [("..cmp", "<aura:component>one</aura:component>"),
    ("..html.cmp", "<aura:component>two</aura:component>"),
    ("...cmp", "<aura:component>one</aura:component>"),
    ("...html.cmp", "<aura:component>two</aura:component>")]

/-- Two components on a device that has room for seven entries. -/
def besideFull : FileSystem :=
  { systemOf [("a.cmp", "<aura:component>one</aura:component>"),
      ("b.cmp", "<aura:component>two</aura:component>")] with
    device := fun entries _ _ =>
      if entries.length ≤ 7 then none else some ⟨0, "[Errno 28] No space left on device".toList⟩ }

/-- Bundles with different names that do not leave each other alone. -/
theorem components_not_isolated :
    messagesOf "new/../f/x" ["b.cmp"] besideFile = some
        [("b".toList, some "[Errno 17] File exists: 'new/../f'".toList)] ∧
      messagesOf "new/../f/x" ["a.cmp", "b.cmp"] besideFile = some
        [("a".toList, some "[Errno 17] File exists: 'new/../f'".toList),
          ("b".toList, some "[Errno 20] Not a directory: 'new/../f/x/b'".toList)] ∧
      messagesOf "out" ["..html.cmp"] besideDots = some [("..html".toList, none)] ∧
      messagesOf "out" ["..cmp", "..html.cmp"] besideDots = some
        [(".".toList, none), ("..html".toList, some "[Errno 17] File exists: 'out/..html'".toList)] ∧
      messagesOf "/" ["...html.cmp"] besideDots = some [("...html".toList, none)] ∧
      messagesOf "/" ["...cmp", "...html.cmp"] besideDots = some
        [("..".toList, none), ("...html".toList, some "[Errno 17] File exists: '/...html'".toList)] ∧
      messagesOf "output" ["b.cmp"] linkedFiles = some [("b".toList, none)] ∧
      messagesOf "output" ["a.cmp", "b.cmp"] linkedFiles = some
        [("a".toList, none), ("b".toList, some "No <aura:component> found in markup for b".toList)] ∧
      messagesOf "out" ["b.cmp"] besideFull = some [("b".toList, none)] ∧
      messagesOf "out" ["a.cmp", "b.cmp"] besideFull = some
        [("a".toList, none), ("b".toList, some "[Errno 28] No space left on device".toList)] := by
  refine ⟨?_, ?_, ?_, ?_, ?_, ?_, ?_, ?_, ?_, ?_⟩ <;> decide +kernel

end Batch
end LightningTemplate
