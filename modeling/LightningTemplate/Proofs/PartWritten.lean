import LightningTemplate.Proofs.BundleKept

/-! What a component that fails leaves behind.  The files of a bundle are written one after
the other, each is opened before it is filled, and none is taken back: a fault leaves those
before it in full and, where the device broke off, the first octets of the one at fault.
Whatever else goes wrong goes wrong before the first file. -/
namespace LightningTemplate
open Text FileSystem

namespace Bundle
open FileAction
variable {fs fs' : FileSystem} {p output : Path} {component : Text} {c : Conversion} {f : FileFault}

theorem frame_writeAll {files : List (Text × Text)} (hs : fs.links = [])
    (h : (writeAll p files).run fs = .ok () fs') :
    Frame (fun place => ∃ g ∈ files, fs'.locate (p.child g.1) = .ok place) fs fs' := by
  induction files generalizing fs with
  | nil =>
    obtain ⟨-, rfl⟩ := EStateM.Result.ok.inj h
    exact .refl _ _
  | cons g files ih =>
    rw [writeAll, EStateM.run_bind] at h
    cases hwritten : (FileAction.write (p.child g.1) (Utf8.encode g.2)).run fs with
    | error e middle => simp [hwritten] at h
    | ok _ middle =>
      simp only [hwritten] at h
      obtain ⟨place, hl, hframe, -⟩ := frame_write hs hwritten
      have hrest := ih (hframe.links.trans hs) h
      refine (hframe.mono ?first).trans (hrest.mono ?rest)
      case first =>
        rintro found rfl
        exact ⟨g, List.mem_cons_self, hrest.locate_ok (hframe.locate_ok hl)⟩
      case rest =>
        rintro found ⟨k, hk, hfound⟩
        exact ⟨k, List.mem_cons_of_mem _ hk, hfound⟩

theorem writeAll_stops {files : List (Text × Text)} (h : (writeAll p files).run fs = .error f fs') :
    ∃ whole g rest middle, files = whole ++ g :: rest ∧ (writeAll p whole).run fs = .ok () middle ∧
      (FileAction.write (p.child g.1) (Utf8.encode g.2)).run middle = .error f fs' := by
  induction files generalizing fs with
  | nil => cases h
  | cons g files ih =>
    rw [writeAll, EStateM.run_bind] at h
    cases hwritten : (FileAction.write (p.child g.1) (Utf8.encode g.2)).run fs with
    | error e middle =>
      simp only [hwritten] at h
      obtain ⟨rfl, rfl⟩ := EStateM.Result.error.inj h
      exact ⟨[], g, files, fs, rfl, rfl, hwritten⟩
    | ok _ middle =>
      simp only [hwritten] at h
      obtain ⟨whole, k, rest, last, rfl, hrun, hfault⟩ := ih h
      refine ⟨g :: whole, k, rest, last, rfl, ?_, hfault⟩
      rw [writeAll, EStateM.run_bind, hwritten]
      exact hrun

def encoded (files : List (Text × Text)) : List (Text × List UInt8) :=
  files.map fun g => (g.1, Utf8.encode g.2)

/-- A fault in writing a bundle into a directory, with the files of the bundle that are left.
The directory cannot be made; or a file cannot be opened; or the device, asked about its
content when it is open and empty, breaks off. -/
inductive Fault (p : Path) (files : List (Text × Text)) (f : FileFault) (fs fs' : FileSystem) :
    List (Text × List UInt8) → Prop
  | unmade (h : (ensureDirectory p).run fs = .error f fs') : Fault p files f fs fs' []
  | unopened {whole rest : List (Text × Text)} {g : Text × Text} (hfiles : files = whole ++ g :: rest)
      (h : fs'.fileAt (p.child g.1) = .error f) : Fault p files f fs fs' (encoded whole)
  | brokenOff {whole rest : List (Text × Text)} {g : Text × Text} {place : Location} {b : Breach}
      (hfiles : files = whole ++ g :: rest) (h : f = ⟨.broken b.reason, p.child g.1⟩)
      (hplace : fs'.locate (p.child g.1) = .ok place)
      (hdevice : (fs'.put place (.file [])).breach? place (Utf8.encode g.2) = some b) :
      Fault p files f fs fs' (encoded whole ++ [(g.1, (Utf8.encode g.2).take b.count)])

/-- The bundle of a conversion after a fault in its writing.  The files that are left hold what
was written, the others of the bundle and all others are what they were. -/
structure Stopped (output : Path) (component : Text) (c : Conversion) (f : FileFault)
    (left : List (Text × List UInt8)) (fs fs' : FileSystem) : Prop where
  fault : Fault (directory output component) (files component c) f fs fs' left
  there : ∀ g ∈ left, fs'.read ((directory output component).child g.1) = .ok g.2
  only : Frame (fun place => ∃ g ∈ left,
    fs'.locate ((directory output component).child g.1) = .ok place) fs fs'
  kept : ∀ g ∈ files component c, g.1 ∉ left.map (·.1) → ∀ place,
    fs'.locate ((directory output component).child g.1) = .ok place →
    ∀ octets, fs'.entryAt? place = some (.file octets) ↔ fs.entryAt? place = some (.file octets)

/-- Filling one file of a directory leaves the others. -/
theorem read_put_of_ne {s s' : Text} {place : Location} {octets content : List UInt8}
    (hs : IsStep s) (hs' : IsStep s') (hne : s ≠ s') (hplace : fs.fileAt (p.child s') = .ok place)
    (hread : fs.read (p.child s) = .ok octets) :
    (fs.put place (.file content)).read (p.child s) = .ok octets := by
  obtain ⟨hl', hfree⟩ := fileAt_eq_ok_iff.1 hplace
  obtain ⟨other, hl, -⟩ := read_eq_ok_iff.1 hread
  refine (frame_put_file hfree content).read_ok hl ?_ hread
  rintro rfl
  exact hne (Option.some.inj ((getLast?_locate_child hs hl).symm.trans (getLast?_locate_child hs' hl')))

/-- What files whose writing has stopped leave: those before the fault and, where the device has
broken off, the start of the one at fault. -/
theorem exists_left {files : List (Text × Text)} (start : FileSystem) (hs : fs.links = [])
    (hsteps : ∀ g ∈ files, IsStep g.1) (hnames : (files.map (·.1)).Nodup)
    (h : (writeAll p files).run fs = .error f fs') :
    ∃ left, Fault p files f start fs' left ∧ (∀ g ∈ left, IsStep g.1) ∧
      (∀ g ∈ left, fs'.read (p.child g.1) = .ok g.2) ∧
      Frame (fun place => ∃ g ∈ left, fs'.locate (p.child g.1) = .ok place) fs fs' := by
  obtain ⟨whole, g, rest, middle, rfl, hdone, hlast⟩ := writeAll_stops h
  rw [List.forall_mem_append, List.forall_mem_cons] at hsteps
  rw [List.map_append, List.map_cons] at hnames
  have hframe := frame_writeAll hs hdone
  have hreads := read_writeAll hs hsteps.1 hnames.of_append_left hdone
  obtain ⟨hpath, ⟨hopen, rfl⟩ | ⟨place, b, hplace, hproblem, hbreach, rfl⟩⟩ :=
    write_error (hframe.links.trans hs) hlast
  · refine ⟨encoded whole, .unopened rfl hopen, List.forall_mem_map.2 hsteps.1,
      List.forall_mem_map.2 hreads, hframe.mono ?_⟩
    exact fun _ ⟨k, hk, hl⟩ => ⟨_, List.mem_map_of_mem hk, hl⟩
  · obtain ⟨hl, hfree⟩ := fileAt_eq_ok_iff.1 hplace
    have hput := frame_put_file hfree ((Utf8.encode g.2).take b.count)
    have hfault : f = ⟨.broken b.reason, p.child g.1⟩ := by rw [← hproblem, ← hpath]
    refine ⟨_, .brokenOff rfl hfault (hput.locate_ok hl) (by rwa [put_put]),
      List.forall_mem_append.2 ⟨List.forall_mem_map.2 hsteps.1, ?_⟩,
      List.forall_mem_append.2 ⟨List.forall_mem_map.2 fun k hk => ?others, ?last⟩,
      (hframe.mono ?before).trans (hput.mono ?broken)⟩
    · exact (List.forall_mem_singleton).2 hsteps.2.1
    case others =>
      refine read_put_of_ne (hsteps.1 k hk) hsteps.2.1 (fun hsame => ?_) hplace (hreads k hk)
      exact List.disjoint_of_nodup_append hnames (List.mem_map_of_mem hk) (List.mem_cons.2 (.inl hsame))
    case last =>
      rw [List.forall_mem_singleton]
      refine read_eq_ok_iff.2 ⟨place, hput.locate_ok hl, ?_⟩
      rw [entryAt?_put _ _ _ _ (ne_nil_of_entryAt? hfree), if_pos rfl]
    case before =>
      exact fun _ ⟨k, hk, hfound⟩ =>
        ⟨_, List.mem_append_left _ (List.mem_map_of_mem hk), hput.locate_ok hfound⟩
    case broken =>
      rintro _ rfl
      exact ⟨_, List.mem_append_right _ (List.mem_singleton.2 rfl), hput.locate_ok hl⟩

/-- Where nothing but what is left was touched, the other files of the bundle are as they were. -/
theorem stopped_of_frame {left : List (Text × List UInt8)} (h : '/' ∉ component)
    (hfault : Fault (directory output component) (files component c) f fs fs' left)
    (hleft : ∀ g ∈ left, IsStep g.1)
    (hthere : ∀ g ∈ left, fs'.read ((directory output component).child g.1) = .ok g.2)
    (honly : Frame (fun place => ∃ g ∈ left,
      fs'.locate ((directory output component).child g.1) = .ok place) fs fs') :
    Stopped output component c f left fs fs' := by
  refine ⟨hfault, hthere, honly, fun k hk hnot place hl octets => honly.file place octets ?_⟩
  rintro ⟨g, hg, hl'⟩
  -- a path with another last name does not lead to the place of a file that is left
  have hname := (getLast?_locate_child (isStep_of_mem_files h hk) hl).symm.trans
    (getLast?_locate_child (hleft g hg) hl')
  exact hnot (List.mem_map.2 ⟨g, hg, (Option.some.inj hname).symm⟩)

theorem exists_stopped (hs : fs.links = []) (h : '/' ∉ component)
    (hrun : (write output component c).run fs = .error f fs') :
    ∃ left, Stopped output component c f left fs fs' := by
  rw [write, EStateM.run_bind] at hrun
  have hmadeFrame := keeps_ensureDirectory (fun _ => False) (directory output component) fs hs
  cases hmade : (ensureDirectory (directory output component)).run fs with
  | error e middle =>
    simp only [hmade] at hrun
    obtain ⟨rfl, rfl⟩ := EStateM.Result.error.inj hrun
    rw [filesAfter, hmade] at hmadeFrame
    exact ⟨[], stopped_of_frame h (.unmade hmade) (by simp) (by simp)
      (hmadeFrame.mono fun _ => False.elim)⟩
  | ok _ made =>
    rw [filesAfter, hmade] at hmadeFrame
    simp only [hmade, EStateM.run_bind] at hrun
    cases hwritten : (writeAll (directory output component) (files component c)).run made with
    | ok _ after =>
      simp only [hwritten] at hrun
      cases hrun
    | error e after =>
      simp only [hwritten] at hrun
      obtain ⟨rfl, rfl⟩ := EStateM.Result.error.inj hrun
      obtain ⟨left, hfault, hleft, hthere, honly⟩ := exists_left fs (hmadeFrame.links.trans hs)
        (fun g hg => isStep_of_mem_files h hg) (nodup_names component c) hwritten
      exact ⟨left, stopped_of_frame h hfault hleft hthere
        ((hmadeFrame.mono fun _ => False.elim).trans honly)⟩

end Bundle

namespace Batch
namespace Attempt
variable {s : Setting} {moments : Moments} {p : Path} {fs : FileSystem}

/-- What a failing attempt leaves: the files as they were, or a bundle whose writing has stopped. -/
def Leaves (output : Path) (a : Attempt) (fs fs' : FileSystem) : Prop :=
  (∃ f, a.outcome = .unconverted f ∧ fs' = fs) ∨
    ∃ c f left, a.outcome = .unwritten c f ∧ Bundle.Stopped output a.name c f left fs fs'

theorem failed_of_status {a : Attempt} (h : "Failed: ".toList <+: a.row.status) :
    a.outcome.failure?.isSome = true := by
  rw [row] at h
  cases ha : a.outcome with
  | unconverted f => rfl
  | unwritten c f => rfl
  | previewed c => simp [ha, Outcome.failure?, Outcome.conversion?] at h
  | written c bundle => simp [ha, Outcome.failure?, Outcome.conversion?] at h

theorem leaves_run (hs : fs.links = []) (hp : '/' ∉ p.stem)
    (h : (run s moments p fs).1.outcome.failure?.isSome = true) :
    (run s moments p fs).1.Leaves s.output fs (run s moments p fs).2 := by
  cases hc : (convertFile s.mapping fs p).outcome with
  | error f =>
    simp only [run, hc]
    exact .inl ⟨f, rfl, rfl⟩
  | ok c =>
    by_cases hdry : s.dryRun = true
    · simp [run, hc, hdry, Outcome.failure?] at h
    · cases hw : (Bundle.write s.output p.stem c).run fs with
      | ok bundle fs' => simp [run, hc, hdry, hw, Outcome.failure?] at h
      | error f fs' =>
        obtain ⟨left, hstopped⟩ := Bundle.exists_stopped hs hp hw
        simp only [run, hc, if_neg hdry, hw]
        exact .inr ⟨c, f, left, rfl, hstopped⟩

end Attempt

/-- A component that a batch reports as failed has left of its bundle the files before the fault
in full and, where the device broke off after a file was opened, the first octets of that
file.  Everything else is as its turn found it. -/
theorem failed_leaves_start_of_bundle {e : Environment} {o : Options} {fs : FileSystem} {r : Report}
    (hfs : fs.Tree) (h : (run e o fs).outcome = .ok r) {before after : List Attempt} {a : Attempt}
    (hsplit : r.attempts = before ++ a :: after) (hfailed : "Failed: ".toList <+: a.row.status) :
    ∃ m first last, (loadMapping e.readYaml fs o.mappingFile).outcome = .ok m ∧
      collect fs o.paths = first ++ a.path :: last ∧
      let s : Setting := ⟨m, .ofText o.output, o.dryRun⟩
      let met := (Attempt.runAll s e.clock first fs).2
      let turn := Attempt.run s a.moments a.path met
      turn.1 = a ∧ a.Leaves s.output met turn.2 := by
  rcases run_cases h with ⟨exit, notice, rfl, -⟩ | ⟨m, -, hm, rfl, -⟩
  · simp [stop] at hsplit
  · obtain ⟨first, p, last, moments, later, hpaths, rfl, -, -⟩ := Attempt.runAll_split hsplit
    have hslash : ∀ q ∈ collect fs o.paths, '/' ∉ q.stem :=
      fun q hq => slash_notMem_stem hfs.toWellFormed hq
    rw [hpaths, List.forall_mem_append, List.forall_mem_cons] at hslash
    let s : Setting := ⟨m, .ofText o.output, o.dryRun⟩
    have hmet : (Attempt.runAll s e.clock first fs).2.links = [] :=
      (Attempt.frame_runAll s e.clock hfs.single hslash.1).links.trans hfs.single
    rw [Attempt.path_run, Attempt.moments_run]
    exact ⟨m, first, last, hm, hpaths, rfl,
      Attempt.leaves_run hmet hslash.2.1 (Attempt.failed_of_status hfailed)⟩

/-- A component, and a directory that stands where the second file of its bundle belongs. -/
def blockedRecord : FileSystem :=
  systemOf [("Card.cmp", "<aura:component>a</aura:component>"),
    ("output/card/card.conversion.json/x", "")]

theorem failed_leaves_start_of_bundle_blocked :
    let e := stillEnvironment
    ∃ r before a after, blockedRecord.Tree ∧
      (run e (plainOptions ["Card.cmp"]) blockedRecord).outcome = .ok r ∧
      r.attempts = before ++ a :: after ∧ "Failed: ".toList <+: a.row.status ∧
      ∃ m first last, (loadMapping e.readYaml blockedRecord none).outcome = .ok m ∧
        collect blockedRecord ["Card.cmp".toList] = first ++ a.path :: last ∧
        let s : Setting := ⟨m, .ofText "./output".toList, false⟩
        let met := (Attempt.runAll s e.clock first blockedRecord).2
        let turn := Attempt.run s a.moments a.path met
        turn.1 = a ∧ a.Leaves s.output met turn.2 := by
  have hfs : blockedRecord.Tree := ⟨⟨by decide +kernel, by decide +kernel⟩, rfl⟩
  have hrun : (run stillEnvironment (plainOptions ["Card.cmp"]) blockedRecord).outcome.toOption.any
      (fun r => r.attempts.length == 1 &&
        r.attempts.all fun a => "Failed: ".toList.isPrefixOf a.row.status) = true := by
    decide +kernel
  obtain ⟨r, hr, hfailed⟩ := exists_ok_of_any hrun
  simp only [Bool.and_eq_true, beq_iff_eq, List.all_eq_true, List.isPrefixOf_iff_prefix] at hfailed
  obtain ⟨a, ha⟩ := List.length_eq_one_iff.1 hfailed.1
  have hstatus := hfailed.2 a (by simp [ha])
  have hsplit : r.attempts = [] ++ a :: [] := ha
  exact ⟨r, [], a, [], hfs, hr, ha, hstatus, failed_leaves_start_of_bundle hfs hr hsplit hstatus⟩

def smallDevice : FileSystem :=
  { systemOf [("Card.cmp", "<aura:component>a</aura:component>")] with
    device := fun _ _ octets =>
      if octets.length ≤ 10 then none else some ⟨10, "[Errno 28] No space left on device".toList⟩ }

/-- The status of the only component of a batch, and what stands where its template belongs. -/
def leftTemplate (fs : FileSystem) : Option (List Text × Option Entry) :=
  let done := run stillEnvironment (plainOptions ["Card.cmp"]) fs
  done.outcome.toOption.map fun r => (r.attempts.map (·.row.status),
    done.files.entryAt? ["output".toList, "card".toList, "card.html".toList])

/-- A failed component has left the first file of its bundle, in full or in part, where nothing
was before. -/
theorem blockedRecord_leaves_template :
    let template : Location := ["output".toList, "card".toList, "card.html".toList]
    blockedRecord.entryAt? template = none ∧ smallDevice.entryAt? template = none ∧
      leftTemplate blockedRecord = some (["Failed: [Errno 21] Is a directory: ".toList ++
          "'output/card/card.conversion.json'".toList],
        some (.file (Utf8.encode "<template>\n    a\n</template>".toList))) ∧
      leftTemplate smallDevice = some (["Failed: [Errno 28] No space left on device".toList],
        some (.file (Utf8.encode "<template>".toList))) := by
  decide +kernel

end Batch
end LightningTemplate
