import LightningTemplate.Proofs.BundleKept
import LightningTemplate.Proofs.DirectoryMade

/-! Actions confined to one name in a directory.  Such an action reads and changes nothing but
what stands under the name, so it does the same in two states that are alike there, and
leaves what stands under every other name.  Writing a bundle into an output directory that
is there is confined to the name of the bundle, if every file has one name and the device
looks at one file at a time. -/
namespace LightningTemplate
open Text FileSystem

namespace FileSystem
variable {fs fs' : FileSystem} {output : Path} {place : Location} {name : Text}

/-- What the device takes of a file depends on its place and content alone, and not on what
other files there are. -/
def Impartial (fs : FileSystem) : Prop :=
  ∀ entries entries', fs.device entries = fs.device entries'

/-- Every file has one name, the device is impartial, and the path leads to a directory at
the place. -/
structure LeadsTo (fs : FileSystem) (output : Path) (place : Location) : Prop where
  single : fs.links = []
  impartial : fs.Impartial
  located : fs.locate output = .ok place
  directory : fs.entryAt? place = some .directory

/-- On one device, the same stands at the place under the name. -/
structure AlikeUnder (place : Location) (name : Text) (fs fs' : FileSystem) : Prop where
  device : fs.device = fs'.device
  entry : ∀ steps, fs.entryAt? (place ++ name :: steps) = fs'.entryAt? (place ++ name :: steps)

theorem AlikeUnder.refl (place : Location) (name : Text) (fs : FileSystem) :
    AlikeUnder place name fs fs :=
  ⟨rfl, fun _ => rfl⟩

theorem AlikeUnder.trans {fs'' : FileSystem} (h : AlikeUnder place name fs fs')
    (h' : AlikeUnder place name fs' fs'') : AlikeUnder place name fs fs'' :=
  ⟨h.device.trans h'.device, fun steps => (h.entry steps).trans (h'.entry steps)⟩

theorem AlikeUnder.symm (h : AlikeUnder place name fs fs') : AlikeUnder place name fs' fs :=
  ⟨h.device.symm, fun steps => (h.entry steps).symm⟩

theorem Frame.impartial {touched : Location → Prop} (h : Frame touched fs fs')
    (hfs : fs.Impartial) : fs'.Impartial := by
  rw [Impartial, h.device]
  exact hfs

theorem exists_leadsTo (hs : fs.links = []) (hi : fs.Impartial)
    (h : fs.find output = .ok .directory) : ∃ place, LeadsTo fs output place := by
  obtain ⟨place, hl, hd⟩ := find_eq_ok_iff.1 h
  exact ⟨place, hs, hi, hl, hd⟩

theorem LeadsTo.mono {touched : Location → Prop} (h : LeadsTo fs output place)
    (hframe : Frame touched fs fs') : LeadsTo fs' output place :=
  ⟨hframe.links.trans h.single, hframe.impartial h.impartial, hframe.locate_ok h.located,
    hframe.directory place h.directory⟩

/-- What stands where a path leads, if something does. -/
def look (fs : FileSystem) (p : Path) : Except FileProblem (Option Entry) :=
  (fs.locate p).map fs.entryAt?

def putSome (fs : FileSystem) (place : Location) : Option Entry → FileSystem
  | none => fs
  | some e => fs.put place e

theorem step_congr (h : fs.entryAt? place = fs'.entryAt? place) (s : Text) :
    fs.step place s = fs'.step place s := by
  rw [step, step, h]

theorem walk_downwards {steps : List Text} (hup : ∀ s ∈ steps, s ≠ Path.upStep) {next : Location}
    (h : fs.walk place steps = .ok next) : next = place ++ steps := by
  induction steps generalizing place with
  | nil =>
    rw [List.append_nil]
    exact (Except.ok.inj h).symm
  | cons s steps ih =>
    rw [List.forall_mem_cons] at hup
    rw [walk] at h
    cases hs : fs.step place s with
    | error problem => simp [hs, Except.bind] at h
    | ok middle =>
      rw [hs] at h
      rw [ih hup.2 h, step_eq_ok hs hup.1, List.append_assoc, List.singleton_append]

theorem AlikeUnder.walk_eq (h : AlikeUnder place name fs fs') {steps : List Text}
    (hup : ∀ s ∈ steps, s ≠ Path.upStep) (above : List Text) :
    fs.walk (place ++ name :: above) steps = fs'.walk (place ++ name :: above) steps := by
  induction steps generalizing above with
  | nil => rfl
  | cons s steps ih =>
    rw [List.forall_mem_cons] at hup
    rw [walk, walk, ← step_congr (h.entry above)]
    cases hs : fs.step (place ++ name :: above) s with
    | error problem => rfl
    | ok next =>
      have hnext : next = place ++ name :: (above ++ [s]) := by
        rw [step_eq_ok hs hup.1, List.append_assoc, List.cons_append]
      rw [hnext]
      exact ih hup.2 (above ++ [s])

section inside
variable {steps : List Text}

/-- A path under the name leads to one place in both. -/
theorem AlikeUnder.locate_eq (h : AlikeUnder place name fs fs') (hfs : LeadsTo fs output place)
    (hfs' : LeadsTo fs' output place) (hup : ∀ s ∈ name :: steps, s ≠ Path.upStep) :
    fs.locate (output.below (name :: steps)) = fs'.locate (output.below (name :: steps)) := by
  rw [List.forall_mem_cons] at hup
  rw [locate_below hfs.located, locate_below hfs'.located]
  cases (output.below (name :: steps)).fault? with
  | some problem => rfl
  | none =>
    show fs.walk place (name :: steps) = fs'.walk place (name :: steps)
    rw [walk, walk, ← step_congr (hfs.directory.trans hfs'.directory.symm)]
    cases hs : fs.step place name with
    | error problem => rfl
    | ok next =>
      rw [step_eq_ok hs hup.1]
      exact h.walk_eq hup.2 []

theorem LeadsTo.locate_under (h : LeadsTo fs output place)
    (hup : ∀ s ∈ name :: steps, s ≠ Path.upStep) {found : Location}
    (hl : fs.locate (output.below (name :: steps)) = .ok found) : found = place ++ name :: steps := by
  have hsound := sound_of_locate hl
  rw [locate_below h.located, hsound] at hl
  exact walk_downwards hup hl

theorem AlikeUnder.look_eq (h : AlikeUnder place name fs fs') (hfs : LeadsTo fs output place)
    (hfs' : LeadsTo fs' output place) (hup : ∀ s ∈ name :: steps, s ≠ Path.upStep) :
    fs.look (output.below (name :: steps)) = fs'.look (output.below (name :: steps)) := by
  rw [look, look, ← h.locate_eq hfs hfs' hup]
  cases hl : fs.locate (output.below (name :: steps)) with
  | error problem => rfl
  | ok found =>
    rw [hfs.locate_under hup hl]
    exact congrArg Except.ok (h.entry steps)

end inside

theorem alikeUnder_putSome {other : Text} (hne : other ≠ name) (steps : List Text)
    (e : Option Entry) : AlikeUnder place other fs (fs.putSome (place ++ name :: steps) e) := by
  cases e with
  | none => exact .refl place other fs
  | some e =>
    refine ⟨rfl, fun below => ?_⟩
    have hother : place ++ other :: below ≠ place ++ name :: steps := fun heq =>
      hne (List.cons.inj (List.append_cancel_left heq)).1
    rw [putSome, entryAt?_put _ _ _ _ (by simp), if_neg hother]

theorem AlikeUnder.putSome (h : AlikeUnder place name fs fs') (steps : List Text)
    (e : Option Entry) : AlikeUnder place name (fs.putSome (place ++ name :: steps) e)
      (fs'.putSome (place ++ name :: steps) e) := by
  cases e with
  | none => exact h
  | some e =>
    refine ⟨h.device, fun below => ?_⟩
    rw [FileSystem.putSome, FileSystem.putSome, entryAt?_put _ _ _ _ (by simp),
      entryAt?_put _ _ _ _ (by simp), h.entry below]

end FileSystem

namespace FileAction
variable {α β : Type} {output : Path} {place : Location} {name : Text} {fs : FileSystem}

def result (a : FileAction α) (fs : FileSystem) : Except FileFault α :=
  match a.run fs with
  | .ok x _ => .ok x
  | .error f _ => .error f

theorem run_eq (a : FileAction α) (fs : FileSystem) :
    a.run fs = match a.result fs with
      | .ok x => .ok x (a.filesAfter fs)
      | .error f => .error f (a.filesAfter fs) := by
  rw [result, filesAfter]
  cases a.run fs <;> rfl

theorem result_bind (a : FileAction α) (f : α → FileAction β) (fs : FileSystem) :
    (a >>= f).result fs = (a.result fs).bind fun x => (f x).result (a.filesAfter fs) := by
  rw [result, result, filesAfter, EStateM.run_bind]
  cases a.run fs <;> rfl

theorem filesAfter_bind (a : FileAction α) (f : α → FileAction β) (fs : FileSystem) :
    (a >>= f).filesAfter fs = match a.result fs with
      | .ok x => (f x).filesAfter (a.filesAfter fs)
      | .error _ => a.filesAfter fs := by
  rw [filesAfter, result, filesAfter, EStateM.run_bind]
  cases a.run fs <;> rfl

/-- While the path leads to a directory at the place, the action keeps to what stands there
under the name. -/
structure Confined (output : Path) (place : Location) (name : Text) (a : FileAction α) : Prop where
  leads : ∀ fs, LeadsTo fs output place → LeadsTo (a.filesAfter fs) output place
  apart : ∀ fs, LeadsTo fs output place → ∀ other, other ≠ name →
    AlikeUnder place other fs (a.filesAfter fs)
  result_eq : ∀ fs fs', LeadsTo fs output place → LeadsTo fs' output place →
    AlikeUnder place name fs fs' → a.result fs = a.result fs'
  alike : ∀ fs fs', LeadsTo fs output place → LeadsTo fs' output place →
    AlikeUnder place name fs fs' → AlikeUnder place name (a.filesAfter fs) (a.filesAfter fs')

theorem confined_pure (x : α) : Confined output place name (pure x : FileAction α) :=
  ⟨fun _ h => h, fun fs _ other _ => .refl place other fs, fun _ _ _ _ _ => rfl,
    fun _ _ _ _ h => h⟩

theorem Confined.bind {a : FileAction α} {f : α → FileAction β} (ha : Confined output place name a)
    (hf : ∀ x, Confined output place name (f x)) : Confined output place name (a >>= f) := by
  refine ⟨fun fs h => ?_, fun fs h other hne => ?_, fun fs fs' h h' hsame => ?_,
    fun fs fs' h h' hsame => ?_⟩
  · rw [filesAfter_bind]
    cases a.result fs with
    | error e => exact ha.leads fs h
    | ok x => exact (hf x).leads _ (ha.leads fs h)
  · rw [filesAfter_bind]
    cases a.result fs with
    | error e => exact ha.apart fs h other hne
    | ok x => exact (ha.apart fs h other hne).trans ((hf x).apart _ (ha.leads fs h) other hne)
  · rw [result_bind, result_bind, ← ha.result_eq fs fs' h h' hsame]
    cases a.result fs with
    | error e => rfl
    | ok x =>
      exact (hf x).result_eq _ _ (ha.leads fs h) (ha.leads fs' h') (ha.alike fs fs' h h' hsame)
  · rw [filesAfter_bind, filesAfter_bind, ← ha.result_eq fs fs' h h' hsame]
    cases a.result fs with
    | error e => exact ha.alike fs fs' h h' hsame
    | ok x => exact (hf x).alike _ _ (ha.leads fs h) (ha.leads fs' h') (ha.alike fs fs' h h' hsame)

/-- What an action gives and puts in, told from the device and from what stands where it looks. -/
abbrev Verdict (α : Type) := (Location → List UInt8 → Option Breach) →
  Except FileProblem (Option Entry) → Except FileFault α × Option Entry

def making (p : Path) : Verdict Unit
  | _, .error problem => (.error ⟨problem, p⟩, none)
  | _, .ok none => (.ok (), some .directory)
  | _, .ok (some .directory) => (.ok (), none)
  | _, .ok (some (.file _)) => (.error ⟨.present, p⟩, none)

def filling (p : Path) (spot : Location) (octets : List UInt8)
    (device : Location → List UInt8 → Option Breach) : Except FileFault Unit × Option Entry :=
  match device spot octets with
  | none => (.ok (), some (.file octets))
  | some b => (.error ⟨.broken b.reason, p⟩, some (.file (octets.take b.count)))

/-- A free place and a file there are treated alike. -/
def writing (p : Path) (spot : Location) (octets : List UInt8) : Verdict Unit
  | _, .error problem => (.error ⟨problem, p⟩, none)
  | _, .ok (some .directory) => (.error ⟨.isDirectory, p⟩, none)
  | device, .ok (some (.file _)) | device, .ok none => filling p spot octets device

/-- An action that looks at one path under the name, asks the device, and puts in one entry
there at most. -/
theorem confined_of_look {a : FileAction α} {touched : Location → Prop} (hkeeps : Keeps touched a)
    {steps : List Text} (hup : ∀ s ∈ name :: steps, s ≠ Path.upStep)
    (does : Verdict α)
    (hdoes : ∀ fs, LeadsTo fs output place →
      a.result fs = (does (fs.device []) (fs.look (output.below (name :: steps)))).1 ∧
      a.filesAfter fs = fs.putSome (place ++ name :: steps)
        (does (fs.device []) (fs.look (output.below (name :: steps)))).2) :
    Confined output place name a := by
  refine ⟨fun fs h => h.mono (hkeeps fs h.single), fun fs h other hne => ?_, fun fs fs' h h' hsame => ?_,
    fun fs fs' h h' hsame => ?_⟩
  · rw [(hdoes fs h).2]
    exact alikeUnder_putSome hne steps _
  · rw [(hdoes fs h).1, (hdoes fs' h').1, hsame.look_eq h h' hup, hsame.device]
  · rw [(hdoes fs h).2, (hdoes fs' h').2, hsame.look_eq h h' hup, hsame.device]
    exact hsame.putSome steps _

theorem confined_makeOrUse (hup : name ≠ Path.upStep) {touched : Location → Prop}
    {whenMissing : FileFault → FileAction Unit} (hw : ∀ f, Keeps touched (whenMissing f)) :
    Confined output place name (makeOrUse (output.below [name]) whenMissing) := by
  have hsteps : ∀ s ∈ [name], s ≠ Path.upStep := by simpa using hup
  refine confined_of_look (keeps_makeOrUse hw) hsteps (making (output.below [name])) fun fs h => ?_
  rcases find_cases fs (output.below [name]) with
    hd | ⟨found, hl, he⟩ | hl | ⟨octets, hf⟩ | ⟨problem, hproblem, hl⟩
  · obtain ⟨found, hl, he⟩ := find_eq_ok_iff.1 hd
    simp [result, filesAfter, makeOrUse_present _ hd, making, look, hl, he, Except.map, putSome]
  · obtain rfl := h.locate_under hsteps hl
    simp [result, filesAfter, makeOrUse_free _ hl he, making, look, hl, he, Except.map, putSome]
  · exact absurd hl (locate_child_ne_missing (find_eq_ok_iff.2 ⟨place, h.located, h.directory⟩) name)
  · obtain ⟨found, hl, he⟩ := find_eq_ok_iff.1 hf
    simp [result, filesAfter, makeOrUse_file _ hf, making, look, hl, he, Except.map, putSome]
  · simp [result, filesAfter, makeOrUse_error _ hproblem hl, making, look, hl, Except.map, putSome]

theorem confined_ensureDirectory (hup : name ≠ Path.upStep) :
    Confined output place name (ensureDirectory (output.below [name])) := by
  rw [ensureDirectory_below]
  exact confined_makeOrUse hup fun _ =>
    (keeps_ensureDirectory (fun _ => False) output).bind fun _ =>
      keeps_makeOrUse fun f => keeps_throw _ f

theorem confined_write {s : Text} (hup : ∀ s' ∈ [name, s], s' ≠ Path.upStep) (octets : List UInt8) :
    Confined output place name (write (output.below [name, s]) octets) := by
  let p := output.below [name, s]
  let spot := place ++ [name, s]
  refine confined_of_look (keeps_write (fun _ _ _ => trivial) octets) hup (writing p spot octets)
    fun fs h => ?_
  have hverdict : (fs.put spot (.file [])).breach? spot octets = fs.device [] spot octets :=
    congrFun (congrFun (h.impartial _ _) _) _
  rw [result, filesAfter, run_write h.single]
  cases hl : fs.locate p with
  | error problem => simp [writing, look, fileAt, p, hl, Except.map, putSome]
  | ok found =>
    obtain rfl : found = spot := h.locate_under hup hl
    by_cases hd : fs.entryAt? spot = some .directory
    · simp [writing, look, fileAt, p, hl, hd, Except.map, putSome]
    · rw [fileAt_eq_ok_iff.2 ⟨hl, hd⟩]
      have hlook : fs.look p = .ok (fs.entryAt? spot) := by rw [look, hl, Except.map]
      dsimp only
      rw [hverdict, hlook]
      cases he : fs.entryAt? spot with
      | none => cases hb : fs.device [] spot octets <;> simp [writing, filling, hb, putSome, spot, p]
      | some e =>
        cases e with
        | directory => exact absurd he hd
        | file content =>
          cases hb : fs.device [] spot octets <;> simp [writing, filling, hb, putSome, spot, p]

end FileAction

namespace Bundle
open FileAction
variable {output : Path} {place : Location} {component : Text}

structure IsOwn (name : Text) : Prop where
  slash : '/' ∉ name
  ne_nil : name ≠ []
  ne_dot : name ≠ ['.']
  ne_up : name ≠ Path.upStep

theorem child_of_isOwn {name : Text} (h : IsOwn name) (p : Path) : p.child name = p.below [name] := by
  rw [Path.child, Path.stepsOf_of_notMem h.slash h.ne_nil h.ne_dot]

theorem IsStep.isOwn {s : Text} (h : IsStep s) : IsOwn s := by
  have hlong := h.2
  refine ⟨h.1, ?_, ?_, ?_⟩ <;> (rintro rfl; simp [Path.upStep] at hlong)

theorem confined_writeAll (hname : IsOwn (name component)) {files : List (Text × Text)}
    (h : ∀ f ∈ files, IsStep f.1) :
    Confined output place (name component) (writeAll (directory output component) files) := by
  induction files with
  | nil => exact confined_pure ()
  | cons f files ih =>
    rw [List.forall_mem_cons] at h
    have hf := h.1.isOwn
    have hpath : (directory output component).child f.1 =
        output.below [name component, f.1] := by
      rw [directory, child_of_isOwn hname, child_of_isOwn hf]
      simp [Path.below]
    rw [writeAll, hpath]
    exact (confined_write (by simp [hname.ne_up, hf.ne_up]) _).bind fun _ => ih h.2

/-- Writing a bundle keeps to what stands under its name. -/
theorem confined_write (hcomponent : '/' ∉ component) (hname : IsOwn (name component))
    (c : Conversion) : Confined output place (name component) (write output component c) := by
  have hmake : Confined output place (name component)
      (ensureDirectory (directory output component)) := by
    rw [directory, child_of_isOwn hname]
    exact confined_ensureDirectory hname.ne_up
  exact hmake.bind fun _ => (confined_writeAll hname fun f hf =>
    isStep_of_mem_files hcomponent hf).bind fun _ => confined_pure _

end Bundle
end LightningTemplate
