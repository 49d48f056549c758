import LightningTemplate.FileSystem

/-! What an action leaves of the files as it was.  Actions put things in and take nothing
out: a directory stays one, so a path that leads somewhere leads there afterwards too, and
a file that does not stand at a touched place keeps its content. -/
namespace LightningTemplate
open Text

theorem Path.stepsOf_of_notMem {t : Text} (h : '/' ∉ t) (hempty : t ≠ []) (hdot : t ≠ ['.']) :
    Path.stepsOf t = [t] := by
  simp [Path.stepsOf, splitOn_of_notMem h, hempty, hdot]

namespace FileSystem
variable {fs fs' fs'' : FileSystem} {touched touched' : Location → Prop} {p : Path}
  {place next : Location} {octets : List UInt8}

theorem walk_append (fs : FileSystem) (place : Location) (a b : List Text) :
    fs.walk place (a ++ b) = (fs.walk place a).bind fun next => fs.walk next b := by
  induction a generalizing place with
  | nil => rfl
  | cons s a ih =>
    simp only [List.cons_append, walk]
    cases fs.step place s with
    | error problem => rfl
    | ok next => exact ih next

theorem step_eq_ok {s : Text} (h : fs.step place s = .ok next) (hup : s ≠ Path.upStep) :
    next = place ++ [s] := by
  rw [step] at h
  cases he : fs.entryAt? place with
  | none => simp [he] at h
  | some e =>
    cases e with
    | file octets => simp [he] at h
    | directory =>
      simp only [he, if_neg hup] at h
      split at h
      · contradiction
      · exact (Except.ok.inj h).symm

theorem getLast?_walk {steps : List Text} {s : Text} (hs : steps.getLast? = some s)
    (hup : s ≠ Path.upStep) (h : fs.walk place steps = .ok next) : next.getLast? = some s := by
  obtain ⟨init, rfl⟩ := List.getLast?_eq_some_iff.1 hs
  rw [walk_append] at h
  cases hinit : fs.walk place init with
  | error problem => simp [hinit, Except.bind] at h
  | ok above =>
    rw [hinit] at h
    cases hstep : fs.step above s with
    | error problem => simp [walk, hstep, Except.bind] at h
    | ok last =>
      simp only [walk, hstep, Except.bind, Except.ok.injEq] at h
      rw [← h, step_eq_ok hstep hup, List.getLast?_append]
      rfl

/-- A path with a last step that does not lead upwards ends at a place of that name. -/
theorem getLast?_locate {s : Text} (hs : p.steps.getLast? = some s) (hup : s ≠ Path.upStep)
    (h : fs.locate p = .ok place) : place.getLast? = some s := by
  rw [locate] at h
  split at h
  · simp at h
  · split at h
    · simp at h
    · exact getLast?_walk hs hup h

theorem read_eq_ok_iff : fs.read p = .ok octets ↔
    ∃ place, fs.locate p = .ok place ∧ fs.entryAt? place = some (.file octets) := by
  rw [read, find]
  cases fs.locate p with
  | error problem => simp [Except.bind]
  | ok place =>
    cases h : fs.entryAt? place with
    | none => simp [Except.bind, h]
    | some e => cases e <;> simp [Except.bind, h]

/-- From the first state to the second, nothing was taken out, directories have stayed, and
the files at other than the touched places are the same. -/
structure Frame (touched : Location → Prop) (fs fs' : FileSystem) : Prop where
  working : fs'.working = fs.working
  links : fs'.links = fs.links
  device : fs'.device = fs.device
  directory : ∀ place, fs.entryAt? place = some .directory → fs'.entryAt? place = some .directory
  file : ∀ place octets, ¬ touched place →
    (fs'.entryAt? place = some (.file octets) ↔ fs.entryAt? place = some (.file octets))

namespace Frame

theorem refl (touched : Location → Prop) (fs : FileSystem) : Frame touched fs fs :=
  ⟨rfl, rfl, rfl, fun _ => id, fun _ _ _ => Iff.rfl⟩

theorem trans (h : Frame touched fs fs') (h' : Frame touched fs' fs'') : Frame touched fs fs'' :=
  ⟨h'.working.trans h.working, h'.links.trans h.links, h'.device.trans h.device,
    fun place hd => h'.directory place (h.directory place hd),
    fun place octets ht => (h'.file place octets ht).trans (h.file place octets ht)⟩

theorem mono (h : Frame touched fs fs') (ht : ∀ place, touched place → touched' place) :
    Frame touched' fs fs' :=
  ⟨h.working, h.links, h.device, h.directory,
    fun place octets hp => h.file place octets fun hq => hp (ht place hq)⟩

theorem step_ok (h : Frame touched fs fs') {s : Text} (hs : fs.step place s = .ok next) :
    fs'.step place s = .ok next := by
  rw [step] at hs ⊢
  cases he : fs.entryAt? place with
  | none => simp [he] at hs
  | some e =>
    cases e with
    | file octets => simp [he] at hs
    | directory =>
      rw [h.directory place he]
      simpa [he] using hs

theorem walk_ok (h : Frame touched fs fs') {steps : List Text} (hw : fs.walk place steps = .ok next) :
    fs'.walk place steps = .ok next := by
  induction steps generalizing place with
  | nil => exact hw
  | cons s steps ih =>
    cases hs : fs.step place s with
    | error problem => simp [walk, hs, Except.bind] at hw
    | ok middle =>
      rw [walk, hs] at hw
      rw [walk, h.step_ok hs]
      exact ih hw

theorem locate_ok (h : Frame touched fs fs') (hl : fs.locate p = .ok place) :
    fs'.locate p = .ok place := by
  rw [locate] at hl ⊢
  split at hl
  · simp at hl
  · rename_i hnull
    split at hl
    · simp at hl
    · rename_i hlong
      rw [if_neg hnull, if_neg hlong, h.working]
      exact h.walk_ok hl

theorem read_ok (h : Frame touched fs fs') (hl : fs.locate p = .ok place) (ht : ¬ touched place)
    (hr : fs.read p = .ok octets) : fs'.read p = .ok octets := by
  obtain ⟨found, hfound, he⟩ := read_eq_ok_iff.1 hr
  obtain rfl : found = place := Except.ok.inj (hfound.symm.trans hl)
  exact read_eq_ok_iff.2 ⟨found, h.locate_ok hl, (h.file _ _ ht).2 he⟩

end Frame

theorem ne_nil_of_entryAt? (h : fs.entryAt? place ≠ some .directory) : place ≠ [] := by
  rintro rfl
  exact h rfl

theorem frame_put_file (h : fs.entryAt? place ≠ some .directory) (octets : List UInt8) :
    Frame (· = place) fs (fs.put place (.file octets)) := by
  have hput := fun other => entryAt?_put fs place other (.file octets) (ne_nil_of_entryAt? h)
  refine ⟨rfl, rfl, rfl, fun other hd => ?_, fun other content hne => ?_⟩
  · rw [hput, if_neg (by rintro rfl; exact h hd), hd]
  · rw [hput, if_neg hne]

theorem frame_put_directory (h : fs.entryAt? place = none) :
    Frame (fun _ => False) fs (fs.put place .directory) := by
  have hne : fs.entryAt? place ≠ some .directory := by simp [h]
  have hput := fun other => entryAt?_put fs place other .directory (ne_nil_of_entryAt? hne)
  refine ⟨rfl, rfl, rfl, fun other hd => ?_, fun other content _ => ?_⟩
  · rw [hput, hd, ite_self]
  · rw [hput]
    split
    · rename_i heq
      simp [heq, h]
    · rfl

theorem frame_makeDirectory (h : fs.makeDirectory p = .ok fs') : Frame (fun _ => False) fs fs' := by
  rw [makeDirectory] at h
  cases hl : fs.locate p with
  | error problem => simp [hl] at h
  | ok place =>
    rw [hl] at h
    cases he : fs.entryAt? place with
    | some e => simp [he] at h
    | none =>
      simp only [he, Except.ok.injEq] at h
      exact h ▸ frame_put_directory he

theorem fileAt_eq_ok_iff :
    fs.fileAt p = .ok place ↔ fs.locate p = .ok place ∧ fs.entryAt? place ≠ some .directory := by
  rw [fileAt]
  cases fs.locate p with
  | error problem => simp
  | ok found =>
    dsimp only
    split
    · rename_i hd
      constructor
      · intro h
        cases h
      · rintro ⟨h, hne⟩
        exact absurd (Except.ok.inj h ▸ hd) hne
    · rename_i hne
      constructor
      · intro h
        obtain rfl := Except.ok.inj h
        exact ⟨rfl, hne⟩
      · rintro ⟨h, -⟩
        obtain rfl := Except.ok.inj h
        rfl

theorem path_of_fileAt_error {f : FileFault} (h : fs.fileAt p = .error f) : f.path = p := by
  rw [fileAt] at h
  split at h
  · exact (Except.error.inj h) ▸ rfl
  · split at h
    · exact (Except.error.inj h) ▸ rfl
    · contradiction

theorem put_put (fs : FileSystem) (place : Location) (e e' : Entry) :
    (fs.put place e).put place e' = fs.put place e' := by
  simp only [put, Keyed.insert_insert]

/-- Where every file has one name, one place is filled. -/
theorem fill_of_single (h : fs.links = []) (place : Location) (octets : List UInt8) :
    fs.fill place octets = fs.put place (.file octets) := by
  simp [fill, names, h]

end FileSystem

namespace FileAction
open FileSystem
variable {α β : Type} {touched touched' : Location → Prop} {p : Path}

def filesAfter (a : FileAction α) (fs : FileSystem) : FileSystem :=
  match a.run fs with
  | .ok _ fs' | .error _ fs' => fs'

/-- Where every file has one name, the action touches these places at most, whether it fails or
not. -/
def Keeps (touched : Location → Prop) (a : FileAction α) : Prop :=
  ∀ fs, fs.links = [] → Frame touched fs (a.filesAfter fs)

theorem keeps_pure (touched : Location → Prop) (x : α) : Keeps touched (pure x : FileAction α) :=
  fun fs _ => .refl touched fs

theorem keeps_throw (touched : Location → Prop) (f : FileFault) :
    Keeps touched (throw f : FileAction α) :=
  fun fs _ => .refl touched fs

theorem Keeps.mono {a : FileAction α} (h : Keeps touched a)
    (ht : ∀ place, touched place → touched' place) : Keeps touched' a :=
  fun fs hs => (h fs hs).mono ht

theorem Keeps.bind {a : FileAction α} {f : α → FileAction β} (ha : Keeps touched a)
    (hf : ∀ x, Keeps touched (f x)) : Keeps touched (a >>= f) := by
  intro fs hs
  have h := ha fs hs
  rw [filesAfter] at h ⊢
  rw [EStateM.run_bind]
  cases hrun : a.run fs with
  | ok x middle =>
    rw [hrun] at h
    exact h.trans (hf x middle (h.links.trans hs))
  | error e middle =>
    rw [hrun] at h
    exact h

theorem keeps_makeOrUse {whenMissing : FileFault → FileAction Unit}
    (h : ∀ f, Keeps touched (whenMissing f)) : Keeps touched (makeOrUse p whenMissing) := by
  intro fs hs
  cases hmade : fs.makeDirectory p with
  | ok fs' =>
    have hrun : (makeOrUse p whenMissing).run fs = .ok () fs' := by
      simp [EStateM.run, makeOrUse, hmade]
    rw [filesAfter, hrun]
    exact (frame_makeDirectory hmade).mono fun _ => False.elim
  | error f =>
    by_cases hmissing : f.problem = .missing
    · have hrun : (makeOrUse p whenMissing).run fs = (whenMissing f).run fs := by
        simp [EStateM.run, makeOrUse, hmade, hmissing]
      rw [filesAfter, hrun]
      exact h f fs hs
    · rw [filesAfter]
      simp only [EStateM.run, makeOrUse, hmade, if_neg hmissing]
      cases fs.isDirectory p <;> exact .refl touched fs

theorem keeps_ensureBackwards (touched : Location → Prop) (root : Text) (steps : List Text) :
    Keeps touched (ensureBackwards root steps) := by
  induction steps with
  | nil => exact keeps_makeOrUse fun f => keeps_throw touched f
  | cons s above ih =>
    exact keeps_makeOrUse fun _ => ih.bind fun _ => keeps_makeOrUse fun f => keeps_throw touched f

theorem keeps_ensureDirectory (touched : Location → Prop) (p : Path) :
    Keeps touched (ensureDirectory p) :=
  keeps_ensureBackwards touched p.root p.steps.reverse

variable {fs fs' : FileSystem} {octets : List UInt8}

/-- Where every file has one name, a file is written whole, or up to a breach, or not opened. -/
theorem run_write (hs : fs.links = []) (p : Path) (octets : List UInt8) :
    (write p octets).run fs = match fs.fileAt p with
      | .error f => .error f fs
      | .ok place => match (fs.put place (.file [])).breach? place octets with
        | none => .ok () (fs.put place (.file octets))
        | some b => .error ⟨.broken b.reason, p⟩ (fs.put place (.file (octets.take b.count))) := by
  rw [write, EStateM.run_bind]
  simp only [EStateM.run, openAnew]
  cases fs.fileAt p with
  | error f => rfl
  | ok place =>
    have hopened : (fs.put place (.file [])).links = [] := hs
    have hfill (content : List UInt8) :
        (fs.put place (.file [])).fill place content = fs.put place (.file content) := by
      rw [fill_of_single hopened, put_put]
    simp only [fillOpen, fill_of_single hs place []]
    cases hbreach : (fs.put place (.file [])).breach? place octets <;> simp only [hfill]

/-- A file that was written can be read, and the others are what they were. -/
theorem frame_write (hs : fs.links = []) (h : (write p octets).run fs = .ok () fs') :
    ∃ place, fs.locate p = .ok place ∧ Frame (· = place) fs fs' ∧ fs'.read p = .ok octets := by
  rw [run_write hs] at h
  cases hplace : fs.fileAt p with
  | error f => simp [hplace] at h
  | ok place =>
    obtain ⟨hl, he⟩ := fileAt_eq_ok_iff.1 hplace
    simp only [hplace] at h
    split at h
    · obtain rfl := (EStateM.Result.ok.inj h).2
      have hframe := frame_put_file he octets
      refine ⟨place, hl, hframe, read_eq_ok_iff.2 ⟨place, hframe.locate_ok hl, ?_⟩⟩
      rw [entryAt?_put _ _ _ _ (ne_nil_of_entryAt? he), if_pos rfl]
    · cases h

/-- A file that could not be written was not opened, or holds the first of its octets. -/
theorem write_error {f : FileFault} (hs : fs.links = [])
    (h : (write p octets).run fs = .error f fs') :
    f.path = p ∧ ((fs.fileAt p = .error f ∧ fs' = fs) ∨
      ∃ place, ∃ b : Breach, fs.fileAt p = .ok place ∧ f.problem = .broken b.reason ∧
        (fs.put place (.file [])).breach? place octets = some b ∧
        fs' = fs.put place (.file (octets.take b.count))) := by
  rw [run_write hs] at h
  cases hplace : fs.fileAt p with
  | error e =>
    simp only [hplace] at h
    obtain ⟨rfl, rfl⟩ := EStateM.Result.error.inj h
    exact ⟨path_of_fileAt_error hplace, .inl ⟨rfl, rfl⟩⟩
  | ok place =>
    simp only [hplace] at h
    split at h
    · cases h
    · rename_i b hbreach
      obtain ⟨rfl, rfl⟩ := EStateM.Result.error.inj h
      exact ⟨rfl, .inr ⟨place, b, rfl, rfl, hbreach, rfl⟩⟩

theorem keeps_write (h : ∀ fs place, locate fs p = .ok place → touched place) (octets : List UInt8) :
    Keeps touched (write p octets) := by
  intro fs hs
  rw [filesAfter, run_write hs]
  cases hplace : fs.fileAt p with
  | error f => exact .refl touched fs
  | ok place =>
    obtain ⟨hl, he⟩ := fileAt_eq_ok_iff.1 hplace
    have hput (content : List UInt8) : Frame touched fs (fs.put place (.file content)) :=
      (frame_put_file he content).mono fun _ heq => heq ▸ h fs place hl
    dsimp only
    cases (fs.put place (.file [])).breach? place octets with
    | none => exact hput octets
    | some b => exact hput (octets.take b.count)

end FileAction
end LightningTemplate
