import Mathlib.Data.List.Basic
import LightningTemplate.Proofs.FileFrame

/-! Making a directory and those above it.  It succeeds exactly where a directory can stand in
the end: whenever the same files with more directories have the directory, the missing ones
can be put in (`exists_made`), and what is put in are directories that stand there too. -/
namespace LightningTemplate
open Text

theorem Utf8.size_append (s t : Text) : size (s ++ t) = size s + size t := by
  have hfold : ∀ (u : Text) (n : Nat), u.foldl (fun n c => n + c.utf8Size) n = n + size u := by
    intro u
    induction u with
    | nil => exact fun n => rfl
    | cons c u ih =>
      intro n
      have hsize : size (c :: u) = c.utf8Size + size u := by
        rw [size, List.foldl_cons, Nat.zero_add]
        exact ih _
      rw [List.foldl_cons, ih, hsize, Nat.add_assoc]
  rw [size, List.foldl_append, hfold, hfold, Nat.zero_add]

namespace Path

theorem prefix_join (sep : Text) (as bs : List Text) : join sep as <+: join sep (as ++ bs) := by
  induction as with
  | nil => exact List.nil_prefix
  | cons a as ih =>
    cases as with
    | nil =>
      cases bs with
      | nil => exact List.prefix_rfl
      | cons b bs =>
        rw [List.singleton_append, join_cons_cons]
        exact ⟨sep ++ join sep (b :: bs), by simp [join, List.intercalate]⟩
    | cons a' as =>
      rw [List.cons_append, List.cons_append, join_cons_cons, join_cons_cons,
        List.prefix_append_right_inj, List.prefix_append_right_inj]
      exact ih

def fault? (p : Path) : Option FileProblem :=
  if p.text.contains '\x00' then some .nullCharacter
  else if FileSystem.pathLimit ≤ Utf8.size p.text then some .nameTooLong
  else none

theorem text_below (p : Path) (steps : List Text) :
    p.text = ['.'] ∨ p.text <+: (p.below steps).text := by
  obtain ⟨rest, hrest⟩ : p.root ++ join ['/'] p.steps <+: p.root ++ join ['/'] (p.steps ++ steps) :=
    (List.prefix_append_right_inj _).2 (prefix_join _ _ _)
  cases h : p.root ++ join ['/'] p.steps with
  | nil => exact .inl (by simp [text, h])
  | cons c cs =>
    rw [h] at hrest
    have hp : p.text = c :: cs := by simp [text, h]
    have hbelow : (p.below steps).text = c :: cs ++ rest := by
      simp only [text, below, ← hrest, List.cons_append]
    exact .inr ⟨rest, by rw [hp, hbelow]⟩

theorem fault?_eq_none_iff {p : Path} :
    p.fault? = none ↔ '\x00' ∉ p.text ∧ Utf8.size p.text < FileSystem.pathLimit := by
  rw [fault?]
  by_cases hnull : '\x00' ∈ p.text
  · simp [hnull]
  · by_cases hlong : FileSystem.pathLimit ≤ Utf8.size p.text
    · simp [hnull, hlong]
    · simp [hnull, hlong, Nat.lt_of_not_le hlong]

theorem fault?_above {p : Path} {steps : List Text} (h : (p.below steps).fault? = none) :
    p.fault? = none := by
  rw [fault?_eq_none_iff] at h ⊢
  rcases p.text_below steps with htext | ⟨rest, htext⟩
  · rw [htext]
    decide
  · rw [← htext, Utf8.size_append, List.mem_append, not_or] at h
    exact ⟨h.1.1, by omega⟩

end Path

namespace FileSystem
variable {fs fs' : FileSystem} {p : Path} {place : Location} {e : Entry}

/-- Where the walk of a path begins. -/
def start (fs : FileSystem) (p : Path) : Location := if p.isAbsolute then [] else fs.working

theorem locate_eq (fs : FileSystem) (p : Path) :
    fs.locate p = match p.fault? with
      | some problem => .error problem
      | none => fs.walk (fs.start p) p.steps := by
  rw [locate, Path.fault?]
  split
  · rfl
  · split <;> rfl

theorem locate_of_sound (h : p.fault? = none) : fs.locate p = fs.walk (fs.start p) p.steps := by
  rw [locate_eq, h]

theorem sound_of_locate (h : fs.locate p = .ok place) : p.fault? = none := by
  rw [locate_eq] at h
  cases hf : p.fault? with
  | none => rfl
  | some problem => simp [hf] at h

theorem find_eq_ok_iff :
    fs.find p = .ok e ↔ ∃ place, fs.locate p = .ok place ∧ fs.entryAt? place = some e := by
  rw [find]
  cases fs.locate p with
  | error problem => simp [Except.bind]
  | ok place => cases h : fs.entryAt? place <;> simp [Except.bind, h]

/-- A path that goes on below another one continues its walk. -/
theorem locate_below {steps : List Text} (h : fs.locate p = .ok place) :
    fs.locate (p.below steps) = match (p.below steps).fault? with
      | some problem => .error problem
      | none => fs.walk place steps := by
  have hwalk : fs.locate p = fs.walk (fs.start p) p.steps := locate_of_sound (sound_of_locate h)
  have hstart : fs.start (p.below steps) = fs.start p := rfl
  have hsteps : (p.below steps).steps = p.steps ++ steps := rfl
  rw [locate_eq, hstart, hsteps, walk_append, ← hwalk, h]
  rfl

theorem ne_nil_of_free (h : fs.entryAt? place = none) : place ≠ [] := by
  rintro rfl
  cases h

/-- Nothing was changed but for directories that were put in. -/
abbrev Grows (fs fs' : FileSystem) : Prop := Frame (fun _ => False) fs fs'

namespace Grows
variable {problem : FileProblem}

theorem entry (h : Grows fs fs') (he : fs.entryAt? place = some e) : fs'.entryAt? place = some e := by
  cases e with
  | directory => exact h.directory place he
  | file octets => exact (h.file place octets id).2 he

theorem find_ok (h : Grows fs fs') (hf : fs.find p = .ok e) : fs'.find p = .ok e := by
  obtain ⟨place, hl, he⟩ := find_eq_ok_iff.1 hf
  exact find_eq_ok_iff.2 ⟨place, h.locate_ok hl, h.entry he⟩

theorem step_error (h : Grows fs fs') (hmissing : problem ≠ .missing) {s : Text}
    (hs : fs.step place s = .error problem) : fs'.step place s = .error problem := by
  rw [step] at hs ⊢
  cases he : fs.entryAt? place with
  | none =>
    simp only [he, Except.error.injEq] at hs
    exact absurd hs.symm hmissing
  | some e =>
    rw [h.entry he]
    simpa [he] using hs

theorem walk_error (h : Grows fs fs') (hmissing : problem ≠ .missing) {steps : List Text}
    (hw : fs.walk place steps = .error problem) : fs'.walk place steps = .error problem := by
  induction steps generalizing place with
  | nil => simp [walk] at hw
  | cons s steps ih =>
    rw [walk] at hw ⊢
    cases hs : fs.step place s with
    | error problem' =>
      rw [hs] at hw
      obtain rfl : problem' = problem := Except.error.inj hw
      rw [h.step_error hmissing hs]
      rfl
    | ok next =>
      rw [hs] at hw
      rw [h.step_ok hs]
      exact ih hw

/-- What is in the way of a path stays in its way. -/
theorem locate_error (h : Grows fs fs') (hmissing : problem ≠ .missing)
    (hl : fs.locate p = .error problem) : fs'.locate p = .error problem := by
  have hstart : fs'.start p = fs.start p := by rw [start, start, h.working]
  rw [locate_eq] at hl ⊢
  cases hf : p.fault? with
  | some found => simpa [hf] using hl
  | none =>
    simp only [hf] at hl ⊢
    rw [hstart]
    exact h.walk_error hmissing hl

theorem put_directory (h : Grows fs fs') (hfree : fs.entryAt? place = none)
    (hd : fs'.entryAt? place = some .directory) : Grows (fs.put place .directory) fs' := by
  have hput := fun other => entryAt?_put fs place other .directory (ne_nil_of_free hfree)
  refine ⟨h.working, h.links, h.device, fun other hother => ?_, fun other octets hnot => ?_⟩
  · rw [hput] at hother
    by_cases heq : other = place
    · rw [heq, hd]
    · rw [if_neg heq] at hother
      exact h.directory other hother
  · rw [hput]
    by_cases heq : other = place
    · simp [heq, hd]
    · rw [if_neg heq]
      exact h.file other octets hnot

end Grows

theorem directory_of_step {s : Text} {next : Location} (h : fs.step place s = .ok next) :
    fs.entryAt? place = some .directory := by
  rw [step] at h
  cases he : fs.entryAt? place with
  | none => simp [he] at h
  | some e =>
    cases e with
    | file octets => simp [he] at h
    | directory => rfl

/-- A path that leads to a directory goes through directories. -/
theorem find_above {steps : List Text} (hd : fs.find (p.below steps) = .ok .directory) :
    fs.find p = .ok .directory := by
  obtain ⟨last, hl, he⟩ := find_eq_ok_iff.1 hd
  have hsound := sound_of_locate hl
  rw [locate_of_sound hsound] at hl
  have hsteps : fs.walk (fs.start p) (p.steps ++ steps) = .ok last := hl
  rw [walk_append] at hsteps
  cases hw : fs.walk (fs.start p) p.steps with
  | error problem => simp [hw, Except.bind] at hsteps
  | ok place =>
    simp only [hw, Except.bind] at hsteps
    refine find_eq_ok_iff.2 ⟨place, (locate_of_sound (Path.fault?_above hsound)).trans hw, ?_⟩
    cases steps with
    | nil =>
      obtain rfl : place = last := Except.ok.inj hsteps
      exact he
    | cons s steps =>
      rw [walk] at hsteps
      cases hs : fs.step place s with
      | error problem => simp [hs, Except.bind] at hsteps
      | ok next => exact directory_of_step hs

theorem locate_child_ne_missing (h : fs.find p = .ok .directory) (s : Text) :
    fs.locate (p.below [s]) ≠ .error .missing := by
  obtain ⟨place, hl, he⟩ := find_eq_ok_iff.1 h
  rw [locate_below hl, Path.fault?]
  split
  · rename_i hf
    split at hf
    · simp [← Option.some.inj hf]
    · split at hf
      · simp [← Option.some.inj hf]
      · simp at hf
  · simp only [walk, step, he]
    split
    · simp [Except.bind]
    · split <;> simp [Except.bind]

/-- What can stand in the way of making a directory, or make it needless. -/
theorem find_cases (fs : FileSystem) (p : Path) :
    fs.find p = .ok .directory ∨
      (∃ place, fs.locate p = .ok place ∧ fs.entryAt? place = none) ∨
      fs.locate p = .error .missing ∨
      (∃ octets, fs.find p = .ok (.file octets)) ∨
      ∃ problem, problem ≠ .missing ∧ fs.locate p = .error problem := by
  cases hl : fs.locate p with
  | error problem =>
    by_cases hmissing : problem = .missing
    · exact .inr (.inr (.inl (hmissing ▸ rfl)))
    · exact .inr (.inr (.inr (.inr ⟨problem, hmissing, rfl⟩)))
  | ok place =>
    cases he : fs.entryAt? place with
    | none => exact .inr (.inl ⟨place, rfl, he⟩)
    | some e =>
      have hfind := find_eq_ok_iff.2 ⟨place, hl, he⟩
      cases e with
      | directory => exact .inl hfind
      | file octets => exact .inr (.inr (.inr (.inl ⟨octets, hfind⟩)))

end FileSystem

namespace FileAction
open FileSystem
variable {fs fs' : FileSystem} {p : Path} {place : Location}

section makeOrUse
variable (whenMissing : FileFault → FileAction Unit)

theorem makeOrUse_present (h : fs.find p = .ok .directory) :
    (makeOrUse p whenMissing).run fs = .ok () fs := by
  obtain ⟨place, hl, he⟩ := find_eq_ok_iff.1 h
  simp [EStateM.run, makeOrUse, makeDirectory, hl, he, isDirectory, h]

theorem makeOrUse_free (hl : fs.locate p = .ok place) (he : fs.entryAt? place = none) :
    (makeOrUse p whenMissing).run fs = .ok () (fs.put place .directory) := by
  simp [EStateM.run, makeOrUse, makeDirectory, hl, he]

theorem makeOrUse_missing (hl : fs.locate p = .error .missing) :
    (makeOrUse p whenMissing).run fs = (whenMissing ⟨.missing, p⟩).run fs := by
  simp [EStateM.run, makeOrUse, makeDirectory, hl]

theorem makeOrUse_file {octets : List UInt8} (h : fs.find p = .ok (.file octets)) :
    (makeOrUse p whenMissing).run fs = .error ⟨.present, p⟩ fs := by
  obtain ⟨place, hl, he⟩ := find_eq_ok_iff.1 h
  simp [EStateM.run, makeOrUse, makeDirectory, hl, he, isDirectory, h]

theorem makeOrUse_error {problem : FileProblem} (hmissing : problem ≠ .missing)
    (hl : fs.locate p = .error problem) :
    (makeOrUse p whenMissing).run fs = .error ⟨problem, p⟩ fs := by
  simp [EStateM.run, makeOrUse, makeDirectory, hl, isDirectory, hmissing, find, Except.bind]

end makeOrUse

theorem find_of_makeOrUse {whenMissing : FileFault → FileAction Unit}
    (hw : (whenMissing ⟨.missing, p⟩).run fs = .ok () fs' → fs'.find p = .ok .directory)
    (h : (makeOrUse p whenMissing).run fs = .ok () fs') : fs'.find p = .ok .directory := by
  rcases find_cases fs p with hd | ⟨place, hl, he⟩ | hl | ⟨octets, hf⟩ | ⟨problem, hproblem, hl⟩
  · rw [makeOrUse_present _ hd] at h
    obtain ⟨-, rfl⟩ := EStateM.Result.ok.inj h
    exact hd
  · rw [makeOrUse_free _ hl he] at h
    obtain ⟨-, rfl⟩ := EStateM.Result.ok.inj h
    refine find_eq_ok_iff.2 ⟨place, (frame_put_directory he).locate_ok hl, ?_⟩
    rw [entryAt?_put _ _ _ _ (ne_nil_of_free he), if_pos rfl]
  · rw [makeOrUse_missing _ hl] at h
    exact hw h
  · rw [makeOrUse_file _ hf] at h
    cases h
  · rw [makeOrUse_error _ hproblem hl] at h
    cases h

theorem find_of_ensureBackwards {root : Text} {steps : List Text}
    (h : (ensureBackwards root steps).run fs = .ok () fs') :
    fs'.find ⟨root, steps.reverse⟩ = .ok .directory := by
  cases steps with
  | nil => exact find_of_makeOrUse (fun hthrow => by cases hthrow) h
  | cons s above =>
    refine find_of_makeOrUse (fun hmade => ?_) h
    rw [EStateM.run_bind] at hmade
    cases hrun : (ensureBackwards root above).run fs with
    | error f middle => simp [hrun] at hmade
    | ok _ middle =>
      rw [hrun] at hmade
      exact find_of_makeOrUse (fun hthrow => by cases hthrow) hmade

theorem find_of_ensureDirectory (h : (ensureDirectory p).run fs = .ok () fs') :
    fs'.find p = .ok .directory := by
  have hfind := find_of_ensureBackwards h
  rwa [List.reverse_reverse] at hfind

/-- Making a directory that stands in the end, with what stands above it, puts in directories
that stand there in the end. -/
theorem exists_makeOrUse {whenMissing : FileFault → FileAction Unit} (h : Grows fs fs')
    (hd : fs'.find p = .ok .directory)
    (hw : fs.locate p = .error .missing →
      ∃ made, (whenMissing ⟨.missing, p⟩).run fs = .ok () made ∧ Grows made fs') :
    ∃ made, (makeOrUse p whenMissing).run fs = .ok () made ∧ Grows made fs' := by
  obtain ⟨place', hl', he'⟩ := find_eq_ok_iff.1 hd
  rcases find_cases fs p with hd | ⟨place, hl, he⟩ | hl | ⟨octets, hf⟩ | ⟨problem, hproblem, hl⟩
  · exact ⟨fs, makeOrUse_present _ hd, h⟩
  · obtain rfl : place = place' := Except.ok.inj ((h.locate_ok hl).symm.trans hl')
    exact ⟨_, makeOrUse_free _ hl he, h.put_directory he he'⟩
  · rw [makeOrUse_missing _ hl]
    exact hw hl
  · simp [h.find_ok hf] at hd
  · simp [h.locate_error hproblem hl] at hl'

theorem exists_ensureBackwards {root : Text} {steps : List Text} (h : Grows fs fs')
    (hd : fs'.find ⟨root, steps.reverse⟩ = .ok .directory) :
    ∃ made, (ensureBackwards root steps).run fs = .ok () made ∧ Grows made fs' := by
  induction steps generalizing fs with
  | nil =>
    refine exists_makeOrUse h hd fun hmissing => ?_
    obtain ⟨place, hl, -⟩ := find_eq_ok_iff.1 hd
    have hsound : (⟨root, []⟩ : Path).fault? = none := sound_of_locate hl
    rw [locate_of_sound hsound] at hmissing
    cases hmissing
  | cons s above ih =>
    have hbelow : (⟨root, (s :: above).reverse⟩ : Path) = (⟨root, above.reverse⟩ : Path).below [s] := by
      rw [List.reverse_cons, Path.below]
    rw [hbelow] at hd
    rw [ensureBackwards, hbelow]
    refine exists_makeOrUse h hd fun _ => ?_
    obtain ⟨middle, hrun, hmiddle⟩ := ih h (find_above hd)
    rw [EStateM.run_bind, hrun]
    -- the second time nothing can be missing, since the directory above has been made
    refine exists_makeOrUse hmiddle hd fun hmissing => ?_
    exact absurd hmissing (locate_child_ne_missing (find_of_ensureBackwards hrun) s)

/-- A directory can be made where files with more directories have it. -/
theorem exists_made (h : Grows fs fs') (hd : fs'.find p = .ok .directory) :
    ∃ made, (ensureDirectory p).run fs = .ok () made ∧ Grows made fs' :=
  exists_ensureBackwards h (by rwa [List.reverse_reverse])

theorem ensureDirectory_present (h : fs.find p = .ok .directory) :
    (ensureDirectory p).run fs = .ok () fs := by
  obtain ⟨root, steps⟩ := p
  rw [ensureDirectory]
  cases hsteps : steps.reverse with
  | nil =>
    obtain rfl := List.reverse_eq_nil_iff.1 hsteps
    exact makeOrUse_present _ h
  | cons s above =>
    rw [← List.reverse_reverse steps, hsteps] at h
    exact makeOrUse_present _ h

theorem grows_ensureDirectory (hs : fs.links = []) (p : Path) :
    Grows fs ((ensureDirectory p).filesAfter fs) :=
  keeps_ensureDirectory _ p fs hs

theorem grows_of_ensureDirectory (hs : fs.links = [])
    (h : (ensureDirectory p).run fs = .ok () fs') : Grows fs fs' := by
  have hkept := grows_ensureDirectory hs p
  rwa [filesAfter, h] at hkept

theorem ensureDirectory_below (p : Path) (s : Text) :
    ensureDirectory (p.below [s]) =
      makeOrUse (p.below [s]) fun _ => ensureDirectory p >>= fun _ =>
        makeOrUse (p.below [s]) throw := by
  have hreverse : (p.below [s]).steps.reverse = s :: p.steps.reverse := by simp [Path.below]
  have hbelow : (⟨(p.below [s]).root, (s :: p.steps.reverse).reverse⟩ : Path) = p.below [s] := by
    simp [Path.below]
  rw [ensureDirectory, hreverse, ensureBackwards, hbelow]
  rfl

theorem makeOrUse_congr {whenMissing whenMissing' : FileFault → FileAction Unit}
    (h : fs.locate p ≠ .error .missing) :
    (makeOrUse p whenMissing).run fs = (makeOrUse p whenMissing').run fs := by
  rcases find_cases fs p with hd | ⟨place, hl, he⟩ | hl | ⟨octets, hf⟩ | ⟨problem, hproblem, hl⟩
  · rw [makeOrUse_present _ hd, makeOrUse_present _ hd]
  · rw [makeOrUse_free _ hl he, makeOrUse_free _ hl he]
  · exact absurd hl h
  · rw [makeOrUse_file _ hf, makeOrUse_file _ hf]
  · rw [makeOrUse_error _ hproblem hl, makeOrUse_error _ hproblem hl]

theorem locate_child_missing {made : FileSystem} (h : Grows fs made)
    (hmade : made.find p = .ok .directory) (hfs : fs.find p ≠ .ok .directory) {s : Text}
    (hsound : (p.below [s]).fault? = none) : fs.locate (p.below [s]) = .error .missing := by
  rcases find_cases fs p with hd | ⟨place, hl, he⟩ | hl | ⟨octets, hf⟩ | ⟨problem, hproblem, hl⟩
  · exact absurd hd hfs
  · rw [locate_below hl, hsound]
    simp [walk, step, he, Except.bind]
  · rw [locate_of_sound (Path.fault?_above hsound)] at hl
    rw [locate_of_sound hsound]
    show fs.walk (fs.start p) (p.steps ++ [s]) = _
    rw [walk_append, hl]
    rfl
  · simp [h.find_ok hf] at hmade
  · obtain ⟨place, hl', -⟩ := find_eq_ok_iff.1 hmade
    simp [h.locate_error hproblem hl] at hl'

/-- It makes no difference to a directory whether the one above it was made before, unless the
path can be none at all; then nothing is done. -/
theorem ensureDirectory_child {made : FileSystem} (hs : fs.links = [])
    (h : (ensureDirectory p).run fs = .ok () made) (s : Text) :
    (ensureDirectory (p.below [s])).run fs = (ensureDirectory (p.below [s])).run made ∨
      ∃ f, (ensureDirectory (p.below [s])).run fs = .error f fs ∧
        (ensureDirectory (p.below [s])).run made = .error f made := by
  have hmade := find_of_ensureDirectory h
  have hgrows := grows_of_ensureDirectory hs h
  rw [ensureDirectory_below]
  cases hfault : (p.below [s]).fault? with
  | some problem =>
    have hl : ∀ fs : FileSystem, fs.locate (p.below [s]) = .error problem := by
      intro fs
      rw [locate_eq, hfault]
    have hmissing : problem ≠ .missing := by
      rintro rfl
      exact locate_child_ne_missing hmade s (hl made)
    exact .inr ⟨_, makeOrUse_error _ hmissing (hl fs), makeOrUse_error _ hmissing (hl made)⟩
  | none =>
    refine .inl ?_
    by_cases hd : fs.find p = .ok .directory
    · rw [ensureDirectory_present hd] at h
      rw [(EStateM.Result.ok.inj h).2]
    · rw [makeOrUse_missing _ (locate_child_missing hgrows hmade hd hfault), EStateM.run_bind, h]
      exact makeOrUse_congr (locate_child_ne_missing hmade s)

end FileAction
end LightningTemplate
