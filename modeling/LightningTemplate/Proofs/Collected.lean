import Mathlib.Data.List.Induction
import LightningTemplate.Batch.Run
import LightningTemplate.Proofs.FileFrame

/-! The paths that a batch collects, and why its writing does not change what they lead to.
Every collected path ends in a name with the extension of components, and every file of a
bundle in a name with another ending. -/
namespace LightningTemplate
open Text

theorem Path.splitName_append (name : Text) :
    (Path.splitName name).1 ++ (Path.splitName name).2 = name := by
  have hname : name = (name.reverse.dropWhile (· != '.')).reverse
      ++ (name.reverse.takeWhile (· != '.')).reverse := by
    rw [← List.reverse_append, List.takeWhile_append_dropWhile, List.reverse_reverse]
  rw [splitName]
  split
  · rename_i dot c cs hdrop
    split
    · exact List.append_nil name
    · have hdot : dot = '.' := by
        have hhead := List.head_dropWhile_not (· != '.') (l := name.reverse) (by simp [hdrop])
        simpa [hdrop] using hhead
      conv_rhs => rw [hname, hdrop, hdot]
      simp
  · exact List.append_nil name

theorem Path.mem_of_mem_stem {p : Path} {c : Char} (h : c ∈ p.stem) : c ∈ p.name := by
  rw [← splitName_append p.name]
  exact List.mem_append_left _ h

namespace Bundle

def endings : List Text := [".html".toList, ".conversion.json".toList, ".notes.md".toList]

theorem names_files (component : Text) (c : Conversion) :
    (files component c).map (·.1) = endings.map (name component ++ ·) := rfl

def IsPlace (bundle : Text) (place : Location) : Prop :=
  ∃ e ∈ endings, place.getLast? = some (bundle ++ e)

/-- Two names with endings are the same only when both parts are. -/
theorem append_ending_inj {a b e e' : Text} (he : e ∈ endings) (he' : e' ∈ endings)
    (h : a ++ e = b ++ e') : a = b := by
  have hsame : ∀ e ∈ endings, ∀ e' ∈ endings, e.isSuffixOf e' = true → e = e' := by decide
  have hends : e <:+ e' ∨ e' <:+ e :=
    List.suffix_or_suffix_of_suffix ⟨a, h⟩ (List.suffix_append b e')
  obtain rfl : e = e' := by
    rcases hends with hends | hends
    · exact hsame e he e' he' (List.isSuffixOf_iff_suffix.2 hends)
    · exact (hsame e' he' e he (List.isSuffixOf_iff_suffix.2 hends)).symm
  exact List.append_cancel_right h

theorem IsPlace.name_eq {a b : Text} {place : Location} (ha : IsPlace a place)
    (hb : IsPlace b place) : a = b := by
  obtain ⟨e, he, ha⟩ := ha
  obtain ⟨e', he', hb⟩ := hb
  exact append_ending_inj he he' (Option.some.inj (ha.symm.trans hb))

/-- A component file does not stand where a bundle's file can. -/
theorem not_isPlace {b s : Text} {place : Location} (hplace : place.getLast? = some s)
    (hs : Batch.extension <:+ s) : ¬ IsPlace b place := by
  have hother : ∀ e ∈ endings, e.isSuffixOf Batch.extension = false ∧
      Batch.extension.isSuffixOf e = false := by decide
  rintro ⟨e, he, hb⟩
  obtain rfl : s = b ++ e := Option.some.inj (hplace.symm.trans hb)
  have hnot := hother e he
  rcases List.suffix_or_suffix_of_suffix hs (List.suffix_append b e) with h | h
  · rw [List.isSuffixOf_iff_suffix.2 h] at hnot
    exact Bool.noConfusion hnot.2
  · rw [List.isSuffixOf_iff_suffix.2 h] at hnot
    exact Bool.noConfusion hnot.1

end Bundle

/-- The files form a tree: everything but the root stands in a directory, under a name that
can be a step of a path. -/
structure FileSystem.WellFormed (fs : FileSystem) : Prop where
  above : ∀ e ∈ fs.entries, e.1 ≠ [] → fs.entryAt? e.1.dropLast = some .directory
  names : ∀ e ∈ fs.entries, ∀ s ∈ e.1, '/' ∉ s ∧ s ≠ Path.upStep ∧ Utf8.size s ≤ nameLimit

/-- A tree in which every file has one name. -/
structure FileSystem.Tree (fs : FileSystem) : Prop extends fs.WellFormed where
  single : fs.links = []

namespace FileSystem
variable {fs : FileSystem}

theorem mem_entries {place : Location} {e : Entry} (hne : place ≠ [])
    (h : fs.entryAt? place = some e) : (place, e) ∈ fs.entries := by
  cases place with
  | nil => exact absurd rfl hne
  | cons s steps =>
    obtain ⟨before, after, hentries, -⟩ := List.lookup_eq_some_iff.1 h
    simp [hentries]

theorem exists_entryAt? {place : Location} {e : Entry} (h : (place, e) ∈ fs.entries) :
    ∃ e', fs.entryAt? place = some e' := by
  cases place with
  | nil => exact ⟨_, rfl⟩
  | cons s steps =>
    rw [← Option.isSome_iff_exists, entryAt?, List.lookup_isSome_iff]
    exact ⟨_, h, by simp⟩

/-- What a path goes through on its way down to something is all directories. -/
theorem WellFormed.directory (hfs : fs.WellFormed) {place steps : Location} {e : Entry}
    (hsteps : steps ≠ []) (h : (place ++ steps, e) ∈ fs.entries) :
    fs.entryAt? place = some .directory := by
  induction steps using List.reverseRecOn generalizing e with
  | nil => exact absurd rfl hsteps
  | append_singleton steps s ih =>
    rw [← List.append_assoc] at h
    have hparent := hfs.above _ h (by simp)
    rw [List.dropLast_concat] at hparent
    by_cases hne : steps = []
    · simpa [hne] using hparent
    · exact ih hne (mem_entries (by simp [hne]) hparent)

theorem WellFormed.walk_down (hfs : fs.WellFormed) {place steps : Location} {e : Entry}
    (h : (place ++ steps, e) ∈ fs.entries) : fs.walk place steps = .ok (place ++ steps) := by
  induction steps generalizing place with
  | nil => rw [walk, List.append_nil]
  | cons s steps ih =>
    obtain ⟨-, hup, hsize⟩ := hfs.names _ h s (by simp)
    have hstep : fs.step place s = .ok (place ++ [s]) := by
      rw [step, hfs.directory (List.cons_ne_nil s steps) h]
      simp only [if_neg hup, if_neg (Nat.not_lt.2 hsize)]
    rw [walk, hstep]
    show fs.walk (place ++ [s]) steps = _
    rw [ih (by simpa using h), List.append_assoc, List.singleton_append]

end FileSystem

namespace Batch
variable {fs fs' : FileSystem} {paths : List Text} {p : Path}

/-- A collected path is given, or a given directory continued down to something below it. -/
theorem mem_collect (h : p ∈ collect fs paths) : ∃ t ∈ paths,
    (p = .ofText t ∧ p.suffix = extension) ∨
    ∃ place steps e, fs.locate (.ofText t) = .ok place ∧ (place ++ steps, e) ∈ fs.entries ∧
      p = (Path.ofText t).below steps ∧ extension <:+ p.name := by
  rw [collect, List.mem_eraseDups, List.mem_flatMap] at h
  obtain ⟨t, ht, hp⟩ := h
  refine ⟨t, ht, ?_⟩
  rw [candidates] at hp
  split at hp
  · rw [componentsBelow] at hp
    split at hp
    · simp at hp
    · rename_i place hl
      rw [List.mem_mergeSort, List.mem_filter, List.mem_map] at hp
      obtain ⟨⟨⟨steps, e⟩, hbelow, rfl⟩, hsuffix⟩ := hp
      rw [FileSystem.below, List.mem_filterMap] at hbelow
      obtain ⟨⟨found, e'⟩, hentry, hdrop⟩ := hbelow
      split at hdrop
      · rename_i hprefix
        obtain ⟨rest, rfl⟩ := List.isPrefixOf_iff_prefix.1 hprefix.1
        simp only [List.drop_left, Option.some.injEq, Prod.mk.injEq] at hdrop
        obtain ⟨rfl, rfl⟩ := hdrop
        exact .inr ⟨place, _, _, hl, hentry, rfl, List.isSuffixOf_iff_suffix.1 hsuffix⟩
      · contradiction
  · split at hp
    · rename_i hsuffix
      obtain rfl := List.mem_singleton.1 hp
      exact .inl ⟨rfl, hsuffix⟩
    · simp at hp

theorem extension_suffix (h : p ∈ collect fs paths) : extension <:+ p.name := by
  obtain ⟨t, -, ⟨-, hsuffix⟩ | ⟨_, _, _, -, -, -, hname⟩⟩ := mem_collect h
  · rw [← Path.splitName_append p.name]
    exact ⟨_, congrArg (_ ++ ·) hsuffix.symm⟩
  · exact hname

theorem name_ne_nil (h : p ∈ collect fs paths) : p.name ≠ [] := by
  intro hnil
  have := extension_suffix h
  rw [hnil, List.suffix_nil] at this
  simp [extension] at this

theorem getLast?_steps (h : p ∈ collect fs paths) : p.steps.getLast? = some p.name := by
  have hne := name_ne_nil h
  rw [Path.name] at hne ⊢
  cases hlast : p.steps.getLast? with
  | none => simp [hlast] at hne
  | some s => rfl

theorem slash_notMem_name (hfs : fs.WellFormed) (h : p ∈ collect fs paths) : '/' ∉ p.name := by
  have hstep : p.name ∈ p.steps := List.mem_of_getLast? (getLast?_steps h)
  have hgiven : ∀ t, ∀ s ∈ (Path.ofText t).steps, '/' ∉ s := fun t s hs =>
    notMem_of_mem_splitOn (List.mem_filter.1 hs).1
  obtain ⟨t, -, ⟨rfl, -⟩ | ⟨place, steps, e, -, hentry, rfl, -⟩⟩ := mem_collect h
  · exact hgiven t _ hstep
  · rcases List.mem_append.1 hstep with hs | hs
    · exact hgiven t _ hs
    · exact (hfs.names _ hentry _ (List.mem_append_right _ hs)).1

theorem present_of_firstMissing? {ts : List Text} (h : firstMissing? fs ts = .ok none) :
    ∀ t ∈ ts, ∃ e, fs.find (.ofText t) = .ok e := by
  induction ts with
  | nil => simp
  | cons t ts ih =>
    rw [firstMissing?] at h
    cases hfind : fs.find (.ofText t) with
    | ok e =>
      have hpresent : fs.isPresent (.ofText t) = .ok true := by simp [FileSystem.isPresent, hfind]
      rw [hpresent] at h
      exact List.forall_mem_cons.2 ⟨⟨e, hfind⟩, ih h⟩
    | error problem =>
      cases problem <;> simp [FileSystem.isPresent, hfind, Bind.bind, Except.bind, pure, Except.pure] at h

/-- A collected path leads to something, unless its text can be no path at all. -/
theorem locate_collected (hfs : fs.WellFormed) (hpresent : firstMissing? fs paths = .ok none)
    (h : p ∈ collect fs paths) :
    (∃ place e, fs.locate p = .ok place ∧ fs.entryAt? place = some e) ∨
      ∃ problem, ∀ fs' : FileSystem, fs'.locate p = .error problem := by
  obtain ⟨t, ht, ⟨rfl, -⟩ | ⟨place, steps, e, hl, hentry, rfl, -⟩⟩ := mem_collect h
  · obtain ⟨e, hfind⟩ := present_of_firstMissing? hpresent t ht
    rw [FileSystem.find] at hfind
    cases hl : fs.locate (.ofText t) with
    | error problem => simp [hl, Except.bind] at hfind
    | ok place =>
      cases he : fs.entryAt? place with
      | none => simp [hl, he, Except.bind] at hfind
      | some e => exact .inl ⟨place, e, rfl, he⟩
  · by_cases hnull : ((Path.ofText t).below steps).text.contains '\x00'
    · exact .inr ⟨_, fun fs' => by rw [FileSystem.locate, if_pos hnull]⟩
    · by_cases hlong : FileSystem.pathLimit ≤ Utf8.size ((Path.ofText t).below steps).text
      · exact .inr ⟨_, fun fs' => by rw [FileSystem.locate, if_neg hnull, if_pos hlong]⟩
      · obtain ⟨e', he'⟩ := FileSystem.exists_entryAt? hentry
        refine .inl ⟨_, e', ?_, he'⟩
        rw [FileSystem.locate] at hl ⊢
        split at hl
        · simp at hl
        · split at hl
          · simp at hl
          · rw [if_neg hnull, if_neg hlong]
            show fs.walk _ ((Path.ofText t).steps ++ steps) = _
            have hstart : (if ((Path.ofText t).below steps).isAbsolute then [] else fs.working) =
              if (Path.ofText t).isAbsolute then [] else fs.working := rfl
            rw [hstart, FileSystem.walk_append, hl]
            exact hfs.walk_down hentry

/-- The writing of bundles changes nothing of what can be read at a collected path. -/
theorem read_collected (hfs : fs.WellFormed) (hpresent : firstMissing? fs paths = .ok none)
    (h : p ∈ collect fs paths)
    (hframe : FileSystem.Frame (fun place => ∃ b, Bundle.IsPlace b place) fs fs') :
    fs'.read p = fs.read p := by
  have hup : p.name ≠ Path.upStep := by
    intro hname
    have := List.isSuffixOf_iff_suffix.2 (hname ▸ extension_suffix h)
    revert this
    decide
  rcases locate_collected hfs hpresent h with ⟨place, e, hl, he⟩ | ⟨problem, herror⟩
  · cases e with
    | directory =>
      simp [FileSystem.read, FileSystem.find, hl, he, hframe.locate_ok hl, hframe.directory _ he,
        Except.bind]
    | file octets =>
      have hplace := FileSystem.getLast?_locate (getLast?_steps h) hup hl
      have huntouched : ¬ ∃ b, Bundle.IsPlace b place := by
        rintro ⟨b, hb⟩
        exact Bundle.not_isPlace hplace (extension_suffix h) hb
      have hread := FileSystem.read_eq_ok_iff.2 ⟨place, hl, he⟩
      rw [hread, hframe.read_ok hl huntouched hread]
  · simp [FileSystem.read, FileSystem.find, herror, Except.bind]

end Batch
end LightningTemplate
