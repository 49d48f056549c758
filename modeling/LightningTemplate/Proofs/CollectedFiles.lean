import LightningTemplate.Proofs.Collected
import LightningTemplate.Proofs.DirectoryMade
import LightningTemplate.Proofs.Trials

/-! What the collected paths of a batch lead to.  A given path stands for components at places
(`StandsFor`), and these are what is collected (`mem_collect_iff`).  Since a name with the extension
and the spelling of a path are all that is looked at, a collection holds files alone, holds all
of them and holds each of them once only under conditions on the files and the given paths, and
`collection_exact_iff` says which. -/
namespace LightningTemplate
open Text

namespace Path

theorem splitName_extension {start : Text} (hstart : start ≠ []) :
    splitName (start ++ Batch.extension) = (start, Batch.extension) := by
  have hreverse : (start ++ Batch.extension).reverse =
      'p' :: 'm' :: 'c' :: '.' :: start.reverse := by
    rw [List.reverse_append]
    rfl
  obtain ⟨c, cs, hc⟩ := List.exists_cons_of_ne_nil (mt List.reverse_eq_nil_iff.1 hstart)
  have hback : (c :: cs).reverse = start := by rw [← hc, List.reverse_reverse]
  unfold splitName
  rw [hreverse, hc]
  simp [hback, Batch.extension]

/-- A path has the extension when its name goes on to it from something. -/
theorem suffix_eq_extension_iff {p : Path} :
    p.suffix = Batch.extension ↔ Batch.extension <:+ p.name ∧ p.name ≠ Batch.extension := by
  constructor
  · intro h
    refine ⟨⟨p.stem, by rw [← h]; exact splitName_append p.name⟩, fun hbare => ?_⟩
    rw [suffix, hbare] at h
    revert h
    decide
  · rintro ⟨⟨start, hstart⟩, hbare⟩
    have hne : start ≠ [] := by
      rintro rfl
      exact hbare hstart.symm
    rw [suffix, ← hstart, splitName_extension hne]

theorem name_below {p : Path} {steps : List Text} {s : Text} (h : steps.getLast? = some s) :
    (p.below steps).name = s := by
  rw [name, below, List.getLast?_append, h]
  rfl

theorem below_below (p : Path) (rest steps : List Text) :
    (p.below rest).below steps = p.below (rest ++ steps) := by
  simp only [below, List.append_assoc]

theorem below_right_inj {p q : Path} {steps : List Text} (h : p.below steps = q.below steps) :
    p = q := by
  obtain ⟨hroot, hsteps⟩ := Path.mk.inj h
  cases p
  cases q
  exact congr (congrArg Path.mk hroot) (List.append_cancel_right hsteps)

end Path

namespace FileSystem
variable {fs : FileSystem} {p : Path} {place : Location}

/-- The place that the steps of a path lead to, however long its text is. -/
def Leads (fs : FileSystem) (p : Path) (place : Location) : Prop :=
  fs.walk (fs.start p) p.steps = .ok place

theorem Leads.unique {other : Location} (h : fs.Leads p place) (h' : fs.Leads p other) :
    place = other :=
  Except.ok.inj (h.symm.trans h')

theorem leads_of_locate (h : fs.locate p = .ok place) : fs.Leads p place := by
  rwa [locate_of_sound (sound_of_locate h)] at h

theorem Leads.below (hfs : fs.WellFormed) {steps : List Text} {e : Entry} (h : fs.Leads p place)
    (hsteps : steps ≠ []) (hentry : fs.entryAt? (place ++ steps) = some e) :
    fs.Leads (p.below steps) (place ++ steps) := by
  have hmem : (place ++ steps, e) ∈ fs.entries := mem_entries (by simp [hsteps]) hentry
  show fs.walk (fs.start p) (p.steps ++ steps) = _
  rw [walk_append, h]
  exact hfs.walk_down hmem

/-- From the place that a path leads to, the steps go down to another place. -/
def Reaches (fs : FileSystem) (p : Path) (steps : List Text) (place : Location) : Prop :=
  ∃ top, fs.locate p = .ok top ∧ place = top ++ steps

theorem WellFormed.directory_above (hfs : fs.WellFormed) (h : fs.entryAt? place = some .directory) :
    fs.entryAt? place.dropLast = some .directory := by
  cases place with
  | nil => rfl
  | cons s steps =>
    exact hfs.above _ (mem_entries (List.cons_ne_nil s steps) h) (List.cons_ne_nil s steps)

theorem step_up {next : Location} (h : fs.step place Path.upStep = .ok next) :
    next = place.dropLast := by
  rw [step, directory_of_step h] at h
  simp only [if_pos] at h
  exact (Except.ok.inj h).symm

theorem Leads.directory_of_up (hfs : fs.WellFormed) {steps : List Text}
    (hsteps : p.steps = steps ++ [Path.upStep]) (h : fs.Leads p place) :
    fs.entryAt? place = some .directory := by
  rw [Leads, hsteps, walk_append] at h
  cases hwalk : fs.walk (fs.start p) steps with
  | error problem => simp [hwalk, Except.bind] at h
  | ok middle =>
    rw [hwalk] at h
    cases hstep : fs.step middle Path.upStep with
    | error problem => simp [walk, hstep, Except.bind] at h
    | ok next =>
      simp only [walk, hstep, Except.bind, Except.ok.injEq] at h
      rw [← h, step_up hstep]
      exact hfs.directory_above (directory_of_step hstep)

theorem Leads.name (hfs : fs.WellFormed)
    (hworking : ∀ octets, fs.entryAt? fs.working ≠ some (.file octets)) {octets : List UInt8}
    (h : fs.Leads p place) (hfile : fs.entryAt? place = some (.file octets)) :
    place.getLast? = some p.name := by
  cases hlast : p.steps.getLast? with
  | none =>
    rw [Leads, List.getLast?_eq_none_iff.1 hlast, walk] at h
    obtain rfl := Except.ok.inj h
    rw [start] at hfile
    split at hfile
    · cases hfile
    · exact absurd hfile (hworking octets)
  | some s =>
    by_cases hup : s = Path.upStep
    · obtain ⟨steps, hsteps⟩ := List.getLast?_eq_some_iff.1 hlast
      rw [h.directory_of_up hfs (hup ▸ hsteps)] at hfile
      cases hfile
    · rw [Path.name, hlast]
      exact getLast?_walk hlast hup h

end FileSystem

namespace Batch
open FileSystem
variable {fs : FileSystem} {paths : List Text} {p q : Path} {steps : List Text}
  {top place : Location} {t u : Text}

/-- A path that leads to a directory stands for what is below that under a name with the
extension, a path that leads to a file for the file if its last name has the extension. -/
inductive StandsFor (fs : FileSystem) (p : Path) : List Text → Location → Prop
  | below {top : Location} {steps : List Text} {s : Text} {e : Entry} (hp : fs.locate p = .ok top)
      (hdirectory : fs.entryAt? top = some .directory)
      (hentry : fs.entryAt? (top ++ steps) = some e)
      (hlast : steps.getLast? = some s) (hname : extension <:+ s) :
      StandsFor fs p steps (top ++ steps)
  | self {place : Location} {octets : List UInt8} (hp : fs.locate p = .ok place)
      (hfile : fs.entryAt? place = some (.file octets)) (hsuffix : p.suffix = extension) :
      StandsFor fs p [] place

theorem StandsFor.reaches (h : StandsFor fs p steps place) : fs.Reaches p steps place := by
  cases h with
  | below hp => exact ⟨_, hp, rfl⟩
  | self hp => exact ⟨place, hp, (List.append_nil place).symm⟩

theorem StandsFor.leads (hfs : fs.WellFormed) (h : StandsFor fs p steps place) :
    fs.Leads (p.below steps) place := by
  cases h with
  | below hp _ hentry hlast =>
    exact (leads_of_locate hp).below hfs (by rintro rfl; cases hlast) hentry
  | self hp =>
    have hsame : p.below [] = p := by rw [Path.below, List.append_nil]
    rw [hsame]
    exact leads_of_locate hp

theorem mem_below_iff (hsteps : steps ≠ []) :
    (∃ e, (steps, e) ∈ fs.below top) ↔ ∃ e, fs.entryAt? (top ++ steps) = some e := by
  have hmem : ∀ e, (steps, e) ∈ fs.below top ↔ (top ++ steps, e) ∈ fs.entries := by
    intro e
    rw [FileSystem.below, List.mem_filterMap]
    constructor
    · rintro ⟨⟨found, e'⟩, hentry, hdrop⟩
      split at hdrop
      · rename_i hprefix
        obtain ⟨rest, rfl⟩ := List.isPrefixOf_iff_prefix.1 hprefix.1
        simp only [List.drop_left, Option.some.injEq, Prod.mk.injEq] at hdrop
        rwa [hdrop.1, hdrop.2] at hentry
      · cases hdrop
    · intro hentry
      refine ⟨_, hentry, ?_⟩
      have hlength : 0 < steps.length := List.length_pos_iff.2 hsteps
      rw [if_pos ⟨List.isPrefixOf_iff_prefix.2 (List.prefix_append _ _), by simp [hlength]⟩,
        List.drop_left]
  simp only [hmem]
  constructor
  · rintro ⟨e, he⟩
    exact exists_entryAt? he
  · rintro ⟨e, he⟩
    exact ⟨e, mem_entries (by simp [hsteps]) he⟩

theorem ne_nil_of_mem_below {e : Entry} (h : (steps, e) ∈ fs.below top) : steps ≠ [] := by
  rw [FileSystem.below, List.mem_filterMap] at h
  obtain ⟨⟨found, e'⟩, -, hdrop⟩ := h
  split at hdrop
  · rename_i hprefix
    rw [Option.some.injEq, Prod.mk.injEq] at hdrop
    rw [← hdrop.1, ne_eq, List.drop_eq_nil_iff]
    exact Nat.not_le.2 hprefix.2
  · cases hdrop

theorem mem_componentsBelow_iff (hp : fs.locate p = .ok top)
    (hdirectory : fs.entryAt? top = some .directory) :
    q ∈ componentsBelow fs p ↔ ∃ steps place, StandsFor fs p steps place ∧ q = p.below steps := by
  rw [componentsBelow, hp, List.mem_mergeSort, List.mem_filter, List.mem_map]
  constructor
  · rintro ⟨⟨⟨steps, e⟩, hbelow, rfl⟩, hsuffix⟩
    have hsteps := ne_nil_of_mem_below hbelow
    obtain ⟨e', hentry⟩ := (mem_below_iff hsteps).1 ⟨e, hbelow⟩
    have hlast := List.getLast?_eq_some_getLast hsteps
    rw [Path.name_below hlast, List.isSuffixOf_iff_suffix] at hsuffix
    exact ⟨steps, _, .below hp hdirectory hentry hlast hsuffix, rfl⟩
  · rintro ⟨steps, place, h, rfl⟩
    cases h with
    | @below top' _ s e hp' _ hentry hlast hname =>
      obtain rfl : top' = top := Except.ok.inj (hp'.symm.trans hp)
      obtain ⟨e', he'⟩ := (mem_below_iff (by rintro rfl; cases hlast)).2 ⟨e, hentry⟩
      refine ⟨⟨(steps, e'), he', rfl⟩, ?_⟩
      rw [Path.name_below hlast, List.isSuffixOf_iff_suffix]
      exact hname
    | self hp' hfile =>
      rw [Except.ok.inj (hp'.symm.trans hp), hdirectory] at hfile
      cases hfile

theorem mem_candidates_iff {e : Entry} (hfind : fs.find p = .ok e) :
    q ∈ candidates fs p ↔ ∃ steps place, StandsFor fs p steps place ∧ q = p.below steps := by
  obtain ⟨top, hp, hentry⟩ := find_eq_ok_iff.1 hfind
  cases e with
  | directory =>
    have hdirectory : fs.isDirectory p = true := by rw [isDirectory, hfind]
    rw [candidates, if_pos hdirectory, mem_componentsBelow_iff hp hentry]
  | file octets =>
    have hdirectory : ¬ fs.isDirectory p = true := by simp [isDirectory, hfind]
    have hself : p.below [] = p := by rw [Path.below, List.append_nil]
    rw [candidates, if_neg hdirectory]
    constructor
    · intro hq
      split at hq
      · rename_i hsuffix
        rw [List.mem_singleton] at hq
        exact ⟨[], top, .self hp hentry hsuffix, by rw [hq, hself]⟩
      · cases hq
    · rintro ⟨steps, place, h, rfl⟩
      cases h with
      | below hp' hdirectory' =>
        rw [Except.ok.inj (hp'.symm.trans hp), hentry] at hdirectory'
        cases hdirectory'
      | self _ _ hsuffix => rw [if_pos hsuffix, hself, List.mem_singleton]

theorem mem_collect_iff (hpresent : ∀ t ∈ paths, ∃ e, fs.find (.ofText t) = .ok e) :
    q ∈ collect fs paths ↔ ∃ t ∈ paths, ∃ steps place,
      StandsFor fs (.ofText t) steps place ∧ q = (Path.ofText t).below steps := by
  rw [collect, List.mem_eraseDups, List.mem_flatMap]
  constructor
  · rintro ⟨t, ht, hq⟩
    obtain ⟨e, hfind⟩ := hpresent t ht
    exact ⟨t, ht, (mem_candidates_iff hfind).1 hq⟩
  · rintro ⟨t, ht, hq⟩
    obtain ⟨e, hfind⟩ := hpresent t ht
    exact ⟨t, ht, (mem_candidates_iff hfind).2 hq⟩

def IsComponentFile (fs : FileSystem) (place : Location) : Prop :=
  (∃ octets, fs.entryAt? place = some (.file octets)) ∧
    ∃ s, place.getLast? = some s ∧ extension <:+ s

/-- A path stands for the component files at the place that it leads to and below it.  At
the place itself a name that is nothing but the extension does not count. -/
theorem standsFor_file_iff (hfs : fs.WellFormed)
    (hworking : ∀ octets, fs.entryAt? fs.working ≠ some (.file octets)) {octets : List UInt8}
    (hfile : fs.entryAt? place = some (.file octets)) :
    StandsFor fs p steps place ↔ IsComponentFile fs place ∧ fs.Reaches p steps place ∧
      (steps = [] → place.getLast? ≠ some extension) := by
  constructor
  · intro h
    have hreach := h.reaches
    cases h with
    | below _ _ _ hlast hname =>
      refine ⟨⟨⟨_, hfile⟩, _, by rw [List.getLast?_append, hlast]; rfl, hname⟩, hreach, ?_⟩
      rintro rfl
      cases hlast
    | self hp _ hsuffix =>
      have hlast := (leads_of_locate hp).name hfs hworking hfile
      obtain ⟨hname, hbare⟩ := Path.suffix_eq_extension_iff.1 hsuffix
      exact ⟨⟨⟨_, hfile⟩, _, hlast, hname⟩, hreach, fun _ h => hbare (Option.some.inj (hlast ▸ h))⟩
  · rintro ⟨⟨-, s, hlast, hname⟩, ⟨top, hp, rfl⟩, hbare⟩
    by_cases hsteps : steps = []
    · subst hsteps
      rw [List.append_nil] at hfile hlast hbare ⊢
      have hpname := (leads_of_locate hp).name hfs hworking hfile
      obtain rfl : s = p.name := Option.some.inj (hlast.symm.trans hpname)
      refine .self hp hfile (Path.suffix_eq_extension_iff.2 ⟨hname, fun h => hbare rfl ?_⟩)
      rw [hlast, h]
    · rw [List.getLast?_append_of_ne_nil _ hsteps] at hlast
      have habove := hfs.directory hsteps (mem_entries (by simp [hsteps]) hfile)
      exact .below hp habove hfile hlast hname

/-- Paths to collect from: in a tree of files each of them leads to something. -/
structure Given (fs : FileSystem) (paths : List Text) : Prop where
  tree : fs.WellFormed
  working : ∀ octets, fs.entryAt? fs.working ≠ some (.file octets)
  present : ∀ t ∈ paths, ∃ e, fs.find (.ofText t) = .ok e

/-- Nothing but files is collected. -/
def HoldsFiles (fs : FileSystem) (paths : List Text) : Prop :=
  ∀ p ∈ collect fs paths, ∃ place octets, fs.Leads p place ∧ fs.entryAt? place = some (.file octets)

/-- Each component file that a given path leads to, or that stands below such a place, is
collected. -/
def HoldsAll (fs : FileSystem) (paths : List Text) : Prop :=
  ∀ place, IsComponentFile fs place → (∃ t ∈ paths, ∃ steps, fs.Reaches (.ofText t) steps place) →
    ∃ p ∈ collect fs paths, fs.Leads p place

/-- No two of the collected paths lead to one file. -/
def HoldsOnce (fs : FileSystem) (paths : List Text) : Prop :=
  ∀ p ∈ collect fs paths, ∀ q ∈ collect fs paths, ∀ place octets,
    fs.entryAt? place = some (.file octets) → fs.Leads p place → fs.Leads q place → p = q

/-- Below the given paths, no directory has a name with the extension. -/
def DirectoriesUnmarked (fs : FileSystem) (paths : List Text) : Prop :=
  ∀ t ∈ paths, ∀ steps place s, fs.Reaches (.ofText t) steps place →
    fs.entryAt? place = some .directory → steps.getLast? = some s → ¬ extension <:+ s

/-- A given file with nothing but the extension for a name stands below a given directory too. -/
def BareNamesBelow (fs : FileSystem) (paths : List Text) : Prop :=
  ∀ t ∈ paths, ∀ place octets, fs.Reaches (.ofText t) [] place →
    fs.entryAt? place = some (.file octets) → place.getLast? = some extension →
    ∃ u ∈ paths, ∃ steps, steps ≠ [] ∧ fs.Reaches (.ofText u) steps place

/-- Where two given paths stand for one component file, one of them is the other continued by
the steps between their places. -/
def SpelledAlike (fs : FileSystem) (paths : List Text) : Prop :=
  ∀ t ∈ paths, ∀ u ∈ paths, ∀ rest steps place, IsComponentFile fs place →
    fs.Reaches (.ofText t) (rest ++ steps) place → fs.Reaches (.ofText u) steps place →
    (steps = [] → place.getLast? ≠ some extension) → Path.ofText u = (Path.ofText t).below rest

theorem holdsFiles_iff (hgiven : Given fs paths) :
    HoldsFiles fs paths ↔ DirectoriesUnmarked fs paths := by
  constructor
  · rintro h t ht steps - s ⟨top, htop, rfl⟩ hdirectory hlast hname
    have hsteps : steps ≠ [] := by
      rintro rfl
      cases hlast
    have habove := hgiven.tree.directory hsteps (mem_entries (by simp [hsteps]) hdirectory)
    have hstands := StandsFor.below htop habove hdirectory hlast hname
    obtain ⟨place, octets, hleads, hfile⟩ :=
      h _ ((mem_collect_iff hgiven.present).2 ⟨t, ht, steps, _, hstands, rfl⟩)
    rw [hleads.unique (hstands.leads hgiven.tree), hdirectory] at hfile
    cases hfile
  · intro h p hp
    obtain ⟨t, ht, steps, place, hstands, rfl⟩ := (mem_collect_iff hgiven.present).1 hp
    refine ⟨place, ?_⟩
    have hleads := hstands.leads hgiven.tree
    have hreach := hstands.reaches
    cases hstands with
    | @below _ _ s e _ _ hentry hlast hname =>
      cases e with
      | directory => exact absurd hname (h t ht steps _ s hreach hentry hlast)
      | file octets => exact ⟨octets, hleads, hentry⟩
    | self _ hfile => exact ⟨_, hleads, hfile⟩

theorem holdsAll_iff (hgiven : Given fs paths) :
    HoldsAll fs paths ↔ BareNamesBelow fs paths := by
  constructor
  · intro h t ht place octets hreach hfile hbare
    have hcomponent : IsComponentFile fs place := ⟨⟨_, hfile⟩, _, hbare, List.suffix_rfl⟩
    obtain ⟨p, hp, hleads⟩ := h place hcomponent ⟨t, ht, [], hreach⟩
    obtain ⟨u, hu, steps, found, hstands, rfl⟩ := (mem_collect_iff hgiven.present).1 hp
    obtain rfl := hleads.unique (hstands.leads hgiven.tree)
    obtain ⟨-, hdown, hself⟩ := (standsFor_file_iff hgiven.tree hgiven.working hfile).1 hstands
    exact ⟨u, hu, steps, fun hsteps => hself hsteps hbare, hdown⟩
  · rintro h place hcomponent ⟨t, ht, steps, hreach⟩
    obtain ⟨octets, hfile⟩ := hcomponent.1
    obtain ⟨u, hu, steps', hreach', hself⟩ : ∃ u ∈ paths, ∃ steps',
        fs.Reaches (.ofText u) steps' place ∧ (steps' = [] → place.getLast? ≠ some extension) := by
      by_cases hbare : steps = [] ∧ place.getLast? = some extension
      · obtain ⟨u, hu, steps', hne, hdown⟩ :=
          h t ht place octets (hbare.1 ▸ hreach) hfile hbare.2
        exact ⟨u, hu, steps', hdown, fun hnil => absurd hnil hne⟩
      · exact ⟨t, ht, steps, hreach, fun hnil hlast => hbare ⟨hnil, hlast⟩⟩
    have hstands := (standsFor_file_iff hgiven.tree hgiven.working hfile).2
      ⟨hcomponent, hreach', hself⟩
    have hp := (mem_collect_iff hgiven.present).2 ⟨u, hu, steps', _, hstands, rfl⟩
    exact ⟨_, hp, hstands.leads hgiven.tree⟩

/-- Alike spelled paths have one path collected for a file that both stand for. -/
theorem SpelledAlike.below_eq (h : SpelledAlike fs paths) (hgiven : Given fs paths)
    {octets : List UInt8}
    (hfile : fs.entryAt? place = some (.file octets)) (ht : t ∈ paths) (hu : u ∈ paths)
    {rest : List Text} (hstands : StandsFor fs (.ofText t) (rest ++ steps) place)
    (hstands' : StandsFor fs (.ofText u) steps place) :
    (Path.ofText t).below (rest ++ steps) = (Path.ofText u).below steps := by
  obtain ⟨hcomponent, hreach', hself⟩ :=
    (standsFor_file_iff hgiven.tree hgiven.working hfile).1 hstands'
  rw [h t ht u hu rest steps place hcomponent hstands.reaches hreach' hself, Path.below_below]

theorem holdsOnce_iff (hgiven : Given fs paths) :
    HoldsOnce fs paths ↔ SpelledAlike fs paths := by
  constructor
  · intro h t ht u hu rest steps place hcomponent hreach hreach' hself
    obtain ⟨octets, hfile⟩ := hcomponent.1
    have hstands : StandsFor fs (.ofText t) (rest ++ steps) place :=
      (standsFor_file_iff hgiven.tree hgiven.working hfile).2
        ⟨hcomponent, hreach, fun hnil => hself (List.append_eq_nil_iff.1 hnil).2⟩
    have hstands' : StandsFor fs (.ofText u) steps place :=
      (standsFor_file_iff hgiven.tree hgiven.working hfile).2 ⟨hcomponent, hreach', hself⟩
    have hsame := h _ ((mem_collect_iff hgiven.present).2 ⟨t, ht, _, _, hstands, rfl⟩)
      _ ((mem_collect_iff hgiven.present).2 ⟨u, hu, _, _, hstands', rfl⟩) place octets hfile
      (hstands.leads hgiven.tree) (hstands'.leads hgiven.tree)
    rw [← Path.below_below] at hsame
    exact (Path.below_right_inj hsame).symm
  · intro h p hp q hq place octets hfile hleads hleads'
    obtain ⟨t, ht, steps, found, hstands, rfl⟩ := (mem_collect_iff hgiven.present).1 hp
    obtain ⟨u, hu, steps', found', hstands', rfl⟩ := (mem_collect_iff hgiven.present).1 hq
    obtain rfl := hleads.unique (hstands.leads hgiven.tree)
    obtain rfl := hleads'.unique (hstands'.leads hgiven.tree)
    obtain ⟨top, -, hplace⟩ := hstands.reaches
    obtain ⟨top', -, hplace'⟩ := hstands'.reaches
    -- both paths go down to the file, so the steps of one are the last steps of the other
    rcases List.suffix_or_suffix_of_suffix (⟨top, hplace.symm⟩ : steps <:+ place)
      ⟨top', hplace'.symm⟩ with ⟨rest, rfl⟩ | ⟨rest, rfl⟩
    · exact (h.below_eq hgiven hfile hu ht hstands' hstands).symm
    · exact h.below_eq hgiven hfile ht hu hstands hstands'

/-- A path that was given before adds nothing. -/
theorem collect_repeated {before : List Text} (h : u ∈ before) (after : List Text) :
    collect fs (before ++ u :: after) = collect fs (before ++ after) := by
  have hnothing : (candidates fs (.ofText u)).removeAll
      (before.flatMap fun t => candidates fs (.ofText t)) = [] := by
    refine List.filter_eq_nil_iff.2 fun p hp => ?_
    simpa using ⟨u, h, hp⟩
  simp only [collect, List.flatMap_append, List.flatMap_cons, List.eraseDups_append]
  rw [List.removeAll, List.filter_append, ← List.removeAll, hnothing, List.nil_append,
    List.removeAll]

/-- What is collected from given paths is files alone when no directory below them is named like
one, all component files there when a given name that is nothing but the extension is found below
a directory too, and each file once when the paths to it are spelled alike.  Without such a
condition the collection fails.  No path is collected twice, and one that was given before adds
nothing. -/
theorem collection_exact_iff (hgiven : Given fs paths) :
    (HoldsFiles fs paths ↔ DirectoriesUnmarked fs paths) ∧
      (HoldsAll fs paths ↔ BareNamesBelow fs paths) ∧
      (HoldsOnce fs paths ↔ SpelledAlike fs paths) ∧
      (collect fs paths).Nodup ∧
      ∀ (before after : List Text) (u : Text), u ∈ before →
        collect fs (before ++ u :: after) = collect fs (before ++ after) :=
  ⟨holdsFiles_iff hgiven, holdsAll_iff hgiven, holdsOnce_iff hgiven, Keyed.nodup_eraseDups _,
    fun _ after _ h => collect_repeated h after⟩

/-- In a tree of files whose root is the working directory, the paths are looked up. -/
theorem given_of_firstMissing? (htree : fs.WellFormed) (hroot : fs.working = [])
    (h : firstMissing? fs paths = .ok none) : Given fs paths where
  tree := htree
  working _ hfile := by
    rw [hroot] at hfile
    cases hfile
  present := present_of_firstMissing? h

/-- Below a directory, what is found in the order of the paths is left in it. -/
theorem candidates_of_sorted (top : Location) {found : List Path} (hp : fs.locate p = .ok top)
    (hdirectory : fs.isDirectory p = true)
    (hfound : ((fs.below top).map (p.below ·.1)).filter (extension.isSuffixOf ·.name) = found)
    (hsorted : found.Pairwise fun q q' => Path.le q q' = true) : candidates fs p = found := by
  rw [candidates, if_pos hdirectory, componentsBelow, hp]
  simp only [hfound]
  exact List.mergeSort_of_pairwise hsorted

/-- Two component files, one of them further down, and another file. -/
def nestedFiles : FileSystem := systemOf [("d/a.cmp", ""), ("d/sub/b.cmp", ""), ("d/x.txt", "")]

def nestedPaths : List Text := ["d".toList, "d/a.cmp".toList, "./d//sub".toList]

theorem collection_exact_iff_nested :
    Given nestedFiles nestedPaths ∧
      (collect nestedFiles nestedPaths).map (·.text) = ["d/a.cmp".toList, "d/sub/b.cmp".toList] ∧
      HoldsFiles nestedFiles nestedPaths ∧ HoldsAll nestedFiles nestedPaths ∧
      SpelledAlike nestedFiles nestedPaths := by
  have hgiven : Given nestedFiles nestedPaths :=
    given_of_firstMissing? ⟨by decide +kernel, by decide +kernel⟩ rfl (by decide +kernel)
  obtain ⟨hfiles, hall, honce, -⟩ := collection_exact_iff hgiven
  have hd : candidates nestedFiles (.ofText "d".toList) =
      [.ofText "d/a.cmp".toList, .ofText "d/sub/b.cmp".toList] :=
    candidates_of_sorted ["d".toList] (by decide +kernel) (by decide +kernel)
      (by decide +kernel) (by decide +kernel)
  have ha : candidates nestedFiles (.ofText "d/a.cmp".toList) = [.ofText "d/a.cmp".toList] := by
    decide +kernel
  have hsub : candidates nestedFiles (.ofText "./d//sub".toList) =
      [.ofText "d/sub/b.cmp".toList] :=
    candidates_of_sorted ["d".toList, "sub".toList] (by decide +kernel) (by decide +kernel)
      (by decide +kernel) (by decide +kernel)
  have hcollect : collect nestedFiles nestedPaths =
      [.ofText "d/a.cmp".toList, .ofText "d/sub/b.cmp".toList] := by
    rw [collect, nestedPaths]
    simp only [List.flatMap_cons, List.flatMap_nil, hd, ha, hsub]
    decide +kernel
  have hnames : ∀ p ∈ collect nestedFiles nestedPaths, ∀ q ∈ collect nestedFiles nestedPaths,
      p.name = q.name → p = q := by
    rw [hcollect]
    decide +kernel
  have hmarked : ∀ e ∈ nestedFiles.entries, e.2 = .directory →
      e.1.getLast?.any extension.isSuffixOf = false := by decide +kernel
  have hbare : ∀ e ∈ nestedFiles.entries, e.1.getLast? ≠ some extension := by decide +kernel
  refine ⟨hgiven, by rw [hcollect]; decide +kernel, hfiles.2 ?_, hall.2 ?_, honce.1 ?_⟩
  · rintro t - steps - s ⟨top, -, rfl⟩ hdirectory hlast hname
    have hsteps : steps ≠ [] := by
      rintro rfl
      cases hlast
    have hfound := hmarked _ (mem_entries (by simp [hsteps]) hdirectory) rfl
    rw [List.getLast?_append_of_ne_nil _ hsteps, hlast, Option.any_some,
      List.isSuffixOf_iff_suffix.2 hname] at hfound
    cases hfound
  · intro t _ place octets _ hfile hlast
    have hplace : place ≠ [] := by
      rintro rfl
      cases hlast
    exact absurd hlast (hbare _ (mem_entries hplace hfile))
  · intro p hp q hq place octets hfile hleads hleads'
    have hp' := hleads.name hgiven.tree hgiven.working hfile
    have hq' := hleads'.name hgiven.tree hgiven.working hfile
    exact hnames p hp q hq (Option.some.inj (hp'.symm.trans hq'))

def namedDirectory : FileSystem :=
  { entries := [(["d".toList], .directory), (["d".toList, "x.cmp".toList], .directory)], working := [] }

def besideDirectory : FileSystem := systemOf [("a.cmp", ""), ("d/x.txt", "")]

/-- A file with nothing but the extension for a name. -/
def bareFile : FileSystem := systemOf [(".cmp", "")]

/-- A directory is collected, a file is collected in two spellings, and one is left out. -/
theorem collection_inexact :
    (Given namedDirectory ["d".toList] ∧ ¬HoldsFiles namedDirectory ["d".toList]) ∧
      (Given besideDirectory ["a.cmp".toList, "d/../a.cmp".toList] ∧
        ¬HoldsOnce besideDirectory ["a.cmp".toList, "d/../a.cmp".toList]) ∧
      Given bareFile [".cmp".toList] ∧ ¬HoldsAll bareFile [".cmp".toList] := by
  have hnamed : Given namedDirectory ["d".toList] :=
    given_of_firstMissing? ⟨by decide +kernel, by decide +kernel⟩ rfl (by decide +kernel)
  have hbeside : Given besideDirectory ["a.cmp".toList, "d/../a.cmp".toList] :=
    given_of_firstMissing? ⟨by decide +kernel, by decide +kernel⟩ rfl (by decide +kernel)
  have hbare : Given bareFile [".cmp".toList] :=
    given_of_firstMissing? ⟨by decide +kernel, by decide +kernel⟩ rfl (by decide +kernel)
  refine ⟨⟨hnamed, fun h => ?_⟩, ⟨hbeside, fun h => ?_⟩, hbare, fun h => ?_⟩
  · exact (holdsFiles_iff hnamed).1 h "d".toList (by simp) ["x.cmp".toList] _ "x.cmp".toList
      ⟨["d".toList], by decide +kernel, rfl⟩ (by decide +kernel) rfl ⟨['x'], by decide +kernel⟩
  · have hplain : besideDirectory.locate (.ofText "a.cmp".toList) = .ok ["a.cmp".toList] := by
      decide +kernel
    have hround : besideDirectory.locate (.ofText "d/../a.cmp".toList) = .ok ["a.cmp".toList] := by
      decide +kernel
    have halike := (holdsOnce_iff hbeside).1 h
      "a.cmp".toList (by simp) "d/../a.cmp".toList (by simp) [] [] ["a.cmp".toList]
      ⟨⟨[], by decide +kernel⟩, _, rfl, ['a'], by decide +kernel⟩
      ⟨_, hplain, rfl⟩ ⟨_, hround, rfl⟩ (by decide +kernel)
    revert halike
    decide +kernel
  · have hself : bareFile.locate (.ofText ".cmp".toList) = .ok [".cmp".toList] := by decide +kernel
    obtain ⟨u, hu, steps, hsteps, top, htop, hplace⟩ := (holdsAll_iff hbare).1 h ".cmp".toList
      (by simp) [".cmp".toList] [] ⟨_, hself, rfl⟩ (by decide +kernel) rfl
    obtain rfl := List.mem_singleton.1 hu
    obtain rfl := Except.ok.inj (hself.symm.trans htop)
    exact hsteps (List.self_eq_append_right.1 hplace)

end Batch
end LightningTemplate
