import LightningTemplate.Mapping.BuiltIn
import LightningTemplate.Markup.NameChar
import LightningTemplate.Proofs.Render

/-! Names in templates.  Renaming a tag or an attribute adds small letters and hyphens
at most (`Renamed`), and none of these marks up a template.  So whatever a name becomes
under the built-in tables can still be read back as a name. -/
namespace LightningTemplate
open Text

namespace Text

/-- What the small form of a character can be made of, if it is not the character itself. -/
def isSmallForm (c : Char) : Bool :=
  (97 ≤ c.toNat && c.toNat ≤ 122) || (128 ≤ c.toNat && !isBlank c)

def wideBlanks : List Nat :=
  [0x85, 0xA0, 0x1680, 0x2000, 0x2001, 0x2002, 0x2003, 0x2004, 0x2005, 0x2006, 0x2007, 0x2008,
   0x2009, 0x200A, 0x2028, 0x2029, 0x202F, 0x205F, 0x3000]

theorem mem_wideBlanks {c : Char} (hc : 128 ≤ c.toNat) (h : isBlank c = true) :
    c.toNat ∈ wideBlanks := by
  simp only [isBlank, Bool.or_eq_true, Bool.and_eq_true, decide_eq_true_eq, beq_iff_eq] at h
  simp only [wideBlanks, List.mem_cons, List.not_mem_nil, or_false]
  omega

/-- Code points that all lie among the small letters, or above ASCII where no blank is. -/
def isSmallRange (first last : Nat) : Bool :=
  (97 ≤ first && last ≤ 122)
    || (128 ≤ first && (last < 0xD800 || (0xDFFF < first && last < 0x110000))
      && wideBlanks.all fun b => b < first || last < b)

theorem toNat_ofNat_of_isValidChar {n : Nat} (h : n.isValidChar) : (Char.ofNat n).toNat = n := by
  unfold Char.ofNat
  rw [dif_pos h]
  rfl

theorem isSmallForm_of_range {first last n : Nat} (h : isSmallRange first last = true)
    (hfirst : first ≤ n) (hlast : n ≤ last) : isSmallForm (Char.ofNat n) = true := by
  simp only [isSmallRange, Bool.or_eq_true, Bool.and_eq_true, decide_eq_true_eq,
    List.all_eq_true] at h
  have hvalid : n.isValidChar := by
    simp only [Nat.isValidChar]
    omega
  have hn : (Char.ofNat n).toNat = n := toNat_ofNat_of_isValidChar hvalid
  simp only [isSmallForm, hn, Bool.or_eq_true, Bool.and_eq_true, decide_eq_true_eq,
    Bool.not_eq_true']
  rcases h with h | ⟨⟨h, -⟩, hblank⟩
  · exact .inl (by omega)
  · refine .inr ⟨by omega, Bool.eq_false_iff.2 fun hb => ?_⟩
    have := hblank _ (mem_wideBlanks (by omega) hb)
    omega

theorem lowerRuns_small : lowerRuns.all (fun r =>
    isSmallRange (r.first + r.shift).toNat (r.last + r.shift).toNat) = true := by
  decide +kernel

/-- What holds of the first characters by their numbers holds of them. -/
theorem forall_ascii {P : Char → Prop} (h : ∀ n < 128, P (Char.ofNat n)) (c : Char)
    (hc : c.toNat < 128) : P c := by
  have := h c.toNat hc
  simpa using this

theorem toLower_eq_or_small (c : Char) : c.toLower = c ∨ isSmallForm c.toLower = true := by
  by_cases h : c.toNat < 128
  · exact forall_ascii (P := fun c => c.toLower = c ∨ isSmallForm c.toLower = true)
      (by decide +kernel) c h
  · left
    unfold Char.toLower
    rw [dif_neg]
    rintro ⟨-, hz⟩
    have : c.toNat ≤ 90 := by simpa [UInt32.le_iff_toNat_le] using hz
    omega

theorem mem_lowerChar {c d : Char} (h : d ∈ lowerChar c) : d = c ∨ isSmallForm d = true := by
  unfold lowerChar at h
  split at h
  · rw [List.mem_singleton] at h
    subst h
    exact toLower_eq_or_small c
  · split at h
    · right
      simp only [List.mem_cons, List.not_mem_nil, or_false] at h
      rcases h with rfl | rfl <;> decide
    · rw [List.mem_singleton] at h
      subst h
      unfold shiftBy
      split
      · rename_i r hr
        have hcov := List.find?_some hr
        simp only [CaseRun.covers, Bool.and_eq_true, decide_eq_true_eq] at hcov
        have hrun := List.all_eq_true.1 lowerRuns_small r (List.mem_of_find?_eq_some hr)
        exact .inr (isSmallForm_of_range hrun (by omega) (by omega))
      · exact .inl rfl

/-- A lowered text is made of its lowered characters and the two forms of the small sigma. -/
theorem mem_lowerAfter {before t : Text} {d : Char} (h : d ∈ lowerAfter before t) :
    (d = 'ς' ∨ d = 'σ') ∨ ∃ c ∈ t, d ∈ lowerChar c := by
  induction t generalizing before with
  | nil => simp [lowerAfter] at h
  | cons c cs ih =>
    rw [lowerAfter, List.mem_append] at h
    rcases h with h | h
    · split at h
      · left
        split at h
        · exact .inl (List.mem_singleton.1 h)
        · exact .inr (List.mem_singleton.1 h)
      · exact .inr ⟨c, List.mem_cons_self, h⟩
    · exact (ih h).imp_right fun ⟨e, he, hd⟩ => ⟨e, List.mem_cons_of_mem _ he, hd⟩

theorem mem_lower {t : Text} {d : Char} (h : d ∈ lower t) : d ∈ t ∨ isSmallForm d = true := by
  rcases mem_lowerAfter h with (rfl | rfl) | ⟨c, hc, hd⟩
  · exact .inr (by decide)
  · exact .inr (by decide)
  · rcases mem_lowerChar hd with rfl | hsmall
    · exact .inl hc
    · exact .inr hsmall

theorem lowerChar_ne_nil (c : Char) : lowerChar c ≠ [] := by
  unfold lowerChar
  split
  · simp
  · split <;> simp

theorem lower_ne_nil {t : Text} (h : t ≠ []) : lower t ≠ [] := by
  cases t with
  | nil => exact absurd rfl h
  | cons c cs =>
    rw [lower, lowerAfter]
    split
    · simp
    · simp [lowerChar_ne_nil]

def isTame (c : Char) : Bool := isSmallForm c || c == '-'

def isMark (c : Char) : Bool :=
  isBlank c || c == '"' || c == '\'' || c == '<' || c == '>' || c == '/' || c == '='

def isName (t : Text) : Bool := !t.isEmpty && t.all (!isMark ·)

theorem isName_iff {t : Text} : isName t = true ↔ t ≠ [] ∧ ∀ c ∈ t, isMark c = false := by
  simp [isName]

theorem isMark_wide {c : Char} (h : 128 ≤ c.toNat) : isMark c = isBlank c := by
  have hne : ∀ d : Char, d.toNat < 128 → (c == d) = false := by
    intro d hd
    rw [beq_eq_false_iff_ne]
    rintro rfl
    omega
  simp only [isMark, hne _ (by decide : '"'.toNat < 128), hne _ (by decide : '\''.toNat < 128),
    hne _ (by decide : '<'.toNat < 128), hne _ (by decide : '>'.toNat < 128),
    hne _ (by decide : '/'.toNat < 128), hne _ (by decide : '='.toNat < 128), Bool.or_false]

theorem isMark_of_isTame {c : Char} (h : isTame c = true) : isMark c = false := by
  by_cases hc : c.toNat < 128
  · exact forall_ascii (P := fun c => isTame c = true → isMark c = false) (by decide +kernel) c hc h
  · have hd : c ≠ '-' := by
      rintro rfl
      exact hc (by decide)
    have hs : isSmallForm c = true := by simpa [isTame, hd] using h
    simp only [isSmallForm, Bool.or_eq_true, Bool.and_eq_true, decide_eq_true_eq,
      Bool.not_eq_true'] at hs
    rcases hs with hs | ⟨hle, hb⟩
    · omega
    · rw [isMark_wide hle, hb]

/-- The new name comes from the old one with tame characters added at most. -/
structure Renamed (old new : Text) : Prop where
  nonempty : old ≠ [] → new ≠ []
  chars : ∀ c ∈ new, c ∈ old ∨ isTame c = true

namespace Renamed
variable {a b c : Text}

theorem refl (t : Text) : Renamed t t := ⟨id, fun _ => .inl⟩

theorem trans (h : Renamed a b) (h' : Renamed b c) : Renamed a c := by
  refine ⟨h'.nonempty ∘ h.nonempty, fun d hd => ?_⟩
  rcases h'.chars d hd with hd | hd
  · exact h.chars d hd
  · exact .inr hd

/-- A name made of tame characters alone can replace any other. -/
theorem ofTame (old : Text) (h : b ≠ [] ∧ b.all isTame = true) : Renamed old b :=
  ⟨fun _ => h.1, fun c hc => .inr (List.all_eq_true.1 h.2 c hc)⟩

theorem tameAppend (ha : a.all isTame = true) (h : Renamed b c) : Renamed b (a ++ c) := by
  refine ⟨fun hb => by simp [h.nonempty hb], fun d hd => ?_⟩
  rcases List.mem_append.1 hd with hd | hd
  · exact .inr (List.all_eq_true.1 ha d hd)
  · exact h.chars d hd

theorem isName (h : Renamed a b) (ha : isName a = true) : isName b = true := by
  rw [isName_iff] at ha ⊢
  refine ⟨h.nonempty ha.1, fun c hc => ?_⟩
  rcases h.chars c hc with hc | hc
  · exact ha.2 c hc
  · exact isMark_of_isTame hc

end Renamed

theorem renamed_lower (t : Text) : Renamed t (lower t) := by
  refine ⟨lower_ne_nil, fun c hc => ?_⟩
  rcases mem_lower hc with hc | hc
  · exact .inl hc
  · exact .inr (by simp [isTame, hc])

end Text

theorem renamed_hyphenate (t : Text) : Renamed t (hyphenate t) := by
  induction t with
  | nil => exact .refl _
  | cons d ds ih =>
    rw [hyphenate]
    split
    · refine ⟨fun _ => by simp, fun c hc => ?_⟩
      rw [List.mem_cons, List.mem_cons] at hc
      rcases hc with rfl | rfl | hc
      · exact .inl (by simp)
      · exact .inr (by decide)
      · exact (ih.chars c hc).imp_left (by simp [·])
    · refine ⟨fun _ => by simp, fun c hc => ?_⟩
      rw [List.mem_cons] at hc
      rcases hc with rfl | hc
      · exact .inl (by simp)
      · exact (ih.chars c hc).imp_left (by simp [·])

theorem renamed_kebab (t : Text) : Renamed t (kebab t) :=
  (renamed_hyphenate t).trans (renamed_lower _)

theorem renamed_namespaceTag {tag new : Text} (h : namespaceTag? tag = some new) :
    Renamed tag new := by
  have tame : ∀ t : Text, t ≠ [] ∧ t.all isTame = true → Renamed tag t := fun _ => .ofTame tag
  unfold namespaceTag? at h
  split at h
  · cases h
  · cases h
  · rename_i space base hne hcut
    have hbase : Renamed tag base := by
      refine ⟨fun _ => by rintro rfl; exact hne rfl, fun c hc => .inl ?_⟩
      rw [(eq_of_cut hcut).2]
      simp [hc]
    have hspaced : ∀ mark : Text, mark.all isTame = true → Renamed tag (mark ++ kebab base) :=
      fun mark hm => .tameAppend hm (hbase.trans (renamed_kebab base))
    simp only at h
    split at h
    · cases h
      exact hspaced _ (by decide)
    · split at h
      · split at h
        · cases h
          exact tame _ (by decide)
        · split at h
          · cases h
            exact tame _ (by decide)
          · split at h
            · cases h
              exact tame _ (by decide)
            · cases h
      · split at h
        · cases h
          exact hspaced _ (by decide)
        · cases h

namespace Mapping

structure KeepsNames (m : Mapping) : Prop where
  tags : ∀ tag, ∃ t, m.templateTag tag = .text t ∧ Renamed tag t
  attributes : ∀ tag name, Renamed name (Render.attributeName (m.component? tag) name)

def isTameTarget : Value → Bool
  | .text t => !t.isEmpty && t.all isTame
  | _ => false

theorem renamed_of_isTameTarget {v : Value} (h : isTameTarget v = true) (old : Text) :
    ∃ t, v = .text t ∧ Renamed old t := by
  cases v with
  | text t => exact ⟨t, rfl, .ofTame old (by simpa [isTameTarget] using h)⟩
  | _ => simp [isTameTarget] at h

theorem builtIn_targets : ∀ e ∈ builtInComponents,
    (e.2.target.isGiven = true → isTameTarget e.2.target = true) ∧
      ∀ a ∈ e.2.attributes, isTameTarget a.2 = true := by
  decide +kernel

theorem mem_components {m : Mapping} {tag : Text} {e : ComponentEntry} (h : m.component? tag = some e) :
    (lower tag, e) ∈ m.components := by
  obtain ⟨before, after, hl, -⟩ := List.lookup_eq_some_iff.1 h
  simp [hl]

theorem templateTag_cases (m : Mapping) (tag : Text) :
    (∃ e, m.component? tag = some e ∧ e.target.isGiven = true ∧ m.templateTag tag = e.target) ∨
      ∃ t, m.templateTag tag = .text t ∧ Renamed tag t := by
  have hruled : Renamed tag ((namespaceTag? tag).getD tag) := by
    cases h : namespaceTag? tag with
    | none => exact .refl tag
    | some new => exact renamed_namespaceTag h
  unfold templateTag
  cases he : m.component? tag with
  | none => exact .inr ⟨_, rfl, hruled⟩
  | some e =>
    by_cases hgiven : e.target.isGiven = true
    · exact .inl ⟨e, rfl, hgiven, if_pos hgiven⟩
    · exact .inr ⟨_, if_neg hgiven, hruled⟩

theorem attributeName_cases (entry : Option ComponentEntry) (name : Text) :
    (∃ e a, entry = some e ∧ a ∈ e.attributes ∧ Render.attributeName entry name = a.2.display) ∨
      Renamed name (Render.attributeName entry name) := by
  unfold Render.attributeName
  by_cases hid : name = auraId
  · subst hid
    rw [if_pos rfl]
    exact .inr (.ofTame _ (by decide))
  · rw [if_neg hid]
    cases ht : entry.bind (·.attribute? name) with
    | some target =>
      obtain ⟨e, he, hfield⟩ := Option.bind_eq_some_iff.1 ht
      obtain ⟨a, ha, rfl⟩ := Option.map_eq_some_iff.1 hfield
      exact .inl ⟨e, a, he, List.mem_of_find?_eq_some ha, rfl⟩
    | none =>
      right
      simp only
      split
      · exact renamed_lower name
      · simp only [attributeTarget, hid, if_false, ht]
        exact renamed_kebab name

theorem builtIn_keepsNames : builtIn.KeepsNames := by
  constructor
  · intro tag
    rcases templateTag_cases builtIn tag with ⟨e, he, hgiven, htarget⟩ | hruled
    · rw [htarget]
      exact renamed_of_isTameTarget ((builtIn_targets _ (mem_components he)).1 hgiven) tag
    · exact hruled
  · intro tag name
    rcases attributeName_cases (builtIn.component? tag) name with ⟨e, a, he, ha, hname⟩ | hruled
    · have htame := (builtIn_targets _ (mem_components he)).2 a ha
      obtain ⟨t, ht, hrenamed⟩ := renamed_of_isTameTarget htame name
      rw [hname, ht]
      exact hrenamed
    · exact hruled

end Mapping
end LightningTemplate
