import Mathlib.Data.List.Chain
import LightningTemplate.Proofs.NameWords
import LightningTemplate.Proofs.PathToken

/-! Names whose words are joined by capitals, and their hyphened forms.  A hyphened name is read
back by a capital in the place of each hyphen and the letter after it (`unhyphened`).  That gives
the name again just when it starts with a small letter and no two capitals stand side by side,
for the other capitals have become small letters without a trace.  Small forms are their own
small forms (`lower_lower`), so a hyphened name is its own hyphened form (`kebab_kebab`). -/
namespace LightningTemplate
open Text

namespace Text
variable {c d : Char} {t : Text}

def bits (codes : List Nat) : Nat := codes.foldr (fun n m => 1 <<< n ||| m) 0

theorem testBit_bits {codes : List Nat} {n : Nat} : (bits codes).testBit n = true ↔ n ∈ codes := by
  induction codes with
  | nil => simp [bits]
  | cons m codes ih =>
    have hcons : bits (m :: codes) = 1 <<< m ||| bits codes := rfl
    rw [hcons, Nat.testBit_or, Bool.or_eq_true, ih, Nat.one_shiftLeft, Nat.testBit_two_pow,
      decide_eq_true_eq, List.mem_cons, eq_comm]

theorem notMem_of_bits {as bs : List Nat} (h : bits as &&& bits bs = 0) {n : Nat} (ha : n ∈ as) :
    n ∉ bs := by
  intro hb
  have hbit := congrArg (·.testBit n) h
  simp only [Nat.testBit_and, testBit_bits.2 ha, testBit_bits.2 hb, Nat.zero_testBit] at hbit
  contradiction

def CaseRun.codes (r : CaseRun) : List Nat :=
  List.range' r.first ((r.last - r.first) / r.step + 1) r.step

def CaseRun.images (r : CaseRun) : List Nat :=
  r.codes.map fun n : Nat => ((n : Int) + r.shift).toNat

theorem CaseRun.mem_codes {r : CaseRun} {n : Nat} (h : r.covers n = true) : n ∈ r.codes := by
  simp only [covers, Bool.and_eq_true, decide_eq_true_eq, beq_iff_eq] at h
  obtain ⟨⟨hfirst, hlast⟩, hstep⟩ := h
  have hquotient : (n - r.first) / r.step ≤ (r.last - r.first) / r.step :=
    Nat.div_le_div_right (Nat.sub_le_sub_right hlast _)
  refine List.mem_range'.2 ⟨_, Nat.lt_succ_of_le hquotient, ?_⟩
  rw [Nat.mul_div_cancel' (Nat.dvd_of_mod_eq_zero hstep), Nat.add_sub_cancel' hfirst]

def loweredCodes : List Nat := 0x130 :: lowerRuns.flatMap CaseRun.codes

/-- The code points above ASCII that are in small forms: the dot of the capital I, the two forms
of the sigma, and what the runs lead to. -/
def smallCodes : List Nat := [0x307, 0x3C2, 0x3C3] ++ lowerRuns.flatMap CaseRun.images

theorem smallCodes_apart : bits smallCodes &&& bits loweredCodes = 0 := by decide +kernel

theorem lowerChar_of_smallCode (hc : 128 ≤ c.toNat) (h : c.toNat ∈ smallCodes) :
    lowerChar c = [c] := by
  have hnot := notMem_of_bits smallCodes_apart h
  rw [loweredCodes, List.mem_cons, not_or, List.mem_flatMap] at hnot
  have hdotted : c ≠ '\u0130' := by
    rintro rfl
    exact hnot.1 rfl
  have hnone : lowerRuns.find? (·.covers c.toNat) = none :=
    List.find?_eq_none.2 fun r hr hcovers => hnot.2 ⟨r, hr, CaseRun.mem_codes hcovers⟩
  rw [lowerChar, if_neg (Nat.not_lt.2 hc), if_neg hdotted, shiftBy, hnone]

theorem lowerChar_ascii (hc : c.toNat < 128) : lowerChar c = [c.toLower] := by
  rw [lowerChar, if_pos hc]

theorem ascii_cases : ∀ c : Char, c.toNat < 128 →
    (c.isUpper = false ∧ c.toLower = c ∧
      (c.isAlphanum = true → isAsciiLowerOrDigit c = true ∧ c ≠ '-')) ∨
    (c.isUpper = true ∧ c.isLower = false ∧ c.toNat < 97 ∧ isAsciiLowerOrDigit c = false ∧
      c.toLower ≠ c ∧ c.toLower ≠ '-' ∧ c.toLower.toLower = c.toLower ∧ c.toLower.toUpper = c ∧
      c.toLower.toNat < 128) :=
  forall_ascii (by decide +kernel)

/-- What the table of runs leads to stays where it is. -/
theorem lowerChar_apply {r : CaseRun} (hr : r ∈ lowerRuns) {n : Nat} (hn : r.covers n = true) :
    lowerChar (r.apply n) = [r.apply n] := by
  have hrange := List.all_eq_true.1 lowerRuns_small r hr
  have hcov := hn
  simp only [CaseRun.covers, Bool.and_eq_true, decide_eq_true_eq] at hcov
  have hsmall : isSmallForm (r.apply n) = true :=
    isSmallForm_of_range hrange (by omega) (by omega)
  simp only [isSmallForm, Bool.or_eq_true, Bool.and_eq_true, decide_eq_true_eq] at hsmall
  rcases hsmall with hletter | ⟨hwide, -⟩
  · have hc : (r.apply n).toNat < 128 := by omega
    rcases ascii_cases _ hc with ⟨-, hfixed, -⟩ | ⟨-, -, hlow, -⟩
    · rw [lowerChar_ascii hc, hfixed]
    · omega
  · have hcode : (r.apply n).toNat = ((n : Int) + r.shift).toNat := by
      refine toNat_ofNat_of_isValidChar (Classical.byContradiction fun hinvalid => ?_)
      have hzero : r.apply n = Char.ofNat 0 := by
        rw [CaseRun.apply, Char.ofNat, dif_neg hinvalid]
        rfl
      rw [hzero] at hwide
      exact absurd hwide (by decide)
    refine lowerChar_of_smallCode hwide (List.mem_append_right _ ?_)
    rw [hcode]
    exact List.mem_flatMap.2 ⟨r, hr, List.mem_map.2 ⟨n, CaseRun.mem_codes hn, rfl⟩⟩

theorem lowerChar_of_mem_lowerChar (h : d ∈ lowerChar c) : lowerChar d = [d] := by
  by_cases hc : c.toNat < 128
  · rw [lowerChar_ascii hc, List.mem_singleton] at h
    rcases ascii_cases c hc with ⟨-, hsmall, -⟩ | ⟨-, -, -, -, -, -, htwice, -, hlt⟩
    · rw [h, hsmall, lowerChar_ascii hc, hsmall]
    · rw [h, lowerChar_ascii hlt, htwice]
  · rw [lowerChar, if_neg hc] at h
    split at h
    · simp only [List.mem_cons, List.not_mem_nil, or_false] at h
      rcases h with rfl | rfl
      · exact lowerChar_ascii (by decide)
      · exact lowerChar_of_smallCode (by decide) (List.mem_append_left _ (by decide))
    · rename_i hdotted
      rw [List.mem_singleton] at h
      rw [h, shiftBy]
      split
      · rename_i r hr
        exact lowerChar_apply (List.mem_of_find?_eq_some hr)
          (List.find?_some (p := fun r : CaseRun => r.covers c.toNat) hr)
      · rename_i hnone
        rw [lowerChar, if_neg hc, if_neg hdotted, shiftBy, hnone]

theorem lowerChar_of_mem_lowerAfter {before : Text} (h : d ∈ lowerAfter before t) :
    lowerChar d = [d] := by
  rcases mem_lowerAfter h with (rfl | rfl) | ⟨c, -, hd⟩
  · exact lowerChar_of_smallCode (by decide) (List.mem_append_left _ (by decide))
  · exact lowerChar_of_smallCode (by decide) (List.mem_append_left _ (by decide))
  · exact lowerChar_of_mem_lowerChar hd

theorem lowerAfter_of_small {before : Text} (h : ∀ c ∈ t, lowerChar c = [c]) :
    lowerAfter before t = t := by
  induction t generalizing before with
  | nil => rfl
  | cons c cs ih =>
    rw [List.forall_mem_cons] at h
    have hsigma : c ≠ 'Σ' := by
      rintro rfl
      exact absurd h.1 (by decide)
    rw [lowerAfter, if_neg hsigma, h.1, ih h.2, List.singleton_append]

theorem lower_lower (t : Text) : lower (lower t) = lower t :=
  lowerAfter_of_small fun _ hc => lowerChar_of_mem_lowerAfter hc

theorem toNat_lt_of_isAlphanum (h : c.isAlphanum = true) : c.toNat < 128 := by
  rcases Bool.or_eq_true_iff.1 h with halpha | hdigit
  · exact Expression.toNat_lt_of_isAlpha halpha
  · have hle : c.val ≤ '9'.val := of_decide_eq_true (Bool.and_eq_true_iff.1 hdigit).2
    exact Nat.lt_of_le_of_lt (UInt32.le_iff_toNat_le.1 hle) (by decide)

theorem isUpper_of_small (h : lowerChar c = [c]) : c.isUpper = false := by
  refine Bool.eq_false_iff.2 fun hupper => ?_
  have hc : c.toNat < 128 :=
    Expression.toNat_lt_of_isAlpha (Bool.or_eq_true_iff.2 (.inl hupper))
  rw [lowerChar_ascii hc, List.singleton_inj] at h
  rcases ascii_cases c hc with ⟨hnot, -⟩ | ⟨-, -, -, -, hne, -⟩
  · exact absurd (hnot.symm.trans hupper) (by decide)
  · exact hne h

theorem lower_ascii (h : ∀ c ∈ t, c.toNat < 128) : lower t = t.map Char.toLower := by
  have hafter : ∀ before, lowerAfter before t = t.map Char.toLower := by
    induction t with
    | nil => exact fun _ => rfl
    | cons c cs ih =>
      rw [List.forall_mem_cons] at h
      intro before
      have hsigma : c ≠ 'Σ' := by
        rintro rfl
        exact absurd h.1 (by decide)
      rw [lowerAfter, if_neg hsigma, lowerChar_ascii h.1, ih h.2, List.map_cons,
        List.singleton_append]
  exact hafter []

/-- What a basic Latin letter or digit and its small form have to do with one another. -/
theorem alphanum_cases (h : c.isAlphanum = true) :
    (c.toLower = c ∧ c.isUpper = false ∧ isAsciiLowerOrDigit c = true ∧ c ≠ '-') ∨
    (c.toLower ≠ c ∧ c.isUpper = true ∧ isAsciiLowerOrDigit c = false ∧ c.toLower ≠ '-' ∧
      c.toLower.toUpper = c) := by
  rcases ascii_cases c (toNat_lt_of_isAlphanum h) with
    ⟨hupper, hsmall, hrest⟩ | ⟨hupper, -, -, hlod, hne, hhyphen, -, hback, -⟩
  · exact .inl ⟨hsmall, hupper, hrest h⟩
  · exact .inr ⟨hne, hupper, hlod, hhyphen, hback⟩

theorem toLower_ne_hyphen (h : c.isAlphanum = true) : c.toLower ≠ '-' := by
  rcases alphanum_cases h with ⟨hsmall, -, -, hne⟩ | ⟨-, -, -, hne, -⟩
  · rwa [hsmall]
  · exact hne

end Text

theorem hyphenate_of_no_capital {t : Text} (h : ∀ c ∈ t, c.isUpper = false) : hyphenate t = t := by
  induction t with
  | nil => rfl
  | cons c cs ih =>
    rw [List.forall_mem_cons] at h
    have hnext : cs.head?.any (·.isUpper) = false := by
      cases cs with
      | nil => rfl
      | cons d ds => exact h.2 d List.mem_cons_self
    rw [hyphenate, hnext, Bool.and_false, if_neg Bool.false_ne_true, ih h.2]

theorem kebab_kebab (t : Text) : kebab (kebab t) = kebab t := by
  have hplain : hyphenate (kebab t) = kebab t :=
    hyphenate_of_no_capital fun _ hc => isUpper_of_small (lowerChar_of_mem_lowerAfter hc)
  rw [kebab, hplain, kebab, lower_lower]

/-- A capital in the place of each hyphen and the character after it. -/
def unhyphened : Text → Text
  | [] => []
  | '-' :: c :: cs => c.toUpper :: unhyphened cs
  | c :: cs => c :: unhyphened cs

theorem unhyphened_cons {c : Char} (h : c ≠ '-') (cs : Text) :
    unhyphened (c :: cs) = c :: unhyphened cs := by
  rw [unhyphened]
  rintro d ds rfl -
  exact h rfl

/-- A basic Latin letter, and letters and digits after it. -/
def isCamelName : Text → Bool
  | [] => false
  | c :: cs => c.isAlpha && cs.all Char.isAlphanum

/-- No two capitals stand side by side. -/
def CapitalsApart (name : Text) : Prop :=
  name.IsChain fun a b => ¬(a.isUpper = true ∧ b.isUpper = true)

instance (name : Text) : Decidable (CapitalsApart name) :=
  inferInstanceAs (Decidable (List.IsChain _ name))

variable {name : Text} {c d : Char} {cs : Text}

theorem isAlphanum_of_isCamelName (h : isCamelName name = true) :
    ∀ c ∈ name, c.isAlphanum = true := by
  cases name with
  | nil => simp
  | cons c cs =>
    rw [isCamelName, Bool.and_eq_true, List.all_eq_true] at h
    exact List.forall_mem_cons.2 ⟨by simp [Char.isAlphanum, h.1], h.2⟩

theorem kebab_alphanum (h : ∀ c ∈ name, c.isAlphanum = true) :
    kebab name = (hyphenate name).map Char.toLower := by
  refine lower_ascii ?_
  induction name with
  | nil => simp [hyphenate]
  | cons c cs ih =>
    rw [List.forall_mem_cons] at h
    have hc := toNat_lt_of_isAlphanum h.1
    have hhyphen : '-'.toNat < 128 := by decide
    rw [hyphenate]
    split <;> simpa only [List.forall_mem_cons, hc, hhyphen, true_and] using ih h.2

theorem unhyphened_boundary (hc : c.isAlphanum = true) (hlow : isAsciiLowerOrDigit c = true)
    (hd : d.isAlphanum = true) (hupper : d.isUpper = true) :
    unhyphened ((hyphenate (c :: d :: cs)).map Char.toLower) =
      c :: d :: unhyphened ((hyphenate cs).map Char.toLower) := by
  rcases alphanum_cases hc with ⟨hsmall, -, -, hne⟩ | ⟨-, -, hnot, -⟩
  · rcases alphanum_cases hd with ⟨-, hnot, -⟩ | ⟨-, -, hnot, -, hback⟩
    · exact absurd (hnot.symm.trans hupper) (by decide)
    · have hhyphen : '-'.toLower = '-' := by decide
      rw [hyphenate, hlow, List.head?_cons, Option.any_some, hupper, Bool.true_and, if_pos rfl,
        hyphenate, hnot, Bool.false_and, if_neg Bool.false_ne_true, List.map_cons, List.map_cons,
        List.map_cons, hsmall, hhyphen, unhyphened_cons hne, unhyphened, hback]
  · exact absurd (hnot.symm.trans hlow) (by decide)

/-- Elsewhere a character becomes its small form. -/
theorem unhyphened_within (hc : c.isAlphanum = true)
    (h : (isAsciiLowerOrDigit c && cs.head?.any (·.isUpper)) = false) :
    unhyphened ((hyphenate (c :: cs)).map Char.toLower) =
      c.toLower :: unhyphened ((hyphenate cs).map Char.toLower) := by
  rw [hyphenate, h, if_neg Bool.false_ne_true, List.map_cons,
    unhyphened_cons (toLower_ne_hyphen hc)]

theorem unhyphened_eq_iff : ∀ {name : Text}, (∀ c ∈ name, c.isAlphanum = true) →
    (unhyphened ((hyphenate name).map Char.toLower) = name ↔
      name.head?.any (·.isUpper) = false ∧ CapitalsApart name)
  | [], _ => by simp [hyphenate, unhyphened, CapitalsApart]
  | [c], h => by
    have hc := h c (by simp)
    rw [unhyphened_within hc (by simp)]
    rcases alphanum_cases hc with ⟨hsmall, hlow, -⟩ | ⟨hsmall, hupper, -⟩
    · simp [hyphenate, unhyphened, CapitalsApart, hsmall, hlow]
    · simp [hyphenate, unhyphened, CapitalsApart, hsmall, hupper]
  | c :: d :: cs, h => by
    have hc := h c (by simp)
    have hd := h d (by simp)
    have hcs : ∀ c ∈ cs, c.isAlphanum = true := fun e he => h e (by simp [he])
    have htail : ∀ e ∈ d :: cs, e.isAlphanum = true := List.forall_mem_cons.2 ⟨hd, hcs⟩
    have hrest := unhyphened_eq_iff htail
    have hfar := unhyphened_eq_iff hcs
    rcases alphanum_cases hc with ⟨hsmall, hlow, hlod, -⟩ | ⟨hsmall, hupper, hlod, -⟩
    · rcases alphanum_cases hd with ⟨-, hdlow, -⟩ | ⟨-, hdupper, -⟩
      · -- no capital at either place: the rest decides
        rw [unhyphened_within hc (by simp [hdlow]), hsmall, List.cons_inj_right, hrest]
        simp [CapitalsApart, hlow, hdlow]
      · -- a boundary: the capital is there again, and what follows decides
        rw [unhyphened_boundary hc hlod hd hdupper, List.cons_inj_right, List.cons_inj_right, hfar]
        cases cs <;> simp [CapitalsApart, hlow, hdupper]
    · -- a capital at the start is lost
      rw [unhyphened_within hc (by simp [hlod])]
      simp [hsmall, hupper]

theorem filter_hyphen_hyphenate (h : ∀ c ∈ name, c.isAlphanum = true) :
    ((hyphenate name).map Char.toLower).filter (· ≠ '-') = name.map Char.toLower := by
  induction name with
  | nil => rfl
  | cons c cs ih =>
    rw [List.forall_mem_cons] at h
    have hne := toLower_ne_hyphen h.1
    have hhyphen : '-'.toLower = '-' := by decide
    rw [hyphenate]
    split <;> simp [hne, hhyphen, ← ih h.2]

/-- Hyphened names: when they can be read back, what is left without the hyphens, and that they
are their own hyphened forms. -/
theorem hyphened_names :
    (∀ name, isCamelName name = true →
      (unhyphened (kebab name) = name ↔
        name.head?.any (·.isLower) = true ∧ CapitalsApart name) ∧
      (kebab name).filter (· ≠ '-') = lower name) ∧
    ∀ t, kebab (kebab t) = kebab t := by
  refine ⟨fun name h => ?_, kebab_kebab⟩
  have hall := isAlphanum_of_isCamelName h
  rw [kebab_alphanum hall, lower_ascii fun c hc => toNat_lt_of_isAlphanum (hall c hc)]
  refine ⟨(unhyphened_eq_iff hall).trans (and_congr_left' ?_), filter_hyphen_hyphenate hall⟩
  cases name with
  | nil => simp [isCamelName] at h
  | cons c cs =>
    rw [isCamelName, Bool.and_eq_true] at h
    show c.isUpper = false ↔ c.isLower = true
    rcases ascii_cases c (toNat_lt_of_isAlphanum (hall c List.mem_cons_self)) with
      ⟨hupper, -⟩ | ⟨hupper, hlower, -⟩
    · have hlower := (Bool.or_eq_true_iff.1 h.1).resolve_left (by simp [hupper])
      exact iff_of_true hupper hlower
    · simp [hupper, hlower]

/-- A name with a capital inside a word is not read back. -/
theorem hyphened_names_recordID :
    isCamelName "recordID".toList = true ∧ kebab "recordID".toList = "record-id".toList ∧
      unhyphened (kebab "recordID".toList) ≠ "recordID".toList :=
  ⟨by decide, by decide +kernel, fun h =>
    absurd ((hyphened_names.1 _ (by decide)).1.1 h).2 (by decide)⟩

end LightningTemplate
