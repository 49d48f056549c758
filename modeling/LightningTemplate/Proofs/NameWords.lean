import LightningTemplate.Proofs.Naming

/-! The words of a hyphened name.  A name is cut at its hyphens and before each capital that follows
a small letter or a digit; its words are the small forms of these parts.  A hyphened name is its
words with hyphens between them, and no word has a hyphen, so two names are hyphened to the same
just when they have the same words (`kebab_eq_kebab_iff`). -/
namespace LightningTemplate
open Text

namespace Text

variable {sep : Char} {t w : Text} {ws : List Text}

theorem splitOn_inj {a b : Text} : splitOn sep a = splitOn sep b ↔ a = b := by
  refine ⟨fun h => ?_, fun h => by rw [h]⟩
  rw [← join_splitOn sep a, h, join_splitOn]

theorem meetsLetter_hyphen (a b : Text) : meetsLetter (a ++ '-' :: b) = meetsLetter a := by
  have hhyphen : isCaseIgnorable '-' = false := by decide +kernel
  induction a with
  | nil =>
    have huncased : isCased '-' = false := by decide +kernel
    rw [List.nil_append, meetsLetter, List.dropWhile_cons_of_neg (by rw [hhyphen]; decide)]
    exact huncased
  | cons c a ih =>
    unfold meetsLetter at ih ⊢
    by_cases hc : isCaseIgnorable c = true
    · rw [List.cons_append, List.dropWhile_cons_of_pos hc, List.dropWhile_cons_of_pos hc, ih]
    · rw [List.cons_append, List.dropWhile_cons_of_neg hc, List.dropWhile_cons_of_neg hc]

theorem lowerAfter_hyphen_before (before far t : Text) :
    lowerAfter (before ++ '-' :: far) t = lowerAfter before t := by
  induction t generalizing before with
  | nil => rfl
  | cons c cs ih =>
    rw [lowerAfter, lowerAfter, meetsLetter_hyphen, ← List.cons_append, ih]

theorem lowerAfter_hyphen (before a b : Text) :
    lowerAfter before (a ++ '-' :: b) = lowerAfter before a ++ '-' :: lower b := by
  induction a generalizing before with
  | nil =>
    have hafter : lowerAfter ('-' :: before) b = lower b := lowerAfter_hyphen_before [] before b
    have hhyphen : lowerAfter before ('-' :: b) = '-' :: lowerAfter ('-' :: before) b := rfl
    rw [List.nil_append, hhyphen, hafter]
    rfl
  | cons c a ih =>
    rw [List.cons_append, lowerAfter, lowerAfter, meetsLetter_hyphen, ih, List.append_assoc]

theorem lower_join_hyphen (hne : ws ≠ []) : lower (join ['-'] ws) = join ['-'] (ws.map lower) := by
  induction ws with
  | nil => exact absurd rfl hne
  | cons w ws ih =>
    cases ws with
    | nil => simp [join, List.intercalate]
    | cons v ws =>
      have hrest := ih (by simp)
      rw [List.map_cons] at hrest ⊢
      rw [List.map_cons, join_cons_cons, join_cons_cons, List.singleton_append, lower,
        lowerAfter_hyphen, hrest]
      rfl

theorem hyphen_notMem_lower (h : '-' ∉ t) : '-' ∉ lower t := fun hmem =>
  (mem_lower hmem).elim h (by decide)

theorem splitOn_lower (t : Text) : splitOn '-' (lower t) = (splitOn '-' t).map lower := by
  have hne := splitOn_ne_nil '-' t
  calc
    splitOn '-' (lower t) = splitOn '-' (lower (join ['-'] (splitOn '-' t))) := by
      rw [join_splitOn]
    _ = splitOn '-' (join ['-'] ((splitOn '-' t).map lower)) := by rw [lower_join_hyphen hne]
    _ = (splitOn '-' t).map lower := by
      refine splitOn_join (by simpa using hne) fun w hw => ?_
      obtain ⟨v, hv, rfl⟩ := List.mem_map.1 hw
      exact hyphen_notMem_lower (notMem_of_mem_splitOn hv)

end Text

/-- A name, cut at its hyphens and before each capital that follows a small letter or a digit. -/
def parts : Text → List Text
  | [] => [[]]
  | c :: cs =>
    if c = '-' then [] :: parts cs
    else if isAsciiLowerOrDigit c && cs.head?.any (·.isUpper) then [c] :: parts cs
    else match parts cs with
      | [] => [[c]]
      | w :: ws => (c :: w) :: ws

def words (name : Text) : List Text := (parts name).map lower

theorem splitOn_hyphenate (t : Text) : splitOn '-' (hyphenate t) = parts t := by
  induction t with
  | nil => rfl
  | cons c cs ih =>
    rw [hyphenate, parts]
    by_cases hc : c = '-'
    · have hplain : isAsciiLowerOrDigit '-' = false := by decide
      rw [hc, hplain, Bool.false_and, if_neg Bool.false_ne_true, splitOn, if_pos rfl, if_pos rfl, ih]
    · rw [if_neg hc]
      split
      · rw [splitOn, if_neg hc, splitOn, if_pos rfl, ih]
      · cases hparts : parts cs <;> simp only [splitOn, if_neg hc, ih, hparts]

theorem splitOn_kebab (t : Text) : splitOn '-' (kebab t) = words t := by
  rw [kebab, splitOn_lower, splitOn_hyphenate, words]

theorem eq_kebab_iff {a b : Text} : a = kebab b ↔ words b = splitOn '-' a := by
  rw [← splitOn_inj, splitOn_kebab, eq_comm]

theorem kebab_eq_kebab_iff {a b : Text} : kebab a = kebab b ↔ words a = words b := by
  rw [eq_kebab_iff, splitOn_kebab, eq_comm]

theorem parts_ne_nil (t : Text) : parts t ≠ [] := by
  rw [← splitOn_hyphenate]
  exact splitOn_ne_nil '-' _

theorem eq_of_parts {t w : Text} (h : parts t = [w]) : t = w := by
  induction t generalizing w with
  | nil => exact List.singleton_inj.1 h
  | cons c cs ih =>
    rw [parts] at h
    split at h
    · exact absurd (List.cons.inj h).2 (parts_ne_nil cs)
    · split at h
      · exact absurd (List.cons.inj h).2 (parts_ne_nil cs)
      · split at h
        · rename_i hnone
          exact absurd hnone (parts_ne_nil cs)
        · rename_i v vs hsplit
          obtain ⟨rfl, rfl⟩ := List.cons.inj h
          rw [ih hsplit]

theorem lower_of_words {t w : Text} (h : words t = [w]) : lower t = w := by
  obtain ⟨v, hparts, hw⟩ := List.map_eq_singleton_iff.1 h
  rw [eq_of_parts hparts, hw]

end LightningTemplate
