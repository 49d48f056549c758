/-! Texts as lists of characters, and the cuts and tests on them that every
other module shares. -/
namespace LightningTemplate

/-- Lengths, columns and cuts count characters, so a text is the list of them. -/
abbrev Text := List Char

namespace Text

/-- The pieces between the separators; a text without one is a single piece. -/
def splitOn (sep : Char) : Text → List Text
  | [] => [[]]
  | c :: cs =>
    if c = sep then [] :: splitOn sep cs
    else match splitOn sep cs with
      | [] => [[c]]
      | w :: ws => (c :: w) :: ws

theorem splitOn_ne_nil (sep : Char) (t : Text) : splitOn sep t ≠ [] := by
  cases t with
  | nil => simp [splitOn]
  | cons c cs =>
    simp only [splitOn]
    split
    · simp
    · split <;> simp

theorem splitOn_of_notMem {sep : Char} {t : Text} (h : sep ∉ t) : splitOn sep t = [t] := by
  induction t with
  | nil => rfl
  | cons c cs ih =>
    rw [List.mem_cons, not_or] at h
    rw [splitOn, if_neg (Ne.symm h.1), ih h.2]

theorem splitOn_append_cons {sep : Char} {l : Text} (h : sep ∉ l) (rest : Text) :
    splitOn sep (l ++ sep :: rest) = l :: splitOn sep rest := by
  induction l with
  | nil => rw [List.nil_append, splitOn, if_pos rfl]
  | cons c l ih =>
    rw [List.mem_cons, not_or] at h
    rw [List.cons_append, splitOn, if_neg (Ne.symm h.1), ih h.2]

theorem notMem_of_mem_splitOn {sep : Char} {t w : Text} (h : w ∈ splitOn sep t) : sep ∉ w := by
  induction t generalizing w with
  | nil => simp_all [splitOn]
  | cons c cs ih =>
    rw [splitOn] at h
    split at h
    · rcases List.mem_cons.1 h with rfl | h
      · exact List.not_mem_nil
      · exact ih h
    · rename_i hc
      split at h
      · rw [List.mem_singleton.1 h]
        simpa using Ne.symm hc
      · rename_i first others hsplit
        rcases List.mem_cons.1 h with rfl | h
        · rw [List.mem_cons, not_or]
          exact ⟨Ne.symm hc, ih (by simp [hsplit])⟩
        · exact ih (by simp [hsplit, h])

theorem mem_of_mem_splitOn {sep : Char} {t w : Text} (hw : w ∈ splitOn sep t) {c : Char}
    (hc : c ∈ w) : c ∈ t := by
  induction t generalizing w with
  | nil => simp_all [splitOn]
  | cons d ds ih =>
    rw [splitOn] at hw
    split at hw
    · rcases List.mem_cons.1 hw with rfl | hw
      · simp at hc
      · simp [ih hw hc]
    · split at hw
      · rw [List.mem_singleton.1 hw] at hc
        simp_all
      · rename_i first others hsplit
        rcases List.mem_cons.1 hw with rfl | hw
        · rcases List.mem_cons.1 hc with rfl | hc
          · simp
          · simp [ih (w := first) (by simp [hsplit]) hc]
        · simp [ih (w := w) (by simp [hsplit, hw]) hc]

def join (sep : Text) (ts : List Text) : Text := sep.intercalate ts

theorem join_cons_cons (sep l m : Text) (ms : List Text) :
    join sep (l :: m :: ms) = l ++ (sep ++ join sep (m :: ms)) := by
  simp [join, List.intercalate]

theorem splitOn_join {sep : Char} {ls : List Text} (hne : ls ≠ []) (h : ∀ l ∈ ls, sep ∉ l) :
    splitOn sep (join [sep] ls) = ls := by
  induction ls with
  | nil => exact absurd rfl hne
  | cons l ls ih =>
    rw [List.forall_mem_cons] at h
    cases ls with
    | nil =>
      have hsingle : join [sep] [l] = l := by simp [join, List.intercalate]
      rw [hsingle, splitOn_of_notMem h.1]
    | cons m ms =>
      rw [join_cons_cons, List.singleton_append, splitOn_append_cons h.1, ih (by simp) h.2]

theorem join_splitOn (sep : Char) (t : Text) : join [sep] (splitOn sep t) = t := by
  induction t with
  | nil => rfl
  | cons c cs ih =>
    obtain ⟨w, ws, hsplit⟩ := List.exists_cons_of_ne_nil (splitOn_ne_nil sep cs)
    rw [hsplit] at ih
    rw [splitOn, hsplit]
    by_cases hc : c = sep
    · rw [if_pos hc, join_cons_cons, ih, hc]
      rfl
    · rw [if_neg hc, ← ih]
      cases ws with
      | nil => simp [join, List.intercalate]
      | cons v ws => simp [join_cons_cons]

/-- What stands before the first separator and, if there is one, after it. -/
def cut (sep : Char) (t : Text) : Text × Option Text :=
  match t.dropWhile (· != sep) with
  | [] => (t.takeWhile (· != sep), none)
  | _ :: rest => (t.takeWhile (· != sep), some rest)

theorem notMem_takeWhile (sep : Char) (t : Text) : sep ∉ t.takeWhile (· != sep) := fun hmem => by
  simpa using List.all_eq_true.1 List.all_takeWhile sep hmem

theorem cut_append_cons {sep : Char} {a : Text} (h : sep ∉ a) (rest : Text) :
    cut sep (a ++ sep :: rest) = (a, some rest) := by
  have hpass : ∀ c ∈ a, (c != sep) = true := fun c hc => bne_iff_ne.2 fun heq => h (heq ▸ hc)
  rw [cut, List.dropWhile_append_of_pos hpass, List.takeWhile_append_of_pos hpass]
  simp

theorem cut_of_notMem {sep : Char} {t : Text} (h : sep ∉ t) : cut sep t = (t, none) := by
  have hpass : ∀ c ∈ t, (c != sep) = true := fun c hc => bne_iff_ne.2 fun heq => h (heq ▸ hc)
  have hdrop : (t ++ []).dropWhile (· != sep) = [] := List.dropWhile_append_of_pos hpass
  have htake : (t ++ []).takeWhile (· != sep) = t ++ [] := List.takeWhile_append_of_pos hpass
  rw [List.append_nil] at hdrop htake
  rw [cut, hdrop, htake]

theorem eq_of_cut {sep : Char} {t a rest : Text} (h : cut sep t = (a, some rest)) :
    sep ∉ a ∧ t = a ++ sep :: rest := by
  unfold cut at h
  split at h
  · cases h
  · rename_i c cs hdrop
    cases h
    have hhead := List.head?_dropWhile_not (· != sep) t
    rw [hdrop] at hhead
    obtain rfl : c = sep := by simpa using hhead
    exact ⟨notMem_takeWhile c t, by rw [← hdrop, List.takeWhile_append_dropWhile]⟩

def stripLeft (p : Char → Bool) (t : Text) : Text := t.dropWhile p

def stripRight (p : Char → Bool) (t : Text) : Text := (t.reverse.dropWhile p).reverse

def stripBoth (p : Char → Bool) (t : Text) : Text := stripRight p (stripLeft p t)

theorem exists_stripRight (p : Char → Bool) (t : Text) :
    ∃ after, t = stripRight p t ++ after ∧ after.all p = true := by
  refine ⟨(t.reverse.takeWhile p).reverse, ?_, ?_⟩
  · rw [stripRight, ← List.reverse_append, List.takeWhile_append_dropWhile, List.reverse_reverse]
  · rw [List.all_reverse]
    exact List.all_takeWhile

theorem exists_stripBoth (p : Char → Bool) (t : Text) :
    ∃ before after, t = before ++ (stripBoth p t ++ after) ∧ after.all p = true := by
  obtain ⟨after, h, hp⟩ := exists_stripRight p (stripLeft p t)
  refine ⟨t.takeWhile p, after, ?_, hp⟩
  rw [stripBoth, ← h, stripLeft, List.takeWhile_append_dropWhile]

def dropMark (mark t : Text) : Text := if mark.isPrefixOf t then t.drop mark.length else t

def occursIn (part : Text) : Text → Bool
  | [] => part.isEmpty
  | c :: cs => part.isPrefixOf (c :: cs) || occursIn part cs

/-- Fills up with spaces on the right; a longer text stays whole. -/
def padRight (width : Nat) (t : Text) : Text := t ++ List.replicate (width - t.length) ' '

def hexDigit? (c : Char) : Option Nat :=
  if c.isDigit then some (c.toNat - 48)
  else if 'a' ≤ c ∧ c ≤ 'f' then some (c.toNat - 87)
  else if 'A' ≤ c ∧ c ≤ 'F' then some (c.toNat - 55)
  else none

def ofNat (n : Nat) : Text := Nat.toDigits 10 n

def ofInt : Int → Text
  | .ofNat n => ofNat n
  | .negSucc n => '-' :: ofNat (n + 1)

def le : Text → Text → Bool
  | [], _ => true
  | _ :: _, [] => false
  | a :: as, b :: bs => if a = b then le as bs else a.toNat < b.toNat

def commonStart : Text → Text → Text
  | a :: as, b :: bs => if a = b then a :: commonStart as bs else []
  | _, _ => []

end Text
end LightningTemplate
