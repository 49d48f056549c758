/-! Entries under keys, in the order in which the keys came first. -/
namespace LightningTemplate.Keyed

theorem nodup_eraseDups {κ : Type} [BEq κ] [LawfulBEq κ] (keys : List κ) : keys.eraseDups.Nodup := by
  cases keys with
  | nil => simp
  | cons key keys =>
    rw [List.eraseDups_cons, List.nodup_cons]
    exact ⟨by simp, nodup_eraseDups _⟩
termination_by keys.length
decreasing_by exact Nat.lt_succ_of_le (List.length_filter_le _ _)

/-- The first places of the keys that are kept are their first places among all. -/
theorem eraseDups_filter {κ : Type} [BEq κ] [LawfulBEq κ] (p : κ → Bool) (keys : List κ) :
    (keys.filter p).eraseDups = keys.eraseDups.filter p := by
  cases keys with
  | nil => rfl
  | cons key keys =>
    have hrest := eraseDups_filter p (keys.filter fun k => !k == key)
    have hcomm : (keys.filter p).filter (fun k => !k == key) =
        (keys.filter fun k => !k == key).filter p := by
      rw [List.filter_filter, List.filter_filter]
      simp only [Bool.and_comm]
    rw [List.eraseDups_cons]
    by_cases hkey : p key = true
    · rw [List.filter_cons_of_pos hkey, List.eraseDups_cons, List.filter_cons_of_pos hkey, hcomm, hrest]
    · have hnone : keys.filter p = (keys.filter p).filter fun k => !k == key := by
        refine (List.filter_eq_self.2 fun k hk => ?_).symm
        rw [Bool.not_eq_true', beq_eq_false_iff_ne]
        rintro rfl
        exact hkey (List.mem_filter.1 hk).2
      rw [List.filter_cons_of_neg hkey, List.filter_cons_of_neg hkey, hnone, hcomm, hrest]
termination_by keys.length
decreasing_by exact Nat.lt_succ_of_le (List.length_filter_le _ _)

variable {κ α : Type} [DecidableEq κ]

/-- Puts an entry in: an old key keeps its place and takes the new value. -/
def insert (key : κ) (a : α) : List (κ × α) → List (κ × α)
  | [] => [(key, a)]
  | e :: es => if e.1 = key then (key, a) :: es else e :: insert key a es

def insertAll (table added : List (κ × α)) : List (κ × α) :=
  added.foldl (fun t e => insert e.1 e.2 t) table

theorem lookup_insert [BEq κ] [LawfulBEq κ] (key k : κ) (a : α) (t : List (κ × α)) :
    (insert key a t).lookup k = if k = key then some a else t.lookup k := by
  induction t with
  | nil => by_cases h : k = key <;> simp [insert, List.lookup_cons, h, beq_eq_false_iff_ne.2]
  | cons e es ih =>
    obtain ⟨k', a'⟩ := e
    by_cases h : k = k'
    · subst h
      by_cases hk : k = key <;> simp [insert, hk]
    · have hb : (k == k') = false := beq_eq_false_iff_ne.2 h
      by_cases hk : k' = key
      · subst hk
        simp [insert, List.lookup_cons, h, hb]
      · simp [insert, List.lookup_cons, hk, hb, ih]

theorem insert_insert (key : κ) (a b : α) (table : List (κ × α)) :
    insert key b (insert key a table) = insert key b table := by
  induction table with
  | nil => simp [insert]
  | cons e table ih => by_cases h : e.1 = key <;> simp [insert, h, ih]

theorem insert_of_notMem {key : κ} {a : α} {table : List (κ × α)} (h : key ∉ table.map (·.1)) :
    insert key a table = table ++ [(key, a)] := by
  induction table with
  | nil => rfl
  | cons e table ih =>
    rw [List.map_cons, List.mem_cons, not_or] at h
    rw [insert, if_neg (Ne.symm h.1), ih h.2, List.cons_append]

/-- Entries with keys of their own are taken as they are. -/
theorem insertAll_of_nodup (table : List (κ × α)) {added : List (κ × α)}
    (h : ((table ++ added).map (·.1)).Nodup) :
    insertAll table added = table ++ added := by
  induction added generalizing table with
  | nil => simp [insertAll]
  | cons e added ih =>
    have hnew : e.1 ∉ table.map (·.1) := by
      rw [List.map_append, List.nodup_append] at h
      exact fun hmem => h.2.2 _ hmem _ (List.mem_cons_self ..) rfl
    have hstep : insertAll table (e :: added) = insertAll (table ++ [e]) added := by
      rw [insertAll, List.foldl_cons, insert_of_notMem hnew]
      rfl
    rw [hstep, ih (table ++ [e]) (by simpa using h)]
    simp

end LightningTemplate.Keyed
