import LightningTemplate.Proofs.Serialised

/-! Preparing serialised markup changes nothing in it: its references are not those that are
numbered, and it holds no line end but one.  The aliases that preparation looks for by the look
of the text include all those of its tags and attributes. -/
namespace LightningTemplate.Markup
open Text

/-- A reference that stands for a character of markup is by a number, or by a name of its own. -/
theorem entityName?_escape {e : Char × Text} (h : e ∈ escapes) (rest : Text) :
    entityName? (e.2 ++ ';' :: rest) = none ∨
      ∃ name ∈ ["amp", "lt", "gt", "quot", "apos"],
        entityName? (e.2 ++ ';' :: rest) = some name.toList := by
  simp only [escapes, List.mem_cons, List.not_mem_nil, or_false] at h
  rcases h with rfl | rfl | rfl | rfl | rfl | rfl | rfl | rfl
  · exact .inr ⟨"amp", by simp, rfl⟩
  · exact .inr ⟨"lt", by simp, rfl⟩
  · exact .inr ⟨"gt", by simp, rfl⟩
  · exact .inr ⟨"quot", by simp, rfl⟩
  · exact .inl rfl
  · exact .inr ⟨"apos", by simp, rfl⟩
  · exact .inl rfl
  · exact .inl rfl

theorem entityCode?_escape {e : Char × Text} (h : e ∈ escapes) (rest : Text) :
    (entityName? (e.2 ++ ';' :: rest)).bind entityCode? = none := by
  have hcodes : ∀ name ∈ ["amp", "lt", "gt", "quot", "apos"], entityCode? name.toList = none := by
    decide +kernel
  obtain hnone | ⟨name, hname, hread⟩ := entityName?_escape h rest
  · rw [hnone, Option.bind_none]
  · rw [hread, Option.bind_some, hcodes name hname]

theorem numberEntities_cons {c : Char} {cs : Text}
    (h : c = '&' → (entityName? cs).bind entityCode? = none) :
    numberEntities (c :: cs) = c :: numberEntities cs := by
  rw [numberEntities, numberEntitiesFrom]
  split
  · rename_i hc
    split
    · rename_i name hname
      have hcode : entityCode? name = none := by simpa [hname] using h hc
      rw [hcode]
      rfl
    · rfl
  · rfl

theorem numberEntities_append_of_notMem {s : Text} (h : '&' ∉ s) (rest : Text) :
    numberEntities (s ++ rest) = s ++ numberEntities rest := by
  induction s with
  | nil => rfl
  | cons c s ih =>
    rw [List.mem_cons, not_or] at h
    rw [List.cons_append, numberEntities_cons (fun hc => absurd hc.symm h.1), ih h.2, List.cons_append]

theorem piecewise_numberEntities :
    Piecewise fun s => ∀ rest, numberEntities (s ++ rest) = s ++ numberEntities rest where
  append := by
    intro s t hs ht rest
    rw [List.append_assoc, hs, ht, List.append_assoc]
  chars := fun _ => numberEntities_append_of_notMem
  escape := by
    intro e he rest
    have hname : '&' ∉ e.2 ++ [';'] := by
      revert e
      decide
    have hend : e.2 ++ [';'] ++ rest = e.2 ++ ';' :: rest := by simp
    rw [List.cons_append, hend, numberEntities_cons fun _ => entityCode?_escape he rest, ← hend,
      numberEntities_append_of_notMem hname, List.cons_append]

theorem numberEntities_serialised {ns : List Node} {s : Text} (h : Serialised ns s)
    (hns : ∀ n ∈ ns, PlainNode n) : numberEntities s = s := by
  simpa [numberEntities, numberEntitiesFrom] using piecewise_numberEntities.serialised h hns []

theorem unifyLineEnds_of_notMem {t : Text} (h : '\r' ∉ t) : unifyLineEnds t = t := by
  induction t with
  | nil => rfl
  | cons c t ih =>
    rw [List.mem_cons, not_or] at h
    rw [unifyLineEnds, if_neg (Ne.symm h.1), ih h.2]
    rintro rest rfl
    exact absurd rfl h.1

theorem isAliasChar_of_isSimpleName {name : Text} (h : isSimpleName name = true) :
    ∀ c ∈ name, isAliasChar c = true :=
  fun _ hc => (plainNameChar_cases (isPlainNameChar_of_isSimpleName h hc)).1

theorem aliasAt?_aliased {alias_ part : Text} (halias : isSimpleName alias_ = true)
    (hpart : isSimpleName part = true) (rest : Text) :
    aliasAt? (alias_ ++ ':' :: (part ++ rest)) = some (alias_, part ++ rest) := by
  obtain ⟨c, cs, rfl, hc⟩ := exists_cons_of_isSimpleName halias
  obtain ⟨d, ds, rfl, hd⟩ := exists_cons_of_isSimpleName hpart
  have hcolon : isAliasChar ':' = false := by decide
  have htake : (c :: cs ++ ':' :: (d :: ds ++ rest)).takeWhile isAliasChar = c :: cs := by
    rw [List.takeWhile_append_of_pos (isAliasChar_of_isSimpleName halias)]
    simp [hcolon]
  have hdrop : (c :: cs ++ ':' :: (d :: ds ++ rest)).dropWhile isAliasChar = ':' :: (d :: ds ++ rest) := by
    rw [List.dropWhile_append_of_pos (isAliasChar_of_isSimpleName halias)]
    simp [hcolon]
  simp only [aliasAt?, hdrop, htake]
  simp [hc, hd]

theorem mem_aliasesIn_append {a t : Text} (h : a ∈ aliasesIn t) (s : Text) : a ∈ aliasesIn (s ++ t) := by
  induction s with
  | nil => exact h
  | cons c s ih => exact List.mem_append_right _ ih

theorem mem_aliasesIn_tag {alias_ part : Text} (halias : isSimpleName alias_ = true)
    (hpart : isSimpleName part = true) (rest : Text) :
    alias_ ∈ aliasesIn ('<' :: (alias_ ++ ':' :: (part ++ rest))) := by
  have hat := aliasAt?_aliased halias hpart rest
  obtain ⟨c, cs, rfl, hc⟩ := exists_cons_of_isSimpleName halias
  have hslash : c ≠ '/' := by
    rintro rfl
    exact absurd hc (by decide)
  rw [aliasesIn, tagAlias?, hat]
  · simp
  · rintro t ht
    exact hslash (List.cons.inj ht).1

theorem mem_aliasesIn_attribute {alias_ part : Text} (halias : isSimpleName alias_ = true)
    (hpart : isSimpleName part = true) (rest : Text) :
    alias_ ∈ aliasesIn (' ' :: (alias_ ++ ':' :: (part ++ '=' :: rest))) := by
  have hat := aliasAt?_aliased halias hpart ('=' :: rest)
  have hequals : isAliasChar '=' = false := by decide
  have hblank : isBlank '=' = false := by decide
  have hdrop : ((part ++ '=' :: rest).dropWhile isAliasChar).dropWhile isBlank = '=' :: rest := by
    rw [List.dropWhile_append_of_pos (isAliasChar_of_isSimpleName hpart)]
    simp [hequals, hblank]
  have hfound : attributeAlias? (' ' :: (alias_ ++ ':' :: (part ++ '=' :: rest))) = some alias_ := by
    rw [attributeAlias?, if_pos (by decide), hat]
    simp [hdrop]
  rw [aliasesIn, hfound]
  simp

theorem isPlainNameChar_of_isAliasChar {c : Char} (hc : c.toNat < 128) (h : isAliasChar c = true) :
    isPlainNameChar c = true :=
  forall_ascii (P := fun c => isAliasChar c = true → isPlainNameChar c = true) (by decide +kernel) c hc h

theorem isSimpleName_of_aliasAt? {t a rest : Text} (ht : ∀ c ∈ t, c.toNat < 128)
    (h : aliasAt? t = some (a, rest)) : isSimpleName a = true := by
  rw [aliasAt?] at h
  split at h
  · rename_i hhead
    split at h
    · split at h
      · obtain rfl := (Prod.mk.inj (Option.some.inj h)).1
        cases t with
        | nil => cases hhead
        | cons c cs =>
          have hc : isLatinStart c = true := hhead
          have hword : isAliasChar c = true := by simp [isAliasChar, isWord_of_isLatinStart hc]
          have hchars : ∀ d ∈ (c :: cs).takeWhile isAliasChar, isPlainNameChar d = true := fun d hd =>
            isPlainNameChar_of_isAliasChar (ht d ((List.takeWhile_sublist _).subset hd))
              (List.mem_takeWhile_imp hd)
          refine Bool.and_eq_true_iff.2 ⟨?_, List.all_eq_true.2 hchars⟩
          rw [List.takeWhile_cons_of_pos hword]
          exact hc
      · cases h
    · cases h
  · cases h

theorem isSimpleName_of_tagAlias? {t a : Text} (ht : ∀ c ∈ t, c.toNat < 128)
    (h : tagAlias? t = some a) : isSimpleName a = true := by
  unfold tagAlias? at h
  split at h
  · obtain ⟨found, hfound, rfl⟩ := Option.map_eq_some_iff.1 h
    exact isSimpleName_of_aliasAt? (fun d hd => ht d (by simp [hd])) hfound
  · obtain ⟨found, hfound, rfl⟩ := Option.map_eq_some_iff.1 h
    exact isSimpleName_of_aliasAt? (fun d hd => ht d (by simp [hd])) hfound
  · cases h

theorem isSimpleName_of_attributeAlias? {c : Char} {cs a : Text} (hcs : ∀ d ∈ cs, d.toNat < 128)
    (h : attributeAlias? (c :: cs) = some a) : isSimpleName a = true := by
  rw [attributeAlias?] at h
  split at h
  · split at h
    · rename_i alias_ rest hfound
      split at h
      · exact Option.some.inj h ▸ isSimpleName_of_aliasAt? hcs hfound
      · cases h
    · cases h
  · cases h

theorem isSimpleName_of_mem_aliasesIn {t a : Text} (ht : ∀ c ∈ t, c.toNat < 128)
    (h : a ∈ aliasesIn t) : isSimpleName a = true := by
  induction t with
  | nil => cases h
  | cons c cs ih =>
    have hcs : ∀ d ∈ cs, d.toNat < 128 := fun d hd => ht d (List.mem_cons_of_mem _ hd)
    rw [aliasesIn] at h
    rcases List.mem_append.1 h with h | h
    · rcases List.mem_append.1 h with h | h
      · exact isSimpleName_of_tagAlias? ht (Option.mem_toList.1 h)
      · exact isSimpleName_of_attributeAlias? hcs (Option.mem_toList.1 h)
    · exact ih hcs h

theorem colon_notMem_of_isSimpleName {name : Text} (h : isSimpleName name = true) : ':' ∉ name :=
  fun hc => absurd (isPlainNameChar_of_isSimpleName h hc) (by decide)

theorem splitName_simple {part : Text} (h : ':' ∉ part) : splitName part = (none, part) := by
  simp only [splitName, cut_of_notMem h]

theorem splitName_aliased {alias_ : Text} (h : ':' ∉ alias_) (part : Text) :
    splitName (alias_ ++ ':' :: part) = (some alias_, part) := by
  simp only [splitName, cut_append_cons h]

/-- A plain name is its part alone, or its alias is free to be bound. -/
theorem PlainName.splitName_cases {name : Text} (h : PlainName name) :
    (splitName name = (none, name) ∧ name ≠ "xmlns".toList) ∨
      ∃ alias_ part, name = alias_ ++ ':' :: part ∧ splitName name = (some alias_, part) ∧
        isSimpleName alias_ = true ∧ isSimpleName part = true ∧ alias_ ≠ "xml".toList ∧
        alias_ ≠ "xmlns".toList := by
  cases h with
  | simple hpart hxmlns => exact .inl ⟨splitName_simple (colon_notMem_of_isSimpleName hpart), hxmlns⟩
  | aliased halias hxml hxmlns hpart _ =>
    exact .inr ⟨_, _, rfl, splitName_aliased (colon_notMem_of_isSimpleName halias) _, halias, hpart, hxml,
      hxmlns⟩

theorem mem_aliasesIn_startTag {tag : Text} (h : PlainName tag) {a : Text}
    (ha : (splitName tag).1 = some a) (rest : Text) :
    a ∈ aliasesIn ('<' :: (tag ++ rest)) := by
  obtain ⟨hsplit, -⟩ | ⟨alias_, part, rfl, hsplit, halias, hpart, -⟩ := h.splitName_cases
  · rw [hsplit] at ha
    cases ha
  · rw [hsplit] at ha
    obtain rfl := Option.some.inj ha
    simpa using mem_aliasesIn_tag halias hpart rest

theorem mem_aliasesIn_attributes {attrs : Attributes} {s : Text} (h : SerialisedAttributes attrs s)
    (hattrs : ∀ a ∈ attrs, PlainName a.1) {attr : Text × Text} (hmem : attr ∈ attrs) {a : Text}
    (ha : (splitName attr.1).1 = some a) (rest : Text) : a ∈ aliasesIn (s ++ rest) := by
  induction h with
  | nil => cases hmem
  | @cons name value s others quote attrs _ _ _ ih =>
    rcases List.mem_cons.1 hmem with rfl | hmem
    · obtain ⟨hsplit, -⟩ | ⟨alias_, part, rfl, hsplit, halias, hpart, -⟩ :=
        (hattrs _ (List.mem_cons_self ..)).splitName_cases
      · rw [hsplit] at ha
        cases ha
      · rw [hsplit] at ha
        obtain rfl := Option.some.inj ha
        simpa using mem_aliasesIn_attribute halias hpart (quote :: (s ++ quote :: (others ++ rest)))
    · have hlater := ih (fun b hb => hattrs b (List.mem_cons_of_mem _ hb)) hmem
      have hparts : ' ' :: (name ++ '=' :: quote :: (s ++ quote :: others)) ++ rest =
          (' ' :: (name ++ '=' :: quote :: (s ++ [quote]))) ++ (others ++ rest) := by simp
      rw [hparts]
      exact mem_aliasesIn_append hlater _

end LightningTemplate.Markup
