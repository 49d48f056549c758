import LightningTemplate.Proofs.Mark
import LightningTemplate.Proofs.TemplateReader

/-! A reader of attribute lists.  An attribute starts with a space and its name ends at an equals
sign; its value stands in quotes, where the entities are replaced one after the other, or ends at
the next space.  What was escaped is decoded to what it was (`decodeValue_escapeValue`), and a list
is read back attribute by attribute unless a part of one holds the character that ends it. -/
namespace LightningTemplate
open Text

namespace Text

/-- The text with the new part for every old one, when its first characters are accounted for. -/
def replaceFrom (old new : Text) : Nat → Text → Text
  | _, [] => []
  | k + 1, _ :: cs => replaceFrom old new k cs
  | 0, c :: cs =>
    if old.isPrefixOf (c :: cs) then new ++ replaceFrom old new (old.length - 1) cs
    else c :: replaceFrom old new 0 cs

def replaceAll (old new t : Text) : Text := replaceFrom old new 0 t

variable {old new t v : Text} {c d : Char}

theorem replaceFrom_eq (old new : Text) (k : Nat) (t : Text) :
    replaceFrom old new k t = replaceAll old new (t.drop k) := by
  induction k generalizing t with
  | zero => rfl
  | succ k ih => cases t with
    | nil => rfl
    | cons c cs => exact ih cs

theorem replaceAll_cons (h : ¬old <+: c :: t) : replaceAll old new (c :: t) = c :: replaceAll old new t := by
  rw [replaceAll, replaceFrom, if_neg (mt List.isPrefixOf_iff_prefix.1 h)]
  rfl

theorem replaceAll_append (hold : old ≠ []) (t : Text) :
    replaceAll old new (old ++ t) = new ++ replaceAll old new t := by
  obtain ⟨c, cs, rfl⟩ := List.exists_cons_of_ne_nil hold
  have hprefix : (c :: cs).isPrefixOf (c :: (cs ++ t)) = true :=
    List.isPrefixOf_iff_prefix.2 (List.prefix_append (c :: cs) t)
  rw [List.cons_append, replaceAll, replaceFrom, if_pos hprefix, replaceFrom_eq, List.length_cons,
    Nat.add_sub_cancel, List.drop_left]

theorem replaceAll_head_ne {cs : Text} (h : c ≠ d) (t : Text) :
    replaceAll (d :: cs) new (c :: t) = c :: replaceAll (d :: cs) new t :=
  replaceAll_cons fun hprefix => h (List.cons_prefix_cons.1 hprefix).1.symm

theorem replaceAll_flatMap {f g : Char → Text}
    (h : ∀ c t, replaceAll old new (f c ++ t) = g c ++ replaceAll old new t) (v : Text) :
    replaceAll old new (v.flatMap f) = v.flatMap g := by
  induction v with
  | nil => rfl
  | cons c v ih => rw [List.flatMap_cons, List.flatMap_cons, h, ih]

end Text

namespace Template

/-- The characters for the entities, the ampersand last: it may stand before the name of another. -/
def decodeValue (raw : Text) : Text :=
  replaceAll "&amp;".toList ['&'] (replaceAll "&quot;".toList ['"'] (replaceAll "&lt;".toList ['<'] raw))

/-- One entity is taken back, and what else is escaped stays. -/
theorem replaceAll_entity {d : Char} {name : Text} {f : Char → Text} (hd : f d = [d])
    (h : ∀ c, c ≠ d → ∀ t, replaceAll ('&' :: name) [d] (f c ++ t) = f c ++ replaceAll ('&' :: name) [d] t)
    (v : Text) :
    replaceAll ('&' :: name) [d] (v.flatMap fun c => if c = d then '&' :: name else f c) = v.flatMap f := by
  refine replaceAll_flatMap (fun c t => ?_) v
  by_cases hc : c = d
  · rw [if_pos hc, hc, hd, replaceAll_append (List.cons_ne_nil _ _)]
  · rw [if_neg hc, h c hc]

def escapeAmpersand (c : Char) : Text := if c = '&' then "&amp;".toList else [c]

def escapeQuote (c : Char) : Text := if c = '"' then "&quot;".toList else escapeAmpersand c

theorem escapeChar_eq (c : Char) :
    escapeChar c = if c = '<' then "&lt;".toList else escapeQuote c := by
  unfold escapeChar escapeQuote escapeAmpersand
  split
  · subst c
    rfl
  · split
    · subst c
      rfl
    · rfl

theorem decodeValue_escapeValue (value : Text) : decodeValue (escapeValue value) = value := by
  have hlt : replaceAll "&lt;".toList ['<'] (escapeValue value) = value.flatMap escapeQuote := by
    rw [escapeValue, funext escapeChar_eq]
    refine replaceAll_entity rfl (fun c hc t => ?_) value
    unfold escapeQuote escapeAmpersand
    split
    · rfl
    · split
      · rfl
      · exact replaceAll_head_ne ‹_› t
  have hquot : replaceAll "&quot;".toList ['"'] (value.flatMap escapeQuote) =
      value.flatMap escapeAmpersand := by
    refine replaceAll_entity rfl (fun c hc t => ?_) value
    unfold escapeAmpersand
    split
    · rfl
    · exact replaceAll_head_ne ‹_› t
  have hamp : replaceAll "&amp;".toList ['&'] (value.flatMap escapeAmpersand) = value.flatMap ([·]) :=
    replaceAll_entity rfl (fun c hc t => replaceAll_head_ne hc t) value
  rw [decodeValue, hlt, hquot, hamp, List.flatMap_singleton']

def readValue? : Text → Option (Text × Text)
  | '"' :: cs =>
    match cut '"' cs with
    | (raw, some rest) => some (decodeValue raw, rest)
    | (_, none) => none
  | cs => some (cs.takeWhile (· != ' '), cs.dropWhile (· != ' '))

theorem readValue?_bare {t : Text} (h : t.head? ≠ some '"') :
    readValue? t = some (t.takeWhile (· != ' '), t.dropWhile (· != ' ')) := by
  unfold readValue?
  split
  · exact absurd rfl h
  · rfl

theorem readValue?_quoted (value rest : Text) :
    readValue? ('"' :: (escapeValue value ++ '"' :: rest)) = some (value, rest) := by
  simp only [readValue?, cut_append_cons (quote_notMem_escapeValue value), decodeValue_escapeValue]

theorem length_of_readValue? {t : Text} {r : Text × Text} (h : readValue? t = some r) :
    r.2.length ≤ t.length := by
  unfold readValue? at h
  split at h
  · split at h
    · rename_i cs _ raw rest hcut
      cases h
      rw [(eq_of_cut hcut).2, List.length_cons, List.length_append, List.length_cons]
      dsimp only
      omega
    · cases h
  · cases h
    exact (List.dropWhile_sublist _).length_le

def readAttribute? : Text → Option ((Text × Text) × Text)
  | ' ' :: cs =>
    match cut '=' cs with
    | (name, some rest) => (readValue? rest).map fun r => ((name, r.1), r.2)
    | (_, none) => none
  | _ => none

theorem length_of_readAttribute? {t : Text} {r : (Text × Text) × Text}
    (h : readAttribute? t = some r) : r.2.length < t.length := by
  unfold readAttribute? at h
  split at h
  · split at h
    · rename_i cs name rest hcut
      obtain ⟨v, hv, rfl⟩ := Option.map_eq_some_iff.1 h
      have hvalue := length_of_readValue? hv
      rw [(eq_of_cut hcut).2, List.length_cons, List.length_append, List.length_cons]
      dsimp only
      omega
    · cases h
  · cases h

def readAttributes? : Text → Option Attributes
  | [] => some []
  | c :: cs =>
    match _h : readAttribute? (c :: cs) with
    | none => none
    | some r => (readAttributes? r.2).map (r.1 :: ·)
termination_by t => t.length
decreasing_by exact length_of_readAttribute? _h

theorem readAttributes?_cons (c : Char) (cs : Text) : readAttributes? (c :: cs) =
    (readAttribute? (c :: cs)).bind fun r => (readAttributes? r.2).map (r.1 :: ·) := by
  rw [readAttributes?]
  split <;> simp [*]

/-- The name ends at the sign, and the value, if it stands bare, at a space. -/
def Separable (p : Text × Text) : Prop := '=' ∉ p.1 ∧ (isBraced p.2 = true → ' ' ∉ p.2)

variable {name value rest t : Text}

def valueText (value : Text) : Text :=
  if isBraced value then value else '"' :: (escapeValue value ++ ['"'])

theorem attributeText_eq (name value : Text) :
    attributeText name value = name ++ '=' :: valueText value := by
  unfold attributeText valueText
  split <;> simp

theorem readValue?_braced (h : isBraced value = true) (rest : Text) : readValue? (value ++ rest) =
    some ((value ++ rest).takeWhile (· != ' '), (value ++ rest).dropWhile (· != ' ')) := by
  obtain ⟨cs, rfl⟩ := List.head?_eq_some_iff.1 (isBraced_iff.1 h).1
  exact readValue?_bare (by simp)

theorem readValue?_valueText (hvalue : isBraced value = true → ' ' ∉ value)
    (hrest : rest.head?.all (· == ' ') = true) :
    readValue? (valueText value ++ rest) = some (value, rest) := by
  unfold valueText
  split
  · rename_i hbraced
    have hall : ∀ c ∈ value, (c != ' ') = true := fun c hc =>
      bne_iff_ne.2 fun heq => hvalue hbraced (heq ▸ hc)
    have hstop : rest.takeWhile (· != ' ') = [] ∧ rest.dropWhile (· != ' ') = rest := by
      cases rest <;> simp_all
    rw [readValue?_braced hbraced, List.takeWhile_append_of_pos hall, List.dropWhile_append_of_pos hall,
      hstop.1, hstop.2, List.append_nil]
  · rw [List.cons_append, List.append_assoc]
    exact readValue?_quoted value rest

theorem readAttribute?_named (hname : '=' ∉ name) (value rest : Text) :
    readAttribute? (' ' :: (attributeText name value ++ rest)) =
      (readValue? (valueText value ++ rest)).map fun r => ((name, r.1), r.2) := by
  rw [attributeText_eq, List.append_assoc, List.cons_append]
  simp only [readAttribute?, cut_append_cons hname]

/-- A name that is read holds no equals sign, and a bare value that is read no space. -/
theorem separable_of_readAttribute?
    (h : readAttribute? (' ' :: (attributeText name value ++ t)) = some ((name, value), rest)) :
    Separable (name, value) := by
  have hname : '=' ∉ name := by
    unfold readAttribute? at h
    split at h
    · split at h
      · rename_i hcut
        obtain ⟨v, -, hv⟩ := Option.map_eq_some_iff.1 h
        cases hv
        exact (eq_of_cut hcut).1
      · cases h
    · cases h
  refine ⟨hname, fun hbraced => ?_⟩
  rw [readAttribute?_named hname, valueText, if_pos hbraced, readValue?_braced hbraced,
    Option.map_some] at h
  have hvalue : (value ++ t).takeWhile (· != ' ') = value := congrArg (·.1.2) (Option.some.inj h)
  exact hvalue ▸ notMem_takeWhile ' ' (value ++ t)

/-- A written attribute is read back when its parts end where the reader sees an end. -/
theorem readAttribute?_attributeText (h : Separable (name, value))
    (hrest : rest.head?.all (· == ' ') = true) :
    readAttribute? (' ' :: (attributeText name value ++ rest)) = some ((name, value), rest) := by
  rw [readAttribute?_named h.1, readValue?_valueText h.2 hrest, Option.map_some]

theorem attributeList_cons (p : Text × Text) (pairs : Attributes) :
    attributeList (p :: pairs) = ' ' :: (attributeText p.1 p.2 ++ attributeList pairs) := by
  rw [attributeList, List.flatMap_cons]
  rfl

theorem head?_attributeList (pairs : Attributes) : (attributeList pairs).head?.all (· == ' ') = true := by
  cases pairs with
  | nil => rfl
  | cons p pairs =>
    rw [attributeList_cons]
    rfl

/-- Whatever the values are, a written list of attributes is read back just when no name holds an
equals sign and no value that stands bare a space. -/
theorem attributeList_read_back_iff (pairs : Attributes) :
    readAttributes? (attributeList pairs) = some pairs ↔
      ∀ p ∈ pairs, '=' ∉ p.1 ∧ (isBraced p.2 = true → ' ' ∉ p.2) := by
  induction pairs with
  | nil => simp [attributeList, readAttributes?]
  | cons p pairs ih =>
    rw [attributeList_cons, readAttributes?_cons, List.forall_mem_cons, ← ih, Option.bind_eq_some_iff]
    constructor
    · rintro ⟨r, hr, hrest⟩
      obtain ⟨others, hothers, heq⟩ := Option.map_eq_some_iff.1 hrest
      obtain ⟨hp, rfl⟩ := List.cons.inj heq
      obtain ⟨q, rest⟩ := r
      obtain rfl : q = p := hp
      have hseparable := separable_of_readAttribute? hr
      rw [readAttribute?_attributeText hseparable (head?_attributeList others)] at hr
      cases hr
      exact ⟨hseparable, hothers⟩
    · rintro ⟨hp, hpairs⟩
      exact ⟨_, readAttribute?_attributeText hp (head?_attributeList pairs), by rw [hpairs]; rfl⟩

/-- Text that looks like an entity is escaped as well, and a binding is not. -/
example : attributeList [("title".toList, "&lt;\"".toList), ("body".toList, "\x7bv\x7d".toList)] =
    " title=\"&amp;lt;&quot;\" body=\x7bv\x7d".toList := by decide +kernel

end Template
end LightningTemplate
