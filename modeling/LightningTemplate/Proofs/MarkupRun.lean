import LightningTemplate.Markup.Tree
import LightningTemplate.Proofs.Serialised

/-! Runs of the machine over names, values and tags.  Inside a tag the machine moves from mode
to mode and leaves the tokens alone (`Machine.ahead`), so a run over a tag is put together from
the runs over its parts. -/
namespace LightningTemplate.Markup
open Text

namespace Machine
variable {m : Machine} {mode next : Mode} {c : Char} {s t : Text}

def ahead (m : Machine) (mode : Mode) (n : Nat) : Machine :=
  { m with mode := mode, offset := m.offset + n }

/-- The text takes the machine to the mode, and no token is made of it. -/
def Moves (m : Machine) (t : Text) (mode : Mode) : Prop := m.run t = m.ahead mode t.length

theorem moves_nil (m : Machine) : m.Moves [] m.mode := rfl

theorem Moves.append (hs : m.Moves s mode) (ht : (m.ahead mode s.length).Moves t next) :
    m.Moves (s ++ t) next := by
  rw [Moves] at hs ht ⊢
  rw [run_append, hs, ht, List.length_append]
  simp [ahead, Nat.add_assoc]

theorem moves_singleton (h : m.react c = m.goto mode) : m.Moves [c] mode := by
  rw [Moves, run_cons, run_nil, step, h]
  rfl

theorem Moves.cons (h : m.react c = m.goto mode) (ht : (m.ahead mode 1).Moves t next) :
    m.Moves (c :: t) next :=
  (moves_singleton h).append ht

theorem moves_gather {σ : Type} (mode : σ → Mode) {push : σ → Char → Option σ}
    (hreact : ∀ (m : Machine) s c s', m.mode = mode s → push s c = some s' →
      m.react c = m.goto (mode s'))
    {m : Machine} {s s' : σ} {t : Text} (hm : m.mode = mode s) (h : t.foldlM push s = some s') :
    m.Moves t (mode s') := by
  induction t generalizing m s with
  | nil =>
    obtain rfl : s = s' := Option.some.inj h
    exact hm ▸ m.moves_nil
  | cons c t ih =>
    rw [List.foldlM_cons] at h
    obtain ⟨s₁, hfirst, hrest⟩ := Option.bind_eq_some_iff.1 h
    exact .cons (hreact m s c s₁ hm hfirst) (ih rfl hrest)

end Machine

theorem isNameStart_of_isLatinStart {c : Char} (h : isLatinStart c = true) : isNameStart c = true := by
  simp only [isLatinStart] at h
  simp [isNameStart, h]

theorem foldlM_push_chars {cs : List Char} (h : ∀ c ∈ cs, isPlainNameChar c = true)
    (read : List Char) (colon : Bool) :
    cs.foldlM NameRead.push? ⟨read, colon, false⟩ = some ⟨cs.reverse ++ read, colon, false⟩ := by
  induction cs generalizing read with
  | nil => rfl
  | cons c cs ih =>
    have hchar := plainNameChar_cases (h c (List.mem_cons_self ..))
    have hcolon : c ≠ ':' := by
      rintro rfl
      exact absurd hchar.2.2.2 (by decide)
    have hpush : NameRead.push? ⟨read, colon, false⟩ c = some ⟨c :: read, colon, false⟩ := by
      simp [NameRead.push?, hcolon, hchar.2.1]
    rw [List.foldlM_cons, hpush]
    simpa using ih (fun d hd => h d (List.mem_cons_of_mem _ hd)) (c :: read)

theorem foldlM_push_simple {part : Text} (h : isSimpleName part = true) (read : List Char)
    (colon : Bool) :
    part.foldlM NameRead.push? ⟨read, colon, true⟩ = some ⟨part.reverse ++ read, colon, false⟩ := by
  obtain ⟨c, cs, rfl, hc⟩ := exists_cons_of_isSimpleName h
  have hpush : NameRead.push? ⟨read, colon, true⟩ c = some ⟨c :: read, colon, false⟩ := by
    simp [NameRead.push?, isNameStart_of_isLatinStart hc]
  rw [List.foldlM_cons, hpush]
  simpa using foldlM_push_chars
    (fun d hd => isPlainNameChar_of_isSimpleName h (List.mem_cons_of_mem _ hd)) (c :: read) colon

theorem MarkupName.foldlM_push {name : Text} (h : MarkupName name) :
    ∃ colon, name.foldlM NameRead.push? .start = some ⟨name.reverse, colon, false⟩ := by
  cases h with
  | simple hpart => exact ⟨false, by simpa [NameRead.start] using foldlM_push_simple hpart [] false⟩
  | @aliased alias_ part halias hpart =>
    have hpush : NameRead.push? ⟨alias_.reverse, false, false⟩ ':'
        = some ⟨':' :: alias_.reverse, true, true⟩ := by simp [NameRead.push?]
    have hread := foldlM_push_simple halias [] false
    rw [List.append_nil] at hread
    refine ⟨true, ?_⟩
    rw [NameRead.start, List.foldlM_append, hread]
    show (':' :: part).foldlM NameRead.push? ⟨alias_.reverse, false, false⟩ = _
    rw [List.foldlM_cons, hpush]
    simpa using foldlM_push_simple hpart (':' :: alias_.reverse) true

/-- How the machine takes a name: the first character opens it, the others are gathered. -/
theorem MarkupName.exists_cons {name : Text} (h : MarkupName name) :
    ∃ c cs colon, name = c :: cs ∧ isNameStart c = true ∧
      cs.foldlM NameRead.push? ⟨[c], false, false⟩ = some ⟨name.reverse, colon, false⟩ := by
  obtain ⟨colon, hread⟩ := h.foldlM_push
  have hstart : ∃ c cs, name = c :: cs ∧ isNameStart c = true := by
    cases h with
    | simple hpart =>
      obtain ⟨c, cs, rfl, hc⟩ := exists_cons_of_isSimpleName hpart
      exact ⟨c, cs, rfl, isNameStart_of_isLatinStart hc⟩
    | aliased halias _ =>
      obtain ⟨c, cs, rfl, hc⟩ := exists_cons_of_isSimpleName halias
      exact ⟨c, _, rfl, isNameStart_of_isLatinStart hc⟩
  obtain ⟨c, cs, rfl, hc⟩ := hstart
  have hpush : NameRead.start.push? c = some ⟨[c], false, false⟩ := by
    simp [NameRead.start, NameRead.push?, hc]
  rw [List.foldlM_cons, hpush] at hread
  exact ⟨c, cs, colon, rfl, hc, hread⟩

theorem push_eq_none {n : NameRead} (h : n.pending = false) {c : Char}
    (hc : c ∈ [' ', '>', '/', '=']) : n.push? c = none := by
  have hother : c ≠ ':' ∧ isNameChar c = false := by
    have hall : [' ', '>', '/', '='].all (fun c => c != ':' && !isNameChar c) = true := by decide +kernel
    simpa using List.all_eq_true.1 hall c hc
  simp [NameRead.push?, h, hother]

def ReferenceRead.into? (r : ReferenceRead) (c : Char) : Option ReferenceRead :=
  (r.push? c).bind Sum.getLeft?

theorem push_of_into {r r' : ReferenceRead} {c : Char} (h : r.into? c = some r') :
    r.push? c = some (.inl r') := by
  obtain ⟨found, hfound, hleft⟩ := Option.bind_eq_some_iff.1 h
  rw [hfound, Sum.getLeft?_eq_some_iff.1 hleft]

/-- The references that a character can be spelled by stand for it. -/
theorem escape_reads {e : Char × Text} (h : e ∈ escapes) :
    ∃ r v, e.2.foldlM ReferenceRead.into? .start = some r ∧ r.push? ';' = some (.inr v) ∧
      ∀ i j, v.char i j = .ok e.1 := by
  simp only [escapes, List.mem_cons, List.not_mem_nil, or_false] at h
  rcases h with rfl | rfl | rfl | rfl | rfl | rfl | rfl | rfl <;>
    exact ⟨_, _, rfl, rfl, fun _ _ => rfl⟩

namespace Machine
variable {m : Machine}

theorem moves_reference (mode : ReferenceRead → Mode)
    (hreact : ∀ (m : Machine) r c r', m.mode = mode r → r.push? c = some (.inl r') →
      m.react c = m.goto (mode r'))
    (hm : m.mode = mode .start) {e : Char × Text} (he : e ∈ escapes) :
    ∃ r v, m.Moves e.2 (mode r) ∧ r.push? ';' = some (.inr v) ∧ ∀ i j, v.char i j = .ok e.1 := by
  obtain ⟨r, v, hread, hend, hchar⟩ := escape_reads he
  refine ⟨r, v, moves_gather mode (fun m r c r' hm h => ?_) hm hread, hend, hchar⟩
  exact hreact m r c r' hm (push_of_into h)

theorem not_isForbidden_of_isTextChar {c : Char} (h : isTextChar c = true) : isForbidden c = false :=
  forall_ascii (P := fun c => isTextChar c = true → isForbidden c = false) (by decide +kernel) c
    (toNat_lt_of_isTextChar h) h

theorem spaced_of_isPrintable {c : Char} (h : isPrintable c = true) :
    (if isTagBlank c then ' ' else c) = c :=
  forall_ascii (P := fun c => isPrintable c = true → (if isTagBlank c then ' ' else c) = c)
    (by decide +kernel) c (toNat_lt_of_isTextChar (isTextChar_of_isPrintable h)) h

theorem moves_valueChar {quote c : Char} {s : Text} (hquote : quote = '"' ∨ quote = '\'')
    (h : SpelledChar (some quote) c s) (hc : isPrintable c = true) {a : AttributeDraft}
    {pieces : List ValuePiece} (hm : m.mode = .attributeValue a quote pieces) :
    ∃ piece, m.Moves s (.attributeValue a quote (piece :: pieces)) ∧
      ∀ offset rest, valueText offset (piece :: rest) = (valueText offset rest).map (c :: ·) := by
  have hamp : quote ≠ '&' := by rcases hquote with rfl | rfl <;> decide
  cases h with
  | bare hbare hne =>
    simp only [List.mem_cons, List.not_mem_nil, or_false, not_or] at hbare
    have hend : c ≠ quote := fun hcq => hne (by rw [hcq])
    have hallowed := not_isForbidden_of_isTextChar (isTextChar_of_isPrintable hc)
    refine ⟨.char c, moves_singleton ?_, fun offset rest => ?_⟩
    · simp [react, hm, hend, hbare, hallowed]
    · rw [valueText, spaced_of_isPrintable hc]
  | escaped hescape =>
    have hopen : m.react '&' = m.goto (.attributeReference a quote pieces m.offset .start) := by
      simp [react, hm, Ne.symm hamp]
    obtain ⟨r, v, hname, hend, hchar⟩ := moves_reference
      (fun r => .attributeReference a quote pieces m.offset r)
      (m := m.ahead (.attributeReference a quote pieces m.offset .start) 1)
      (fun m' r d r' hm' h => by simp [react, hm', h]) rfl hescape
    refine ⟨.reference m.offset v, .cons hopen (hname.append (moves_singleton ?_)), fun offset rest => ?_⟩
    · simp [react, ahead, hend]
    · rw [valueText, hchar]
      cases valueText offset rest <;> rfl

theorem moves_value {quote : Char} {t s : Text} (hquote : quote = '"' ∨ quote = '\'')
    (h : Spelled (some quote) t s) (ht : ∀ c ∈ t, isPrintable c = true) {a : AttributeDraft}
    {pieces : List ValuePiece} (hm : m.mode = .attributeValue a quote pieces) :
    ∃ more, m.Moves s (.attributeValue a quote (more.reverse ++ pieces)) ∧
      ∀ offset, valueText offset more = .ok t := by
  induction h generalizing m pieces with
  | nil => exact ⟨[], hm ▸ m.moves_nil, fun _ => rfl⟩
  | cons hchar _ ih =>
    obtain ⟨piece, hfirst, hpiece⟩ := moves_valueChar hquote hchar (ht _ (List.mem_cons_self ..)) hm
    obtain ⟨more, hrest, hmore⟩ := ih (fun c hc => ht c (List.mem_cons_of_mem _ hc))
      (m := m.ahead (.attributeValue a quote (piece :: pieces)) _) rfl
    refine ⟨piece :: more, by simpa using hfirst.append hrest, fun offset => ?_⟩
    rw [hpiece, hmore]
    rfl

/-- A complete part of a tag is behind the machine, with the draft as it is then. -/
def Inside (d : Draft) : Mode → Prop
  | .tagName n => n.pending = false ∧ d = ⟨n.name, []⟩
  | .attributeEnd e => d = e
  | .tagGap e => d = e
  | _ => False

theorem react_inside {d : Draft} (h : Inside d m.mode) {c : Char} (hc : c ∈ [' ', '>', '/']) :
    m.react c = m.insideTag d c := by
  have hstart : isNameStart c = false := by
    have hall : [' ', '>', '/'].all (fun c => !isNameStart c) = true := by decide +kernel
    simpa using List.all_eq_true.1 hall c hc
  cases hmode : m.mode <;> rw [hmode] at h <;> try exact h.elim
  case tagName n =>
    have hpush : n.push? c = none := push_eq_none h.1 (by
      simp only [List.mem_cons, List.not_mem_nil, or_false] at hc ⊢
      tauto)
    simp [react, hmode, hpush, h.1, h.2]
  case tagGap e =>
    obtain rfl : d = e := h
    simp [react, hmode, hstart]
  case attributeEnd e =>
    obtain rfl : d = e := h
    simp [react, hmode]

theorem moves_attributeName {d : Draft} (hm : m.mode = .tagGap d) {name : Text} (h : MarkupName name) :
    m.Moves (name ++ ['=']) (.attributeOpening ⟨d, name, m.offset⟩) := by
  obtain ⟨c, cs, colon, rfl, hc, hread⟩ := h.exists_cons
  have hfirst : m.react c = m.goto (.attributeName d m.offset ⟨[c], false, false⟩) := by
    simp [react, hm, hc]
  have hrest := moves_gather (fun n => .attributeName d m.offset n)
    (m := m.ahead (.attributeName d m.offset ⟨[c], false, false⟩) 1)
    (fun m' r e r' hm' h => by simp [react, hm', h]) rfl hread
  have hequals : ∀ n : NameRead, n.pending = false → ∀ m' : Machine,
      m'.mode = .attributeName d m.offset n →
      m'.react '=' = m'.goto (.attributeOpening ⟨d, n.name, m.offset⟩) := by
    intro n hn m' hm'
    simp [react, hm', push_eq_none hn (c := '=') (by simp), hn]
  refine .cons hfirst (hrest.append (moves_singleton ?_))
  rw [hequals _ rfl _ rfl, NameRead.name, List.reverse_reverse]

theorem moves_quoted {a : AttributeDraft} (hm : m.mode = .attributeOpening a) {value s : Text}
    {quote : Char} (hquote : quote = '"' ∨ quote = '\'') (h : Spelled (some quote) value s)
    (hvalue : ∀ c ∈ value, isPrintable c = true) :
    ∃ pieces, m.Moves (quote :: (s ++ [quote]))
        (.attributeEnd ⟨a.draft.name, ⟨a.name, a.offset, pieces⟩ :: a.draft.attributes⟩) ∧
      ∀ offset, valueText offset pieces = .ok value := by
  have hopen : m.react quote = m.goto (.attributeValue a quote []) := by simp [react, hm, hquote]
  obtain ⟨pieces, hread, hpieces⟩ := moves_value hquote h hvalue
    (m := m.ahead (.attributeValue a quote []) 1) rfl
  refine ⟨pieces, .cons hopen (hread.append (moves_singleton ?_)), hpieces⟩
  simp [react, ahead, AttributeDraft.finish]

def Stands (raw : RawAttribute) (a : Text × Text) : Prop :=
  raw.name = a.1 ∧ ∀ offset, valueText offset raw.value = .ok a.2

theorem moves_attribute {d : Draft} (hm : Inside d m.mode) {name value s : Text} {quote : Char}
    (hname : MarkupName name) (hquote : quote = '"' ∨ quote = '\'') (h : Spelled (some quote) value s)
    (hvalue : ∀ c ∈ value, isPrintable c = true) :
    ∃ raw, m.Moves (' ' :: ((name ++ ['=']) ++ quote :: (s ++ [quote])))
        (.attributeEnd ⟨d.name, raw :: d.attributes⟩) ∧ Stands raw (name, value) := by
  have hgap : m.react ' ' = m.goto (.tagGap d) := react_inside hm (by simp)
  have hnamed := moves_attributeName (m := m.ahead (.tagGap d) 1) rfl hname
  obtain ⟨pieces, hquoted, hpieces⟩ := moves_quoted (m := (m.ahead (.tagGap d) 1).ahead _ _)
    rfl hquote h hvalue
  exact ⟨_, .cons hgap (hnamed.append hquoted), rfl, hpieces⟩

theorem moves_attributes {attrs : Attributes} {s : Text} (h : SerialisedAttributes attrs s)
    (hattrs : ∀ a ∈ attrs, MarkupName a.1 ∧ ∀ c ∈ a.2, isPrintable c = true) {d : Draft}
    (hm : Inside d m.mode) :
    ∃ mode raws, m.Moves s mode ∧ Inside ⟨d.name, raws.reverse ++ d.attributes⟩ mode ∧
      List.Forall₂ Stands raws attrs := by
  induction h generalizing m d with
  | nil => exact ⟨m.mode, [], m.moves_nil, hm, .nil⟩
  | cons hquote hvalue _ ih =>
    obtain ⟨hname, hchars⟩ := hattrs _ (List.mem_cons_self ..)
    obtain ⟨raw, hfirst, hraw⟩ := moves_attribute hm hname hquote hvalue hchars
    obtain ⟨mode, raws, hrest, hinside, hraws⟩ := ih
      (m := m.ahead (.attributeEnd ⟨d.name, raw :: d.attributes⟩) _) (d := ⟨d.name, raw :: d.attributes⟩)
      (fun a ha => hattrs a (List.mem_cons_of_mem _ ha)) rfl
    exact ⟨mode, raw :: raws, by simpa using hfirst.append hrest, by simpa using hinside, .cons hraw hraws⟩

/-- A tag up to its attributes, where content may go on or the first element may open. -/
theorem run_opening {brackets : Nat} (hm : m.mode = .content brackets)
    (hplace : m.depth = 0 → m.tokens = []) {tag s : Text} {attrs : Attributes} (htag : MarkupName tag)
    (h : SerialisedAttributes attrs s)
    (hattrs : ∀ a ∈ attrs, MarkupName a.1 ∧ ∀ c ∈ a.2, isPrintable c = true) :
    ∃ mode raws offset, m.run ('<' :: (tag ++ s)) =
        { m with mode := mode, start := m.offset, offset := offset } ∧
      Inside ⟨tag, raws.reverse⟩ mode ∧ List.Forall₂ Stands raws attrs := by
  obtain ⟨c, cs, colon, rfl, hc, hread⟩ := htag.exists_cons
  set opened : Machine := { m with mode := .opened, start := m.offset, offset := m.offset + 1 }
  have hopen : m.step '<' = opened := by
    simp only [step, react, hm]
    rfl
  have hname : c ≠ '!' ∧ c ≠ '?' := by
    refine ⟨?_, ?_⟩ <;>
    · rintro rfl
      exact absurd hc (by decide)
  have hfirst : opened.react c = opened.goto (.tagName ⟨[c], false, false⟩) := by
    have hplace : ¬ (m.depth = 0 ∧ ¬ m.tokens = []) := fun h => h.2 (hplace h.1)
    simp [react, hname, hc, opened, hplace]
  have hrest := moves_gather (fun n => .tagName n)
    (m := opened.ahead (.tagName ⟨[c], false, false⟩) 1)
    (fun m' r e r' hm' h => by simp [react, hm', h]) rfl hread
  obtain ⟨mode, raws, hattributes, hinside, hraws⟩ := moves_attributes h hattrs
    (m := (opened.ahead (.tagName ⟨[c], false, false⟩) 1).ahead
      (.tagName ⟨(c :: cs).reverse, colon, false⟩) cs.length)
    (d := ⟨c :: cs, []⟩) ⟨rfl, by rw [NameRead.name, List.reverse_reverse]⟩
  have hread : opened.Moves (c :: cs ++ s) mode := Moves.cons hfirst (hrest.append hattributes)
  refine ⟨mode, raws, m.offset + 1 + (c :: cs ++ s).length, ?_, by simpa using hinside, hraws⟩
  rw [run_cons, hopen, hread]
  rfl

theorem moves_endName (read : List Char) (hm : m.mode = .endName read) {cs : Text}
    (h : ∀ c ∈ cs, isNameChar c = true ∨ c = ':') : m.Moves cs (.endName (cs.reverse ++ read)) := by
  induction cs generalizing m read with
  | nil => exact hm ▸ m.moves_nil
  | cons c cs ih =>
    have hreact : m.react c = m.goto (.endName (c :: read)) := by
      simp [react, hm, h c (List.mem_cons_self ..)]
    simpa using Moves.cons hreact (ih (c :: read) rfl fun d hd => h d (List.mem_cons_of_mem _ hd))

theorem run_closing {brackets : Nat} (hm : m.mode = .content brackets) (hdepth : m.depth ≠ 0)
    {tag : Text} (htag : MarkupName tag) :
    ∃ offset, m.run ('<' :: '/' :: (tag ++ ['>'])) =
      { mode := between (m.depth - 1), offset := offset, start := m.offset, depth := m.depth - 1,
        tokens := .endTag (m.offset + 2) tag :: m.tokens } := by
  have hchars : ∀ c ∈ tag, isNameChar c = true ∨ c = ':' := fun c hc =>
    (htag.chars hc).imp (fun h => (plainNameChar_cases h).2.1) id
  obtain ⟨c, cs, colon, rfl, hc, -⟩ := htag.exists_cons
  set opened : Machine := { m with mode := .opened, start := m.offset, offset := m.offset + 1 }
  have hopen : m.step '<' = opened := by
    simp only [step, react, hm]
    rfl
  have hslash : opened.react '/' = opened.goto .endOpening := by
    have hstart : isNameStart '/' = false := by decide
    simp [react, hstart, opened, hdepth]
  have hfirst : (opened.ahead .endOpening 1).react c = (opened.ahead .endOpening 1).goto (.endName [c]) := by
    simp [react, ahead, hc]
  have hname : (opened.ahead .endOpening 1).Moves (c :: cs) (.endName (c :: cs).reverse) := by
    simpa using Moves.cons hfirst
      (moves_endName [c] rfl fun d hd => hchars d (List.mem_cons_of_mem _ hd))
  have hend : isNameChar '>' = false := by decide
  have hread := Moves.cons hslash hname
  rw [Moves] at hread
  rw [run_cons, hopen, ← List.cons_append, run_append, hread, run_cons, run_nil]
  simp [step, react, ahead, hend, isTagBlank, finishEnd, put, opened]

end Machine

end LightningTemplate.Markup
