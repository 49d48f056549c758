import LightningTemplate.Text.Blank
import LightningTemplate.Text.Lines

/-! Template text.  A fragment carries its indent and ends without a line feed;
fragments that stand side by side are joined by line feeds, and a joined block
ends with one so that it fits between an opening and a closing line. -/
namespace LightningTemplate.Template
open Text

def step : Text := "    ".toList

def deeper (indent : Text) : Text := indent ++ step

theorem blank_deeper {indent : Text} (h : indent.all isBlank = true) :
    (deeper indent).all isBlank = true := by
  have hstep : step.all isBlank = true := by decide
  rw [deeper, List.all_append, h, hstep]
  rfl

def stack (fragments : List Text) : Text :=
  match fragments.filter (!·.isEmpty) with
  | [] => []
  | f :: fs => join ['\n'] (f :: fs) ++ ['\n']

def solidLines (text : Text) : List Text := ((lines text).map strip).filter (!·.isEmpty)

theorem mem_solidLines {t l : Text} (h : l ∈ solidLines t) :
    l ≠ [] ∧ ∃ raw ∈ lines t, l = strip raw := by
  simp only [solidLines, List.mem_filter, List.mem_map] at h
  obtain ⟨⟨raw, hraw, rfl⟩, hne⟩ := h
  exact ⟨by simpa using hne, raw, hraw, rfl⟩

def textLines (text indent : Text) : Text := join ['\n'] ((solidLines text).map (indent ++ ·))

def comment (indent text : Text) : Text :=
  indent ++ "<!-- ".toList ++ text ++ " -->".toList

/-- An opening line, content that is indented already, and a closing line. -/
def block (indent opening content closing : Text) : Text :=
  indent ++ opening ++ ('\n' :: content) ++ indent ++ closing

def emptyElement (indent tag attributes : Text) : Text :=
  indent ++ ('<' :: tag) ++ attributes ++ "></".toList ++ tag ++ ['>']

def inlineElement (indent tag content : Text) : Text :=
  indent ++ ('<' :: tag) ++ ('>' :: content) ++ "</".toList ++ tag ++ ['>']

def isBraced : Text → Bool
  | '{' :: cs =>
    match cs.reverse with
    | '}' :: inner => inner.all fun c => c != '{' && c != '}'
    | _ => false
  | _ => false

def escapeChar (c : Char) : Text :=
  if c = '&' then "&amp;".toList
  else if c = '"' then "&quot;".toList
  else if c = '<' then "&lt;".toList
  else [c]

def entityChars : Text := "&ampquotl;".toList

theorem mem_escapeChar {c d : Char} (h : d ∈ escapeChar c) : d = c ∨ d ∈ entityChars := by
  have hentity (name : Text) (hname : name.all entityChars.contains = true) (hd : d ∈ name) :
      d ∈ entityChars := by
    simpa using List.all_eq_true.1 hname d hd
  unfold escapeChar at h
  split at h
  · exact .inr (hentity _ (by decide) h)
  · split at h
    · exact .inr (hentity _ (by decide) h)
    · split at h
      · exact .inr (hentity _ (by decide) h)
      · exact .inl (List.mem_singleton.1 h)

def escapeValue (value : Text) : Text := value.flatMap escapeChar

def attributeText (name value : Text) : Text :=
  if isBraced value then name ++ ('=' :: value)
  else name ++ ('=' :: '"' :: escapeValue value) ++ ['"']

def attributeList (pairs : List (Text × Text)) : Text :=
  pairs.flatMap fun p => ' ' :: attributeText p.1 p.2

def document (body : Text) : Text :=
  "<template>\n".toList ++ body ++ "</template>".toList

end LightningTemplate.Template
