import MavlinkCompiler.Text.Split

/-!
# Markup tokens

The first view of a definition file: a sequence of tags, comments, instructions, sections and text
runs. What a token is can be told from its first characters alone, and each token ends at a fixed
mark, so reading tokens never has to be taken back. The rules are those of the grammar's `element`,
`content` and `misc`, put together again in `Xml.Markup`.

* `Token.read?`: the token at the front of a text, and the text after it.
* `Token.readAll?`: all tokens of a text.
-/

namespace MavlinkCompiler.Xml

open Text

/-- A name with attributes, values as written between the quotes. -/
structure Tag where
  name : String
  attributes : List (String × String)
  deriving DecidableEq, Repr

/-- One piece of markup. -/
inductive Token where
  /-- `<name …>` -/
  | opening (tag : Tag)
  /-- `<name …/>` -/
  | empty (tag : Tag)
  /-- `</name>` -/
  | closing (name : String)
  /-- `<!-- body -->` -/
  | comment (body : String)
  /-- `<? body ?>` -/
  | instruction (body : String)
  /-- `<!DOCTYPE body>` -/
  | doctype (body : String)
  /-- `<![CDATA[ body ]]>` -/
  | cdata (body : String)
  /-- A maximal run without `<`. -/
  | text (run : String)
  deriving DecidableEq, Repr

/-! ## Characters and names -/

/-- The characters that separate the parts of a tag: the rule `ws`. -/
def isSpace (c : Char) : Bool :=
  c == ' ' || c == '\t' || c == '\r' || c == '\n'

/-- The characters a name can start with; all of them are ASCII. -/
def isNameStart (c : Char) : Bool :=
  c.isAlpha || c == '_' || c == ':'

/-- The characters a name can go on with; all of them are ASCII. -/
def isNameChar (c : Char) : Bool :=
  c.isAlphanum || c == '_' || c == '-' || c == '.' || c == ':'

/-- Drops the space in front. -/
def skipSpace (cs : List Char) : List Char :=
  cs.dropWhile isSpace

/-- The longest name at the front: the rule `name`. -/
def name? : List Char → Option (String × List Char)
  | [] => none
  | c :: cs =>
    if isNameStart c then
      some (String.ofList (c :: cs.takeWhile isNameChar), cs.dropWhile isNameChar)
    else
      none

/-! ## Attributes -/

/-- A value up to its closing quote, `dq_value` and `sq_value`; a value holds no `<`. -/
def quoted? (quote : Char) (cs : List Char) : Option (String × List Char) :=
  match cs.dropWhile fun c => c != quote && c != '<' with
  | [] => none
  | c :: rest =>
    if c == quote then
      some (String.ofList (cs.takeWhile fun c => c != quote && c != '<'), rest)
    else
      none

/-- A value in double or single quotes: the rule `attr_value`. -/
def value? : List Char → Option (String × List Char)
  | '"' :: cs => quoted? '"' cs
  | '\'' :: cs => quoted? '\'' cs
  | _ => none

/-- What follows an attribute's name: an equals sign and a value, space around the sign allowed. -/
def assigned? (cs : List Char) : Option (String × List Char) :=
  match skipSpace cs with
  | '=' :: rest => value? (skipSpace rest)
  | _ => none

/-- One attribute with the space that has to stand in front of it: the rule `attribute`. -/
def attribute? (cs : List Char) : Option ((String × String) × List Char) :=
  if (cs.head?.map isSpace).getD false then do
    let (key, rest) ← name? (skipSpace cs)
    let (value, rest) ← assigned? rest
    pure ((key, value), rest)
  else
    none

theorem length_dropWhile_le {α : Type} (p : α → Bool) (cs : List α) :
    (cs.dropWhile p).length ≤ cs.length :=
  (List.dropWhile_sublist p).length_le

theorem length_lt_of_name? {cs rest : List Char} {name : String}
    (h : name? cs = some (name, rest)) : rest.length < cs.length := by
  cases cs with
  | nil => simp [name?] at h
  | cons c cs =>
    rw [name?] at h
    split at h
    · simp only [Option.some.injEq, Prod.mk.injEq] at h
      rw [← h.2]
      exact Nat.lt_succ_of_le (length_dropWhile_le _ _)
    · simp at h

theorem length_lt_of_quoted? {quote : Char} {cs rest : List Char} {value : String}
    (h : quoted? quote cs = some (value, rest)) : rest.length < cs.length := by
  have hle := length_dropWhile_le (fun c => c != quote && c != '<') cs
  rw [quoted?] at h
  split at h
  · simp at h
  · next heq =>
    split at h
    · simp only [Option.some.injEq, Prod.mk.injEq] at h
      rw [heq, List.length_cons] at hle
      rw [← h.2]
      omega
    · simp at h

theorem length_lt_of_value? {cs rest : List Char} {value : String}
    (h : value? cs = some (value, rest)) : rest.length < cs.length := by
  unfold value? at h
  split at h
  · exact Nat.lt_succ_of_lt (length_lt_of_quoted? h)
  · exact Nat.lt_succ_of_lt (length_lt_of_quoted? h)
  · simp at h

theorem length_lt_of_assigned? {cs rest : List Char} {value : String}
    (h : assigned? cs = some (value, rest)) : rest.length < cs.length := by
  have hle := length_dropWhile_le isSpace cs
  unfold assigned? skipSpace at h
  split at h
  · next r heq =>
    have hlt := length_lt_of_value? h
    have hle' := length_dropWhile_le isSpace r
    rw [heq, List.length_cons] at hle
    omega
  · simp at h

theorem length_lt_of_attribute? {cs rest : List Char} {pair : String × String}
    (h : attribute? cs = some (pair, rest)) : rest.length < cs.length := by
  unfold attribute? at h
  split at h
  · cases hn : name? (skipSpace cs) with
    | none => simp [hn] at h
    | some p =>
      obtain ⟨key, r⟩ := p
      cases ha : assigned? r with
      | none => simp [hn, ha] at h
      | some q =>
        obtain ⟨value, r'⟩ := q
        simp only [hn, ha, Option.bind_eq_bind, Option.bind_some, Option.pure_def,
          Option.some.injEq, Prod.mk.injEq] at h
        have h₁ := length_lt_of_name? hn
        have h₂ := length_lt_of_assigned? ha
        have h₃ := length_dropWhile_le isSpace cs
        rw [skipSpace] at h₁
        rw [← h.2]
        omega
  · simp at h

/-- The attributes at the front, as many as there are. -/
def attributes (cs : List Char) : List (String × String) × List Char :=
  match _h : attribute? cs with
  | some (pair, rest) =>
    let (more, rest) := attributes rest
    (pair :: more, rest)
  | none => ([], cs)
termination_by cs.length
decreasing_by exact length_lt_of_attribute? _h

theorem length_attributes_le (cs : List Char) : (attributes cs).2.length ≤ cs.length := by
  fun_induction attributes cs with
  | case1 cs pair rest h more rest' heq ih =>
    have := length_lt_of_attribute? h
    rw [heq] at ih
    exact Nat.le_trans ih (Nat.le_of_lt this)
  | case2 => exact Nat.le_refl _

/-! ## Tokens -/

/-- The text up to the mark `stop` as a token. -/
def upTo? (stop : List Char) (token : String → Token) (cs : List Char) :
    Option (Token × List Char) :=
  match cutAt? stop cs with
  | some (body, rest) => some (token (String.ofList body), rest)
  | none => none

/-- What follows `</`: the rule `close_tag`. -/
def closing? (cs : List Char) : Option (Token × List Char) := do
  let (name, rest) ← name? cs
  match skipSpace rest with
  | '>' :: rest => pure (.closing name, rest)
  | _ => none

/-- What follows the `<` of an opening or empty tag: the rules `open_tag` and `empty_element`. -/
def tag? (cs : List Char) : Option (Token × List Char) := do
  let (name, rest) ← name? cs
  let (attributes, rest) := attributes rest
  match skipSpace rest with
  | '/' :: '>' :: rest => pure (.empty ⟨name, attributes⟩, rest)
  | '>' :: rest => pure (.opening ⟨name, attributes⟩, rest)
  | _ => none

/-- The token at the front of a text, and the text after it. -/
def Token.read? (cs : List Char) : Option (Token × List Char) :=
  match cs with
  | [] => none
  | '<' :: '!' :: '-' :: '-' :: rest => upTo? ['-', '-', '>'] .comment rest
  | '<' :: '?' :: rest => upTo? ['?', '>'] .instruction rest
  | '<' :: '/' :: rest => closing? rest
  | '<' :: '!' :: '[' :: 'C' :: 'D' :: 'A' :: 'T' :: 'A' :: '[' :: rest =>
    upTo? [']', ']', '>'] .cdata rest
  | '<' :: '!' :: 'D' :: 'O' :: 'C' :: 'T' :: 'Y' :: 'P' :: 'E' :: rest =>
    upTo? ['>'] .doctype rest
  | '<' :: rest => tag? rest
  | c :: rest =>
    some (.text (String.ofList (c :: rest.takeWhile (· != '<'))), rest.dropWhile (· != '<'))

theorem length_le_of_upTo? {stop cs rest : List Char} {make : String → Token} {token : Token}
    (h : upTo? stop make cs = some (token, rest)) : rest.length ≤ cs.length := by
  unfold upTo? at h
  split at h
  · next hc =>
    simp only [Option.some.injEq, Prod.mk.injEq] at h
    rw [← h.2]
    exact length_le_of_cutAt? hc
  · simp at h

theorem length_le_of_closing? {cs rest : List Char} {token : Token}
    (h : closing? cs = some (token, rest)) : rest.length ≤ cs.length := by
  unfold closing? at h
  cases hn : name? cs with
  | none => simp [hn] at h
  | some p =>
    obtain ⟨name, r⟩ := p
    have h₁ := length_lt_of_name? hn
    have h₂ := length_dropWhile_le isSpace r
    simp only [hn, Option.bind_eq_bind, Option.bind_some] at h
    split at h
    · next heq =>
      rw [skipSpace] at heq
      rw [heq, List.length_cons] at h₂
      simp only [Option.pure_def, Option.some.injEq, Prod.mk.injEq] at h
      rw [← h.2]
      omega
    · simp at h

theorem length_le_of_tag? {cs rest : List Char} {token : Token}
    (h : tag? cs = some (token, rest)) : rest.length ≤ cs.length := by
  unfold tag? at h
  cases hn : name? cs with
  | none => simp [hn] at h
  | some p =>
    obtain ⟨name, r⟩ := p
    have h₁ := length_lt_of_name? hn
    have h₂ := length_attributes_le r
    have h₃ := length_dropWhile_le isSpace (attributes r).2
    simp only [hn, Option.bind_eq_bind, Option.bind_some] at h
    split at h
    · next heq =>
      rw [skipSpace] at heq
      rw [heq] at h₃
      simp only [List.length_cons] at h₃
      simp only [Option.pure_def, Option.some.injEq, Prod.mk.injEq] at h
      rw [← h.2]
      omega
    · next heq =>
      rw [skipSpace] at heq
      rw [heq] at h₃
      simp only [List.length_cons] at h₃
      simp only [Option.pure_def, Option.some.injEq, Prod.mk.injEq] at h
      rw [← h.2]
      omega
    · simp at h

/-- A token takes at least one character. -/
theorem length_lt_of_read? {cs rest : List Char} {token : Token}
    (h : Token.read? cs = some (token, rest)) : rest.length < cs.length := by
  unfold Token.read? at h
  split at h
  · simp at h
  · have := length_le_of_upTo? h
    simp only [List.length_cons]
    omega
  · have := length_le_of_upTo? h
    simp only [List.length_cons]
    omega
  · have := length_le_of_closing? h
    simp only [List.length_cons]
    omega
  · have := length_le_of_upTo? h
    simp only [List.length_cons]
    omega
  · have := length_le_of_upTo? h
    simp only [List.length_cons]
    omega
  · have := length_le_of_tag? h
    simp only [List.length_cons]
    omega
  · simp only [Option.some.injEq, Prod.mk.injEq] at h
    rw [← h.2]
    exact Nat.lt_succ_of_le (length_dropWhile_le _ _)

/-- All tokens of a text; nothing if some part of it is no token. -/
def Token.readAll? (cs : List Char) : Option (List Token) :=
  if cs.isEmpty then
    some []
  else
    match _h : Token.read? cs with
    | some (token, rest) => (Token.readAll? rest).map (token :: ·)
    | none => none
termination_by cs.length
decreasing_by exact length_lt_of_read? _h

end MavlinkCompiler.Xml
