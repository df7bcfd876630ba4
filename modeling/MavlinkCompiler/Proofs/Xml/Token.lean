import MavlinkCompiler.Proofs.Text.Split
import MavlinkCompiler.Xml.Token

/-!
# How tokens are written

The written forms of tokens, and that reading gives back exactly what is written. A token can have
many written forms, which differ in spacing and quotes; a text is read as one token sequence only.

* `Token.Written`: a written form of a token.
* `Token.Sequence`: a written form of several tokens, where text runs are as long as they can be.
* `Token.readAll?_eq_some_iff`: the tokens of a text are those that it is a written form of.

A written form says nothing about greed. That names, spaces and attributes are read as far as they
go does not matter, because what follows them cannot go on with them.
-/

namespace MavlinkCompiler.Xml

open Text

/-! ## Written forms -/

/-- Space characters, possibly none. -/
def Spacing (cs : List Char) : Prop :=
  ∀ c ∈ cs, isSpace c

/-- A name: a character that it can start with, and characters that it can go on with. -/
def ValidName (name : String) : Prop :=
  ∃ first rest, name.toList = first :: rest ∧ isNameStart first ∧ ∀ c ∈ rest, isNameChar c

/-- An attribute with the space in front of it. The value stands in quotes of either kind and holds
neither the quote nor `<`. -/
inductive AttributeWritten : String × String → List Char → Prop where
  | mk {key raw : String} {space before after : List Char} {quote : Char} :
      space ≠ [] → Spacing space → ValidName key → Spacing before → Spacing after →
      quote = '"' ∨ quote = '\'' → quote ∉ raw.toList → '<' ∉ raw.toList →
      AttributeWritten (key, raw)
        (space ++ key.toList ++ before ++ '=' :: after ++ quote :: raw.toList ++ [quote])

/-- Attributes in order. -/
inductive AttributesWritten : List (String × String) → List Char → Prop where
  | nil : AttributesWritten [] []
  | cons {pair : String × String} {pairs : List (String × String)} {front back : List Char} :
      AttributeWritten pair front → AttributesWritten pairs back →
      AttributesWritten (pair :: pairs) (front ++ back)

/-- A tag without what encloses it: a name and attributes. -/
inductive Tag.Written : Tag → List Char → Prop where
  | mk {tag : Tag} {back : List Char} : ValidName tag.name →
      AttributesWritten tag.attributes back → Tag.Written tag (tag.name.toList ++ back)

/-- A token as text. -/
inductive Token.Written : Token → List Char → Prop where
  | opening {tag : Tag} {cs space : List Char} : tag.Written cs → Spacing space →
      Written (.opening tag) ('<' :: cs ++ space ++ ['>'])
  | empty {tag : Tag} {cs space : List Char} : tag.Written cs → Spacing space →
      Written (.empty tag) ('<' :: cs ++ space ++ ['/', '>'])
  | closing {name : String} {space : List Char} : ValidName name → Spacing space →
      Written (.closing name) ('<' :: '/' :: name.toList ++ space ++ ['>'])
  | comment {body : String} : ¬ ['-', '-', '>'] <:+: body.toList →
      Written (.comment body) (['<', '!', '-', '-'] ++ body.toList ++ ['-', '-', '>'])
  | instruction {body : String} : ¬ ['?', '>'] <:+: body.toList →
      Written (.instruction body) (['<', '?'] ++ body.toList ++ ['?', '>'])
  | doctype {body : String} : ¬ ['>'] <:+: body.toList →
      Written (.doctype body)
        (['<', '!', 'D', 'O', 'C', 'T', 'Y', 'P', 'E'] ++ body.toList ++ ['>'])
  | cdata {body : String} : ¬ [']', ']', '>'] <:+: body.toList →
      Written (.cdata body)
        (['<', '!', '[', 'C', 'D', 'A', 'T', 'A', '['] ++ body.toList ++ [']', ']', '>'])
  | text {run : String} : run.toList ≠ [] → '<' ∉ run.toList → Written (.text run) run.toList

/-- Nothing, or the start of another token. -/
def AtMark (cs : List Char) : Prop :=
  ∀ c ∈ cs.head?, c = '<'

/-- What may follow a token: a text run ends only where the next token starts. -/
def Token.MayPrecede : Token → List Char → Prop
  | .text _, rest => AtMark rest
  | _, _ => True

/-- Tokens as text. -/
inductive Token.Sequence : List Token → List Char → Prop where
  | nil : Sequence [] []
  | cons {token : Token} {tokens : List Token} {front back : List Char} : token.Written front →
      token.MayPrecede back → Sequence tokens back → Sequence (token :: tokens) (front ++ back)

/-! ## Spaces and names -/

theorem isNameChar_of_isSpace {c : Char} (h : isSpace c = true) : isNameChar c = false := by
  simp only [isSpace, Bool.or_eq_true, beq_iff_eq] at h
  rcases h with ((rfl | rfl) | rfl) | rfl <;> decide

theorem isSpace_of_isNameStart {c : Char} (h : isNameStart c = true) : isSpace c = false := by
  cases hspace : isSpace c with
  | false => rfl
  | true =>
    simp only [isSpace, Bool.or_eq_true, beq_iff_eq] at hspace
    rcases hspace with ((rfl | rfl) | rfl) | rfl <;> exact absurd h (by decide)

/-- Space is skipped as far as it goes. -/
theorem skipSpace_eq_iff {cs rest : List Char} :
    skipSpace cs = rest ↔
      ∃ space, Spacing space ∧ cs = space ++ rest ∧ ∀ c ∈ rest.head?, isSpace c = false := by
  unfold skipSpace Spacing
  constructor
  · intro h
    obtain ⟨hcs, hspace, hrest⟩ := takeWhile_dropWhile_iff.mp ⟨rfl, h⟩
    exact ⟨cs.takeWhile isSpace, hspace, hcs, hrest⟩
  · rintro ⟨space, hspace, rfl, hrest⟩
    exact dropWhile_append hspace hrest

/-- A name is read up to the first character that cannot go on with it. -/
theorem name?_eq_some_iff {cs rest : List Char} {name : String} :
    name? cs = some (name, rest) ↔
      ValidName name ∧ cs = name.toList ++ rest ∧ ∀ c ∈ rest.head?, isNameChar c = false := by
  constructor
  · intro h
    cases cs with
    | nil => cases h
    | cons first cs =>
      rw [name?] at h
      split at h
      · next hfirst =>
        cases h
        obtain ⟨hcs, hname, hrest⟩ := takeWhile_dropWhile_iff.mp ⟨rfl, rfl⟩
        refine ⟨⟨first, cs.takeWhile isNameChar, String.toList_ofList, hfirst, hname⟩, ?_, hrest⟩
        rw [String.toList_ofList, List.cons_append, ← hcs]
      · cases h
  · rintro ⟨⟨first, later, hname, hfirst, hlater⟩, rfl, hrest⟩
    rw [hname, List.cons_append, name?, if_pos hfirst, dropWhile_append hlater hrest,
      takeWhile_append hlater hrest, ← hname, String.ofList_toList]

/-! ## Attributes -/

/-- A value is read up to its quote. -/
theorem quoted?_eq_some_iff {quote : Char} {cs rest : List Char} {value : String} :
    quoted? quote cs = some (value, rest) ↔
      cs = value.toList ++ quote :: rest ∧ quote ∉ value.toList ∧ '<' ∉ value.toList := by
  unfold quoted?
  constructor
  · intro h
    split at h
    · cases h
    next c found hfound =>
    split at h
    · next hquote =>
      cases h
      -- the run ends at a quote or at `<`, and here it is the quote
      obtain rfl := beq_iff_eq.mp hquote
      obtain ⟨hcs, hinside, -⟩ := takeWhile_dropWhile_iff.mp ⟨rfl, hfound⟩
      rw [String.toList_ofList]
      refine ⟨hcs, fun hmem => ?_, fun hmem => ?_⟩
      · simpa using hinside c hmem
      · simpa using hinside '<' hmem
    · cases h
  · rintro ⟨rfl, hquote, hmark⟩
    have hinside : ∀ c ∈ value.toList, (c != quote && c != '<') = true := by
      intro c hc
      rw [Bool.and_eq_true, bne_iff_ne, bne_iff_ne]
      exact ⟨fun heq => hquote (heq ▸ hc), fun heq => hmark (heq ▸ hc)⟩
    have hrest : ∀ c ∈ (quote :: rest).head?, (c != quote && c != '<') = false := by
      simp
    rw [dropWhile_append hinside hrest, takeWhile_append hinside hrest]
    simp

/-- A value stands in quotes of either kind. -/
theorem value?_eq_some_iff {cs rest : List Char} {value : String} :
    value? cs = some (value, rest) ↔
      ∃ quote, (quote = '"' ∨ quote = '\'') ∧ cs = quote :: value.toList ++ quote :: rest ∧
        quote ∉ value.toList ∧ '<' ∉ value.toList := by
  constructor
  · intro h
    unfold value? at h
    split at h
    · obtain ⟨rfl, hquote, hmark⟩ := quoted?_eq_some_iff.mp h
      exact ⟨'"', .inl rfl, rfl, hquote, hmark⟩
    · obtain ⟨rfl, hquote, hmark⟩ := quoted?_eq_some_iff.mp h
      exact ⟨'\'', .inr rfl, rfl, hquote, hmark⟩
    · cases h
  · rintro ⟨quote, rfl | rfl, rfl, hquote, hmark⟩
    · exact quoted?_eq_some_iff.mpr ⟨rfl, hquote, hmark⟩
    · exact quoted?_eq_some_iff.mpr ⟨rfl, hquote, hmark⟩

/-- An equals sign and a value, with space around the sign. -/
theorem assigned?_eq_some_iff {cs rest : List Char} {value : String} :
    assigned? cs = some (value, rest) ↔
      ∃ before after quote, Spacing before ∧ Spacing after ∧ (quote = '"' ∨ quote = '\'') ∧
        cs = before ++ '=' :: after ++ quote :: value.toList ++ quote :: rest ∧
        quote ∉ value.toList ∧ '<' ∉ value.toList := by
  constructor
  · intro h
    unfold assigned? at h
    split at h
    · next found hfound =>
      obtain ⟨before, hbefore, rfl, -⟩ := skipSpace_eq_iff.mp hfound
      obtain ⟨quote, hkind, hvalue, hquote, hmark⟩ := value?_eq_some_iff.mp h
      obtain ⟨after, hafter, rfl, -⟩ := skipSpace_eq_iff.mp hvalue
      exact ⟨before, after, quote, hbefore, hafter, hkind, by simp, hquote, hmark⟩
    · cases h
  · rintro ⟨before, after, quote, hbefore, hafter, hkind, rfl, hquote, hmark⟩
    have hsign : skipSpace (before ++ '=' :: after ++ quote :: value.toList ++ quote :: rest) =
        '=' :: (after ++ (quote :: value.toList ++ quote :: rest)) :=
      skipSpace_eq_iff.mpr ⟨before, hbefore, by simp, head?_cons_holds rfl⟩
    -- neither quote is a space, so the space ends where the value starts
    have hvalue : skipSpace (after ++ (quote :: value.toList ++ quote :: rest)) =
        quote :: value.toList ++ quote :: rest := by
      refine skipSpace_eq_iff.mpr ⟨after, hafter, rfl, ?_⟩
      rcases hkind with rfl | rfl <;> exact head?_cons_holds rfl
    unfold assigned?
    rw [hsign]
    show value? (skipSpace _) = _
    rw [hvalue]
    exact value?_eq_some_iff.mpr ⟨quote, hkind, rfl, hquote, hmark⟩

/-- An attribute is a space, a name and what is assigned to it. -/
theorem attribute?_eq_some_iff_parts {cs rest : List Char} {key raw : String} :
    attribute? cs = some ((key, raw), rest) ↔
      (∃ c ∈ cs.head?, isSpace c) ∧
        ∃ middle, name? (skipSpace cs) = some (key, middle) ∧
          assigned? middle = some (raw, rest) := by
  unfold attribute?
  cases cs with
  | nil => simp
  | cons c cs => by_cases hspace : isSpace c <;> simp [hspace, Option.bind_eq_some_iff]

/-- A name does not start with a space. -/
theorem ValidName.not_isSpace_head {name : String} (h : ValidName name) (rest : List Char) :
    ∀ c ∈ (name.toList ++ rest).head?, isSpace c = false := by
  obtain ⟨first, later, hname, hfirst, -⟩ := h
  rw [hname, List.cons_append]
  exact head?_cons_holds (isSpace_of_isNameStart hfirst)

/-- Space cannot go on with a name, and what follows it cannot either. -/
theorem Spacing.not_isNameChar_head {space rest : List Char} (h : Spacing space)
    (hrest : ∀ c ∈ rest.head?, isNameChar c = false) :
    ∀ c ∈ (space ++ rest).head?, isNameChar c = false := by
  cases space with
  | nil => exact hrest
  | cons c space => exact head?_cons_holds (isNameChar_of_isSpace (h c List.mem_cons_self))

theorem attribute?_eq_some_iff {cs rest : List Char} {pair : String × String} :
    attribute? cs = some (pair, rest) ↔
      ∃ front, AttributeWritten pair front ∧ cs = front ++ rest := by
  obtain ⟨key, raw⟩ := pair
  rw [attribute?_eq_some_iff_parts]
  constructor
  · rintro ⟨⟨c, hc, hspace⟩, middle, hname, hassigned⟩
    obtain ⟨hkey, hskipped, -⟩ := name?_eq_some_iff.mp hname
    obtain ⟨space, hspacing, rfl, -⟩ := skipSpace_eq_iff.mp hskipped
    obtain ⟨before, after, quote, hbefore, hafter, hkind, rfl, hquote, hmark⟩ :=
      assigned?_eq_some_iff.mp hassigned
    -- the space that was seen first is not part of the name
    have hne : space ≠ [] := by
      rintro rfl
      rw [hkey.not_isSpace_head _ c hc] at hspace
      cases hspace
    exact ⟨_, .mk hne hspacing hkey hbefore hafter hkind hquote hmark, by simp⟩
  · rintro ⟨front, hfront, rfl⟩
    cases hfront with
    | @mk _ _ space before after quote hne hspacing hkey hbefore hafter hkind hquote hmark =>
      refine ⟨?_, before ++ '=' :: after ++ quote :: raw.toList ++ quote :: rest, ?_, ?_⟩
      · obtain ⟨c, space, rfl⟩ := List.exists_cons_of_ne_nil hne
        exact ⟨c, by simp, hspacing c List.mem_cons_self⟩
      -- space or `=` follows the name, so it is read to its end
      · rw [name?_eq_some_iff]
        refine ⟨hkey, skipSpace_eq_iff.mpr ⟨space, hspacing, by simp, ?_⟩, ?_⟩
        · exact hkey.not_isSpace_head _
        · simp only [List.append_assoc]
          exact hbefore.not_isNameChar_head (head?_cons_holds rfl)
      · exact assigned?_eq_some_iff.mpr
          ⟨before, after, quote, hbefore, hafter, hkind, rfl, hquote, hmark⟩

/-- Attributes are read as far as there are any. -/
theorem attributes_written (cs : List Char) :
    ∃ front, AttributesWritten (attributes cs).1 front ∧ cs = front ++ (attributes cs).2 := by
  fun_induction attributes cs with
  | case1 cs pair rest hpair more rest' heq ih =>
    obtain ⟨front, hfront, rfl⟩ := attribute?_eq_some_iff.mp hpair
    obtain ⟨back, hback, hrest⟩ := ih
    rw [heq] at hback hrest
    exact ⟨front ++ back, .cons hfront hback, by rw [hrest, List.append_assoc]⟩
  | case2 cs hnone => exact ⟨[], .nil, rfl⟩

theorem attributes_append {pairs : List (String × String)} {front rest : List Char}
    (h : AttributesWritten pairs front) (hrest : attribute? rest = none) :
    attributes (front ++ rest) = (pairs, rest) := by
  induction h with
  | nil =>
    rw [List.nil_append, attributes]
    split
    · next hsome =>
      rw [hrest] at hsome
      cases hsome
    · rfl
  -- what is read first is determined, and the reader goes on behind it
  | @cons pair pairs front back hfront _ ih =>
    have hpair : attribute? (front ++ back ++ rest) = some (pair, back ++ rest) :=
      attribute?_eq_some_iff.mpr ⟨front, hfront, List.append_assoc _ _ _⟩
    rw [attributes]
    split
    · next found rest' hfound =>
      rw [hpair] at hfound
      cases hfound
      rw [ih]
    · next hnone =>
      rw [hpair] at hnone
      cases hnone

/-- The end of a tag is no attribute. -/
theorem attribute?_eq_none {space rest : List Char} (hspace : Spacing space)
    (hrest : ∀ c ∈ rest.head?, isSpace c = false ∧ isNameStart c = false) :
    attribute? (space ++ rest) = none := by
  have hskipped : skipSpace (space ++ rest) = rest :=
    skipSpace_eq_iff.mpr ⟨space, hspace, rfl, fun c hc => (hrest c hc).1⟩
  rw [Option.eq_none_iff_forall_ne_some]
  rintro ⟨⟨key, raw⟩, after⟩ hsome
  obtain ⟨-, middle, hname, -⟩ := attribute?_eq_some_iff_parts.mp hsome
  rw [hskipped] at hname
  -- the name would start with the character at the end of the tag
  obtain ⟨⟨first, later, hkey, hfirst, -⟩, rfl, -⟩ := name?_eq_some_iff.mp hname
  have hhead := hrest first (by simp [hkey])
  rw [hfirst] at hhead
  cases hhead.2

/-- What follows a tag's name cannot go on with the name. -/
theorem AttributesWritten.not_isNameChar_head {pairs : List (String × String)}
    {front rest : List Char} (h : AttributesWritten pairs front)
    (hrest : ∀ c ∈ rest.head?, isNameChar c = false) :
    ∀ c ∈ (front ++ rest).head?, isNameChar c = false := by
  cases h with
  | nil => exact hrest
  | cons hfront _ =>
    cases hfront with
    | mk hne hspacing =>
      obtain ⟨c, space, rfl⟩ := List.exists_cons_of_ne_nil hne
      exact head?_cons_holds (isNameChar_of_isSpace (hspacing c List.mem_cons_self))

/-! ## Tokens -/

/-- A token that ends at a mark. -/
theorem upTo?_eq_some_iff (marks : List Char) (last : Char) (hlast : last ∉ marks)
    {make : String → Token} {token : Token} {cs rest : List Char} :
    upTo? (marks ++ [last]) make cs = some (token, rest) ↔
      ∃ body : String, token = make body ∧ cs = body.toList ++ (marks ++ [last]) ++ rest ∧
        ¬ marks ++ [last] <:+: body.toList := by
  unfold upTo?
  constructor
  · intro h
    split at h
    · next body rest' hcut =>
      cases h
      obtain ⟨hcs, hfree⟩ := (cutAt?_eq_some_iff hlast).mp hcut
      exact ⟨String.ofList body, rfl, by rwa [String.toList_ofList],
        by rwa [String.toList_ofList]⟩
    · cases h
  · rintro ⟨body, rfl, hcs, hfree⟩
    rw [(cutAt?_eq_some_iff hlast).mpr ⟨hcs, hfree⟩]
    show some (make (String.ofList body.toList), rest) = _
    rw [String.ofList_toList]

theorem closing?_eq_some_iff {token : Token} {cs rest : List Char} :
    closing? cs = some (token, rest) ↔
      ∃ name space, token = .closing name ∧ ValidName name ∧ Spacing space ∧
        cs = name.toList ++ space ++ '>' :: rest := by
  unfold closing?
  constructor
  · intro h
    obtain ⟨⟨name, after⟩, hname, hend⟩ := Option.bind_eq_some_iff.mp h
    obtain ⟨hvalid, rfl, -⟩ := name?_eq_some_iff.mp hname
    dsimp only at hend
    split at hend
    · next hmark =>
      cases hend
      obtain ⟨space, hspace, rfl, -⟩ := skipSpace_eq_iff.mp hmark
      exact ⟨name, space, rfl, hvalid, hspace, by simp⟩
    · cases hend
  · rintro ⟨name, space, rfl, hvalid, hspace, rfl⟩
    have hname : name? (name.toList ++ space ++ '>' :: rest) =
        some (name, space ++ '>' :: rest) :=
      name?_eq_some_iff.mpr ⟨hvalid, List.append_assoc _ _ _,
        hspace.not_isNameChar_head (head?_cons_holds rfl)⟩
    have hend : skipSpace (space ++ '>' :: rest) = '>' :: rest :=
      skipSpace_eq_iff.mpr ⟨space, hspace, rfl, head?_cons_holds rfl⟩
    refine Option.bind_eq_some_iff.mpr ⟨_, hname, ?_⟩
    dsimp only
    rw [hend]
    rfl

/-- Name and attributes are read up to the end of a tag. -/
theorem Tag.Written.read {tag : Tag} {cs space : List Char} (h : tag.Written cs)
    (hspace : Spacing space) (c : Char) (rest : List Char)
    (hend : isSpace c = false ∧ isNameChar c = false ∧ isNameStart c = false) :
    ∃ after, name? (cs ++ space ++ c :: rest) = some (tag.name, after) ∧
      Xml.attributes after = (tag.attributes, space ++ c :: rest) ∧
      skipSpace (space ++ c :: rest) = c :: rest := by
  cases h with
  | @mk back hname hattributes =>
    refine ⟨back ++ (space ++ c :: rest), ?_, ?_, ?_⟩
    · refine name?_eq_some_iff.mpr ⟨hname, by simp, ?_⟩
      exact hattributes.not_isNameChar_head
        (hspace.not_isNameChar_head (head?_cons_holds hend.2.1))
    · exact attributes_append hattributes
        (attribute?_eq_none hspace (head?_cons_holds ⟨hend.1, hend.2.2⟩))
    · exact skipSpace_eq_iff.mpr ⟨space, hspace, rfl, head?_cons_holds hend.1⟩

theorem tag?_eq_some_iff {token : Token} {cs rest : List Char} :
    tag? cs = some (token, rest) ↔
      ∃ tag front space, tag.Written front ∧ Spacing space ∧
        (token = .empty tag ∧ cs = front ++ space ++ '/' :: '>' :: rest ∨
          token = .opening tag ∧ cs = front ++ space ++ '>' :: rest) := by
  unfold tag?
  constructor
  · intro h
    obtain ⟨⟨name, after⟩, hname, hend⟩ := Option.bind_eq_some_iff.mp h
    obtain ⟨hvalid, rfl, -⟩ := name?_eq_some_iff.mp hname
    -- the attributes are read as far as they go; only the end of the tag is left to see
    obtain ⟨back, hback, hafter⟩ := attributes_written after
    dsimp only at hend
    split at hend
    · next hmark =>
      cases hend
      obtain ⟨space, hspace, hrest, -⟩ := skipSpace_eq_iff.mp hmark
      rw [hrest] at hafter
      exact ⟨⟨name, (attributes after).1⟩, _, space, .mk hvalid hback, hspace,
        .inl ⟨rfl, by rw [List.append_assoc, List.append_assoc, ← hafter]⟩⟩
    · next hmark =>
      cases hend
      obtain ⟨space, hspace, hrest, -⟩ := skipSpace_eq_iff.mp hmark
      rw [hrest] at hafter
      exact ⟨⟨name, (attributes after).1⟩, _, space, .mk hvalid hback, hspace,
        .inr ⟨rfl, by rw [List.append_assoc, List.append_assoc, ← hafter]⟩⟩
    · cases hend
  -- `/` and `>` end names, spaces and attributes alike
  · rintro ⟨tag, front, space, htag, hspace, ⟨rfl, rfl⟩ | ⟨rfl, rfl⟩⟩
    · obtain ⟨after, hname, hattributes, hend⟩ :=
        htag.read hspace '/' ('>' :: rest) (by decide)
      rw [hname, Option.bind_eq_bind, Option.bind_some]
      dsimp only
      rw [hattributes]
      dsimp only
      rw [hend]
      rfl
    · obtain ⟨after, hname, hattributes, hend⟩ :=
        htag.read hspace '>' rest (by decide)
      rw [hname, Option.bind_eq_bind, Option.bind_some]
      dsimp only
      rw [hattributes]
      dsimp only
      rw [hend]
      rfl

/-- A tag starts with the name's first character, which no other token has there. -/
theorem read?_of_isNameStart {c : Char} (h : isNameStart c = true) (cs : List Char) :
    Token.read? ('<' :: c :: cs) = tag? (c :: cs) := by
  have hother : ∀ d, isNameStart d = false → c ≠ d := by
    rintro d hd rfl
    rw [h] at hd
    cases hd
  unfold Token.read?
  split
  · next heq => cases heq
  · next heq => exact absurd (List.cons.inj (List.cons.inj heq).2).1 (hother '!' (by decide))
  · next heq => exact absurd (List.cons.inj (List.cons.inj heq).2).1 (hother '?' (by decide))
  · next heq => exact absurd (List.cons.inj (List.cons.inj heq).2).1 (hother '/' (by decide))
  · next heq => exact absurd (List.cons.inj (List.cons.inj heq).2).1 (hother '!' (by decide))
  · next heq => exact absurd (List.cons.inj (List.cons.inj heq).2).1 (hother '!' (by decide))
  · next heq => rw [(List.cons.inj heq).2]
  · next hnot heq => exact absurd (List.cons.inj heq).1.symm hnot

/-- All other tokens start with `<`. -/
theorem read?_of_ne_mark {c : Char} (h : c ≠ '<') (cs : List Char) :
    Token.read? (c :: cs) =
      some (.text (String.ofList (c :: cs.takeWhile (· != '<'))), cs.dropWhile (· != '<')) := by
  unfold Token.read?
  split
  · next heq => cases heq
  · next heq => exact absurd (List.cons.inj heq).1 h
  · next heq => exact absurd (List.cons.inj heq).1 h
  · next heq => exact absurd (List.cons.inj heq).1 h
  · next heq => exact absurd (List.cons.inj heq).1 h
  · next heq => exact absurd (List.cons.inj heq).1 h
  · next heq => exact absurd (List.cons.inj heq).1 h
  · next heq =>
    cases heq
    rfl

theorem Tag.Written.read?_eq {tag : Tag} {cs : List Char} (h : tag.Written cs)
    (rest : List Char) : Token.read? ('<' :: cs ++ rest) = tag? (cs ++ rest) := by
  cases h with
  | mk hname _ =>
    obtain ⟨first, later, heq, hfirst, -⟩ := hname
    rw [heq]
    exact read?_of_isNameStart hfirst _

theorem written_of_read? {token : Token} {cs rest : List Char}
    (h : Token.read? cs = some (token, rest)) :
    ∃ front, token.Written front ∧ token.MayPrecede rest ∧ cs = front ++ rest := by
  -- one case for each way that a token can start
  unfold Token.read? at h
  split at h
  · cases h
  · obtain ⟨body, rfl, rfl, hfree⟩ := (upTo?_eq_some_iff ['-', '-'] '>' (by decide)).mp h
    exact ⟨_, .comment hfree, trivial, by simp⟩
  · obtain ⟨body, rfl, rfl, hfree⟩ := (upTo?_eq_some_iff ['?'] '>' (by decide)).mp h
    exact ⟨_, .instruction hfree, trivial, by simp⟩
  · obtain ⟨name, space, rfl, hvalid, hspace, rfl⟩ := closing?_eq_some_iff.mp h
    exact ⟨_, .closing hvalid hspace, trivial, by simp⟩
  · obtain ⟨body, rfl, rfl, hfree⟩ := (upTo?_eq_some_iff [']', ']'] '>' (by decide)).mp h
    exact ⟨_, .cdata hfree, trivial, by simp⟩
  · obtain ⟨body, rfl, rfl, hfree⟩ := (upTo?_eq_some_iff [] '>' List.not_mem_nil).mp h
    exact ⟨_, .doctype hfree, trivial, by simp⟩
  · obtain ⟨tag, front, space, htag, hspace, ⟨rfl, rfl⟩ | ⟨rfl, rfl⟩⟩ := tag?_eq_some_iff.mp h
    · exact ⟨_, .empty htag hspace, trivial, by simp⟩
    · exact ⟨_, .opening htag hspace, trivial, by simp⟩
  -- a text run takes everything up to `<`, so it is followed by `<` or nothing
  · next c later _ _ _ _ _ hc =>
    cases h
    obtain ⟨hlater, hinside, hrest⟩ := takeWhile_dropWhile_iff.mp ⟨rfl, rfl⟩
    refine ⟨_, .text ?_ ?_, ?_, ?_⟩
    · simp
    · rw [String.toList_ofList, List.mem_cons, not_or]
      exact ⟨fun heq => hc heq.symm, fun hmem => by simpa using hinside '<' hmem⟩
    · intro d hd
      simpa using hrest d hd
    · rw [String.toList_ofList, List.cons_append, ← hlater]

theorem read?_of_written {token : Token} {front rest : List Char} (h : token.Written front)
    (hrest : token.MayPrecede rest) : Token.read? (front ++ rest) = some (token, rest) := by
  cases h with
  | opening htag hspace =>
    rw [List.append_assoc, List.append_assoc, htag.read?_eq]
    exact tag?_eq_some_iff.mpr ⟨_, _, _, htag, hspace, .inr ⟨rfl, by simp⟩⟩
  | empty htag hspace =>
    rw [List.append_assoc, List.append_assoc, htag.read?_eq]
    exact tag?_eq_some_iff.mpr ⟨_, _, _, htag, hspace, .inl ⟨rfl, by simp⟩⟩
  | closing hvalid hspace =>
    exact closing?_eq_some_iff.mpr ⟨_, _, rfl, hvalid, hspace, by simp⟩
  | comment hfree =>
    exact (upTo?_eq_some_iff ['-', '-'] '>' (by decide)).mpr ⟨_, rfl, by simp, hfree⟩
  | instruction hfree =>
    exact (upTo?_eq_some_iff ['?'] '>' (by decide)).mpr ⟨_, rfl, by simp, hfree⟩
  | doctype hfree =>
    exact (upTo?_eq_some_iff [] '>' List.not_mem_nil).mpr ⟨_, rfl, by simp, hfree⟩
  | cdata hfree =>
    exact (upTo?_eq_some_iff [']', ']'] '>' (by decide)).mpr ⟨_, rfl, by simp, hfree⟩
  | @text run hne hmark =>
    -- the run stops where the next token starts, because nothing but that may follow
    obtain ⟨c, later, heq⟩ := List.exists_cons_of_ne_nil hne
    rw [heq, List.mem_cons, not_or] at hmark
    have hlater : ∀ c ∈ later, (c != '<') = true := by
      intro d hd
      rw [bne_iff_ne]
      exact fun h => hmark.2 (h ▸ hd)
    have hstop : ∀ c ∈ rest.head?, (c != '<') = false := by
      intro d hd
      simpa using hrest d hd
    rw [heq, List.cons_append, read?_of_ne_mark (Ne.symm hmark.1), takeWhile_append hlater hstop,
      dropWhile_append hlater hstop, ← heq, String.ofList_toList]

/-- A token is read if a written form of it is at the front. -/
theorem Token.read?_eq_some_iff {token : Token} {cs rest : List Char} :
    Token.read? cs = some (token, rest) ↔
      ∃ front, token.Written front ∧ token.MayPrecede rest ∧ cs = front ++ rest := by
  refine ⟨written_of_read?, ?_⟩
  rintro ⟨front, hfront, hrest, rfl⟩
  exact read?_of_written hfront hrest

/-- The tokens of a text are those that it is a written form of. -/
theorem Token.readAll?_eq_some_iff {tokens : List Token} {cs : List Char} :
    Token.readAll? cs = some tokens ↔ Token.Sequence tokens cs := by
  constructor
  · intro h
    -- along the reader: every step takes off one written form
    fun_induction Token.readAll? cs generalizing tokens with
    | case1 cs hempty =>
      cases h
      rw [List.isEmpty_iff.mp hempty]
      exact .nil
    | case2 cs _ token rest hread ih =>
      obtain ⟨later, hlater, rfl⟩ := Option.map_eq_some_iff.mp h
      obtain ⟨front, hfront, hprecede, rfl⟩ := Token.read?_eq_some_iff.mp hread
      exact .cons hfront hprecede (ih hlater)
    | case3 => cases h
  · intro h
    -- along the written form: the reader finds its first token and leaves the rest
    induction h with
    | nil =>
      rw [Token.readAll?]
      rfl
    | @cons token tokens front back hfront hprecede _ ih =>
      have hread : Token.read? (front ++ back) = some (token, back) :=
        Token.read?_eq_some_iff.mpr ⟨front, hfront, hprecede, rfl⟩
      have hne : (front ++ back).isEmpty = false := by
        rw [Bool.eq_false_iff]
        intro hempty
        rw [List.isEmpty_iff.mp hempty] at hread
        cases hread
      rw [Token.readAll?, hne]
      simp only [Bool.false_eq_true, if_false]
      split
      · next found rest hfound =>
        rw [hread] at hfound
        cases hfound
        rw [ih]
        rfl
      · next hnone =>
        rw [hread] at hnone
        cases hnone

/-! ## Sequences -/

theorem AtMark.append {front back : List Char} (hfront : AtMark front) (hback : AtMark back) :
    AtMark (front ++ back) := by
  cases front with
  | nil => exact hback
  | cons c front => exact hfront

theorem AtMark.front {front back : List Char} (h : AtMark (front ++ back)) : AtMark front := by
  cases front with
  | nil => nofun
  | cons c front => exact h

namespace Token

theorem MayPrecede.front {token : Token} {front back : List Char}
    (h : token.MayPrecede (front ++ back)) : token.MayPrecede front := by
  cases token with
  | text run => exact AtMark.front h
  | _ => trivial

/-- All tokens but text runs start with a mark. -/
theorem Written.atMark {token : Token} {cs : List Char} (h : token.Written cs)
    (htext : ∀ run, token ≠ .text run) (rest : List Char) : AtMark (cs ++ rest) := by
  cases h with
  | opening | empty | closing | comment | instruction | doctype | cdata =>
    exact head?_cons_holds rfl
  | text => exact absurd rfl (htext _)

/-- A written form of two sequences is cut between them. -/
theorem Sequence.split {first second : List Token} {cs : List Char}
    (h : Sequence (first ++ second) cs) :
    ∃ front back, cs = front ++ back ∧ Sequence first front ∧ Sequence second back := by
  induction first generalizing cs with
  | nil => exact ⟨[], cs, rfl, .nil, h⟩
  | cons token first ih =>
    cases h with
    | cons hwritten hprecede hrest =>
      obtain ⟨front, back, rfl, hfirst, hsecond⟩ := ih hrest
      exact ⟨_, back, (List.append_assoc _ _ _).symm, .cons hwritten hprecede.front hfirst, hsecond⟩

end Token

end MavlinkCompiler.Xml
