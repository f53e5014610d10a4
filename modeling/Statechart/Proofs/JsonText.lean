import Statechart.Json.Printer
import Statechart.Json.Reader

/-!
# The text of a document denotes the document

A document is read in two steps, and each of them inverts one half of writing: the text of a value
is cut into the tokens of the value, whatever follows it, and a reader that takes these tokens has
read the value, whatever it is inside of. Escapes in strings and the layout of lines are dealt with
in the first step only.
-/

namespace Statechart.Json

variable {a b c d : Char} {unit : Nat} {front rest : List Char} {token : Token} {ts us : List Token}

/-- A hexadecimal digit that is written is read. -/
theorem hexDigit_digitChar : ∀ n < 16, hexDigit (Nat.digitChar n) = some n := by decide

/-- A backslash and a letter give the unit that the letter stands for. -/
theorem stringUnits_short (h : shortEscape c = some unit) (hne : c ≠ 'u') (rest : List Char) :
    stringUnits ('\\' :: c :: rest) = (stringUnits rest).map fun read =>
      (unit :: read.1, 2 + read.2) := by
  rw [stringUnits]
  · rw [h]
    cases stringUnits rest <;> rfl
  · intro _ _ _ _ _ hc _
    exact hne hc

/-- A backslash and four hexadecimal digits give the unit that the digits spell. -/
theorem stringUnits_hex (h : hexUnit a b c d = some unit) (rest : List Char) :
    stringUnits ('\\' :: 'u' :: a :: b :: c :: d :: rest) =
      (stringUnits rest).map fun read => (unit :: read.1, 6 + read.2) := by
  rw [stringUnits, h]
  cases stringUnits rest <;> rfl

/-- Any other character of a string stands for itself. -/
theorem stringUnits_plain (hquote : c ≠ '"') (hslash : c ≠ '\\') (hcontrol : ¬ c.toNat < 0x20)
    (rest : List Char) :
    stringUnits (c :: rest) = (stringUnits rest).map fun read =>
      (c.toNat :: read.1, 1 + read.2) := by
  rw [stringUnits]
  · simp only [beq_iff_eq, hquote, hslash, hcontrol, decide_false, Bool.false_or, if_false]
    cases stringUnits rest <;> rfl
  · intro _ _ _ _ _ hc _
    exact hslash hc
  · intro _ _ hc _
    exact hslash hc

/-- What stands for a character in a string is read as that character, whatever follows. -/
theorem stringUnits_escapeChar (c : Char) (rest : List Char) :
    stringUnits (escapeChar c ++ rest) =
      (stringUnits rest).map fun read => (c.toNat :: read.1, (escapeChar c).length + read.2) := by
  unfold escapeChar
  split
  · next h =>
    obtain rfl := beq_iff_eq.mp h
    exact stringUnits_short rfl (by decide) rest
  split
  · next h =>
    obtain rfl := beq_iff_eq.mp h
    exact stringUnits_short rfl (by decide) rest
  split
  · next h => exact beq_iff_eq.mp h ▸ stringUnits_short rfl (by decide) rest
  split
  · next h => exact beq_iff_eq.mp h ▸ stringUnits_short rfl (by decide) rest
  split
  · next h => exact beq_iff_eq.mp h ▸ stringUnits_short rfl (by decide) rest
  split
  · next h => exact beq_iff_eq.mp h ▸ stringUnits_short rfl (by decide) rest
  split
  · next h => exact beq_iff_eq.mp h ▸ stringUnits_short rfl (by decide) rest
  split
  · next h =>
    refine stringUnits_hex ?_ rest
    have hhigh := hexDigit_digitChar (c.toNat / 16) (by omega)
    have hlow := hexDigit_digitChar (c.toNat % 16) (by omega)
    have hzero : hexDigit '0' = some 0 := rfl
    have hsum : 4096 * 0 + 256 * 0 + 16 * (c.toNat / 16) + c.toNat % 16 = c.toNat := by omega
    simp only [hexUnit, hhigh, hlow, hzero, Option.bind_eq_bind, Option.bind_some,
      Option.pure_def, hsum]
  · next hquote hslash _ _ _ _ _ hcontrol =>
    exact stringUnits_plain (by simpa using hquote) (by simpa using hslash) hcontrol rest

/-- A text that is written in quotes is read up to its closing quote. -/
theorem stringUnits_text (cs rest : List Char) :
    stringUnits (cs.flatMap escapeChar ++ '"' :: rest) =
      some (cs.map Char.toNat, (cs.flatMap escapeChar).length + 1) := by
  induction cs with
  | nil => rfl
  | cons c cs ih =>
    rw [List.flatMap_cons, List.append_assoc, stringUnits_escapeChar, ih, Option.map_some,
      List.length_append, Nat.add_assoc, List.map_cons]

/-- Characters are no halves of surrogate pairs, so they are spelled by their own numbers. -/
theorem unitChars_toNat (cs : List Char) : unitChars (cs.map Char.toNat) = some cs := by
  induction cs with
  | nil => rfl
  | cons c cs ih =>
    have hvalid : c.toNat < 0xD800 ∨ 0xDFFF < c.toNat ∧ c.toNat < 0x110000 := c.valid
    have hhigh : isHighSurrogate c.toNat = false := by
      simp only [isHighSurrogate, Bool.and_eq_false_iff, decide_eq_false_iff_not]
      omega
    have hlow : isLowSurrogate c.toNat = false := by
      simp only [isLowSurrogate, Bool.and_eq_false_iff, decide_eq_false_iff_not]
      omega
    rw [List.map_cons, unitChars.eq_def]
    simp only [hhigh, hlow, Bool.false_eq_true, if_false, ih, Option.map_some, Char.ofNat_toNat]

/-- The tokens that are spelled in one way only, character by character. -/
theorem fixedTokens_eq : fixedTokens =
    [(['['], .openArray), ([']'], .closeArray), (['{'], .openObject), (['}'], .closeObject),
      ([','], .comma), ([':'], .colon), (['n', 'u', 'l', 'l'], .atom .null),
      (['t', 'r', 'u', 'e'], .atom (.bool true)),
      (['f', 'a', 'l', 's', 'e'], .atom (.bool false))] := by
  simp [fixedTokens]

/-- A quote starts a string. -/
theorem firstToken_quote (text : List Char) :
    firstToken ('"' :: text) = (stringToken text).map fun read => (read.1, 1 + read.2) := by
  unfold firstToken
  rw [fixedTokens_eq]
  rfl

/-- A text in quotes. -/
theorem writeString_some (s : String) :
    writeString (some s) = '"' :: (s.toList.flatMap escapeChar ++ ['"']) := rfl

/-- A string that is written is the first token of the text. -/
theorem firstToken_writeString (s : String) (rest : List Char) :
    firstToken (writeString (some s) ++ rest) =
      some (.atom (.string (some s)), (writeString (some s)).length) := by
  have htoken : stringToken (s.toList.flatMap escapeChar ++ '"' :: rest) =
      some (.atom (.string (some s)), (s.toList.flatMap escapeChar).length + 1) := by
    rw [stringToken, stringUnits_text, Option.map_some]
    simp only [unitChars_toNat, Option.map_some, String.ofList_toList]
  have htext : writeString (some s) ++ rest =
      '"' :: (s.toList.flatMap escapeChar ++ '"' :: rest) := by
    rw [writeString_some, List.cons_append, List.append_assoc, List.singleton_append]
  have hlength : (writeString (some s)).length =
      1 + ((s.toList.flatMap escapeChar).length + 1) := by
    rw [writeString_some, List.length_cons, List.length_append, List.length_singleton,
      Nat.add_comm 1]
  rw [htext, firstToken_quote, htoken, hlength, Option.map_some]

/-- The text spells the tokens, whatever follows it. -/
def Spells (text : List Char) (ts : List Token) : Prop :=
  ∀ rest, tokens (text ++ rest) = (tokens rest).map (ts ++ ·)

namespace Spells

/-- Nothing spells no tokens. -/
theorem nil : Spells [] [] := by
  intro rest
  simp

/-- Texts one after the other spell their tokens one after the other. -/
theorem append {text text' : List Char} (h : Spells text ts) (h' : Spells text' us) :
    Spells (text ++ text') (ts ++ us) := by
  intro rest
  rw [List.append_assoc, h, h', Option.map_map]
  simp [Function.comp_def]

/-- White space in front of a text spells nothing. -/
theorem gap {text : List Char} (hc : isGap c) (h : Spells text ts) : Spells (c :: text) ts := by
  intro rest
  rw [List.cons_append, tokens, if_pos hc, h]

/-- A line break spells nothing. -/
theorem lineBreak (level : Nat) : Spells (lineBreak level) [] := by
  have hspaces (n : Nat) : Spells (List.replicate n ' ') [] := by
    induction n with
    | zero => exact nil
    | succ n ih => exact gap rfl ih
  exact gap rfl (hspaces _)

/-- The first token of a text, if it is all of the text. -/
theorem single (hc : isGap c = false)
    (h : ∀ rest, firstToken (c :: front ++ rest) = some (token, (c :: front).length)) :
    Spells (c :: front) [token] := by
  intro rest
  have hfirst := h rest
  rw [List.cons_append] at hfirst ⊢
  rw [tokens, hc, hfirst]
  simp

/-- The tokens that are spelled in one way only. -/
theorem fixed {text : List Char} {token : Token} (h : (text, token) ∈ fixedTokens) :
    Spells text [token] := by
  rw [fixedTokens_eq] at h
  simp only [List.mem_cons, Prod.mk.injEq, List.not_mem_nil, or_false] at h
  rcases h with ⟨rfl, rfl⟩ | ⟨rfl, rfl⟩ | ⟨rfl, rfl⟩ | ⟨rfl, rfl⟩ | ⟨rfl, rfl⟩ | ⟨rfl, rfl⟩ |
    ⟨rfl, rfl⟩ |
      ⟨rfl, rfl⟩ | ⟨rfl, rfl⟩ <;>
    exact single rfl fun rest => by
      unfold firstToken
      rw [fixedTokens_eq]
      rfl

/-- A string that is written. -/
theorem writeString (s : String) : Spells (writeString (some s)) [.atom (.string (some s))] :=
  single rfl fun rest => firstToken_writeString s rest

/-- A text on a line of its own. -/
theorem onLine {text : List Char} (level : Nat) (h : Spells text ts) :
    Spells (Json.lineBreak level ++ text) ts :=
  (lineBreak level).append h

/-- A text between brackets on lines of their own. -/
theorem between {text : List Char} {left right : Token} (hopen : Spells [a] [left])
    (hclose : Spells [b] [right]) (level : Nat) (h : Spells text ts) :
    Spells (a :: (text ++ Json.lineBreak level ++ [b])) (left :: (ts ++ [right])) := by
  rw [List.append_assoc]
  exact hopen.append (h.append (onLine level hclose))

/-- A member of an object on a line of its own. -/
theorem member {text : List Char} {name : Option String} (level : Nat) (hname : name.isSome)
    (h : Spells text ts) :
    Spells (Json.lineBreak level ++ Json.writeString name ++ [':', ' '] ++ text)
      (.atom (.string name) :: .colon :: ts) := by
  obtain ⟨s, rfl⟩ := Option.isSome_iff_exists.mp hname
  have hcolon : Spells [':'] [.colon] := fixed (by simp [fixedTokens])
  have hvalue : Spells ([':', ' '] ++ text) (.colon :: ts) := hcolon.append (gap rfl h)
  rw [List.append_assoc]
  exact (onLine level (writeString s)).append hvalue

end Spells

namespace Value

mutual

/-- The tokens of a value. -/
def toTokens : Value → List Token
  | array [] => [.openArray, .closeArray]
  | array (item :: rest) => .openArray :: (item.toTokens ++ (moreItems rest ++ [.closeArray]))
  | object [] => [.openObject, .closeObject]
  | object ((name, value) :: rest) =>
    .openObject :: .atom (.string name) :: .colon ::
      (value.toTokens ++ (moreMembers rest ++ [.closeObject]))
  | value => [.atom value]

/-- The tokens of the items of an array but the first. -/
def moreItems : List Value → List Token
  | [] => []
  | item :: rest => .comma :: (item.toTokens ++ moreItems rest)

/-- The tokens of the members of an object but the first. -/
def moreMembers : List (Option String × Value) → List Token
  | [] => []
  | (name, value) :: rest =>
    .comma :: .atom (.string name) :: .colon :: (value.toTokens ++ moreMembers rest)

end

mutual

/-- The text of a value spells its tokens, if its strings spell texts and there are
no numbers in it. -/
theorem spells_write (level : Nat) : (value : Value) → value.all Option.isSome (fun _ => false) →
    Spells (value.write level) value.toTokens
  | null, _ => by
    rw [Value.write]
    exact Spells.fixed (by simp [fixedTokens])
  | bool true, _ => by
    rw [Value.write]
    exact Spells.fixed (by simp [fixedTokens])
  | bool false, _ => by
    rw [Value.write]
    exact Spells.fixed (by simp [fixedTokens])
  | number _, h => by simp [Value.all] at h
  | string none, h => by simp [Value.all] at h
  | string (some s), _ => Spells.writeString s
  | array [], _ => by
    have hopen : Spells ['['] [.openArray] := Spells.fixed (by simp [fixedTokens])
    exact hopen.append (Spells.fixed (by simp [fixedTokens]))
  | array (item :: rest), h => by
    simp only [Value.all, allItems, Bool.and_eq_true] at h
    have hitem := (spells_write (level + 1) item h.1).onLine (level + 1)
    have hitems := hitem.append (spells_writeItems (level + 1) rest h.2)
    rw [Value.write, toTokens, ← List.append_assoc]
    exact Spells.between (Spells.fixed (by simp [fixedTokens]))
      (Spells.fixed (by simp [fixedTokens])) level hitems
  | object [], _ => by
    have hopen : Spells ['{'] [.openObject] := Spells.fixed (by simp [fixedTokens])
    exact hopen.append (Spells.fixed (by simp [fixedTokens]))
  | object ((name, value) :: rest), h => by
    simp only [Value.all, allMembers, Bool.and_eq_true] at h
    have hmember := (spells_write (level + 1) value h.1.2).member (level + 1) h.1.1
    have hmembers := hmember.append (spells_writeMembers (level + 1) rest h.2)
    rw [Value.write, toTokens, ← List.append_assoc]
    exact Spells.between (Spells.fixed (by simp [fixedTokens]))
      (Spells.fixed (by simp [fixedTokens])) level hmembers

/-- The text of the items of an array but the first spells their tokens. -/
theorem spells_writeItems (level : Nat) :
    (items : List Value) → allItems Option.isSome (fun _ => false) items →
    Spells (writeItems level items) (moreItems items)
  | [], _ => Spells.nil
  | item :: rest, h => by
    simp only [allItems, Bool.and_eq_true] at h
    have hcomma : Spells [','] [.comma] := Spells.fixed (by simp [fixedTokens])
    have hitem := (spells_write level item h.1).onLine level
    exact hcomma.append (hitem.append (spells_writeItems level rest h.2))

/-- The text of the members of an object but the first spells their tokens. -/
theorem spells_writeMembers (level : Nat) : (members : List (Option String × Value)) →
    allMembers Option.isSome (fun _ => false) members →
    Spells (writeMembers level members) (moreMembers members)
  | [], _ => Spells.nil
  | (name, value) :: rest, h => by
    simp only [allMembers, Bool.and_eq_true] at h
    have hcomma : Spells [','] [.comma] := Spells.fixed (by simp [fixedTokens])
    have hmember := (spells_write level value h.1.2).member level h.1.1
    exact hcomma.append (hmember.append (spells_writeMembers level rest h.2))

end

open Reader (step)

/-- A reader that may find the end of an array starts reading an item as any other value. -/
theorem foldlM_item (value : Value) (within : List Open) (ts : List Token) :
    (value.toTokens ++ ts).foldlM step (.item within) =
      (value.toTokens ++ ts).foldlM step (.value within) := by
  have hfirst : ∃ first more, value.toTokens = first :: more ∧ first ≠ .closeArray := by
    fun_cases toTokens value <;> exact ⟨_, _, rfl, Token.noConfusion⟩
  obtain ⟨first, more, htokens, hne⟩ := hfirst
  have hstep : step (.item within) first = step (.value within) first := by
    rw [step, step]
    intro _ hclose _
    exact hne hclose
  rw [htokens, List.cons_append, List.foldlM_cons, List.foldlM_cons, hstep]

mutual

/-- A reader that takes the tokens of a value has read the value. -/
theorem foldlM_toTokens (within : List Open) : (value : Value) →
    value.toTokens.foldlM step (.value within) = some (.done within value)
  | null => rfl
  | bool _ => rfl
  | number _ => rfl
  | string _ => rfl
  | array [] => rfl
  | array (item :: rest) => by
    obtain ⟨items, last, hrest, hitems⟩ := foldlM_moreItems within rest [] item
    rw [toTokens, List.foldlM_cons]
    change (item.toTokens ++ (moreItems rest ++ [Token.closeArray])).foldlM step
      (.item (.array [] :: within)) = _
    rw [foldlM_item, List.foldlM_append, foldlM_toTokens (.array [] :: within) item,
      Option.bind_eq_bind, Option.bind_some, List.foldlM_append, hrest, Option.bind_eq_bind,
      Option.bind_some]
    change some (Reader.done within (.array (last :: items).reverse)) = _
    rw [hitems]
    rfl
  | object [] => rfl
  | object ((name, value) :: rest) => by
    obtain ⟨members, last, lastValue, hrest, hmembers⟩ :=
      foldlM_moreMembers within rest [] name value
    rw [toTokens, List.foldlM_cons]
    change (value.toTokens ++ (moreMembers rest ++ [Token.closeObject])).foldlM step
      (.value (.object [] name :: within)) = _
    rw [List.foldlM_append, foldlM_toTokens (.object [] name :: within) value, Option.bind_eq_bind,
      Option.bind_some, List.foldlM_append, hrest, Option.bind_eq_bind, Option.bind_some]
    change some (Reader.done within (.object ((last, lastValue) :: members).reverse)) = _
    rw [hmembers]
    rfl

/-- A reader inside an array that takes the tokens of further items has read them
behind what it had. -/
theorem foldlM_moreItems (within : List Open) : (rest items : List Value) → (value : Value) →
    ∃ items' value', (moreItems rest).foldlM step (.done (.array items :: within) value) =
        some (.done (.array items' :: within) value') ∧
      (value' :: items').reverse = (value :: items).reverse ++ rest
  | [], items, value => ⟨items, value, rfl, (List.append_nil _).symm⟩
  | item :: rest, items, value => by
    obtain ⟨items', value', hrest, hitems⟩ := foldlM_moreItems within rest (value :: items) item
    refine ⟨items', value', ?_, ?_⟩
    · rw [moreItems, List.foldlM_cons]
      change (item.toTokens ++ moreItems rest).foldlM step
        (.value (.array (value :: items) :: within)) = _
      rw [List.foldlM_append, foldlM_toTokens (.array (value :: items) :: within) item,
        Option.bind_eq_bind, Option.bind_some, hrest]
    · rw [hitems, List.reverse_cons, List.append_assoc, List.singleton_append]

/-- A reader inside an object that takes the tokens of further members has read them
behind what it had. -/
theorem foldlM_moreMembers (within : List Open) : (rest members : List (Option String × Value)) →
    (name : Option String) → (value : Value) →
    ∃ members' name' value',
      (moreMembers rest).foldlM step (.done (.object members name :: within) value) =
        some (.done (.object members' name' :: within) value') ∧
      ((name', value') :: members').reverse = ((name, value) :: members).reverse ++ rest
  | [], members, name, value => ⟨members, name, value, rfl, (List.append_nil _).symm⟩
  | (next, item) :: rest, members, name, value => by
    obtain ⟨members', name', value', hrest, hmembers⟩ :=
      foldlM_moreMembers within rest ((name, value) :: members) next item
    refine ⟨members', name', value', ?_, ?_⟩
    · rw [moreMembers, List.foldlM_cons]
      change (item.toTokens ++ moreMembers rest).foldlM step
        (.value (.object ((name, value) :: members) next :: within)) = _
      rw [List.foldlM_append,
        foldlM_toTokens (.object ((name, value) :: members) next :: within) item,
        Option.bind_eq_bind, Option.bind_some, hrest]
    · rw [hmembers, List.reverse_cons, List.append_assoc, List.singleton_append]

end

/-- All strings in the value spell texts, and there are no numbers in it. -/
def IsPlain (value : Value) : Prop := ∀ number, value.all Option.isSome number

/-- The text of a plain value denotes the value. -/
theorem parse_print {value : Value} (h : value.IsPlain) : parse value.print = some value := by
  have htokens := spells_write 0 value (h _) []
  rw [List.append_nil, tokens, Option.map_some, List.append_nil] at htokens
  rw [parse, print, String.toList_ofList, htokens, Option.bind_some, ofTokens, foldlM_toTokens]

end Value

end Statechart.Json
