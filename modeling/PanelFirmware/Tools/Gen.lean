import PanelFirmware.Lib.Loop

/-!
# `tools/prmsytem2json/gen.cpp`: the compiler of the parameter table

The file is cut into tokens at the delimiters; a token is a text without the white space around it
and the delimiter behind it. The parser goes over the tokens with one iterator and tests for the end
only before a block and behind a parameter.

* `tokenize`, `parseRound`: the two passes; where the iterator is read or moved at the end of the
  list the result is `none`.
* `Table`: the token lists of a table, with what they say.
* `ends_iff`: what the parser returns; `parses_iff`: exactly when it returns without reading behind
  the tokens.
-/

namespace PanelFirmware.Tools.Gen

open PanelFirmware.Lib

/-! ### The tokens -/

/-- Source: `gen.cpp` `Token`. -/
structure Token where
  token : List Char
  delimiter : Char
  deriving DecidableEq

/-- White space, as the tokeniser sees it. Source: `gen.cpp` `trim`, `space_is_it`. -/
def isSpace (c : Char) : Bool := decide (0 < c.toNat ∧ c.toNat ≤ 32)

/-- Source: `gen.cpp` `trim`. -/
def trim (str : List Char) : List Char := (str.rdropWhile isSpace).dropWhile isSpace

/-- The text before the first delimiter, this delimiter, and what is left.
Source: `gen.cpp` `get_to`. -/
def getTo (str delimiters : List Char) : List Char × Char × List Char :=
  match str.dropWhile fun c => c ∉ delimiters with
  | [] => (trim str, Char.ofNat 0, [])
  | d :: rest => (trim (str.takeWhile fun c => c ∉ delimiters), d, rest)

/-- The delimiters outside of quotes and within them. Source: `gen.cpp` `main`, "Tokenize". -/
def delimiterSet (quoteOpened : Bool) : List Char :=
  if quoteOpened then [Char.ofNat 0x27] else [',', ':', '(', ')']

/-- The tokens of a buffer, with a bound on their number. Source: `gen.cpp` `main`, "Tokenize". -/
def tokenizeLoop : ℕ → Bool → List Char → List Token
  | 0, _, _ => []
  | _ + 1, _, [] => []
  | n + 1, quoteOpened, c :: buffer =>
      let r := getTo (c :: buffer) (delimiterSet quoteOpened)
      ⟨r.1, r.2.1⟩ :: tokenizeLoop n (decide (r.2.1 = Char.ofNat 0x27) && !quoteOpened) r.2.2

/-- Every token takes a character of the buffer (`tokenizeLoop_of_le`).
Source: `gen.cpp` `main`, "Tokenize". -/
def tokenize (buffer : List Char) : List Token := tokenizeLoop buffer.length false buffer

/-- The lines that are neither empty nor begin with a byte order mark, without their ends.
Source: `gen.cpp` `main`, "Read file". -/
def readFile (file : List Char) : List Char :=
  ((file.splitOn (Char.ofNat 10)).filter fun line =>
    line ≠ [] ∧ line.take 3 ≠ [Char.ofNat 0xEF, Char.ofNat 0xBB, Char.ofNat 0xBF]).flatten

/-- A token is not taken for nothing. -/
lemma getTo_length (c : Char) (buffer delimiters : List Char) :
    (getTo (c :: buffer) delimiters).2.2.length < (c :: buffer).length := by
  have hle := (List.dropWhile_suffix (l := c :: buffer) fun c => decide (c ∉ delimiters)).length_le
  unfold getTo
  split
  · exact Nat.succ_pos _
  · next d rest hrest =>
      rw [hrest, List.length_cons] at hle
      exact hle

/-- As many rounds as characters are enough. -/
lemma tokenizeLoop_of_le {n : ℕ} {quoteOpened : Bool} {buffer : List Char}
    (h : buffer.length ≤ n) :
    tokenizeLoop n quoteOpened buffer = tokenizeLoop buffer.length quoteOpened buffer := by
  induction n using Nat.strong_induction_on generalizing quoteOpened buffer with
  | _ n ih =>
      cases buffer with
      | nil => cases n <;> rfl
      | cons c buffer =>
          obtain ⟨k, rfl⟩ : ∃ k, n = k + 1 := ⟨n - 1, by rw [List.length_cons] at h; omega⟩
          have hless := getTo_length c buffer (delimiterSet quoteOpened)
          rw [List.length_cons] at h hless ⊢
          rw [tokenizeLoop, tokenizeLoop, ih k (Nat.lt_succ_self k) (by omega),
            ih buffer.length (by omega) (by omega)]

/-! ### The parser -/

/-- Source: `gen.cpp` `Mask::Value`. -/
structure MaskValue where
  name : List Char
  value : List Char

/-- Source: `gen.cpp` `Mask`. -/
structure Mask where
  name : List Char
  value : List MaskValue
  type : List Char

/-- Source: `gen.cpp` `parameter_t`. -/
structure Parameter where
  name : List Char
  unit : List Char
  type : List Char
  chmod : List Char
  callback : List Char
  param : List Char
  addr : List Char
  dflt : List Char
  min : List Char
  max : List Char
  step : List Char
  bigstep : List Char
  pow : List Char
  savetype : List Char

/-- Source: `gen.cpp` `Group`. -/
structure Group where
  name : List Char
  access : List Char
  parameters : List Parameter

/-- The loop over the values of a text, which is left at the first name with a closing bracket.
Source: `gen.cpp` `main`, "Parse". -/
def parseValues : List Token → Option (List MaskValue × List Token)
  | value :: name :: rest =>
      if name.delimiter = ')' then some ([⟨name.token, value.token⟩], rest)
      else (parseValues rest).map fun r => (⟨name.token, value.token⟩ :: r.1, r.2)
  | _ => none

/-- What follows a `text`. Source: `gen.cpp` `main`, "Parse". -/
def parseText : List Token → Option (Mask × List Token)
  | name :: type :: rest => (parseValues rest).map fun r => (⟨name.token, r.1, type.token⟩, r.2)
  | _ => none

/-- What follows a `p`. Source: `gen.cpp` `main`, "Parse". -/
def parseParameter : List Token → Option (Parameter × List Token)
  | name :: unit :: type :: chmod :: callback :: param :: addr :: dflt :: min :: max :: step ::
      bigstep :: pow :: savetype :: rest =>
      some (⟨name.token, unit.token, type.token, chmod.token, callback.token, param.token,
        addr.token, dflt.token, min.token, max.token, step.token, bigstep.token, pow.token,
        savetype.token⟩, rest)
  | _ => none

/-- The words of a parameter, in their order. -/
def Parameter.words (p : Parameter) : List (List Char) :=
  [p.name, p.unit, p.type, p.chmod, p.callback, p.param, p.addr, p.dflt, p.min, p.max, p.step,
    p.bigstep, p.pow, p.savetype]

/-- A parameter is read from as many tokens as it has words. -/
lemma parseParameter_iff {tokens rest : List Token} {p : Parameter} :
    parseParameter tokens = some (p, rest) ↔
      ∃ fields, tokens = fields ++ rest ∧ fields.map Token.token = p.words := by
  constructor
  · intro h
    unfold parseParameter at h
    split at h
    · obtain ⟨rfl, rfl⟩ := Prod.mk.inj (Option.some.inj h)
      exact ⟨_ :: _ :: _ :: _ :: _ :: _ :: _ :: _ :: _ :: _ :: _ :: _ :: _ :: _ :: [], rfl, rfl⟩
    · cases h
  · rintro ⟨fields, rfl, hwords⟩
    have hlen : fields.length = 14 := by
      rw [← List.length_map, hwords]
      rfl
    match fields, hlen with
    | [_, _, _, _, _, _, _, _, _, _, _, _, _, _], _ =>
        obtain ⟨n, u, t, c, b, a, d, f, i, x, s, g, w, v⟩ := p
        simp only [Parameter.words, List.map_cons, List.map_nil, List.cons.injEq] at hwords
        simp only [List.cons_append, List.nil_append, parseParameter, hwords]

/-- A parameter takes tokens. -/
lemma parseParameter_length {tokens rest : List Token} {p : Parameter}
    (h : parseParameter tokens = some (p, rest)) : rest.length ≤ tokens.length := by
  obtain ⟨fields, rfl, -⟩ := parseParameter_iff.mp h
  rw [List.length_append]
  exact Nat.le_add_left _ _

/-- The parameters of a group: behind one the loop is left at the end of the tokens, before the
first it is not. Source: `gen.cpp` `main`, "Parse". -/
def parseParameters : List Token → Option (List Parameter × List Token)
  | [] => none
  | t :: rest =>
      if t.token = "p".toList then
        match h : parseParameter rest with
        | none => none
        | some (parameter, []) => some ([parameter], [])
        | some (parameter, next :: rest') =>
            have := parseParameter_length h
            (parseParameters (next :: rest')).map fun r => (parameter :: r.1, r.2)
      else some ([], t :: rest)
  termination_by tokens => tokens.length

/-- What follows a `group`. Source: `gen.cpp` `main`, "Parse". -/
def parseGroup : List Token → Option (Group × List Token)
  | name :: access :: rest =>
      (parseParameters rest).map fun r => (⟨name.token, access.token, r.1⟩, r.2)
  | _ => none

/-- What the file says. Source: `gen.cpp` `main`, `texts`, `parameterstree`. -/
structure Parsed where
  texts : List Mask
  groups : List Group

/-- What one table says and then another. -/
def Parsed.append (s r : Parsed) : Parsed := ⟨s.texts ++ r.texts, s.groups ++ r.groups⟩

/-- A round of the parser, with what it has read and the tokens from the iterator on. It is left
with `none` where the iterator is read or moved at the end. Source: `gen.cpp` `main`, "Parse". -/
def parseRound (s : Parsed × List Token) : Option Parsed ⊕ (Parsed × List Token) :=
  match s.2 with
  | [] => .inl (some s.1)
  | t :: rest =>
      if t.token = "text".toList then
        match parseText rest with
        | none => .inl none
        | some (mask, rest') => .inr (s.1.append ⟨[mask], []⟩, rest')
      else if t.token = "group".toList then
        match parseGroup rest with
        | none => .inl none
        | some (group, rest') => .inr (s.1.append ⟨[], [group]⟩, rest')
      else .inr s

/-! ### The tables -/

/-- The values of a text: the last name, and no other, has a closing bracket behind it. -/
inductive Values : List Token → List MaskValue → Prop
  | last {value name : Token} (hlast : name.delimiter = ')') :
      Values [value, name] [⟨name.token, value.token⟩]
  | more {value name : Token} {tokens : List Token} {values : List MaskValue}
      (hmore : name.delimiter ≠ ')') (hvalues : Values tokens values) :
      Values (value :: name :: tokens) (⟨name.token, value.token⟩ :: values)

/-- The parameters of a group: a `p` and fourteen words each. -/
inductive Parameters : List Token → List Parameter → Prop
  | nil : Parameters [] []
  | cons {t : Token} {fields tokens : List Token} {parameter : Parameter}
      {parameters : List Parameter} (ht : t.token = "p".toList)
      (hfields : fields.map Token.token = parameter.words)
      (hparameters : Parameters tokens parameters) :
      Parameters (t :: (fields ++ tokens)) (parameter :: parameters)

/-- A table: texts and groups. A group without parameters is not the last block. -/
inductive Table : List Token → Parsed → Prop
  | nil : Table [] ⟨[], []⟩
  | text {t name type : Token} {tokens rest : List Token} {values : List MaskValue}
      {parsed : Parsed} (ht : t.token = "text".toList) (hvalues : Values tokens values)
      (hrest : Table rest parsed) :
      Table (t :: name :: type :: (tokens ++ rest))
        (Parsed.append ⟨[⟨name.token, values, type.token⟩], []⟩ parsed)
  | group {t name access : Token} {tokens rest : List Token} {parameters : List Parameter}
      {parsed : Parsed} (ht : t.token = "group".toList)
      (hparameters : Parameters tokens parameters) (hlast : rest = [] → parameters ≠ [])
      (hrest : Table rest parsed) :
      Table (t :: name :: access :: (tokens ++ rest))
        (Parsed.append ⟨[], [⟨name.token, access.token, parameters⟩]⟩ parsed)

/-! ### What the parser reads -/

/-- The loop over the values reads the values of a text. -/
lemma parseValues_iff {tokens rest : List Token} {values : List MaskValue} :
    parseValues tokens = some (values, rest) ↔
      ∃ front, tokens = front ++ rest ∧ Values front values := by
  constructor
  · intro h
    induction tokens using parseValues.induct generalizing values rest with
    | case1 value name tail hlast =>
        rw [parseValues, if_pos hlast] at h
        obtain ⟨rfl, rfl⟩ := Prod.mk.inj (Option.some.inj h)
        exact ⟨[value, name], rfl, Values.last hlast⟩
    | case2 value name tail hmore ih =>
        rw [parseValues, if_neg hmore, Option.map_eq_some_iff] at h
        obtain ⟨⟨values', rest'⟩, hr, heq⟩ := h
        obtain ⟨rfl, rfl⟩ := Prod.mk.inj heq
        obtain ⟨front, rfl, hfront⟩ := ih hr
        exact ⟨value :: name :: front, rfl, Values.more hmore hfront⟩
    | case3 tokens hshort =>
        rw [parseValues] at h
        · cases h
        · exact hshort
  · rintro ⟨front, rfl, hfront⟩
    induction hfront with
    | last hlast => rw [List.cons_append, List.cons_append, parseValues, if_pos hlast]; rfl
    | more hmore _ ih =>
        rw [List.cons_append, List.cons_append, parseValues, if_neg hmore, ih]
        rfl

/-- Behind a parameter the loop is left at the end of the tokens and goes on elsewhere. -/
lemma parseParameters_p {t : Token} {tokens rest : List Token} {parameter : Parameter}
    (ht : t.token = "p".toList) (h : parseParameter tokens = some (parameter, rest)) :
    parseParameters (t :: tokens) =
      if rest = [] then some ([parameter], [])
      else (parseParameters rest).map fun r => (parameter :: r.1, r.2) := by
  rw [parseParameters, if_pos ht]
  split
  · next hnone => rw [hnone] at h; cases h
  · next hend =>
      rw [hend] at h
      obtain ⟨rfl, rfl⟩ := Prod.mk.inj (Option.some.inj h)
      rw [if_pos rfl]
  · next hnext =>
      rw [hnext] at h
      obtain ⟨rfl, rfl⟩ := Prod.mk.inj (Option.some.inj h)
      rw [if_neg (List.cons_ne_nil _ _)]

/-- What the parameters of a group are read up to: no `p`, and the end only behind a parameter. -/
def Stops (parameters : List Parameter) (rest : List Token) : Prop :=
  (∀ t ∈ rest.head?, t.token ≠ "p".toList) ∧ (rest = [] → parameters ≠ [])

/-- What the loop over the parameters has read. -/
lemma reads_of_parseParameters {tokens rest : List Token} {parameters : List Parameter}
    (h : parseParameters tokens = some (parameters, rest)) :
    ∃ front, tokens = front ++ rest ∧ Parameters front parameters ∧ Stops parameters rest := by
  induction hn : tokens.length using Nat.strong_induction_on generalizing tokens rest parameters
    with
  | _ n ih =>
      rcases tokens with _ | ⟨t, tokens⟩
      · rw [parseParameters] at h
        cases h
      by_cases ht : t.token = "p".toList
      · cases hp : parseParameter tokens with
        | none =>
            rw [parseParameters, if_pos ht] at h
            split at h <;> simp_all
        | some r =>
            obtain ⟨parameter, rest'⟩ := r
            rw [parseParameters_p ht hp] at h
            obtain ⟨fields, rfl, hfields⟩ := parseParameter_iff.mp hp
            split_ifs at h with hend
            · subst hend
              obtain ⟨rfl, rfl⟩ := Prod.mk.inj (Option.some.inj h)
              exact ⟨t :: (fields ++ []), by simp, Parameters.cons ht hfields Parameters.nil,
                nofun, fun _ => List.cons_ne_nil _ _⟩
            · rw [Option.map_eq_some_iff] at h
              obtain ⟨⟨parameters', rest''⟩, hr, heq⟩ := h
              obtain ⟨rfl, rfl⟩ := Prod.mk.inj heq
              have hless : rest'.length < n := by
                rw [← hn, List.length_cons, List.length_append]
                omega
              obtain ⟨front, rfl, hfront, hnot, -⟩ := ih _ hless hr rfl
              exact ⟨t :: (fields ++ front), by simp, Parameters.cons ht hfields hfront, hnot,
                fun _ => List.cons_ne_nil _ _⟩
      · rw [parseParameters, if_neg ht] at h
        obtain ⟨rfl, rfl⟩ := Prod.mk.inj (Option.some.inj h)
        exact ⟨[], rfl, Parameters.nil, by simpa using ht, nofun⟩

/-- What the loop over the parameters reads. -/
lemma parseParameters_of_reads {front rest : List Token} {parameters : List Parameter}
    (hfront : Parameters front parameters) (hstops : Stops parameters rest) :
    parseParameters (front ++ rest) = some (parameters, rest) := by
  obtain ⟨hnot, hlast⟩ := hstops
  induction hfront with
  | nil =>
      cases rest with
      | nil => exact absurd rfl (hlast rfl)
      | cons t rest => rw [List.nil_append, parseParameters, if_neg (hnot t rfl)]
  | @cons t fields tokens parameter parameters ht hfields hparameters ih =>
      have hp : parseParameter (fields ++ (tokens ++ rest)) = some (parameter, tokens ++ rest) :=
        parseParameter_iff.mpr ⟨fields, rfl, hfields⟩
      rw [List.cons_append, List.append_assoc, parseParameters_p ht hp]
      -- the end is tested for behind this parameter: only without another one can it be there
      cases hparameters with
      | nil =>
          by_cases hend : rest = []
          · subst hend
            rfl
          · rw [List.nil_append, if_neg hend]
            rw [List.nil_append] at ih
            rw [ih fun h => absurd h hend]
            rfl
      | cons _ _ _ =>
          rw [if_neg (by simp), ih fun _ => List.cons_ne_nil _ _]
          rfl

/-- What follows a `text`. -/
lemma parseText_iff {tokens rest : List Token} {mask : Mask} :
    parseText tokens = some (mask, rest) ↔
      ∃ name type front values, tokens = name :: type :: (front ++ rest) ∧ Values front values ∧
        mask = ⟨name.token, values, type.token⟩ := by
  constructor
  · intro h
    unfold parseText at h
    split at h
    · rw [Option.map_eq_some_iff] at h
      obtain ⟨⟨values, rest'⟩, hr, heq⟩ := h
      obtain ⟨rfl, rfl⟩ := Prod.mk.inj heq
      obtain ⟨front, rfl, hfront⟩ := parseValues_iff.mp hr
      exact ⟨_, _, front, values, rfl, hfront, rfl⟩
    · cases h
  · rintro ⟨name, type, front, values, rfl, hfront, rfl⟩
    rw [parseText, parseValues_iff.mpr ⟨front, rfl, hfront⟩]
    rfl

/-- What follows a `group`. -/
lemma parseGroup_iff {tokens rest : List Token} {group : Group} :
    parseGroup tokens = some (group, rest) ↔
      ∃ name access front parameters, tokens = name :: access :: (front ++ rest) ∧
        Parameters front parameters ∧ Stops parameters rest ∧
        group = ⟨name.token, access.token, parameters⟩ := by
  constructor
  · intro h
    unfold parseGroup at h
    split at h
    · rw [Option.map_eq_some_iff] at h
      obtain ⟨⟨parameters, rest'⟩, hr, heq⟩ := h
      obtain ⟨rfl, rfl⟩ := Prod.mk.inj heq
      obtain ⟨front, rfl, hfront, hstops⟩ := reads_of_parseParameters hr
      exact ⟨_, _, front, parameters, rfl, hfront, hstops, rfl⟩
    · cases h
  · rintro ⟨name, access, front, parameters, rfl, hfront, hstops, rfl⟩
    rw [parseGroup, parseParameters_of_reads hfront hstops]
    rfl

/-! ### The parser ends -/

/-- A round at a `text`. -/
lemma parseRound_text {t : Token} (ht : t.token = "text".toList) (s : Parsed) (rest : List Token) :
    parseRound (s, t :: rest) =
      match parseText rest with
      | none => .inl none
      | some (mask, rest') => .inr (s.append ⟨[mask], []⟩, rest') := by
  simp only [parseRound, if_pos ht]

/-- A round at a `group`. -/
lemma parseRound_group {t : Token} (ht : t.token = "group".toList) (s : Parsed)
    (rest : List Token) :
    parseRound (s, t :: rest) =
      match parseGroup rest with
      | none => .inl none
      | some (group, rest') => .inr (s.append ⟨[], [group]⟩, rest') := by
  have htext : t.token ≠ "text".toList := by
    rw [ht]
    decide
  simp only [parseRound, if_neg htext, if_pos ht]

/-- A round at any other token changes nothing. -/
lemma parseRound_other {t : Token} (htext : t.token ≠ "text".toList)
    (hgroup : t.token ≠ "group".toList) (s : Parsed) (rest : List Token) :
    parseRound (s, t :: rest) = .inr (s, t :: rest) := by
  simp only [parseRound, if_neg htext, if_neg hgroup]

/-- A table begins with a `text` or with a `group`. -/
lemma Table.stops {tokens : List Token} {parsed : Parsed} (h : Table tokens parsed)
    {parameters : List Parameter} (hlast : tokens = [] → parameters ≠ []) :
    Stops parameters tokens := by
  refine ⟨fun t ht => ?_, hlast⟩
  cases h with
  | nil => cases ht
  | text htext _ _ =>
      obtain rfl := Option.some.inj ht
      rw [htext]
      decide
  | group hgroup _ _ _ =>
      obtain rfl := Option.some.inj ht
      rw [hgroup]
      decide

/-- What is read of one block and then of the others. -/
lemma Parsed.append_assoc (s r q : Parsed) : (s.append r).append q = s.append (r.append q) := by
  simp only [Parsed.append, List.append_assoc]

/-- On a table the parser ends with what the table says. -/
lemma Table.ends {tokens : List Token} {parsed : Parsed} (h : Table tokens parsed) (s : Parsed) :
    Loop.Ends parseRound (s, tokens) (some (s.append parsed)) := by
  induction h generalizing s with
  | nil =>
      refine Loop.ends_inl ?_
      simp only [parseRound, Parsed.append, List.append_nil]
  | @text t name type tokens rest values parsed ht hvalues _ ih =>
      have hbody : parseRound (s, t :: name :: type :: (tokens ++ rest)) =
          .inr (s.append ⟨[⟨name.token, values, type.token⟩], []⟩, rest) := by
        rw [parseRound_text ht,
          parseText_iff.mpr ⟨name, type, tokens, values, rfl, hvalues, rfl⟩]
      rw [Loop.ends_inr hbody, ← Parsed.append_assoc]
      exact ih _
  | @group t name access tokens rest parameters parsed ht hparameters hlast hrest ih =>
      have hbody : parseRound (s, t :: name :: access :: (tokens ++ rest)) =
          .inr (s.append ⟨[], [⟨name.token, access.token, parameters⟩]⟩, rest) := by
        rw [parseRound_group ht, parseGroup_iff.mpr
          ⟨name, access, tokens, parameters, rfl, hparameters, hrest.stops hlast, rfl⟩]
      rw [Loop.ends_inr hbody, ← Parsed.append_assoc]
      exact ih _

/-- The parser is left with something only behind the last token. -/
lemma parseRound_inl {tokens : List Token} {s r : Parsed}
    (h : parseRound (s, tokens) = .inl (some r)) : tokens = [] ∧ r = s := by
  rcases tokens with _ | ⟨t, tokens⟩
  · exact ⟨rfl, (Option.some.inj (Sum.inl.inj h)).symm⟩
  by_cases htext : t.token = "text".toList
  · rw [parseRound_text htext] at h
    split at h <;> cases h
  by_cases hgroup : t.token = "group".toList
  · rw [parseRound_group hgroup] at h
    split at h <;> cases h
  · rw [parseRound_other htext hgroup] at h
    cases h

/-- Where it goes on, it has read a block, or nothing. -/
lemma parseRound_inr {tokens rest : List Token} {s s' : Parsed}
    (h : parseRound (s, tokens) = .inr (s', rest)) :
    (s' = s ∧ rest = tokens) ∨
      ∃ block, s' = s.append block ∧
        ∀ parsed, Table rest parsed → Table tokens (block.append parsed) := by
  rcases tokens with _ | ⟨t, tokens⟩
  · cases h
  by_cases htext : t.token = "text".toList
  · rw [parseRound_text htext] at h
    rcases hblock : parseText tokens with _ | ⟨mask, rest'⟩ <;> rw [hblock] at h
    · cases h
    · obtain ⟨rfl, rfl⟩ := Prod.mk.inj (Sum.inr.inj h)
      obtain ⟨name, type, front, values, rfl, hvalues, rfl⟩ := parseText_iff.mp hblock
      exact Or.inr ⟨_, rfl, fun parsed htable => Table.text htext hvalues htable⟩
  by_cases hgroup : t.token = "group".toList
  · rw [parseRound_group hgroup] at h
    rcases hblock : parseGroup tokens with _ | ⟨group, rest'⟩ <;> rw [hblock] at h
    · cases h
    · obtain ⟨rfl, rfl⟩ := Prod.mk.inj (Sum.inr.inj h)
      obtain ⟨name, access, front, parameters, rfl, hparameters, hstops, rfl⟩ :=
        parseGroup_iff.mp hblock
      exact Or.inr ⟨_, rfl, fun parsed htable => Table.group hgroup hparameters hstops.2 htable⟩
  · rw [parseRound_other htext hgroup] at h
    obtain ⟨rfl, rfl⟩ := Prod.mk.inj (Sum.inr.inj h)
    exact Or.inl ⟨rfl, rfl⟩

/-- The parser ends with something only on a table. -/
lemma table_of_ends {tokens : List Token} {s r : Parsed}
    (h : Loop.Ends parseRound (s, tokens) (some r)) :
    ∃ parsed, Table tokens parsed ∧ r = s.append parsed := by
  obtain ⟨n, hn⟩ := h
  induction n generalizing s tokens with
  | zero => cases hn
  | succ n ih =>
      rcases hbody : parseRound (s, tokens) with r' | ⟨s', rest⟩
      · rw [Loop.runs_inl hbody] at hn
        obtain rfl := Option.some.inj hn
        obtain ⟨rfl, rfl⟩ := parseRound_inl hbody
        exact ⟨⟨[], []⟩, Table.nil, by simp only [Parsed.append, List.append_nil]⟩
      · rw [Loop.runs_inr hbody] at hn
        obtain ⟨parsed, htable, rfl⟩ := ih hn
        rcases parseRound_inr hbody with ⟨rfl, rfl⟩ | ⟨block, rfl, hblock⟩
        · exact ⟨parsed, htable, rfl⟩
        · exact ⟨_, hblock parsed htable, Parsed.append_assoc _ _ _⟩

/-- **What the parser returns** is what the tokens say as a table. -/
theorem ends_iff {tokens : List Token} {s r : Parsed} :
    Loop.Ends parseRound (s, tokens) (some r) ↔
      ∃ parsed, Table tokens parsed ∧ r = s.append parsed := by
  refine ⟨table_of_ends, ?_⟩
  rintro ⟨parsed, htable, rfl⟩
  exact htable.ends s

/-- **The parser on every file.** It ends, without the iterator being read or moved at the end of
the tokens, exactly where these are a table: blocks of a `text` with its name and its type and pairs
of which the last, and no other, ends with a closing bracket, and of a `group` with its name and its
access and parameters of fifteen tokens, where a group without one is not the last block. -/
theorem parses_iff (tokens : List Token) :
    (∃ r, Loop.Ends parseRound (⟨[], []⟩, tokens) (some r)) ↔ ∃ parsed, Table tokens parsed := by
  constructor
  · rintro ⟨r, hends⟩
    obtain ⟨parsed, htable, -⟩ := ends_iff.mp hends
    exact ⟨parsed, htable⟩
  · rintro ⟨parsed, htable⟩
    exact ⟨_, htable.ends _⟩

/-- The parser hangs on a file with one word, and reads behind the tokens of a file that ends with
the head of a group. -/
theorem parse_not_total :
    (∀ r, ¬ Loop.Ends parseRound (⟨[], []⟩, tokenize (readFile "x".toList)) r) ∧
      Loop.Ends parseRound (⟨[], []⟩, tokenize (readFile "group(a, b)".toList)) none ∧
      ¬ ∀ file, ∃ r, Loop.Ends parseRound (⟨[], []⟩, tokenize (readFile file)) (some r) := by
  have hword : tokenize (readFile "x".toList) = [⟨['x'], Char.ofNat 0⟩] := by decide
  have hhead : tokenize (readFile "group(a, b)".toList) =
      [⟨"group".toList, '('⟩, ⟨['a'], ','⟩, ⟨['b'], ')'⟩] := by decide
  have hhang : ∀ r, ¬ Loop.Ends parseRound (⟨[], []⟩, tokenize (readFile "x".toList)) r := by
    rw [hword]
    refine Loop.not_ends (I := fun s => s = (⟨[], []⟩, [⟨['x'], Char.ofNat 0⟩])) ?_ rfl
    rintro s rfl
    exact ⟨_, parseRound_other (by decide) (by decide) _ _, rfl⟩
  refine ⟨hhang, ?_, fun hall => ?_⟩
  · rw [hhead]
    refine Loop.ends_inl ?_
    rw [parseRound_group rfl, parseGroup, parseParameters]
    rfl
  · obtain ⟨r, hr⟩ := hall "x".toList
    exact hhang _ hr

end PanelFirmware.Tools.Gen
