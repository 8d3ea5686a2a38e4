import Mathlib.Data.List.Infix
import SurrealZod.Json.Form
import SurrealZod.Proofs.Text.Lexing

/-! String literals read back, as JSON and as code. A literal ends at the first quote that is not behind a backslash,
and only then its escapes are read; the language of the generated code has more of them than JSON. Each character of a
quoted text is written so that both readers read this character, and the quote that ends the text is the first one of
this kind. So a quoted text is read back, and nothing shorter that it begins with is a literal. -/

namespace SurrealZod

open Text

/-! ### Literals of code -/

namespace Lexical

/-- The text of a literal behind its opening quote, as it is written, and what is behind its closing quote. -/
def splitLiteral? : Text → Option (Text × Text)
  | [] => none
  | '"' :: rest => some ([], rest)
  | '\\' :: c :: rest => (splitLiteral? rest).map fun (body, behind) => ('\\' :: c :: body, behind)
  | c :: rest => (splitLiteral? rest).map fun (body, behind) => (c :: body, behind)

/-- The characters that end a line. -/
def lineEnds : List Char := ['\n', '\r', '\u2028', '\u2029']

/-- The letters that stand for another character behind a backslash. -/
def letterEscapes : List (Char × Char) :=
  [('b', '\x08'), ('f', '\x0c'), ('n', '\n'), ('r', '\r'), ('t', '\t'), ('v', '\x0b')]

/-- What a code point stands for: a code unit, or a character beyond these. -/
def codePoint? (code : Nat) : Option StringPart :=
  if code < 0x10000 then some (.unit code)
  else if code < 0x110000 then some (.char (Char.ofNat code))
  else none

/-- Reads an escape behind its backslash: what it stands for, and the text behind it. The end of a line stands for
nothing there, and a character that has no meaning of its own for itself. -/
def readEscape? : Text → Option (List StringPart × Text)
  | 'u' :: '{' :: rest =>
    match rest.dropWhile (· ≠ '}') with
    | [] => none
    | _ :: behind => ((natural? 16 (rest.takeWhile (· ≠ '}'))).bind codePoint?).map fun part => ([part], behind)
  | 'u' :: a :: b :: c :: d :: rest => (natural? 16 [a, b, c, d]).map fun code => ([.unit code], rest)
  | 'x' :: a :: b :: rest => (natural? 16 [a, b]).map fun code => ([.unit code], rest)
  | '\r' :: '\n' :: rest => some ([], rest)
  | c :: rest =>
    if c ∈ lineEnds then some ([], rest)
    else if c = '0' ∧ rest.head?.all (!·.isDigit) then some ([.unit 0], rest)
    else if c.isDigit ∨ c = 'u' ∨ c = 'x' then none
    else some ([.char ((letterEscapes.lookup c).getD c)], rest)
  | [] => none

theorem isSuffix_of_readEscape? {t rest : Text} {parts : List StringPart}
    (h : readEscape? t = some (parts, rest)) : rest <:+ t := by
  unfold readEscape? at h
  split at h
  · rename_i inside
    split at h
    · cases h
    · rename_i brace behind hbehind
      obtain ⟨part, -, hpart⟩ := Option.map_eq_some_iff.mp h
      cases hpart
      have hrest : rest <:+ inside := (List.suffix_cons brace rest).trans (hbehind ▸ List.dropWhile_suffix _)
      exact (hrest.trans (List.suffix_cons _ _)).trans (List.suffix_cons _ _)
  · obtain ⟨code, -, hcode⟩ := Option.map_eq_some_iff.mp h
    cases hcode
    exact List.suffix_append ['u', _, _, _, _] rest
  · obtain ⟨code, -, hcode⟩ := Option.map_eq_some_iff.mp h
    cases hcode
    exact List.suffix_append ['x', _, _] rest
  · cases h
    exact List.suffix_append ['\r', '\n'] rest
  · split_ifs at h <;> cases h <;> exact List.suffix_cons _ rest
  · cases h

/-- The parts of a literal whose text is written between its quotes. No line ends in it but behind a backslash. -/
def unescape? : Text → Option (List StringPart)
  | [] => some []
  | c :: rest =>
    if c = '\\' then
      match _hescape : readEscape? rest with
      | none => none
      | some (parts, behind) => (unescape? behind).map (parts ++ ·)
    else if c = '\n' ∨ c = '\r' then none
    else (unescape? rest).map (.char c :: ·)
termination_by t => t.length
decreasing_by
  · exact Nat.lt_succ_of_le (isSuffix_of_readEscape? _hescape).length_le
  · exact Nat.lt_succ_self _

/-- The text that a literal of code stands for, if a text is one literal and nothing else. -/
def literal? : Text → Option Text
  | '"' :: rest =>
    match splitLiteral? rest with
    | some (body, []) => (unescape? body).bind StringPart.decode?
    | _ => none
  | _ => none

theorem unescape?_cons {c : Char} (hbackslash : c ≠ '\\') (hline : c ≠ '\n' ∧ c ≠ '\r') (t : Text) :
    unescape? (c :: t) = (unescape? t).map (.char c :: ·) := by
  rw [unescape?, if_neg hbackslash, if_neg (not_or.mpr hline)]

theorem unescape?_backslash {t rest : Text} {parts : List StringPart} (h : readEscape? t = some (parts, rest)) :
    unescape? ('\\' :: t) = (unescape? rest).map (parts ++ ·) := by
  rw [unescape?, if_pos rfl]
  split
  · rename_i hnone
    rw [h] at hnone
    cases hnone
  · rename_i hsome
    rw [h] at hsome
    cases hsome
    rfl

end Lexical

/-! ### Quoted characters -/

namespace Text

/-- The escapes of two characters: what is behind the backslash, and what it stands for. -/
def shortEscapes : List (Char × Char) :=
  [('"', '"'), ('\\', '\\'), ('n', '\n'), ('r', '\r'), ('t', '\t'), ('b', '\x08'), ('f', '\x0c')]

/-- The escape of a control character by its code. -/
def codeEscape (code : Nat) : Text := ['\\', 'u', '0', '0', Nat.digitChar (code / 16), Nat.digitChar (code % 16)]

/-- A character is written in one of three ways. -/
theorem escapeChar_cases (c : Char) :
    (∃ entry ∈ shortEscapes, entry.2 = c ∧ escapeChar c = ['\\', entry.1]) ∨
      c.toNat < 0x20 ∧ escapeChar c = codeEscape c.toNat ∨
      ¬c.toNat < 0x20 ∧ c ≠ '"' ∧ c ≠ '\\' ∧ escapeChar c = [c] := by
  by_cases hcontrol : c.toNat < 0x20
  · have hall : ∀ n < 0x20,
        (∃ entry ∈ shortEscapes, entry.2 = Char.ofNat n ∧ escapeChar (Char.ofNat n) = ['\\', entry.1]) ∨
          escapeChar (Char.ofNat n) = codeEscape n := by decide
    have hc := hall c.toNat hcontrol
    rw [Char.ofNat_toNat] at hc
    exact hc.imp_right fun h => Or.inl ⟨hcontrol, h⟩
  · by_cases hquote : c = '"'
    · exact Or.inl ⟨('"', '"'), by decide, hquote.symm, by rw [hquote]; rfl⟩
    · by_cases hbackslash : c = '\\'
      · exact Or.inl ⟨('\\', '\\'), by decide, hbackslash.symm, by rw [hbackslash]; rfl⟩
      · have hself := Lexical.escapeChar_of_not_control hcontrol hquote hbackslash
        exact Or.inr (Or.inr ⟨hcontrol, hquote, hbackslash, hself⟩)

theorem natural?_codeEscape {code : Nat} (h : code < 0x20) :
    natural? 16 ['0', '0', Nat.digitChar (code / 16), Nat.digitChar (code % 16)] = some code := by
  have hall : ∀ n < 0x20, natural? 16 ['0', '0', Nat.digitChar (n / 16), Nat.digitChar (n % 16)] = some n := by decide
  exact hall code h

end Text

namespace StringPart

/-- Whether a part stands for a character, whatever parts follow it. -/
def IsFor (part : StringPart) (c : Char) : Prop := ∀ more, decode? (part :: more) = (decode? more).map (c :: ·)

theorem isFor_char (c : Char) : (char c).IsFor c := fun _ => rfl

theorem isFor_unit {c : Char} (h : c.toNat < 0x20) : (unit c.toNat).IsFor c := by
  intro more
  have hhigh : ¬(0xD800 ≤ c.toNat ∧ c.toNat < 0xDC00) := by omega
  have hlow : ¬(0xDC00 ≤ c.toNat ∧ c.toNat < 0xE000) := by omega
  have hsurrogate : ¬(0xD800 ≤ c.toNat ∧ c.toNat < 0xE000) := by omega
  cases more with
  | nil => simp only [decode?, if_neg hsurrogate, Char.ofNat_toNat]
  | cons next more =>
      cases next with
      | char d => simp only [decode?, if_neg hsurrogate, Char.ofNat_toNat]
      | unit code => rw [decode?, if_neg hhigh, if_neg hlow, Char.ofNat_toNat]

end StringPart

open StringPart

/-- The JSON reader reads each character as it is written. -/
theorem JsonForm.exists_readString_escapeChar (c : Char) : ∃ part : StringPart, part.IsFor c ∧
    ∀ rest, readString (escapeChar c ++ rest) = (readString rest).map fun result => (part :: result.1, result.2) := by
  rcases escapeChar_cases c with ⟨entry, hentry, rfl, hescape⟩ | ⟨hcontrol, hescape⟩ |
    ⟨hcontrol, hquote, hbackslash, hself⟩
  · refine ⟨.char entry.2, isFor_char _, fun rest => ?_⟩
    have hshort : ∀ entry ∈ shortEscapes, entry.1 ≠ 'u' ∧ shortEscape? entry.1 = some entry.2 := by decide
    obtain ⟨hne, hchar⟩ := hshort entry hentry
    rw [hescape]
    show readString ('\\' :: entry.1 :: rest) = _
    rw [readString]
    · rw [hchar]
      cases readString rest <;> rfl
    · intro a b c d more hu
      exact absurd hu hne
  · refine ⟨.unit c.toNat, isFor_unit hcontrol, fun rest => ?_⟩
    rw [hescape]
    show readString ('\\' :: 'u' :: '0' :: '0' :: _ :: _ :: rest) = _
    rw [readString, natural?_codeEscape hcontrol]
    cases readString rest <;> rfl
  · refine ⟨.char c, isFor_char c, fun rest => ?_⟩
    rw [hself, List.singleton_append, readString, if_neg (not_or.mpr ⟨hbackslash, hcontrol⟩)]
    · exact hquote
    · intro a b c d more hc
      exact absurd hc hbackslash
    · intro d more hc
      exact absurd hc hbackslash

/-- So does the reader of code. -/
theorem Lexical.exists_unescape?_escapeChar (c : Char) : ∃ part : StringPart, part.IsFor c ∧
    ∀ rest, unescape? (escapeChar c ++ rest) = (unescape? rest).map (part :: ·) := by
  rcases escapeChar_cases c with ⟨entry, hentry, rfl, hescape⟩ | ⟨hcontrol, hescape⟩ |
    ⟨hcontrol, hquote, hbackslash, hself⟩
  · refine ⟨.char entry.2, isFor_char _, fun rest => ?_⟩
    rw [hescape]
    have hread : readEscape? (entry.1 :: rest) = some ([.char entry.2], rest) := by
      simp only [shortEscapes, List.mem_cons, List.not_mem_nil, or_false] at hentry
      rcases hentry with rfl | rfl | rfl | rfl | rfl | rfl | rfl <;> rfl
    exact unescape?_backslash hread
  · refine ⟨.unit c.toNat, isFor_unit hcontrol, fun rest => ?_⟩
    have hread : readEscape? ((codeEscape c.toNat).tail ++ rest) = some ([.unit c.toNat], rest) := by
      show (natural? 16 _).map _ = _
      rw [natural?_codeEscape hcontrol]
      rfl
    rw [hescape]
    exact unescape?_backslash hread
  · refine ⟨.char c, isFor_char c, fun rest => ?_⟩
    have hline : c ≠ '\n' ∧ c ≠ '\r' := by
      constructor <;> rintro rfl <;> exact hcontrol (by decide)
    rw [hself, List.singleton_append, unescape?_cons hbackslash hline]

/-! ### Quoted texts -/

/-- A quoted text behind its opening quote. -/
def Text.quotedTail (t : Text) : Text := t.flatMap escapeChar ++ ['"']

theorem JsonForm.exists_readString_quotedTail (t rest : Text) : ∃ parts, StringPart.decode? parts = some t ∧
    readString (quotedTail t ++ rest) = some (parts, rest) := by
  induction t with
  | nil => exact ⟨[], rfl, rfl⟩
  | cons c t ih =>
      obtain ⟨parts, hparts, hread⟩ := ih
      obtain ⟨part, hpart, hchar⟩ := exists_readString_escapeChar c
      refine ⟨part :: parts, ?_, ?_⟩
      · rw [hpart, hparts, Option.map_some]
      · rw [quotedTail, List.flatMap_cons, List.append_assoc, List.append_assoc, hchar, ← List.append_assoc,
          ← quotedTail, hread, Option.map_some]

namespace Lexical

theorem exists_unescape?_flatMap_escapeChar (t : Text) : ∃ parts, StringPart.decode? parts = some t ∧
    unescape? (t.flatMap escapeChar) = some parts := by
  induction t with
  | nil => exact ⟨[], rfl, by rw [List.flatMap_nil, unescape?]⟩
  | cons c t ih =>
      obtain ⟨parts, hparts, hread⟩ := ih
      obtain ⟨part, hpart, hchar⟩ := exists_unescape?_escapeChar c
      refine ⟨part :: parts, ?_, ?_⟩
      · rw [hpart, hparts, Option.map_some]
      · rw [List.flatMap_cons, hchar, hread, Option.map_some]

theorem splitLiteral?_cons {c : Char} (hquote : c ≠ '"') (hbackslash : c ≠ '\\') (t : Text) :
    splitLiteral? (c :: t) = (splitLiteral? t).map fun result => (c :: result.1, result.2) := by
  rw [splitLiteral?]
  · exact hquote
  · intro d rest hc
    exact absurd hc hbackslash

/-- Characters that are neither quotes nor backslashes belong to the literal. -/
theorem splitLiteral?_plain_append {s : Text} (h : ∀ c ∈ s, c ≠ '"' ∧ c ≠ '\\') (t : Text) :
    splitLiteral? (s ++ t) = (splitLiteral? t).map fun result => (s ++ result.1, result.2) := by
  induction s with
  | nil => simp
  | cons c s ih =>
      obtain ⟨hquote, hbackslash⟩ := h c List.mem_cons_self
      rw [List.cons_append, splitLiteral?_cons hquote hbackslash, ih fun d hd => h d (List.mem_cons_of_mem _ hd),
        Option.map_map]
      rfl

/-- The quote that ends a literal is behind all of an escape. -/
theorem splitLiteral?_escapeChar (c : Char) (t : Text) : splitLiteral? (escapeChar c ++ t) =
    (splitLiteral? t).map fun result => (escapeChar c ++ result.1, result.2) := by
  rcases escapeChar_cases c with ⟨entry, -, -, hescape⟩ | ⟨hcontrol, hescape⟩ | ⟨-, hquote, hbackslash, hself⟩
  · rw [hescape]
    rfl
  · have hall : ∀ code < 0x20, ((codeEscape code).drop 2).all (fun d => d ≠ '"' ∧ d ≠ '\\') = true := by decide
    have hdigits : ∀ d ∈ (codeEscape c.toNat).drop 2, d ≠ '"' ∧ d ≠ '\\' := fun d hd =>
      of_decide_eq_true (List.all_eq_true.mp (hall _ hcontrol) d hd)
    rw [hescape]
    show splitLiteral? ('\\' :: 'u' :: ((codeEscape c.toNat).drop 2 ++ t)) = _
    rw [splitLiteral?, splitLiteral?_plain_append hdigits, Option.map_map]
    rfl
  · rw [hself, List.singleton_append, splitLiteral?_cons hquote hbackslash]
    rfl

theorem splitLiteral?_quotedTail (t rest : Text) :
    splitLiteral? (quotedTail t ++ rest) = some (t.flatMap escapeChar, rest) := by
  induction t with
  | nil => rfl
  | cons c t ih =>
      rw [quotedTail, List.flatMap_cons, List.append_assoc, List.append_assoc, splitLiteral?_escapeChar,
        ← List.append_assoc, ← quotedTail, ih, Option.map_some]

/-- What is behind a literal has no part in it. -/
theorem splitLiteral?_append {t body rest : Text} (h : splitLiteral? t = some (body, rest)) (more : Text) :
    splitLiteral? (t ++ more) = some (body, rest ++ more) := by
  fun_induction splitLiteral? t generalizing body with
  | case1 => cases h
  | case2 rest =>
      cases h
      rfl
  | case3 c t ih =>
      obtain ⟨⟨inner, behind⟩, hsplit, hresult⟩ := Option.map_eq_some_iff.mp h
      cases hresult
      rw [List.cons_append, List.cons_append, splitLiteral?, ih hsplit, Option.map_some]
  | case4 c t hquote hbackslash ih =>
      obtain ⟨⟨inner, behind⟩, hsplit, hresult⟩ := Option.map_eq_some_iff.mp h
      cases hresult
      have hplain : c ≠ '\\' := by
        rintro rfl
        cases t with
        | nil => cases hsplit
        | cons d t => exact hbackslash d t rfl rfl
      rw [List.cons_append, splitLiteral?_cons hquote hplain, ih hsplit, Option.map_some]

/-- No shorter text that a quoted one begins with has the quote that ends it. -/
theorem splitLiteral?_of_isPrefix {t front : Text} (h : front <+: quotedTail t) (hne : front ≠ quotedTail t) :
    splitLiteral? front = none := by
  obtain ⟨more, hmore⟩ := h
  refine Option.eq_none_iff_forall_ne_some.mpr fun result hresult => hne ?_
  have hlonger := splitLiteral?_append hresult more
  have hwhole := splitLiteral?_quotedTail t []
  rw [List.append_nil, ← hmore, hlonger] at hwhole
  have hnil : result.2 ++ more = [] := (Prod.mk.inj (Option.some.inj hwhole)).2
  rw [← hmore, (List.append_eq_nil_iff.mp hnil).2, List.append_nil]

end Lexical

theorem Text.isSome_of_mapM {α : Type} {f : Char → Option α} {t : Text} {values : List α}
    (h : t.mapM f = some values) : ∀ c ∈ t, (f c).isSome := by
  induction t generalizing values with
  | nil => exact List.forall_mem_nil _
  | cons d t ih =>
      rw [List.mapM_cons] at h
      obtain ⟨value, hvalue, h⟩ := Option.bind_eq_some_iff.mp h
      obtain ⟨rest, hrest, -⟩ := Option.bind_eq_some_iff.mp h
      exact List.forall_mem_cons.mpr ⟨Option.isSome_of_eq_some hvalue, ih hrest⟩

/-- Neither a quote nor a backslash is a digit. -/
theorem Text.plain_of_natural? {t : Text} {code : Nat} (h : natural? 16 t = some code) :
    ∀ c ∈ t, c ≠ '"' ∧ c ≠ '\\' := by
  rw [natural?] at h
  split at h
  · cases h
  · obtain ⟨values, hvalues, -⟩ := Option.map_eq_some_iff.mp h
    intro c hc
    have hdigit := isSome_of_mapM hvalues c hc
    constructor <;> rintro rfl <;> exact absurd hdigit (by decide)

/-- The JSON reader closes a literal at the same quote. -/
theorem JsonForm.splitLiteral?_of_readString {t rest : Text} {parts : List StringPart}
    (h : readString t = some (parts, rest)) : ∃ body, Lexical.splitLiteral? t = some (body, rest) := by
  fun_induction readString t generalizing parts with
  | case1 => cases h
  | case2 behind =>
      cases h
      exact ⟨[], rfl⟩
  | case3 a b c d t ih =>
      obtain ⟨code, hcode, h⟩ := Option.bind_eq_some_iff.mp h
      obtain ⟨⟨more, behind⟩, hread, h⟩ := Option.bind_eq_some_iff.mp h
      cases h
      obtain ⟨body, hbody⟩ := ih hread
      have hdigits := Lexical.splitLiteral?_plain_append (plain_of_natural? hcode) t
      refine ⟨'\\' :: 'u' :: ([a, b, c, d] ++ body), ?_⟩
      rw [Lexical.splitLiteral?]
      rw [hbody] at hdigits
      exact congrArg (Option.map _) hdigits
  | case4 c t _ ih =>
      obtain ⟨char, -, h⟩ := Option.bind_eq_some_iff.mp h
      obtain ⟨⟨more, behind⟩, hread, h⟩ := Option.bind_eq_some_iff.mp h
      cases h
      obtain ⟨body, hbody⟩ := ih hread
      exact ⟨'\\' :: c :: body, by rw [Lexical.splitLiteral?, hbody, Option.map_some]⟩
  | case5 => cases h
  | case6 c t hquote _ _ hplain ih =>
      obtain ⟨⟨more, behind⟩, hread, h⟩ := Option.map_eq_some_iff.mp h
      cases h
      obtain ⟨body, hbody⟩ := ih hread
      refine ⟨c :: body, ?_⟩
      rw [Lexical.splitLiteral?_cons hquote (not_or.mp hplain).1, hbody, Option.map_some]

/-! ### Literals -/

theorem Text.exists_of_isPrefix_quoted {t front : Text} (h : front <+: quoted t) (hne : front ≠ quoted t) :
    front = [] ∨ ∃ inside, front = '"' :: inside ∧ inside <+: quotedTail t ∧ inside ≠ quotedTail t := by
  rcases List.prefix_cons_iff.mp h with rfl | ⟨inside, rfl, hinside⟩
  · exact Or.inl rfl
  · exact Or.inr ⟨inside, rfl, hinside, fun heq => hne (congrArg ('"' :: ·) heq)⟩

namespace Lexical

variable {t front : Text}

theorem literal?_quoted (t : Text) : literal? (quoted t) = some t := by
  have hsplit := splitLiteral?_quotedTail t []
  rw [List.append_nil] at hsplit
  obtain ⟨parts, hparts, hread⟩ := exists_unescape?_flatMap_escapeChar t
  show literal? ('"' :: quotedTail t) = some t
  rw [literal?, hsplit]
  show (unescape? _).bind _ = _
  rw [hread, Option.bind_some, hparts]

theorem literal?_of_isPrefix (h : front <+: quoted t) (hne : front ≠ quoted t) : literal? front = none := by
  rcases exists_of_isPrefix_quoted h hne with rfl | ⟨inside, rfl, hinside, hshorter⟩
  · rfl
  · rw [literal?, splitLiteral?_of_isPrefix hinside hshorter]

end Lexical

namespace JsonForm

theorem ofText?_quote_cons (t : Text) : ofText? ('"' :: t) =
    (readString t).bind fun result => if skipBlank result.2 = [] then some (.string result.1) else none := by
  have hvalue : readValue (2 * ('"' :: t).length + 2) ('"' :: t) =
      (readString t).map fun result => (.string result.1, result.2) := rfl
  rw [ofText?, hvalue]
  cases readString t <;> rfl

end JsonForm

namespace JsonValue

variable {t front : Text}

theorem ofText?_quoted (t : Text) : ofText? (quoted t) = some (.string t) := by
  obtain ⟨parts, hparts, hread⟩ := JsonForm.exists_readString_quotedTail t []
  rw [List.append_nil] at hread
  show ofText? ('"' :: quotedTail t) = _
  rw [ofText?, JsonForm.ofText?_quote_cons, hread, Option.bind_some]
  show (StringPart.decode? parts).map JsonValue.string = _
  rw [hparts, Option.map_some]

theorem ofText?_of_isPrefix (h : front <+: quoted t) (hne : front ≠ quoted t) : ofText? front = none := by
  rcases exists_of_isPrefix_quoted h hne with rfl | ⟨inside, rfl, hinside, hshorter⟩
  · rfl
  · have hopen : JsonForm.readString inside = none := by
      refine Option.eq_none_iff_forall_ne_some.mpr fun result hresult => ?_
      obtain ⟨body, hbody⟩ := JsonForm.splitLiteral?_of_readString hresult
      rw [Lexical.splitLiteral?_of_isPrefix hinside hshorter] at hbody
      cases hbody
    rw [ofText?, JsonForm.ofText?_quote_cons, hopen]
    rfl

end JsonValue

end SurrealZod
