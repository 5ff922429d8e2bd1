import Gateway.Json.Numeral
import Gateway.Text.Utf8

/-!
# Gateway.Json.Document — reading JSON texts

A document is a JSON text as it was written: members keep their order and their repetitions,
which a configuration has to see. `Document.value` forgets them. Reading refuses what is no JSON:
text after the value, leading zeros, unescaped control characters, surrogates without a partner,
numbers out of range, and nesting of 128 arrays and objects.
-/

set_option autoImplicit false

namespace Gateway

/-- A JSON text as it was written. -/
inductive Document
  | null
  | bool (b : Bool)
  | number (n : Number)
  | string (s : String)
  | array (items : List Document)
  | object (members : List (String × Document))
  deriving Repr, Inhabited

namespace Document

mutual

/-- The value a document denotes: of members with one key the last counts. -/
def value : Document → Json
  | .null => .null
  | .bool b => .bool b
  | .number n => .number n
  | .string s => .string s
  | .array items => .array (values items)
  | .object members => Json.ofFields (fieldValues members)

/-- The values of an array's items. -/
def values : List Document → List Json
  | [] => []
  | item :: rest => value item :: values rest

/-- The values of an object's members. -/
def fieldValues : List (String × Document) → List (String × Json)
  | [] => []
  | (key, item) :: rest => (key, value item) :: fieldValues rest

end

/-- The blanks between tokens. -/
def isSpace (c : Char) : Bool := c == ' ' || c == '\t' || c == '\n' || c == '\r'

/-- What follows, and a proof that it is shorter than `cs`. -/
abbrev Rest (cs : List Char) := { rest : List Char // rest.length < cs.length }

/-- The value of a hexadecimal digit. -/
def hexDigit? (c : Char) : Option Nat :=
  if '0' ≤ c ∧ c ≤ '9' then some (c.toNat - '0'.toNat)
  else if 'a' ≤ c ∧ c ≤ 'f' then some (c.toNat - 'a'.toNat + 10)
  else if 'A' ≤ c ∧ c ≤ 'F' then some (c.toNat - 'A'.toNat + 10)
  else none

/-- The code unit that four hexadecimal digits write. -/
def codeUnit? (a b c d : Char) : Option Nat := do
  let a ← hexDigit? a
  let b ← hexDigit? b
  let c ← hexDigit? c
  let d ← hexDigit? d
  return ((a * 16 + b) * 16 + c) * 16 + d

/-- The character that an escape with one letter stands for. -/
def escaped? : Char → Option Char
  | '"' => some '"'
  | '\\' => some '\\'
  | '/' => some '/'
  | 'b' => some '\x08'
  | 'f' => some '\x0c'
  | 'n' => some '\n'
  | 'r' => some '\r'
  | 't' => some '\t'
  | _ => none

/-- Reads the rest of a string after its opening quote; `read` holds the characters so far,
latest first. -/
def readString (read : List Char) : List Char → Option (String × List Char)
  | [] => none
  | '"' :: rest => some (String.ofList read.reverse, rest)
  | '\\' :: 'u' :: a :: b :: c :: d :: rest =>
    match codeUnit? a b c d with
    | none => none
    | some unit =>
      if 0xDC00 ≤ unit ∧ unit ≤ 0xDFFF then none
      else if 0xD800 ≤ unit ∧ unit ≤ 0xDBFF then
        match rest with
        | '\\' :: 'u' :: e :: f :: g :: h :: rest =>
          match codeUnit? e f g h with
          | none => none
          | some low =>
            if 0xDC00 ≤ low ∧ low ≤ 0xDFFF then
              let code := 0x10000 + (unit - 0xD800) * 0x400 + (low - 0xDC00)
              readString (Char.ofNat code :: read) rest
            else none
        | _ => none
      else readString (Char.ofNat unit :: read) rest
  | '\\' :: c :: rest =>
    match escaped? c with
    | some c => readString (c :: read) rest
    | none => none
  | c :: rest => if c.toNat < 0x20 ∨ c = '\\' then none else readString (c :: read) rest

theorem readString_length {read cs : List Char} {s : String} {rest : List Char}
    (h : readString read cs = some (s, rest)) : rest.length < cs.length := by
  fun_induction readString read cs generalizing s rest <;> simp_all <;> grind

/-- The digits at the front, and what follows them. -/
def digits (cs : List Char) : List Nat × List Char :=
  ((cs.takeWhile Char.isDigit).map fun c => c.toNat - '0'.toNat, cs.dropWhile Char.isDigit)

/-- Reads digits of which there must be one. -/
def readDigits (cs : List Char) : Option (List Nat × List Char) :=
  match digits cs with
  | ([], _) => none
  | found => some found

/-- Reads an optional fraction. -/
def readFraction : List Char → Option (Option (List Nat) × List Char)
  | '.' :: rest => (readDigits rest).map fun (ds, rest) => (some ds, rest)
  | rest => some (none, rest)

/-- The number that digits write. -/
def digitsValue (ds : List Nat) : Nat := ds.foldl (fun n d => n * 10 + d) 0

/-- Reads the digits of an exponent after its letter. -/
def readExponentDigits (cs : List Char) : Option (Int × List Char) :=
  match cs with
  | '+' :: rest => (readDigits rest).map fun (ds, rest) => ((digitsValue ds : Int), rest)
  | '-' :: rest => (readDigits rest).map fun (ds, rest) => (-(digitsValue ds : Int), rest)
  | rest => (readDigits rest).map fun (ds, rest) => ((digitsValue ds : Int), rest)

/-- Reads an optional exponent. -/
def readExponent : List Char → Option (Option Int × List Char)
  | 'e' :: rest => (readExponentDigits rest).map fun (e, rest) => (some e, rest)
  | 'E' :: rest => (readExponentDigits rest).map fun (e, rest) => (some e, rest)
  | rest => some (none, rest)

/-- The text after a minus sign, if there is one. -/
def afterSign : List Char → Bool × List Char
  | '-' :: rest => (true, rest)
  | rest => (false, rest)

theorem afterSign_length (cs : List Char) : (afterSign cs).2.length ≤ cs.length := by
  unfold afterSign
  split <;> simp

def readNumber (cs : List Char) : Option (Number × List Char) := do
  let (negative, cs) := afterSign cs
  let (whole, cs) ← readDigits cs
  if whole.length ≠ 1 ∧ whole.head? = some 0 then none
  let (fraction, cs) ← readFraction cs
  let (exponent, cs) ← readExponent cs
  let numeral : Numeral := ⟨negative, whole, fraction.getD [], fraction.isSome, exponent⟩
  return (← numeral.value?, cs)

theorem readDigits_length {cs : List Char} {ds : List Nat} {rest : List Char}
    (h : readDigits cs = some (ds, rest)) : rest.length < cs.length := by
  cases cs with
  | nil => simp [readDigits, digits] at h
  | cons c cs =>
    have hc : c.isDigit := by
      by_cases hc : c.isDigit
      · exact hc
      · simp [readDigits, digits, hc] at h
    simp only [readDigits, digits, hc, List.takeWhile_cons_of_pos, List.dropWhile_cons_of_pos,
      List.map_cons, Option.some.injEq, Prod.mk.injEq] at h
    obtain ⟨_, rfl⟩ := h
    exact Nat.lt_succ_of_le (List.dropWhile_sublist _).length_le

theorem readFraction_length {cs : List Char} {ds : Option (List Nat)} {rest : List Char}
    (h : readFraction cs = some (ds, rest)) : rest.length ≤ cs.length := by
  unfold readFraction at h
  split at h
  · obtain ⟨⟨ds, rest⟩, hd, he⟩ := Option.map_eq_some_iff.1 h
    have := readDigits_length hd
    grind
  · grind

theorem readExponentDigits_length {cs : List Char} {e : Int} {rest : List Char}
    (h : readExponentDigits cs = some (e, rest)) : rest.length < cs.length := by
  unfold readExponentDigits at h
  split at h <;>
  · obtain ⟨⟨ds, rest⟩, hd, he⟩ := Option.map_eq_some_iff.1 h
    have := readDigits_length hd
    grind

theorem readExponent_length {cs : List Char} {e : Option Int} {rest : List Char}
    (h : readExponent cs = some (e, rest)) : rest.length ≤ cs.length := by
  unfold readExponent at h
  split at h
  · obtain ⟨⟨e, rest⟩, hd, he⟩ := Option.map_eq_some_iff.1 h
    have := readExponentDigits_length hd
    grind
  · obtain ⟨⟨e, rest⟩, hd, he⟩ := Option.map_eq_some_iff.1 h
    have := readExponentDigits_length hd
    grind
  · grind

theorem readNumber_length {cs : List Char} {n : Number} {rest : List Char}
    (h : readNumber cs = some (n, rest)) : rest.length < cs.length := by
  have := afterSign_length cs
  simp only [readNumber, Option.bind_eq_bind, Option.bind_eq_some_iff, Prod.exists] at h
  obtain ⟨whole, cs₁, h₁, h⟩ := h
  have := readDigits_length h₁
  split at h
  · simp at h
  · simp only [Option.pure_def, Option.bind_eq_some_iff, Prod.exists] at h
    obtain ⟨fraction, cs₂, h₂, exponent, cs₃, h₃, _, _, h₄⟩ := h
    have := readFraction_length h₂
    have := readExponent_length h₃
    grind

/-- The text without blanks in front. -/
def skipSpace (cs : List Char) : List Char := cs.dropWhile isSpace

theorem skipSpace_length (cs : List Char) : (skipSpace cs).length ≤ cs.length :=
  (List.dropWhile_sublist _).length_le

mutual

/-- Reads a value inside `depth` arrays and objects. -/
def readValue (depth : Nat) (cs : List Char) : Option (Document × Rest cs) :=
  match h : skipSpace cs with
  | 'n' :: 'u' :: 'l' :: 'l' :: rest => some (.null, ⟨rest, by grind [skipSpace_length cs]⟩)
  | 't' :: 'r' :: 'u' :: 'e' :: rest => some (.bool true, ⟨rest, by grind [skipSpace_length cs]⟩)
  | 'f' :: 'a' :: 'l' :: 's' :: 'e' :: rest =>
    some (.bool false, ⟨rest, by grind [skipSpace_length cs]⟩)
  | '"' :: rest =>
    match h' : readString [] rest with
    | none => none
    | some (s, rest') =>
      some (.string s, ⟨rest', by grind [skipSpace_length cs, readString_length h']⟩)
  | '[' :: rest =>
    if depth < 127 then
      match h' : skipSpace rest with
      | ']' :: rest' =>
        some (.array [], ⟨rest', by grind [skipSpace_length cs, skipSpace_length rest]⟩)
      | _ =>
        match readItems (depth + 1) rest with
        | none => none
        | some (items, ⟨rest', h''⟩) =>
          some (.array items, ⟨rest', by grind [skipSpace_length cs]⟩)
    else none
  | '\x7b' :: rest =>
    if depth < 127 then
      match h' : skipSpace rest with
      | '\x7d' :: rest' =>
        some (.object [], ⟨rest', by grind [skipSpace_length cs, skipSpace_length rest]⟩)
      | _ =>
        match readMembers (depth + 1) rest with
        | none => none
        | some (members, ⟨rest', h''⟩) =>
          some (.object members, ⟨rest', by grind [skipSpace_length cs]⟩)
    else none
  | rest =>
    match h' : readNumber rest with
    | none => none
    | some (n, rest') =>
      some (.number n, ⟨rest', by grind [skipSpace_length cs, readNumber_length h']⟩)
termination_by (cs.length, 0)
decreasing_by
  all_goals
    have := skipSpace_length cs
    grind

/-- Reads the items of an array, of which there is one at least, and its closing bracket. -/
def readItems (depth : Nat) (cs : List Char) : Option (List Document × Rest cs) :=
  match readValue depth cs with
  | none => none
  | some (item, ⟨rest, h⟩) =>
    match h' : skipSpace rest with
    | ']' :: rest' => some ([item], ⟨rest', by grind [skipSpace_length rest]⟩)
    | ',' :: rest' =>
      have : rest'.length < cs.length := by grind [skipSpace_length rest]
      match readItems depth rest' with
      | none => none
      | some (items, ⟨rest'', h''⟩) => some (item :: items, ⟨rest'', by omega⟩)
    | _ => none
termination_by (cs.length, 1)
decreasing_by all_goals grind

/-- Reads the members of an object, of which there is one at least, and its closing brace. -/
def readMembers (depth : Nat) (cs : List Char) : Option (List (String × Document) × Rest cs) :=
  match h₀ : skipSpace cs with
  | '"' :: rest₀ =>
    match h₁ : readString [] rest₀ with
    | none => none
    | some (key, rest₁) =>
      match h₂ : skipSpace rest₁ with
      | ':' :: rest₂ =>
        have : rest₂.length < cs.length := by
          grind [skipSpace_length cs, skipSpace_length rest₁, readString_length h₁]
        match readValue depth rest₂ with
        | none => none
        | some (item, ⟨rest₃, h₃⟩) =>
          match h₄ : skipSpace rest₃ with
          | '\x7d' :: rest₄ =>
            some ([(key, item)], ⟨rest₄, by grind [skipSpace_length rest₃]⟩)
          | ',' :: rest₄ =>
            have : rest₄.length < cs.length := by grind [skipSpace_length rest₃]
            match readMembers depth rest₄ with
            | none => none
            | some (members, ⟨rest₅, h₅⟩) =>
              some ((key, item) :: members, ⟨rest₅, by omega⟩)
          | _ => none
      | _ => none
  | _ => none
termination_by (cs.length, 1)
decreasing_by all_goals grind

end

/-- The document a text holds, if it is JSON. -/
def read? (s : String) : Option Document :=
  match readValue 0 s.toList with
  | some (document, ⟨rest, _⟩) => if (skipSpace rest).isEmpty then some document else none
  | none => none

end Document

/-- The value a text holds, if it is JSON. -/
def Json.read? (s : String) : Option Json := (Document.read? s).map Document.value

/-- The value bytes hold, if they are JSON in UTF-8. -/
def Json.readBytes? (bs : Bytes) : Option Json := (Utf8.decode? bs).bind Json.read?

end Gateway
