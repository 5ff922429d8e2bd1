import Gateway.Text.Cut

/-!
# Gateway.Unicode.Table — tables of characters

Properties of characters are kept as text, with code points in capital hexadecimal digits and
blanks between the entries. An entry of a table of spans is `A` or `A-B`; in a table of values it
goes on with `=` and a value; in a table of targets it names what each character of the span
turns into:

* `A-B>T`: the characters from `A` to `B` turn into `T` and those after it, in order;
* `A-B/2>T`: every second character from `A` to `B` turns into the one that is as far from it as
  `T` is from `A`;
* `A>T,U`: `A` turns into `T`, the character after it into `U`; a target of several characters
  has plus signs between them.
-/

set_option autoImplicit false

namespace Gateway

namespace UnicodeTable

/-- The value of a capital hexadecimal digit. -/
def hexDigitValue (c : Char) : Nat :=
  if c.isDigit then c.toNat - '0'.toNat else c.toNat - 'A'.toNat + 10

/-- The number that hexadecimal digits spell. -/
def hexNat (cs : List Char) : Nat := cs.foldl (fun n c => n * 16 + hexDigitValue c) 0

def entries (table : String) : List (List Char) :=
  ((splitAt ' ' (table.toList.map fun c => if c = '\n' then ' ' else c)).filter (!·.isEmpty))

/-- Reads a span: its first and its last code point. -/
def readSpan (cs : List Char) : Nat × Nat :=
  let (first, last) := cutAt '-' cs
  (hexNat first, hexNat (last.getD first))

def readSpans (table : String) : List (Nat × Nat) := (entries table).map readSpan

/-- Whether one of the spans holds a character. -/
def inSpans (spans : List (Nat × Nat)) (c : Char) : Bool :=
  spans.any fun (first, last) => first ≤ c.toNat && c.toNat ≤ last

def readValues (table : String) : List ((Nat × Nat) × Nat) :=
  (entries table).map fun entry =>
    let (span, value) := cutAt '=' entry
    (readSpan span, hexNat (value.getD []))

/-- The value of a character, zero if the table has none. -/
def valueOf (values : List ((Nat × Nat) × Nat)) (c : Char) : Nat :=
  ((values.find? fun ((first, last), _) => first ≤ c.toNat && c.toNat ≤ last).map (·.2)).getD 0

/-- Reads an entry of a table of targets, as pairs of a code point and its target. -/
def readTargets (entry : List Char) : List (Nat × List Char) :=
  let (source, target) := cutAt '>' entry
  let target := target.getD []
  if source.contains '-' then
    let (span, step) := cutAt '/' source
    let (first, last) := readSpan span
    let step := if step.isSome then 2 else 1
    (List.range ((last - first) / step + 1)).map fun i =>
      (first + i * step, [Char.ofNat (hexNat target + i * step)])
  else
    let first := hexNat source
    (splitAt ',' target).zipIdx.map fun (cs, i) =>
      (first + i, (splitAt '+' cs).map fun cs => Char.ofNat (hexNat cs))

def readTable (table : String) : List (Nat × List Char) := (entries table).flatMap readTargets

end UnicodeTable

end Gateway
