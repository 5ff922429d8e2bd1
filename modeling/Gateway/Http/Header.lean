import Gateway.Text.Blank
import Gateway.Text.Cut
import Gateway.Text.Utf8

/-!
# Gateway.Http.Header — header fields

A message carries its header fields as a list of pairs. Names are compared without regard to
case, so `HeaderName` holds the lower-case form; values are bytes. The order of the values of one
name counts, the order of different names does not.
-/

set_option autoImplicit false

namespace Gateway

/-- A character of a token: method names and header names consist of these. -/
def isTokenChar (c : Char) : Bool := c.isAlphanum || "!#$%&'*+-.^_`|~".toList.contains c

/-- The name of a header field, in lower case. -/
structure HeaderName where
  text : String
  deriving DecidableEq, Repr

/-- The header name a text spells, if it spells one: a token of at most 65535 characters. -/
def HeaderName.ofText? (s : String) : Option HeaderName :=
  if s.toList.all isTokenChar && !s.isEmpty && s.toList.length < 65536 then some ⟨lowerAscii s⟩
  else none

/-- A byte that a header value may hold: anything but controls, of which the tab is allowed. -/
def isHeaderByte (b : UInt8) : Bool := (32 ≤ b && b != 127) || b == 9

/-- The header value a text spells, if no control character is in it. -/
def headerValue? (s : String) : Option Bytes :=
  let bs := Utf8.encode s
  if bs.all isHeaderByte then some bs else none

/-- A header value as text, when it is visible ASCII with spaces and tabs. -/
def headerText? (value : Bytes) : Option String :=
  if value.all fun b => (32 ≤ b && b < 127) || b == 9 then
    some (String.ofList (value.map fun b => Char.ofNat b.toNat))
  else none

/-- The header fields of a message. -/
structure Headers where
  fields : List (HeaderName × Bytes)
  deriving DecidableEq, Repr

namespace Headers

/-- No header fields. -/
def empty : Headers := ⟨[]⟩

instance : Inhabited Headers := ⟨empty⟩

/-- The values of a name, in order. -/
def values (h : Headers) (name : HeaderName) : List Bytes :=
  (h.fields.filter (·.1 = name)).map (·.2)

/-- The first value of a name. -/
def get? (h : Headers) (name : HeaderName) : Option Bytes := (h.values name).head?

def contains (h : Headers) (name : HeaderName) : Bool := h.fields.any (·.1 = name)

/-- The names that have values, each once. -/
def names (h : Headers) : List HeaderName := (h.fields.map (·.1)).eraseDups

/-- Gives a name one more value, after those it has. -/
def append (h : Headers) (name : HeaderName) (value : Bytes) : Headers :=
  ⟨h.fields ++ [(name, value)]⟩

/-- Takes all values from a name. -/
def remove (h : Headers) (name : HeaderName) : Headers := ⟨h.fields.filter (·.1 ≠ name)⟩

/-- Makes a value the only one of its name. -/
def insert (h : Headers) (name : HeaderName) (value : Bytes) : Headers :=
  (h.remove name).append name value

@[simp] theorem values_append (h : Headers) (n m : HeaderName) (v : Bytes) :
    (h.append n v).values m = h.values m ++ if n = m then [v] else [] := by
  by_cases hn : n = m <;> simp [append, values, hn]

@[simp] theorem values_remove (h : Headers) (n m : HeaderName) :
    (h.remove n).values m = if n = m then [] else h.values m := by
  obtain ⟨fields⟩ := h
  induction fields with
  | nil => simp [remove, values]
  | cons f fields ih =>
    simp only [remove, values] at ih ⊢
    grind

end Headers

/-- The name of the header that tells the media type of a body. -/
def contentType : HeaderName := ⟨"content-type"⟩

/-- Header fields that concern one connection only and are not passed on. -/
def hopByHopNames : List HeaderName :=
  ["connection", "keep-alive", "proxy-connection", "te", "trailer", "transfer-encoding",
    "upgrade", "host", "content-length"].map HeaderName.mk

/-- The names that the `connection` fields list. Values that are no plain text list none. -/
def connectionListed (h : Headers) : List HeaderName :=
  let lists := (h.values ⟨"connection"⟩).filterMap headerText?
  let names := (lists.flatMap (splitText ',')).map fun s =>
    lowerAscii (trimBlank s)
  (names.filter (!·.isEmpty)).map HeaderName.mk

/-- The header fields without those that concern one connection only. -/
def Headers.endToEnd (h : Headers) : Headers :=
  (hopByHopNames ++ connectionListed h).foldl Headers.remove h

end Gateway
