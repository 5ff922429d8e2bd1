import Gateway.Text.Unprintable

/-!
# Gateway.Text.Quoted — texts inside messages

A message that names a piece of configuration quotes it: `"` and `\` are escaped, the common
controls have their letters, and every other character without a glyph is written by its number
in lower-case hexadecimal, `\u{301}`.
-/

set_option autoImplicit false

namespace Gateway

/-- The lower-case hexadecimal digits of `n`. -/
def hexDigits (n : Nat) : String := String.ofList (Nat.toDigits 16 n)

/-- One character of a quoted text. -/
def quoteChar (c : Char) : String :=
  match c with
  | '"' => "\\\""
  | '\\' => "\\\\"
  | '\n' => "\\n"
  | '\r' => "\\r"
  | '\t' => "\\t"
  | '\x00' => "\\0"
  | c => if isUnprintable c then "\\u\x7b" ++ hexDigits c.toNat ++ "\x7d" else c.toString

/-- The text between double quotes, as messages show it. -/
def quote (s : String) : String :=
  "\"" ++ String.join (s.toList.map quoteChar) ++ "\""

end Gateway
