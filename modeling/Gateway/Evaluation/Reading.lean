import Gateway.Evaluation.Error
import Gateway.Form
import Gateway.Http.Header
import Gateway.Text.Digits

/-!
# Gateway.Evaluation.Reading — what attributes read from values

An expression may evaluate to any value; the attribute that holds it reads a text, a status, a
list of names or an object of texts from it. A null always reads as nothing.
-/

set_option autoImplicit false

namespace Gateway

namespace Json

/-- The value as text: a string as it is, null as nothing, anything else in its written form. -/
def text : Json → String
  | .null => ""
  | .string s => s
  | value => value.compact

/-- The status that a value spells, as a number or as text. -/
def status? : Json → Option Nat
  | .number n => n.toNat?.filter (· < UInt16.size)
  | .string s => readNat? UInt16.size (trimBlank s)
  | _ => none

/-- A status that must be one. -/
def status (value : Json) : Except EvalError Nat :=
  match value.status? with
  | some n => .ok n
  | none => .error (.type .statuses value)

/-- The statuses that a value lists; one status is a list of itself. -/
def statusList : Json → Except EvalError (List Nat)
  | .null => .ok []
  | .array items => items.mapM status
  | value => value.status.map ([·])

/-- The texts under a name: an array lists them, anything else is one. -/
def texts : Json → List String
  | .array items => items.map text
  | value => [value.text]

/-- The names of an object, each with its texts. -/
def pairs : Json → Except EvalError (List (String × List String))
  | .null => .ok []
  | .object members => .ok (members.map fun (name, value) => (name, value.texts))
  | value => .error (.type .object value)

/-- The names that a value lists; a string is a list of itself. -/
def names : Json → Except EvalError (List String)
  | .null => .ok []
  | .string s => .ok [s]
  | .array items => .ok (items.map text)
  | value => .error (.type .names value)

/-- The path that a value spells, made absolute. An empty text is no path; a path holds neither
query nor fragment. -/
def requestPath (value : Json) : Except EvalError (Option String) :=
  let path := value.text
  if path.isEmpty then .ok none
  else if path.toList.contains '#' || path.toList.contains '?' then .error (.invalidPath path)
  else if beginsWith "/" path then .ok (some path)
  else .ok (some ("/" ++ path))

/-- The parameters of an object: one for each text under each name. -/
def params (value : Json) : Except EvalError (List Param) :=
  value.pairs.map (·.flatMap fun (name, texts) => texts.map (name, ·))

/-- The object as a url-encoded form. -/
def formEncode (value : Json) : Except EvalError String := value.params.map Form.encode

end Json

/-- The url with another path. Its query is kept. -/
def replacePath (url path : String) : String :=
  match (cutText '?' url).2 with
  | some query => path ++ "?" ++ query
  | none => path

/-- A header name that an object or list spells; white space around it does not count. -/
def headerName (s : String) : Except EvalError HeaderName :=
  match HeaderName.ofText? (trimBlank s) with
  | some name => .ok name
  | none => .error (.invalidHeader s)

/-- A header value that must be one. -/
def headerValue (s : String) : Except EvalError Bytes :=
  match headerValue? s with
  | some value => .ok value
  | none => .error (.invalidHeader s)

end Gateway
