import Gateway.Evaluation.Reading
import Gateway.Http.Message

/-!
# Gateway.Evaluation.Edit — removing, setting and adding

Header fields, query parameters and form parameters are edited alike: some names are removed,
some get new values, some get further ones, in this order. On header fields an edit is a script
of single steps, so that a failure leaves what was done before it.
-/

set_option autoImplicit false

namespace Gateway

/-- What to remove, to set and to add, as far as it is given. -/
structure Edit where
  remove : Option Json := none
  set : Option Json := none
  add : Option Json := none

/-- One step on header fields. -/
inductive HeaderStep
  | remove (name : HeaderName)
  | append (name : HeaderName) (value : Bytes)
  deriving DecidableEq, Repr

def HeaderStep.apply (h : Headers) : HeaderStep → Headers
  | .remove name => h.remove name
  | .append name value => h.append name value

namespace Edit

/-- Whether there is nothing to do. -/
def isEmpty (e : Edit) : Bool := e.remove.isNone && e.set.isNone && e.add.isNone

/-- The steps that a value lists, each of which may be a failure. -/
abbrev Script := List (Except EvalError HeaderStep)

/-- The steps that append texts under a name. -/
def appendScript (name : HeaderName) (texts : List String) : Script :=
  texts.map fun text => (headerValue text).map (.append name)

/-- The steps that remove names. -/
def removeScript (value : Json) : Script :=
  match value.names with
  | .error e => [.error e]
  | .ok names => names.map fun name => (headerName name).map .remove

/-- The steps for the names of an object; `first` comes before the values of each name. -/
def pairsScript (first : HeaderName → Script) (value : Json) : Script :=
  match value.pairs with
  | .error e => [.error e]
  | .ok pairs => pairs.flatMap fun (name, texts) =>
    match headerName name with
    | .error e => [.error e]
    | .ok name => first name ++ appendScript name texts

/-- All steps of an edit. -/
def script (e : Edit) : Script :=
  (e.remove.map removeScript).getD []
    ++ (e.set.map (pairsScript fun name => [.ok (.remove name)])).getD []
    ++ (e.add.map (pairsScript fun _ => [])).getD []

/-- Runs steps up to the first failure. -/
def runScript (h : Headers) : Script → Headers × Option EvalError
  | [] => (h, none)
  | .error e :: _ => (h, some e)
  | .ok step :: rest => runScript (step.apply h) rest

/-- Edits header fields. After a failure the fields are as the steps before it left them. -/
def onHeaders (e : Edit) (h : Headers) : Headers × Option EvalError := runScript h e.script

/-- Edits header fields, or fails. -/
def headers (e : Edit) (h : Headers) : Except EvalError Headers :=
  match e.onHeaders h with
  | (h, none) => .ok h
  | (_, some error) => .error error

/-- Gives a parameter new values, in the place of its first occurrence or else at the end. -/
def setParam (ps : List Param) (name : String) (values : List String) : List Param :=
  ps.takeWhile (·.1 ≠ name) ++ values.map (name, ·)
    ++ (ps.dropWhile (·.1 ≠ name)).filter (·.1 ≠ name)

/-- Edits parameters. -/
def onParams (e : Edit) (ps : List Param) : Except EvalError (List Param) := do
  let removed ← (e.remove.map Json.names).getD (.ok [])
  let ps := ps.filter fun p => !removed.contains p.1
  let set ← (e.set.map Json.pairs).getD (.ok [])
  let ps := set.foldl (fun ps (name, values) => setParam ps name values) ps
  let added ← (e.add.map Json.params).getD (.ok [])
  return ps ++ added

/-- Edits url-encoded parameters. -/
def onEncoded (e : Edit) (encoded : String) : Except EvalError String :=
  (e.onParams (Form.decode encoded)).map Form.encode

/-- Edits the query of a url. The question mark is written if parameters are left, and a fragment
stays. -/
def onUrl (e : Edit) (url : String) : Except EvalError String := do
  if e.isEmpty then return url
  let (front, fragment) := cutText '#' url
  let (base, query) := cutText '?' front
  let encoded ← e.onEncoded (query.getD "")
  return base ++ (if encoded.isEmpty then "" else "?" ++ encoded)
    ++ (fragment.map ("#" ++ ·)).getD ""

theorem onUrl_of_isEmpty {e : Edit} (h : e.isEmpty = true) (url : String) : e.onUrl url = .ok url := by
  rw [onUrl, if_pos h]
  rfl

def onForm (e : Edit) (body : Bytes) : Except EvalError String :=
  e.onEncoded (Utf8.decodeLossy body)

end Edit

/-- The media type of url-encoded forms. -/
def formType : String := "application/x-www-form-urlencoded"

/-- Whether a message carries a form: it is posted, and its media type says so. -/
def carriesForm (method : Method) (h : Headers) : Bool :=
  method == "POST" &&
    beginsWith formType (lowerAscii (((h.get? contentType).bind headerText?).getD ""))

end Gateway
