import Gateway.Config.Fields

/-!
# Gateway.Config.Declaration — what a configuration declares

A configuration declares backends by name, and endpoints with their producers. Attributes are
JSON values here; `Gateway.Config.Build` makes expressions of them.
-/

set_option autoImplicit false

namespace Gateway

structure BackendDecl where
  origin : String
  basePath : String := ""
  timeout : Nat := 60000
  headers : List (String × String) := []
  deriving DecidableEq, Repr

/-- The backend of a producer: one of the configuration's, or one declared in place. -/
inductive BackendChoice
  | named (name : String)
  | inPlace (decl : BackendDecl)
  deriving DecidableEq, Repr

/-- The given attributes of a declaration, by name. -/
abbrev Values := List (String × Json)

structure ProducerDecl where
  name : String := ""
  backend : BackendChoice
  values : Values

structure RedirectDecl where
  url : Json
  status : Option Nat

structure EndpointDecl where
  pattern : String
  bodyLimit : Option String
  proxies : List ProducerDecl
  requests : List ProducerDecl
  response : Option Values
  redirect : Option RedirectDecl
  values : Values

/-- A configuration. -/
structure Config where
  backends : List (String × BackendDecl)
  endpoints : List EndpointDecl

/-- The three attributes of a rule. -/
def ruleNames (subject : String) : List String :=
  ["set_" ++ subject, "add_" ++ subject, "remove_" ++ subject]

def producerAttributes : List String :=
  ["method", "url", "path", "body", "json_body", "form_body", "headers"]
    ++ ruleNames "request_headers" ++ ruleNames "query_params" ++ ruleNames "form_params"
    ++ ["expected_status"] ++ ruleNames "response_headers"

def endpointAttributes : List String :=
  ["path"] ++ ruleNames "request_headers" ++ ruleNames "query_params" ++ ruleNames "form_params"
    ++ ruleNames "response_headers" ++ ["set_response_status"]

/-- The attributes of response templates. -/
def templateAttributes : List String := ["status", "headers", "body", "json_body"]

/-- The given ones of some attributes; null leaves an attribute out. -/
def Document.Fields.values (fields : Fields) (names : List String) : Values :=
  names.filterMap fun name => match fields.lookup name with
    | none | some .null => none
    | some d => some (name, d.value)

def BackendDecl.read? (d : Document) : Option BackendDecl := do
  let fields ← d.fields? ["origin", "base_path", "timeout_ms", "headers"]
  return {
    origin := ← fields.required? "origin" Document.text?
    basePath := ← fields.default? "base_path" "" Document.text?
    timeout := ← fields.default? "timeout_ms" 60000 (Document.nat? UInt64.size)
    headers := ← fields.default? "headers" [] (Document.table? Document.text?) }

/-- Reads the backend of a producer. -/
def BackendChoice.read? : Document → Option BackendChoice
  | .string name => some (.named name)
  | d => (BackendDecl.read? d).map .inPlace

def ProducerDecl.read? (d : Document) : Option ProducerDecl := do
  let fields ← d.fields? (["name", "backend"] ++ producerAttributes)
  return {
    name := (← fields.optional? "name" Document.text?).getD ""
    backend := ← fields.required? "backend" BackendChoice.read?
    values := fields.values producerAttributes }

/-- Reads a response template. -/
def readTemplate? (d : Document) : Option Values := do
  let fields ← d.fields? templateAttributes
  return fields.values templateAttributes

def RedirectDecl.read? (d : Document) : Option RedirectDecl := do
  let fields ← d.fields? ["url", "status"]
  return {
    url := ← fields.required? "url" fun d => some d.value
    status := ← fields.optional? "status" (Document.nat? UInt16.size) }

def EndpointDecl.read? (d : Document) : Option EndpointDecl := do
  let fields ← d.fields? (["pattern", "request_body_limit", "proxies", "requests", "response",
    "redirect"] ++ endpointAttributes)
  return {
    pattern := ← fields.required? "pattern" Document.text?
    bodyLimit := ← fields.optional? "request_body_limit" Document.text?
    proxies := ← fields.default? "proxies" [] (Document.list? ProducerDecl.read?)
    requests := ← fields.default? "requests" [] (Document.list? ProducerDecl.read?)
    response := ← fields.optional? "response" readTemplate?
    redirect := ← fields.optional? "redirect" RedirectDecl.read?
    values := fields.values endpointAttributes }

/-- Reads a configuration. -/
def Config.read? (d : Document) : Option Config := do
  let fields ← d.fields? ["backends", "endpoints"]
  return {
    backends := ← fields.default? "backends" [] (Document.table? BackendDecl.read?)
    endpoints := ← fields.default? "endpoints" [] (Document.list? EndpointDecl.read?) }

end Gateway
