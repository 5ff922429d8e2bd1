import Gateway.Endpoint.Basic
import Gateway.Http.Url

/-!
# Gateway.Config.Error — why a configuration is refused

One constructor for each reason, with what the message has to name.
-/

set_option autoImplicit false

namespace Gateway

/-- What is wrong with the declaration of a backend. -/
inductive BackendFault
  | origin (text : String) (e : UrlError)
  | scheme (name : String)
  | headerName (name : String)
  | headerValue (name : String)
  deriving DecidableEq, Repr

def BackendFault.message : BackendFault → String
  | .origin text e => "origin " ++ quote text ++ ": " ++ e.message
  | .scheme name => "unsupported scheme " ++ quote name
  | .headerName name => "header " ++ quote name ++ ": invalid HTTP header name"
  | .headerValue name => "header " ++ quote name ++ ": failed to parse header value"

/-- What is wrong with the pattern of an endpoint. -/
inductive PatternFault
  | noSlash
  | conflict (earlier : String)
  deriving DecidableEq, Repr

def PatternFault.message : PatternFault → String
  | .noSlash => "must start with '/'"
  | .conflict earlier => "conflicts with " ++ quote earlier

/-- Why a configuration is refused. -/
inductive ConfigError
  | graph (e : GraphError)
  | ambiguousResponse (pattern : String) (terminals : Nat)
  | emptyEndpoint (pattern : String)
  | invalidPattern (pattern : String) (fault : PatternFault)
  | proxyOnlyPath (producer : String)
  | unknownBackend (name : String)
  | invalidBackend (name : String) (fault : BackendFault)
  | invalidBodyLimit (text : String)
  | invalidRedirectStatus (status : Nat)
  | expression (e : ExpressionError)
  | unreadable
  | unparsable
  deriving DecidableEq, Repr

namespace ConfigError

/-- What the message of a refusal says. -/
def detail : ConfigError → String
  | .graph e => e.message
  | .ambiguousResponse pattern terminals => "endpoint " ++ quote pattern ++ " has "
      ++ toString terminals ++ " terminal results but neither response nor redirect"
  | .emptyEndpoint pattern => "endpoint " ++ quote pattern
      ++ " requires at least one proxy, request, response or redirect"
  | .invalidPattern pattern fault => "endpoint pattern " ++ quote pattern ++ ": " ++ fault.message
  | .proxyOnlyPath producer => "producer " ++ quote producer
      ++ ": path is only allowed on proxies"
  | .unknownBackend name => "unknown backend " ++ quote name
  | .invalidBackend name fault => "backend " ++ quote name ++ ": " ++ fault.message
  | .invalidBodyLimit text => "invalid request body limit " ++ quote text
  | .invalidRedirectStatus status => "invalid redirect status " ++ toString status
  | .expression e => "expression " ++ quote e.source ++ ": " ++ e.fault.message
  | .unreadable | .unparsable => ""

/-- The wording of a refusal. What stands in the way of reading a file or a document is not told in
detail. -/
def message : ConfigError → String
  | .unreadable => "reading configuration: "
  | .unparsable => "parsing configuration: "
  | e => "configuration error: " ++ e.detail

end ConfigError

end Gateway
