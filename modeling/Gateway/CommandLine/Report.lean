import Gateway.CommandLine.Options
import Gateway.Config.Build
import Gateway.Http.Socket
import Gateway.Router.Basic

/-!
# Gateway.CommandLine.Report — what the program says

The program reads a configuration, makes a router of it, and then stops if it was only to check,
or listens. Environment variables go before the command line. Everything up to listening is
decided here; the program itself only reads the file and prints.
-/

set_option autoImplicit false

namespace Gateway

/-- What the program prints, and the code with which it exits. -/
structure Report where
  exit : Nat
  out : String := ""
  err : String := ""
  deriving DecidableEq, Repr

/-- The environment variables that the program looks at. -/
structure Environment where
  config : Option String := none
  listen : Option String := none
  deriving DecidableEq, Repr

/-- What the program is to do. -/
structure Job where
  config : String
  listen : String
  check : Bool
  deriving DecidableEq, Repr

/-- How the program goes on: it says something and exits, panics, or serves at an address. -/
inductive Course
  | report (r : Report)
  | panic
  | serve (router : Router) (address : Socket)

/-- Where the program listens unless it is told. -/
def defaultListen : String := "0.0.0.0:8080"

def helpText : String := "Serve API gateway endpoints

Usage: gateway [OPTIONS]

Options:
  -c, --config <FILE>  Path to the JSON configuration. Overridden by GATEWAY_CONFIG if set
  -l, --listen <ADDR>  Socket address to listen on. Overridden by GATEWAY_LISTEN if set [default: "
  ++ defaultListen ++ "]
      --check          Compile the configuration and exit without serving
  -h, --help           Print help

Environment variables (override the flags when set):
  GATEWAY_CONFIG   Path to the JSON configuration.
  GATEWAY_LISTEN   Socket address to listen on.

Examples:
  gateway --config gateway.json
  gateway --config gateway.json --listen 127.0.0.1:9000
"

namespace Job

/-- What the command line and the environment ask for. -/
def ofArguments (args : List String) (env : Environment) : Except Report Job :=
  match Options.read {} args with
  | .misuse m => .error { exit := 2, err := "error: " ++ m.message ++ "\n" }
  | .help => .error { exit := 0, out := helpText }
  | .run o => match env.config.or o.config with
    | none => .error
        { exit := 2, err := "Error: no configuration given (use --config or GATEWAY_CONFIG)\n" }
    | some config => .ok
        { config, listen := env.listen.getD (o.listen.getD defaultListen), check := o.check }

/-- The report on a configuration that is refused. -/
def refusal (job : Job) (e : ConfigError) : Report :=
  { exit := 1, err := "Error in " ++ job.config ++ ": " ++ e.message ++ "\n" }

/-- The router for the contents of the file, if it could be read. -/
def router (contents : Option Bytes) : Except RouterError Router := do
  let config ← match contents with
    | none => throw (.refused .unreadable)
    | some bs => (Config.ofBytes bs).mapError RouterError.refused
  Router.build (← config.build.mapError RouterError.refused)

/-- How the program goes on when it has tried to read the file. -/
def course (job : Job) (contents : Option Bytes) : Course :=
  match router contents with
  | .error (.refused e) => .report (job.refusal e)
  | .error (.unroutable _) => .panic
  | .ok router =>
    if job.check then .report { exit := 0, out := "configuration OK\n" }
    else match Socket.read? job.listen with
      | some address => .serve router address
      | none => .report { exit := 2, err := "Error: invalid listen address " ++ quote job.listen
          ++ ": invalid socket address syntax\n" }

end Job

end Gateway
