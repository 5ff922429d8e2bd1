import Gateway.Text.Cut
import Gateway.Text.Quoted

/-!
# Gateway.CommandLine.Options — reading the command line

Two options take a value, given as the next argument or after an equals sign, and may come once;
one is a flag. The first thing that is out of order decides, and so does a call for help.
-/

set_option autoImplicit false

namespace Gateway

/-- What the command line says. -/
structure Options where
  config : Option String := none
  listen : Option String := none
  check : Bool := false
  deriving DecidableEq, Repr

/-- Why a command line is not followed. -/
inductive Misuse
  | unexpected (argument : String)
  | missingValue (option : String)
  | repeated (option : String)
  deriving DecidableEq, Repr

def Misuse.message : Misuse → String
  | .unexpected argument => "unexpected argument " ++ quote argument
  | .missingValue option => "a value is required for " ++ option
  | .repeated option => option ++ " cannot be used multiple times"

/-- What a command line comes to. -/
inductive Request
  | run (o : Options)
  | help
  | misuse (m : Misuse)
  deriving DecidableEq, Repr

namespace Options

/-- An option that takes a value. -/
inductive Key
  | config
  | listen
  deriving DecidableEq, Repr

/-- The long name of an option. -/
def Key.text : Key → String
  | .config => "--config"
  | .listen => "--listen"

def get? (o : Options) : Key → Option String
  | .config => o.config
  | .listen => o.listen

/-- Gives an option its value. The path of the configuration may not be empty. -/
def put (o : Options) (key : Key) (value : String) : Except Misuse Options :=
  if (o.get? key).isSome then .error (.repeated key.text)
  else match key with
    | .config => if value.isEmpty then .error (.missingValue key.text)
        else .ok { o with config := some value }
    | .listen => .ok { o with listen := some value }

/-- One argument as it begins: an option with or without a value, the flag, help, or the end of
the options. -/
inductive Argument
  | option (key : Key) (value : Option String)
  | check
  | help
  | endOfOptions
  | other
  deriving DecidableEq, Repr

/-- The value that stands in one argument with a short option, after an equals sign if need be. -/
def attached : List Char → Option String
  | [] => none
  | '=' :: value => some (String.ofList value)
  | value => some (String.ofList value)

/-- Tells what an argument is. -/
def Argument.ofText (s : String) : Argument :=
  match s, cutText '=' s with
  | "--", _ => .endOfOptions
  | _, ("--config", value) => .option .config value
  | _, ("--listen", value) => .option .listen value
  | _, ("--check", none) => .check
  | _, ("--help", none) => .help
  | _, _ => match s.toList with
    | '-' :: 'c' :: value => .option .config (attached value)
    | '-' :: 'l' :: value => .option .listen (attached value)
    | '-' :: 'h' :: _ => .help
    | _ => .other

/-- Whether an argument can be the value of the option before it. -/
def isValue (s : String) : Bool := !beginsWith "-" s || s == "-"

/-- Reads the arguments that are left. -/
def read (o : Options) : List String → Request
  | [] => .run o
  | s :: rest =>
    match Argument.ofText s with
    | .option key (some value) => match o.put key value with
      | .ok o => read o rest
      | .error m => .misuse m
    | .option key none => match rest with
      | [] => .misuse (.missingValue key.text)
      | value :: rest =>
        if isValue value then match o.put key value with
          | .ok o => read o rest
          | .error m => .misuse m
        else .misuse (.missingValue key.text)
    | .check =>
      if o.check then .misuse (.repeated "--check") else read { o with check := true } rest
    | .help => .help
    | .endOfOptions => match rest with
      | [] => .run o
      | s :: _ => .misuse (.unexpected s)
    | .other => .misuse (.unexpected s)

end Options

end Gateway
