namespace McpOperator

/-- What the program is asked to do: print the definition of the custom resource, or run with the
settings from a file. -/
structure Arguments where
  configFile : Option String
  printDefinition : Bool
deriving DecidableEq

inductive ArgumentsEnd where
  | missing
  | noValue
  | repeated
  | needlessValue
  | unknown
  | help
  | version
deriving DecidableEq

namespace Arguments

/-- What has been read. `waiting` is an option whose value is still to come or has just been read, so
that it has not been taken note of. -/
structure Reading where
  configFile : Option String
  printDefinition : Bool
  waiting : Option (Option String)
deriving DecidableEq

namespace Reading

def start : Reading := ⟨none, false, none⟩

def setFile (r : Reading) (file : String) : Except ArgumentsEnd Reading :=
  if r.configFile.isSome then .error .repeated else .ok { r with configFile := some file }

def settle (r : Reading) : Except ArgumentsEnd Reading :=
  match r.waiting with
  | none => .ok r
  | some none => .error .noValue
  | some (some file) => { r with waiting := none }.setFile file

def long (r : Reading) (name : String) (value : Option String) : Except ArgumentsEnd Reading :=
  match name, value with
  | "with-config-file", some file => do (← r.settle).setFile file
  | "with-config-file", none => do .ok { ← r.settle with waiting := some none }
  | "print-crd", none => do
      let r ← r.settle
      if r.printDefinition then .error .repeated else .ok { r with printDefinition := true }
  | "help", none => do
      let _ ← r.settle
      .error .help
  | "version", none => do
      let _ ← r.settle
      .error .version
  | name, some _ =>
      if name ∈ ["print-crd", "help", "version"] then .error .needlessValue else .error .unknown
  | _, none => .error .unknown

def short (r : Reading) : Char → Except ArgumentsEnd Reading
  | 'h' => do
      let _ ← r.settle
      .error .help
  | 'V' => do
      let _ ← r.settle
      .error .version
  | _ => .error .unknown

/-- Text that is no option is the value of the option before. -/
def word (r : Reading) (text : String) : Except ArgumentsEnd Reading :=
  match r.waiting with
  | some none => .ok { r with waiting := some (some text) }
  | _ => .error .unknown

def take (r : Reading) (argument : String) : Except ArgumentsEnd Reading :=
  match argument.toList with
  | '-' :: '-' :: cs =>
      let name := cs.takeWhile (· ≠ '=')
      let value := (cs.drop name.length).tail?.map String.ofList
      r.long (String.ofList name) value
  | '-' :: c :: _ => r.short c
  | _ => r.word argument

def finish (r : Reading) : Except ArgumentsEnd Arguments := do
  let r ← r.settle
  if r.configFile.isNone && !r.printDefinition then .error .missing
  else .ok ⟨r.configFile, r.printDefinition⟩

end Reading

/-- Nothing may follow two dashes that stand alone. -/
def ofList (r : Reading) : List String → Except ArgumentsEnd Arguments
  | [] => r.finish
  | "--" :: rest => if rest.isEmpty then r.finish else .error .unknown
  | argument :: rest => do ofList (← r.take argument) rest

/-- The arguments behind the name of the program. The first one that cannot be taken, or that asks for
the help or the version, ends the reading. -/
def read (arguments : List String) : Except ArgumentsEnd Arguments := ofList .start arguments

def summary : String :=
  "Runs the MCPServer controller: every MCPServer becomes an agentgateway Deployment, Service and " ++
    "ConfigMap"

def options : List (String × String) := [
  ("    --with-config-file <FILE>",
    "YAML file with the controller name, watched namespace, gateway image and reconcile tuning"),
  ("    --print-crd", "Write the MCPServer CustomResourceDefinition as YAML to stdout and exit"),
  ("-h, --help", "Print help"),
  ("-V, --version", "Print version")]

def optionWidth : Nat := (options.map fun option => option.1.length).foldl max 0

def optionLine (option purpose : String) : String :=
  "  " ++ option ++ String.ofList (List.replicate (optionWidth + 2 - option.length) ' ') ++ purpose ++ "\n"

def helpText : String :=
  summary ++ "\n\nUsage: kmcp [OPTIONS]\n\nOptions:\n" ++
    String.join (options.map fun (option, purpose) => optionLine option purpose)

def versionText : String := "kmcp 0.1.0\n"

end Arguments
end McpOperator
