import McpOperator.Cluster.Kubeconfig
import McpOperator.Program.Arguments
import McpOperator.Program.LogFilter
import McpOperator.Server.Schema
import McpOperator.Settings

namespace McpOperator

structure Surroundings where
  file? : String → Option String
  env? : String → Option String

inductive RunError where
  | noFile
  | notSettings
  | settings (error : SettingsError)
  | collector
  | noCluster
deriving DecidableEq

namespace RunError

def detail : RunError → String
  | noFile => "the settings cannot be read"
  | notSettings => "the file holds no settings"
  | settings error => error.detail
  | collector => "the collector of spans has no location"
  | noCluster => "no cluster can be located"

end RunError

inductive Ending where
  | printed (text : String)
  | badArguments
  | failed (error : RunError)
  | stopped
deriving DecidableEq

namespace Ending

def exitCode : Ending → UInt8
  | printed _ | stopped => 0
  | failed _ => 1
  | badArguments => 2

end Ending

/-- What a run leaves behind. There is a log once the settings are known to be good; both filters see
the same messages. -/
structure Run where
  ending : Ending
  log : Option (List String)
deriving DecidableEq

namespace Run

def target : String := "kmcp"

def logFileName : String := "kmcp.log"

/-- The files that say how to reach the cluster, the first one with precedence. -/
def kubeconfigPaths (s : Surroundings) : List String :=
  let named := (((s.env? "KUBECONFIG").getD "").splitOn ":").filter (· ≠ "")
  if named.isEmpty then [(s.env? "HOME").getD "" ++ "/.kube/config"] else named

def kubeconfig? (s : Surroundings) : Option Cluster.Kubeconfig :=
  (kubeconfigPaths s).foldlM (fun k path => do
    let text ← s.file? path
    let more ← Cluster.Kubeconfig.ofText? text
    k.merge more) Cluster.Kubeconfig.empty

def started (settings : Settings) : String := "kmcp started " ++ settings.controllerName

def watching (settings : Settings) : String :=
  "Watching " ++ settings.watchNamespace.getD "all namespaces" ++ " with " ++
    toString settings.tuning.concurrency.toNat ++ " workers"

def operate (kubeconfig : Option Cluster.Kubeconfig) (settings : Settings) : Run :=
  match kubeconfig.bind (·.location?) with
  | none => ⟨.failed .noCluster, some [started settings]⟩
  | some _ => ⟨.stopped, some [started settings, watching settings, "kmcp stopped"]⟩

def defaultCollector : String := "http://127.0.0.1:4317"

def collector? (s : Surroundings) (settings : Settings) : Option String :=
  if settings.openTelemetry = some true then
    some ((s.env? "OTEL_EXPORTER_OTLP_ENDPOINT").getD defaultCollector)
  else none

def withSettings (s : Surroundings) (settings : Settings) : Run :=
  match settings.validate with
  | .error e => ⟨.failed (.settings e), none⟩
  | .ok _ =>
      if (collector? s settings).all Uri.isValid then operate (kubeconfig? s) settings
      else ⟨.failed .collector, some []⟩

def withArguments (s : Surroundings) (a : Arguments) : Run :=
  if a.printDefinition then ⟨.printed (Yaml.render McpServer.definition), none⟩
  else match a.configFile.bind s.file? with
    | none => ⟨.failed .noFile, none⟩
    | some text => match Settings.ofYaml? text with
        | none => ⟨.failed .notSettings, none⟩
        | some settings => withSettings s settings

def ofArguments (s : Surroundings) (arguments : List String) : Run :=
  match Arguments.read arguments with
  | .ok a => withArguments s a
  | .error .help => ⟨.printed Arguments.helpText, none⟩
  | .error .version => ⟨.printed Arguments.versionText, none⟩
  | .error _ => ⟨.badArguments, none⟩

def variableNames : List String :=
  ["HOME", "KUBECONFIG", "OTEL_EXPORTER_OTLP_ENDPOINT", "RUST_LOG", "RUST_FILE_LOG"]

def paths (s : Surroundings) (arguments : List String) : List String :=
  match Arguments.read arguments with
  | .ok a => a.configFile.toList ++ kubeconfigPaths s
  | .error _ => []

def consoleFilter (s : Surroundings) : LogFilter := .ofText ((s.env? "RUST_LOG").getD "info")

def fileFilter (s : Surroundings) : LogFilter := .ofText ((s.env? "RUST_FILE_LOG").getD "debug")

def lines (r : Run) (filter : LogFilter) : List String :=
  if filter.shows target .info then (r.log.getD []).map fun m => "INFO " ++ target ++ ": " ++ m
  else []

end Run
end McpOperator
