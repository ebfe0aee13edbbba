import ClassAtlas.ClassFile.Error
import ClassAtlas.Fault
import ClassAtlas.FileSystem.Error
import ClassAtlas.Glob

/-!
Everything that can stop or disturb a run, how severe it is, and what is said about it: a plain
message, and one for the user that may add advice. A run that meets a fault says nothing.
-/

namespace ClassAtlas

inductive Severity where
  /-- The run goes on. -/
  | warning
  /-- The present operation fails. -/
  | error
  /-- The run ends. -/
  | critical
  deriving Repr, DecidableEq

def Severity.label : Severity → String
  | .warning => "WARNING"
  | .error => "ERROR"
  | .critical => "CRITICAL"

inductive Failure where
  | io (cause : IoError)
  | invalidPath (path : String)
  | invalidArgument (message : String)
  | permissionDenied (path : String)
  | invalidOutputFile (path reason : String)
  | malformedClass (entry : String) (cause : ClassFile.DecodeError)
  | archiveUnreadable (path cause : String)
  | archiveEntryUnreadable (path entry cause : String)
  | renderer (command message : String)
  | traversal (path message : String)
  | config (message : String)
  | configNotFound (path : String)
  | configUnreadable (path : String) (cause : IoError)
  | configMalformed (path cause : String)
  | tomlMalformed (cause : String)
  | globPattern (cause : Glob.Error)
  | invalidOutputFormat (format : String)
  | outputWrite (path : String) (cause : IoError)
  | stdoutWrite (cause : IoError)
  | jsonMalformed (path cause : String)
  | jsonUnwritable (cause : String)
  | csv (cause : String)
  | classification (message : String)
  | analysis (message : String)
  deriving Repr, DecidableEq

namespace Failure

def severity : Failure → Severity
  | .permissionDenied _ => .warning
  | .renderer _ _ => .warning
  | .invalidPath _ => .critical
  | .invalidArgument _ => .critical
  | .invalidOutputFile _ _ => .critical
  | .config _ => .critical
  | .configNotFound _ => .critical
  | .configUnreadable _ _ => .critical
  | .configMalformed _ _ => .critical
  | .invalidOutputFormat _ => .critical
  | .stdoutWrite _ => .critical
  | _ => .error

def isCritical (f : Failure) : Bool :=
  f.severity == .critical

def message : Failure → String
  | .io cause => "IO error: " ++ cause.message
  | .invalidPath path => s!"Invalid path: {path}"
  | .invalidArgument message => s!"Invalid argument: {message}"
  | .permissionDenied path => s!"Permission denied accessing {path}"
  | .invalidOutputFile path reason => s!"Invalid output file {path}: {reason}"
  | .malformedClass entry cause => s!"Malformed class record {entry}: " ++ cause.message
  | .archiveUnreadable path cause => s!"Cannot read archive {path}: {cause}"
  | .archiveEntryUnreadable path entry cause => s!"Cannot read entry {entry} in {path}: {cause}"
  | .renderer command message => s!"Renderer '{command}' failed: {message}"
  | .traversal path message => s!"Directory traversal error for {path}: {message}"
  | .config message => s!"Configuration error: {message}"
  | .configNotFound path => s!"Configuration file not found at {path}"
  | .configUnreadable path cause => s!"Error reading configuration file {path}: " ++ cause.message
  | .configMalformed path cause => s!"Error parsing configuration file {path}: {cause}"
  | .tomlMalformed cause => s!"TOML parsing error: {cause}"
  | .globPattern cause => "Glob pattern error: " ++ cause.message
  | .invalidOutputFormat format => s!"Invalid output format: {format}"
  | .outputWrite path cause => s!"Error writing to output file {path}: " ++ cause.message
  | .stdoutWrite cause => "Error writing to stdout: " ++ cause.message
  | .jsonMalformed path cause => s!"JSON parsing error in {path}: {cause}"
  | .jsonUnwritable cause => s!"JSON serialization error: {cause}"
  | .csv cause => s!"CSV error: {cause}"
  | .classification message => s!"Classification error: {message}"
  | .analysis message => s!"Analysis error: {message}"

def userMessage : Failure → String
  | .permissionDenied path =>
    s!"Cannot access '{path}' due to permission denied. Check file permissions."
  | .io cause =>
    "File system error: " ++ cause.message ++ ". Check disk space and permissions."
  | .invalidPath path =>
    s!"Invalid path: '{path}'. Provide an existing directory, .jar or .war file."
  | .invalidOutputFile path reason => s!"Cannot write graph to '{path}': {reason}."
  | .malformedClass entry cause =>
    s!"'{entry}' is not a valid class file (" ++ cause.message
      ++ "). Use --skip-malformed to ignore such entries."
  | .archiveUnreadable path cause =>
    s!"Cannot open archive '{path}': {cause}. Check that it is a valid zip container."
  | .configNotFound path =>
    s!"Configuration file not found at '{path}'. Create a config file or use command line options."
  | .invalidOutputFormat format =>
    s!"Unsupported graph format '{format}'. Use an .svg, .png or .pdf output file."
  | .renderer command message =>
    s!"Graph rendering with '{command}' failed: {message}. Is Graphviz installed?"
  | other => other.message

def ofFileAccess (path : String) (cause : IoError) : Failure :=
  if cause.isPermissionDenied then .permissionDenied path else .traversal path cause.message

def inContext (context cause : String) : Failure :=
  .analysis (context ++ ": " ++ cause)

end Failure

structure LogLine where
  severity : Severity
  text : String
  deriving Repr, DecidableEq

def LogLine.render (line : LogLine) : String :=
  (if line.severity == .warning then "WARN " else "ERROR ") ++ line.text

namespace Failure

def logLine (f : Failure) : LogLine :=
  match f.severity with
  | .warning => ⟨.warning, f.userMessage⟩
  | .error => ⟨.error, f.userMessage⟩
  | .critical => ⟨.error, "critical: " ++ f.userMessage⟩

/-- Only a critical failure goes on to the caller. -/
def unhandled? (f : Failure) : Option Failure :=
  if f.isCritical then some f else none

def recover {α : Type} : Except Failure α → Except Failure (Option α)
  | .ok value => .ok (some value)
  | .error f =>
    match f.unhandled? with
    | some critical => .error critical
    | none => .ok none

end Failure

inductive Halt where
  | failure (failure : Failure)
  | fault (fault : Fault)
  deriving Repr, DecidableEq

instance : MonadLift (Except Failure) (Except Halt) where
  monadLift := Except.mapError .failure

instance : MonadLift (Except Fault) (Except Halt) where
  monadLift := Except.mapError .fault

def Severity.exitCode : Severity → Nat
  | .warning => 0
  | .error => 1
  | .critical => 2

end ClassAtlas
