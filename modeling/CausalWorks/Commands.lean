import CausalWorks.Fixture
import CausalWorks.Report

/-!
# The commands (`bin/harness.rs`)

`main`, over what the file system and the JSON package answer. A panic is a fault; what the commands
print, but for the two reports, is left out.
-/

namespace CausalWorks

inductive ExitCode where
  | success
  | failure
  | usage
  deriving DecidableEq, Repr

/-- The build, the process, and what is outside of it. -/
structure Host (IoError JsonError : Type) where
  profile : Profile
  order : IterationOrder
  reports : ReportOrder
  openFile : String → Except IoError CaptureFile
  writeFile : String → List UInt8 → Except IoError Unit
  fromPath : String → Except (IoError ⊕ JsonError) ManifestCfg
  toJson : CausalTrace → Except JsonError String

inductive ToolError (IoError JsonError : Type) where
  | io (error : IoError)
  | load (error : IoError ⊕ JsonError)
  | capture (error : StreamPcapError)
  | run (error : RunError JsonError)
  | demo (error : DemoError JsonError)
  deriving DecidableEq, Repr

def CaptureFile.bound (self : CaptureFile) : Nat := self.content.items.length + 1

namespace Host
variable {IoError JsonError : Type} (host : Host IoError JsonError)

abbrev Outcome (IoError JsonError : Type) := Except (Stop (ToolError IoError JsonError))

def orIo {α : Type} : Except IoError α → Outcome IoError JsonError α
  | .ok a => .ok a
  | .error error => .error (.err (.io error))

def run (path : String) : Outcome IoError JsonError (DemoRun × List TraceRow) := do
  let file ← orIo (host.openFile path)
  wrapError .demo (runDemo host.profile host.order host.toJson file.bound file)

def genFixture (path : String) : Outcome IoError JsonError Unit := do
  let bytes ← orFault (synthFixture host.profile)
  orIo (host.writeFile path bytes)

def preflight (path : String) : Outcome IoError JsonError Bool := do
  let file ← orIo (host.openFile path)
  let (verdict, _) ← wrapError Empty.elim
    (computePreflight host.profile file.bound file.content)
  match verdict with
  | .analyzable => return true
  | .coverageGap | .rejectedEmpty | .rejectedFormat _ => return false

def discover (path : String) : Outcome IoError JsonError DiscoveryReport := do
  let file ← orIo (host.openFile path)
  wrapError .capture (discoverReport host.profile host.reports file.bound file.content)

def validateManifest (path : String) : Outcome IoError JsonError (Option (List ManifestWarning)) :=
  match host.fromPath path with
  | .error _ => .ok none
  | .ok cfg =>
    match cfg.build host.order with
    | .error (.err _) => .ok none
    | .error (.fault fault) => .error (.fault fault)
    | .ok _ => .ok (some (cfg.lint host.order))

/-- `run_with_manifest`, which opens the capture once the manifest is built. -/
def runManifest (pcapPath manifestPath : String) :
    Outcome IoError JsonError (ManifestRun × StreamingPcapSource) :=
  match host.fromPath manifestPath with
  | .error error => .error (.err (.load error))
  | .ok cfg => do
    let _ ← wrapError (.run <| .manifest ·) (cfg.build host.order)
    let file ← orIo (host.openFile pcapPath)
    wrapError .run (runWithManifest host.profile host.order host.toJson file.bound cfg file)

end Host

def exitOf {ε α : Type} (good : α → Bool) : Except (Stop ε) α → Except Fault ExitCode
  | .ok a => .ok (if good a then .success else .failure)
  | .error (.err _) => .ok .failure
  | .error (.fault fault) => .error fault

/-- `main`, for arguments in Unicode, the name of the program first, and an output that takes what is
printed: otherwise `std::env::args` and `println!` panic, which is left out. -/
def main {IoError JsonError : Type} (host : Host IoError JsonError) (args : List String) :
    Except Fault ExitCode :=
  match args[1]?, args[2]? with
  | some "run", some path =>
      exitOf (fun (s, _) => decide (1 ≤ s.trips ∧ 1 ≤ s.attributed)) (host.run path)
  | some "gen-fixture", some path => exitOf (fun _ => true) (host.genFixture path)
  | some "preflight", some path => exitOf id (host.preflight path)
  | some "discover", some path => exitOf (fun _ => true) (host.discover path)
  | some "validate", some path => exitOf Option.isSome (host.validateManifest path)
  | some "run-manifest", some pcap =>
      match args[3]? with
      | some manifest => exitOf (fun _ => true) (host.runManifest pcap manifest)
      | none => .ok .usage
  | _, _ => .ok .usage

end CausalWorks
