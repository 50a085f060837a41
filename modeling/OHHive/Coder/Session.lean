import Mathlib.Algebra.BigOperators.Group.List.Basic
import OHHive.Foundation.Json
import OHHive.Foundation.Fallible
import OHHive.LocalHub.Basics

/-! The end of a coding session: the host strips and appends its marker lines, the completion
gate and the reviewers read them back from the finished text. -/

namespace OHHive.Coder

open Foundation

/-- `AcceptanceResult`. -/
structure AcceptanceResult where
  name : Text
  commandLine : Text
  exitStatus : Option Int
  passed : Bool
  required : Bool
  timedOut : Bool
  stdoutTail : Text
  stderrTail : Text
  error : Option Text
deriving DecidableEq

/-- `AcceptanceOutcome`. -/
inductive AcceptanceOutcome where
  | unverified
  | skipped
  | passed (results : List AcceptanceResult)
  | failed (results : List AcceptanceResult)
  | errored (results : List AcceptanceResult) (message : Text)
deriving DecidableEq

def AcceptanceOutcome.blocksCompletion : AcceptanceOutcome → Bool
  | .failed _ | .errored .. => true
  | _ => false

structure CaptureIdentity where
  taskId : Uuid
  agentId : Uuid
  originalTask : Text
deriving DecidableEq

structure ReviewFile where
  path : Text
  before : Option Text
  after : Option Text
deriving DecidableEq

structure ReviewSnapshot where
  identity : CaptureIdentity
  baseCommit : Text
  files : List ReviewFile
  coderReport : Text
  acceptance : AcceptanceOutcome
  modelId : Option Text
deriving DecidableEq

structure ReviewPackage where
  snapshot : ReviewSnapshot
  digest : Text
deriving DecidableEq

/-- What the session calls of `serde_json` and `sha2`. -/
structure Serde where
  outcomes : Codec AcceptanceOutcome
  packages : Codec ReviewPackage
  snapshotJson : ReviewSnapshot → Text
  sha256 : Text → Text

section Packages

/-- The display of `CoderError::InvalidSpec`. -/
def invalid (message : String) : Text :=
  "invalid code-session required_capabilities: ".toList ++ message.toList

def packageMarker : Text := "Independent review package: ".toList

def maxPackage : Nat := 48 * 1024

def maxFiles : Nat := 20

/-- `str::len`, in bytes of UTF-8. -/
def byteLength (text : Text) : Nat := (text.map Char.utf8Size).sum

def isAsciiHexdigit (char : Char) : Bool :=
  char.isDigit || ('a' ≤ char && char ≤ 'f') || ('A' ≤ char && char ≤ 'F')

/-- `digest` of a snapshot. -/
def digest (serde : Serde) (snapshot : ReviewSnapshot) : Except Text Text := do
  let bytes := serde.snapshotJson snapshot
  require (byteLength bytes ≤ maxPackage) (invalid "review package exceeds 48 KiB; split the task")
  return serde.sha256 bytes

/-- `safe_path`: relative, without `..`, `.git` or a leading `.`. -/
def safePath (path : Text) : Bool :=
  let components := path.splitOn '/'
  !path.isEmpty && byteLength path ≤ 1000 && path.all (fun char => !"\n\r\\".toList.contains char) &&
    path.head? != some '/' && components.head? != some ['.'] &&
    !components.contains "..".toList && !components.contains ".git".toList

/-- The checks of `ReviewPackage::validate` on each file, in order. -/
def checkFiles (seen : List Text) : List ReviewFile → Except Text Unit
  | [] => .ok ()
  | file :: rest =>
    if !safePath file.path || seen.contains file.path ||
        (file.before.isNone && file.after.isNone) then
      .error (invalid "invalid review file inventory")
    else
      checkFiles (file.path :: seen) rest

/-- `ReviewPackage::validate`. -/
def ReviewPackage.validate (serde : Serde) (package : ReviewPackage) : Except Text Unit := do
  let snapshot := package.snapshot
  require (!(snapshot.identity.taskId = 0 || snapshot.identity.agentId = 0 ||
      snapshot.identity.originalTask.all isWhitespace || byteLength snapshot.baseCommit ≠ 40 ||
      !snapshot.baseCommit.all isAsciiHexdigit || snapshot.files.isEmpty ||
      snapshot.files.length > maxFiles))
    (invalid "invalid or changed independent review package")
  let expected ← Coder.digest serde snapshot
  require (package.digest = expected) (invalid "invalid or changed independent review package")
  checkFiles [] snapshot.files

/-- `ReviewPackage::from_output`. -/
def ReviewPackage.fromOutput (serde : Serde) (output : Text) : Except Text ReviewPackage := do
  match (lines output).filterMap (stripPrefix packageMarker) with
  | [line] =>
    let package ← orFail (serde.packages.decode line) (invalid "invalid review receipt")
    package.validate serde
    return package
  | _ => .error (invalid "source task has no unique frozen review package")

end Packages

section Sessions

/-- A text of one line, as git and the file system report a failure. -/
structure Line where
  text : Text
  oneLine : '\n' ∉ text

/-- What the host holds when the coding loop ends, the model's final text apart. -/
structure Host where
  reviewCapture : Option CaptureIdentity
  acceptance : AcceptanceOutcome
  lastAcceptance : Option AcceptanceOutcome
  modelId : Option Text
  hitTurnLimit : Bool
  leaseExpired : Bool
  /-- The lease ends while the final text is prepared. -/
  expiresLate : Bool
  baseCommit : Option Text
  /-- The changed files with their contents, as git and the file system give them. -/
  reading : Except Line (List ReviewFile)
  captureTimedOut : Bool

/-- The latest failed checks stand in for checks skipped by an exhausted session. -/
def Host.recorded (host : Host) : AcceptanceOutcome :=
  match host.acceptance, host.lastAcceptance with
  | .skipped, some checks => checks
  | acceptance, _ => acceptance

/-- `CodeSessionOutcome`, as far as the receipts depend on it. -/
structure CodeSessionOutcome where
  modelId : Option Text
  acceptance : AcceptanceOutcome
  finalText : Text
  hitTurnLimit : Bool
  leaseExpired : Bool

/-- `checker::capture_from_base` behind its reads of the checkout. -/
def captureFromBase (serde : Serde) (reading : Except Line (List ReviewFile))
    (identity : CaptureIdentity) (outcome : CodeSessionOutcome) (base : Text) :
    Except Text ReviewPackage := do
  require (byteLength base = 40 && base.all isAsciiHexdigit)
    (invalid "review requires a recorded baseline commit")
  let files ← reading.mapError Line.text
  let snapshot : ReviewSnapshot :=
    { identity, baseCommit := base, files, coderReport := outcome.finalText,
      acceptance := outcome.acceptance, modelId := outcome.modelId }
  let digest ← digest serde snapshot
  let package : ReviewPackage := { snapshot, digest }
  package.validate serde
  return package

/-- The final text without the lines that the host reserves. -/
def withoutMarkers (text : Text) : Text :=
  joinLines ((lines text).filter fun line => !packageMarker.isPrefixOf line)

/-- The session's outcome before its review capture. -/
def Host.outcome (host : Host) (text : Text) : CodeSessionOutcome where
  modelId := host.modelId
  acceptance := host.recorded
  finalText := text
  hitTurnLimit := host.hitTurnLimit
  leaseExpired := host.leaseExpired

/-- The package that the host captures for an independent review, if it tries to. -/
def Host.captured (serde : Serde) (host : Host) (text : Text) : Option (Except Text ReviewPackage) :=
  host.reviewCapture.bind fun identity =>
    if !host.hitTurnLimit && !host.leaseExpired && !host.recorded.blocksCompletion then
      if host.captureTimedOut then
        some (.error (invalid "review capture timed out"))
      else
        some (captureFromBase serde host.reading identity (host.outcome (withoutMarkers text))
          (host.baseCommit.getD []))
    else
      none

/-- What the host appends to the stripped text. -/
def appendix (serde : Serde) : Option (Except Text ReviewPackage) → Text
  | none => []
  | some (.ok package) => "\n\n".toList ++ (packageMarker ++ serde.packages.encode package)
  | some (.error reason) => "\n\n".toList ++ ("Independent review unavailable: ".toList ++ reason)

/-- The end of `run_session_with_context`, from the model's final text on. -/
def finishSession (serde : Serde) (host : Host) (text : Text) : CodeSessionOutcome :=
  let final :=
    match host.reviewCapture with
    | none => text
    | some _ => withoutMarkers text ++ appendix serde (host.captured serde text)
  { host.outcome final with leaseExpired := host.leaseExpired || host.expiresLate }

def receiptMarker : Text := "Acceptance checks: ".toList

/-- `AcceptanceOutcome::receipt`. -/
def AcceptanceOutcome.receipt (serde : Serde) (acceptance : AcceptanceOutcome) : Text :=
  receiptMarker ++ serde.outcomes.encode acceptance

/-- The text that `run_code_session_with_deps` returns. -/
def summary (serde : Serde) (outcome : CodeSessionOutcome) : Text :=
  outcome.finalText ++ ("\n\n".toList ++ outcome.acceptance.receipt serde)

/-- The outcome that `coordinator::Context::completion_error` reads from a child's content. -/
def hostReceipt (serde : Serde) (content : Text) : Option AcceptanceOutcome :=
  ((lines content).filterMap (stripPrefix receiptMarker)).getLast?.bind serde.outcomes.decode

end Sessions

end OHHive.Coder
