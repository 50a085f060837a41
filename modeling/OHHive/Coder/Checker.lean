import Mathlib.Data.List.Infix
import OHHive.Coder.Session

/-! The independent review of a saved coding result: what a checker's verdict says, and when its
receipt counts. -/

namespace OHHive.Coder

open Foundation

section Records

structure ReviewRequest where
  checkerAgentId : Uuid
  package : ReviewPackage
deriving DecidableEq

inductive Verdict where
  | pass
  | changesRequired
  | inconclusive
deriving DecidableEq

structure Finding where
  path : Text
  line : Nat
  message : Text
  /-- An exact excerpt of the cited line. -/
  evidence : Text
deriving DecidableEq

structure ReviewVerdict where
  verdict : Verdict
  summary : Text
  findings : List Finding
deriving DecidableEq

structure ReviewReceipt where
  checkerTaskId : Uuid
  checkerAgentId : Uuid
  sourceTaskId : Uuid
  sourceAgentId : Uuid
  packageDigest : Text
  baseCommit : Text
  modelId : Option Text
  review : ReviewVerdict
  scope : Text
  testExecution : Text
deriving DecidableEq

structure CorrectionContext where
  reviewTaskId : Uuid
  review : ReviewRequest
  receipt : ReviewReceipt
  round : Nat
deriving DecidableEq

end Records

section Validation

variable (serde : Serde)

/-- `ReviewRequest::validate`. -/
def ReviewRequest.validate (request : ReviewRequest) : Except Text Unit := do
  request.package.validate serde
  require (request.checkerAgentId ≠ 0 ∧
      request.checkerAgentId ≠ request.package.snapshot.identity.agentId)
    (invalid "select a different active checker agent")

/-- Passed host checks, none of the required ones missing or failed. -/
def AcceptanceOutcome.allowsPass : AcceptanceOutcome → Bool
  | .passed results => results.any AcceptanceResult.required &&
      (results.filter AcceptanceResult.required).all (fun result =>
        result.passed && !result.timedOut && result.error.isNone)
  | _ => false

/-- The checks of `ReviewVerdict::validate` on each finding, in order. -/
def checkFindings (files : List ReviewFile) : List Finding → Except Text Unit
  | [] => .ok ()
  | finding :: rest => do
    let file ← orFail (files.find? (fun file => file.path = finding.path))
      (invalid "checker cited a file outside the snapshot")
    let content ← orFail (file.after <|> file.before) (invalid "missing review source")
    require (!finding.message.all isWhitespace && byteLength finding.message ≤ 2000 &&
        !finding.evidence.all isWhitespace && finding.line ≠ 0 &&
        (lines content)[finding.line - 1]?.any (fun line => decide (finding.evidence <:+: line)))
      (invalid "checker finding requires exact evidence on its cited line")
    checkFindings files rest

/-- `ReviewVerdict::validate`. -/
def ReviewVerdict.validate (review : ReviewVerdict) (package : ReviewPackage) :
    Except Text Unit := do
  require (!review.summary.all isWhitespace && byteLength review.summary ≤ 4000 &&
      review.findings.length ≤ 20)
    (invalid "checker must return a bounded explicit verdict")
  require (¬ (review.verdict = .pass ∧ review.findings ≠ [] ∨
      review.verdict = .changesRequired ∧ review.findings = []))
    (invalid "checker findings contradict verdict")
  require (review.verdict = .pass → package.snapshot.acceptance.allowsPass)
    (invalid "checker cannot pass missing or failed host acceptance")
  checkFindings package.snapshot.files review.findings

def verdictMarker : Text := "Independent checker verdict: ".toList

/-- `ReviewReceipt::from_output`, with what reads the receipt of one line. -/
def ReviewReceipt.fromOutput (decode : Text → Option ReviewReceipt) (output : Text) :
    Except Text ReviewReceipt := do
  let marked := (lines output).filterMap (stripPrefix verdictMarker)
  let line ← orFail marked.head? (invalid "missing independent verdict")
  let receipt ← orFail (decode line) (invalid "invalid independent verdict")
  require (marked.length ≤ 1) (invalid "ambiguous independent verdict")
  return receipt

/-- `ReviewReceipt::validate`. -/
def ReviewReceipt.validate (receipt : ReviewReceipt) (task : Uuid) (request : ReviewRequest) :
    Except Text Unit := do
  request.validate serde
  require (receipt.checkerTaskId = task ∧ receipt.checkerAgentId = request.checkerAgentId ∧
      receipt.sourceTaskId = request.package.snapshot.identity.taskId ∧
      receipt.sourceAgentId = request.package.snapshot.identity.agentId ∧
      receipt.packageDigest = request.package.digest ∧
      receipt.baseCommit = request.package.snapshot.baseCommit ∧
      receipt.scope = "frozen_snapshot_only".toList ∧
      receipt.testExecution = "prior_coder_host_receipt_only".toList)
    (invalid "verdict does not match frozen independent review")
  receipt.review.validate request.package

/-- `CorrectionContext::validate`. -/
def CorrectionContext.validate (context : CorrectionContext) : Except Text Unit := do
  context.receipt.validate serde context.reviewTaskId context.review
  require (context.round ≠ 0 ∧ context.round ≤ 3 ∧
      context.receipt.review.verdict = .changesRequired)
    (invalid "correction requires changes_required and at most three rounds")

end Validation

end OHHive.Coder
