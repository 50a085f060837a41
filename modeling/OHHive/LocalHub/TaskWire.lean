import OHHive.LocalHub.CodeTasks

/-! The texts that `serde_json` gives for tasks, checks and verdicts. Values are written with their
keys in order, and fields that are skipped do not appear. -/

namespace OHHive.Coder

open Foundation

section Values

/-- The fields that are written. -/
def presentFields : List (String × Option Json) → List (String × Json)
  | [] => []
  | (key, some value) :: rest => (key, value) :: presentFields rest
  | (_, none) :: rest => presentFields rest

theorem membersOf_injective : Function.Injective membersOf := by
  intro first second same
  induction first generalizing second with
  | nil =>
    cases second with
    | nil => rfl
    | cons => cases same
  | cons field rest ih =>
    cases second with
    | nil => cases same
    | cons other more =>
      obtain ⟨key, value, later⟩ := Members.cons.inj same
      rw [ih later, Prod.ext (String.toList_injective key) value]

@[simp]
theorem record_inj {first second : List (String × Json)} :
    record first = record second ↔ first = second := by
  rw [record, record, Json.object.injEq, membersOf_injective.eq_iff]

theorem key_mem_of_presentFields {fields : List (String × Option Json)} {field : String × Json}
    (member : field ∈ presentFields fields) : field.1 ∈ fields.map Prod.fst := by
  induction fields with
  | nil => cases member
  | cons head rest ih =>
    obtain ⟨key, value | value⟩ := head
    · exact List.mem_cons_of_mem _ (ih member)
    · rcases List.mem_cons.mp member with rfl | later
      · exact List.mem_cons_self
      · exact List.mem_cons_of_mem _ (ih later)

/-- A field and the rest are told apart by the key. -/
theorem presentFields_cons_inj {key : String} {first second : Option Json}
    {rest more : List (String × Option Json)} (new : key ∉ rest.map Prod.fst)
    (new' : key ∉ more.map Prod.fst) :
    presentFields ((key, first) :: rest) = presentFields ((key, second) :: more) ↔
      first = second ∧ presentFields rest = presentFields more := by
  have absent : ∀ {value : Json} {fields : List (String × Option Json)} {others},
      key ∉ fields.map Prod.fst → presentFields fields ≠ (key, value) :: others := by
    intro value fields others unused same
    have member : (key, value) ∈ presentFields fields := by
      rw [same]
      exact List.mem_cons_self
    exact unused (key_mem_of_presentFields member)
  cases first with
  | none =>
    cases second with
    | none => simp [presentFields]
    | some value => simpa [presentFields] using absent new
  | some value =>
    cases second with
    | none => simpa [presentFields] using (absent new').symm
    | some other => simp [presentFields]

end Values

section Verdicts

def ReviewRequest.toJson (request : ReviewRequest) : Json :=
  record [("checker_agent_id", .text (uuidText request.checkerAgentId)),
    ("package", request.package.toJson)]

def Verdict.toJson : Verdict → Json
  | .pass => .text "pass".toList
  | .changesRequired => .text "changes_required".toList
  | .inconclusive => .text "inconclusive".toList

def Finding.toJson (finding : Finding) : Json :=
  record [("path", .text finding.path), ("line", .number finding.line),
    ("message", .text finding.message), ("evidence", .text finding.evidence)]

def ReviewVerdict.toJson (review : ReviewVerdict) : Json :=
  record [("verdict", review.verdict.toJson), ("summary", .text review.summary),
    ("findings", arrayOf (review.findings.map Finding.toJson))]

def ReviewReceipt.toJson (receipt : ReviewReceipt) : Json :=
  record
    [("checker_task_id", .text (uuidText receipt.checkerTaskId)),
      ("checker_agent_id", .text (uuidText receipt.checkerAgentId)),
      ("source_task_id", .text (uuidText receipt.sourceTaskId)),
      ("source_agent_id", .text (uuidText receipt.sourceAgentId)),
      ("package_digest", .text receipt.packageDigest), ("base_commit", .text receipt.baseCommit),
      ("model_id", optionalText receipt.modelId), ("review", receipt.review.toJson),
      ("scope", .text receipt.scope), ("test_execution", .text receipt.testExecution)]

def CorrectionContext.toJson (context : CorrectionContext) : Json :=
  record [("review_task_id", .text (uuidText context.reviewTaskId)),
    ("review", context.review.toJson), ("receipt", context.receipt.toJson),
    ("round", .number context.round)]

theorem ReviewRequest.toJson_injective : Function.Injective ReviewRequest.toJson := by
  intro first second same
  cases first
  cases second
  simpa [toJson, ReviewPackage.toJson_injective.eq_iff] using same

theorem Verdict.toJson_injective : Function.Injective Verdict.toJson := by
  intro first second same
  cases first <;> cases second <;> first | rfl | simp [toJson] at same

theorem Finding.toJson_injective : Function.Injective Finding.toJson := by
  intro first second same
  cases first
  cases second
  simpa [toJson] using same

theorem ReviewVerdict.toJson_injective : Function.Injective ReviewVerdict.toJson := by
  intro first second same
  cases first
  cases second
  simpa [toJson, Verdict.toJson_injective.eq_iff, Finding.toJson_injective.list_map.eq_iff] using same

theorem ReviewReceipt.toJson_injective : Function.Injective ReviewReceipt.toJson := by
  intro first second same
  cases first
  cases second
  simpa [toJson, ReviewVerdict.toJson_injective.eq_iff] using same

theorem CorrectionContext.toJson_injective : Function.Injective CorrectionContext.toJson := by
  intro first second same
  cases first
  cases second
  simpa [toJson, ReviewRequest.toJson_injective.eq_iff,
    ReviewReceipt.toJson_injective.eq_iff] using same

end Verdicts

end OHHive.Coder

namespace OHHive.LocalHub

open Foundation Coder

section Tasks

/-- A text of the board as a value. -/
def stringJson (text : String) : Json := .text text.toList

/-- A count that is skipped when it is zero. -/
def countJson (count : Nat) : Option Json :=
  if count = 0 then none else some (.number count)

theorem stringJson_injective : Function.Injective stringJson :=
  fun _ _ same => String.toList_injective (Json.text.inj same)

theorem countJson_injective : Function.Injective countJson := by
  intro first second same
  unfold countJson at same
  split at same <;> split at same
  · omega
  · cases same
  · cases same
  · simpa using same

def AcceptanceCheck.toJson (check : AcceptanceCheck) : Json :=
  record (presentFields
    [("args", some (arrayOf (check.args.map stringJson))), ("command", some (stringJson check.command)),
      ("cwd", check.cwd.map stringJson), ("expect_exit", some (.number check.expectExit)),
      ("name", some (stringJson check.name)), ("required", some (.bool check.required))])

def checksJson (checks : List AcceptanceCheck) : Json := arrayOf (checks.map AcceptanceCheck.toJson)

def PrivateCodeTaskRequest.toJson (request : PrivateCodeTaskRequest) : Json :=
  record (presentFields
    [("acceptance", some (checksJson request.acceptance)),
      ("agent_id", request.agentId.map (fun id => .text (uuidText id))),
      ("coding_think", request.codingThink.map Json.bool),
      ("max_acceptance_repairs", countJson request.maxAcceptanceRepairs),
      ("max_turns", some (.number request.maxTurns)),
      ("max_verification_runs", countJson request.maxVerificationRuns),
      ("model_id", some (optionalText (request.modelId.map String.toList))),
      ("project_id", some (.text (uuidText request.projectId))),
      ("request_id", some (.text (uuidText request.requestId))),
      ("review_source_task_id", request.reviewSourceTaskId.map (fun id => .text (uuidText id))),
      ("target_node_id", some (stringJson request.targetNodeId)),
      ("task", some (stringJson request.task)), ("title", some (stringJson request.title))])

def PrivateCorrectionRequest.toJson (request : PrivateCorrectionRequest) : Json :=
  record [("project_id", .text (uuidText request.projectId)),
    ("request_id", .text (uuidText request.requestId)),
    ("review_task_id", .text (uuidText request.reviewTaskId))]

def TaskKeys.toJson (keys : TaskKeys) : Json :=
  record (presentFields
    [("__hive_private_agent_v1", keys.persona.map stringJson),
      ("__hive_private_correction_submission_v1",
        keys.correctionReceipt.map PrivateCorrectionRequest.toJson),
      ("checker_correction", keys.checkerCorrection.map CorrectionContext.toJson),
      ("coding_think", keys.codingThink.map Json.bool),
      ("independent_review", keys.independentReview.map ReviewRequest.toJson),
      ("max_acceptance_repairs", some (.number keys.maxAcceptanceRepairs)),
      ("max_turns", some (.number keys.maxTurns)),
      ("max_verification_runs", some (.number keys.maxVerificationRuns)),
      ("repo_ref", keys.repoRef.map stringJson),
      ("review_capture", keys.reviewCapture.map CaptureIdentity.toJson),
      ("task", keys.task.map stringJson), ("vault_name", keys.vaultName.map stringJson),
      ("workspace_path", keys.workspacePath.map stringJson)])

theorem uuidJson_injective : Function.Injective (fun id : Uuid => Json.text (uuidText id)) :=
  fun _ _ same => uuidText_injective (Json.text.inj same)

theorem boolJson_injective : Function.Injective Json.bool := fun _ _ => Json.bool.inj

theorem AcceptanceCheck.toJson_injective : Function.Injective AcceptanceCheck.toJson := by
  intro first second same
  cases first
  cases second
  simp [toJson, presentFields_cons_inj, stringJson_injective.eq_iff,
    stringJson_injective.list_map.eq_iff, (Option.map_injective stringJson_injective).eq_iff] at same
  simp [same]

theorem checksJson_injective : Function.Injective checksJson := by
  intro first second same
  rw [checksJson, checksJson, arrayOf_inj] at same
  exact AcceptanceCheck.toJson_injective.list_map same

theorem PrivateCodeTaskRequest.toJson_injective : Function.Injective PrivateCodeTaskRequest.toJson := by
  have texts : Function.Injective String.toList := fun _ _ => String.toList_injective
  intro first second same
  cases first
  cases second
  simp [toJson, presentFields_cons_inj, stringJson_injective.eq_iff, checksJson_injective.eq_iff,
    (Option.map_injective uuidJson_injective).eq_iff, (Option.map_injective boolJson_injective).eq_iff,
    countJson_injective.eq_iff, (Option.map_injective texts).eq_iff] at same
  simp [same]

theorem PrivateCorrectionRequest.toJson_injective :
    Function.Injective PrivateCorrectionRequest.toJson := by
  intro first second same
  cases first
  cases second
  simp [toJson] at same
  simp [same]

theorem TaskKeys.toJson_injective : Function.Injective TaskKeys.toJson := by
  intro first second same
  cases first
  cases second
  simp [toJson, presentFields_cons_inj, (Option.map_injective stringJson_injective).eq_iff,
    (Option.map_injective PrivateCorrectionRequest.toJson_injective).eq_iff,
    (Option.map_injective CorrectionContext.toJson_injective).eq_iff,
    (Option.map_injective boolJson_injective).eq_iff,
    (Option.map_injective ReviewRequest.toJson_injective).eq_iff,
    (Option.map_injective CaptureIdentity.toJson_injective).eq_iff] at same
  simp [same]

/-- Compact JSON of tasks and results. -/
noncomputable def taskWire : TaskFormat where
  toSerde := wire
  submissions := Codec.ofJson PrivateCodeTaskRequest.toJson PrivateCodeTaskRequest.toJson_injective
  checks := Codec.ofJson checksJson checksJson_injective
  keys := Codec.ofJson TaskKeys.toJson TaskKeys.toJson_injective
  receipts := Codec.ofJson ReviewReceipt.toJson ReviewReceipt.toJson_injective
  unread _ := "coding specification does not read".toList

end Tasks

end OHHive.LocalHub
