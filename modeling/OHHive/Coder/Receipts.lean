import OHHive.Coder.Wire

/-! What a finished text says is what its host recorded, whatever the model wrote. -/

namespace OHHive.Coder

open Foundation

variable {serde : Serde} {host : Host} {text : Text}

section Outcome

theorem visible_receiptMarker : Visible receiptMarker := visible_of_all rfl

theorem visible_packageMarker : Visible packageMarker := visible_of_all rfl

theorem visible_receipt (acceptance : AcceptanceOutcome) : Visible (acceptance.receipt serde) :=
  visible_receiptMarker.append (serde.outcomes.visible acceptance)

theorem lines_receipt (acceptance : AcceptanceOutcome) :
    lines (acceptance.receipt serde) = [acceptance.receipt serde] :=
  lines_plain (visible_receipt acceptance).oneLine (List.cons_ne_nil _ _)

/-- The lines of a returned text: those of the final text, then the host's receipt. -/
theorem lines_summary (outcome : CodeSessionOutcome) :
    lines (summary serde outcome) =
      lines (outcome.finalText ++ ['\n']) ++ [[], outcome.acceptance.receipt serde] := by
  rw [← lines_receipt]
  exact lines_paragraphs outcome.finalText _

/-- The gate reads the host's outcome from any returned text. -/
theorem hostReceipt_summary (outcome : CodeSessionOutcome) :
    hostReceipt serde (summary serde outcome) = some outcome.acceptance := by
  have marked : stripPrefix receiptMarker (outcome.acceptance.receipt serde) =
      some (serde.outcomes.encode outcome.acceptance) := stripPrefix_append _ _
  have blank : stripPrefix receiptMarker [] = none := rfl
  rw [hostReceipt, lines_summary, List.filterMap_append, List.filterMap_cons, blank,
    List.filterMap_cons, marked, List.filterMap_nil, List.getLast?_concat, Option.bind_some,
    serde.outcomes.decode_encode]

end Outcome

section Package

/-- Stripped text has no marker line, however it goes on behind a line feed. -/
theorem unmarked_withoutMarkers (text : Text) :
    (lines (withoutMarkers text ++ ['\n'])).filterMap (stripPrefix packageMarker) = [] := by
  apply filterMap_lines_joinLines (List.cons_ne_nil _ _)
  · intro line member
    exact plain_of_mem_lines (List.mem_filter.mp member).1
  · intro line member
    have unmarked := (List.mem_filter.mp member).2
    rw [Bool.not_eq_true'] at unmarked
    exact if_neg (ne_true_of_eq_false unmarked)

theorem unmarked_receipt (acceptance : AcceptanceOutcome) :
    stripPrefix packageMarker (acceptance.receipt serde) = none := rfl

/-- Marker lines of a returned text: those of the final text. -/
theorem marked_summary (outcome : CodeSessionOutcome) :
    (lines (summary serde outcome)).filterMap (stripPrefix packageMarker) =
      (lines (outcome.finalText ++ ['\n'])).filterMap (stripPrefix packageMarker) := by
  have blank : stripPrefix packageMarker [] = none := rfl
  rw [lines_summary, List.filterMap_append, List.filterMap_cons, blank, List.filterMap_cons,
    unmarked_receipt, List.filterMap_nil, List.append_nil]

theorem oneLine_invalid (message : String) (plain : '\n' ∉ message.toList) :
    '\n' ∉ invalid message := by
  intro member
  rcases List.mem_append.mp member with inFront | inMessage
  · exact absurd inFront (by simp)
  · exact plain inMessage

theorem oneLine_digest {snapshot : ReviewSnapshot} {reason : Text}
    (failed : digest serde snapshot = .error reason) : '\n' ∉ reason := by
  simp only [digest, bind_eq_error_iff, require_eq_error_iff] at failed
  rcases failed with ⟨_, rfl⟩ | ⟨_, _, done⟩
  · exact oneLine_invalid _ (by simp)
  · cases done

theorem oneLine_checkFiles {files : List ReviewFile} {seen : List Text} {reason : Text}
    (failed : checkFiles seen files = .error reason) : '\n' ∉ reason := by
  induction files generalizing seen with
  | nil => cases failed
  | cons file rest ih =>
    unfold checkFiles at failed
    split at failed
    · cases failed
      exact oneLine_invalid _ (by simp)
    · exact ih failed

theorem oneLine_validate {package : ReviewPackage} {reason : Text}
    (failed : package.validate serde = .error reason) : '\n' ∉ reason := by
  simp only [ReviewPackage.validate, bind_eq_error_iff, require_eq_error_iff] at failed
  rcases failed with ⟨_, rfl⟩ | ⟨_, _, failed | ⟨_, _, ⟨_, rfl⟩ | ⟨_, _, failed⟩⟩⟩
  · exact oneLine_invalid _ (by simp)
  · exact oneLine_digest failed
  · exact oneLine_invalid _ (by simp)
  · exact oneLine_checkFiles failed

/-- A failed capture is reported on one line. -/
theorem oneLine_capture {reading : Except Line (List ReviewFile)} {identity : CaptureIdentity}
    {outcome : CodeSessionOutcome} {base reason : Text}
    (failed : captureFromBase serde reading identity outcome base = .error reason) :
    '\n' ∉ reason := by
  simp only [captureFromBase, bind_eq_error_iff, require_eq_error_iff] at failed
  rcases failed with ⟨_, rfl⟩ | ⟨_, _, unread | ⟨_, _, failed | ⟨_, _, failed | ⟨_, _, done⟩⟩⟩⟩
  · exact oneLine_invalid _ (by simp)
  · cases reading with
    | error line =>
      obtain rfl := Except.error.inj unread
      exact line.oneLine
    | ok files => cases unread
  · exact oneLine_digest failed
  · exact oneLine_validate failed
  · cases done

theorem oneLine_captured {reason : Text} (failed : host.captured serde text = some (.error reason)) :
    '\n' ∉ reason := by
  unfold Host.captured at failed
  obtain ⟨identity, _, attempt⟩ := Option.bind_eq_some_iff.mp failed
  split at attempt
  · split at attempt
    · cases attempt
      exact oneLine_invalid _ (by simp)
    · exact oneLine_capture (Option.some.inj attempt)
  · cases attempt

/-- A captured package is valid. -/
theorem valid_captured {package : ReviewPackage}
    (captured : host.captured serde text = some (.ok package)) :
    package.validate serde = .ok () := by
  unfold Host.captured at captured
  obtain ⟨identity, _, attempt⟩ := Option.bind_eq_some_iff.mp captured
  split at attempt
  · split at attempt
    · cases attempt
    · have done := Option.some.inj attempt
      simp only [captureFromBase, bind_eq_ok_iff, pure_eq_ok_iff] at done
      obtain ⟨_, _, _, _, _, _, _, valid, rfl⟩ := done
      exact valid
  · cases attempt

/-- The text that the host's marker line carries. -/
def markedBy (serde : Serde) : Option (Except Text ReviewPackage) → List Text
  | some (.ok package) => [serde.packages.encode package]
  | _ => []

theorem unmarked_unavailable (reason : Text) :
    stripPrefix packageMarker ("Independent review unavailable: ".toList ++ reason) = none := rfl

/-- The host's own marker line is the only one behind stripped text. -/
theorem marked_appendix (captured : Option (Except Text ReviewPackage))
    (oneLine : ∀ reason, captured = some (.error reason) → '\n' ∉ reason) :
    (lines (withoutMarkers text ++ appendix serde captured ++ ['\n'])).filterMap
      (stripPrefix packageMarker) = markedBy serde captured := by
  have blank : stripPrefix packageMarker [] = none := rfl
  rcases captured with _ | reason | package
  · rw [appendix, List.append_nil, unmarked_withoutMarkers]
    rfl
  · have plain : '\n' ∉ "Independent review unavailable: ".toList ++ reason := by
      intro member
      rcases List.mem_append.mp member with inFront | inReason
      · exact absurd inFront (by simp)
      · exact oneLine reason rfl inReason
    have shape : withoutMarkers text ++ appendix serde (some (.error reason)) ++ ['\n'] =
        withoutMarkers text ++ '\n' :: '\n' ::
          (("Independent review unavailable: ".toList ++ reason) ++ ['\n']) := by
      rw [appendix, List.append_assoc]
      rfl
    rw [shape, lines_paragraphs, List.filterMap_append, unmarked_withoutMarkers, List.filterMap_cons,
      blank, filterMap_lines_ended plain (unmarked_unavailable reason)]
    rfl
  · have visible : Visible (packageMarker ++ serde.packages.encode package) :=
      visible_packageMarker.append (serde.packages.visible package)
    have shape : withoutMarkers text ++ appendix serde (some (.ok package)) ++ ['\n'] =
        withoutMarkers text ++ '\n' :: '\n' ::
          ((packageMarker ++ serde.packages.encode package) ++ ['\n']) := by
      rw [appendix, List.append_assoc]
      rfl
    rw [shape, lines_paragraphs, List.filterMap_append, unmarked_withoutMarkers, List.filterMap_cons,
      blank, lines_whole visible.oneLine visible.noReturn, List.filterMap_cons, stripPrefix_append]
    rfl

/-- What a reader finds in the finished text of a session that captures for review. -/
theorem fromOutput_finished (captures : host.reviewCapture.isSome) :
    ReviewPackage.fromOutput serde (summary serde (finishSession serde host text)) =
      match host.captured serde text with
      | some (.ok package) => .ok package
      | _ => .error (invalid "source task has no unique frozen review package") := by
  obtain ⟨identity, capture⟩ := Option.isSome_iff_exists.mp captures
  have final : (finishSession serde host text).finalText =
      withoutMarkers text ++ appendix serde (host.captured serde text) := by
    simp only [finishSession, Host.outcome, capture]
  have marked : (lines (summary serde (finishSession serde host text))).filterMap
      (stripPrefix packageMarker) = markedBy serde (host.captured serde text) := by
    rw [marked_summary, final]
    exact marked_appendix _ fun reason failed => oneLine_captured failed
  unfold ReviewPackage.fromOutput
  rw [marked]
  rcases found : host.captured serde text with _ | reason | package
  · rfl
  · rfl
  · simp only [markedBy, serde.packages.decode_encode, orFail]
    change (package.validate serde >>= fun _ => pure package) = Except.ok package
    rw [valid_captured found]
    rfl

/-- A captured package holds the host's own data and the stripped text. -/
theorem captured_ok {package : ReviewPackage}
    (captured : host.captured serde text = some (.ok package)) :
    ∃ identity files, host.reviewCapture = some identity ∧ host.reading = .ok files ∧
      package.snapshot =
        { identity, baseCommit := host.baseCommit.getD [], files,
          coderReport := withoutMarkers text, acceptance := host.recorded,
          modelId := host.modelId } := by
  unfold Host.captured at captured
  obtain ⟨identity, capture, attempt⟩ := Option.bind_eq_some_iff.mp captured
  split at attempt
  · split at attempt
    · cases attempt
    · have done := Option.some.inj attempt
      simp only [captureFromBase, bind_eq_ok_iff, pure_eq_ok_iff] at done
      obtain ⟨_, _, files, read, _, _, _, _, rfl⟩ := done
      refine ⟨identity, files, capture, ?_, rfl⟩
      cases reading : host.reading with
      | error line =>
        rw [reading] at read
        cases read
      | ok files =>
        rw [reading] at read
        rw [Except.ok.inj read]
  · cases attempt

end Package

section Sessions

/-- Receipts say what the host recorded: the outcome always, the package where the session
captures one, and of the package only the coder's report depends on the model. -/
structure Unforgeable (serde : Serde) : Prop where
  outcome : ∀ host text,
    hostReceipt serde (summary serde (finishSession serde host text)) = some host.recorded
  package : ∀ (host : Host) text, host.reviewCapture.isSome →
    ReviewPackage.fromOutput serde (summary serde (finishSession serde host text)) =
      match host.captured serde text with
      | some (.ok package) => .ok package
      | _ => .error (invalid "source task has no unique frozen review package")
  alike : ∀ (host : Host) text other package found, host.reviewCapture.isSome →
    ReviewPackage.fromOutput serde (summary serde (finishSession serde host text)) = .ok package →
    ReviewPackage.fromOutput serde (summary serde (finishSession serde host other)) = .ok found →
    package.snapshot.coderReport = withoutMarkers text ∧
      package.snapshot =
        { found.snapshot with coderReport := package.snapshot.coderReport }

/-- Model text forges neither an outcome nor a package. -/
theorem receipts_unforgeable (serde : Serde) : Unforgeable serde := by
  have reads (host : Host) (text : Text) (captures : host.reviewCapture.isSome) package
      (read : ReviewPackage.fromOutput serde
        (summary serde (finishSession serde host text)) = .ok package) :
      host.captured serde text = some (.ok package) := by
    rw [fromOutput_finished captures] at read
    rcases found : host.captured serde text with _ | reason | captured
    · rw [found] at read
      cases read
    · rw [found] at read
      cases read
    · rw [found] at read
      rw [Except.ok.inj read]
  constructor
  · intro host text
    exact hostReceipt_summary (finishSession serde host text)
  · intro host text captures
    exact fromOutput_finished captures
  · intro host text other package found captures read reread
    obtain ⟨identity, files, capture, reading, snapshot⟩ :=
      captured_ok (reads host text captures package read)
    obtain ⟨sameIdentity, sameFiles, recapture, rereading, again⟩ :=
      captured_ok (reads host other captures found reread)
    obtain rfl := Option.some.inj (capture.symm.trans recapture)
    obtain rfl := Except.ok.inj (reading.symm.trans rereading)
    rw [snapshot, again]
    exact ⟨rfl, rfl⟩

/-- A finished task with one changed file, captured for review. -/
def reviewedHost : Host where
  reviewCapture := some { taskId := 1, agentId := 2, originalTask := "Fix the typo.".toList }
  acceptance := .unverified
  lastAcceptance := none
  modelId := none
  hitTurnLimit := false
  leaseExpired := false
  expiresLate := false
  baseCommit := some (List.replicate 40 'a')
  reading := .ok [{ path := "README.md".toList, before := none, after := some "Hello".toList }]
  captureTimedOut := false

/-- The same task without a review capture. -/
def unreviewedHost : Host := { reviewedHost with reviewCapture := none }

def reviewedSnapshot (report : Text) : ReviewSnapshot where
  identity := { taskId := 1, agentId := 2, originalTask := "Fix the typo.".toList }
  baseCommit := List.replicate 40 'a'
  files := [{ path := "README.md".toList, before := none, after := some "Hello".toList }]
  coderReport := report
  acceptance := .unverified
  modelId := none

noncomputable def reviewedPackage (report : Text) : ReviewPackage where
  snapshot := reviewedSnapshot report
  digest := wire.sha256 (wire.snapshotJson (reviewedSnapshot report))

theorem digest_reviewed {report : Text}
    (small : byteLength (reviewedSnapshot report).toJson.print ≤ maxPackage) :
    digest wire (reviewedSnapshot report) = .ok (reviewedPackage report).digest :=
  bind_eq_ok_iff.mpr ⟨(), require_eq_ok_iff.mpr small, rfl⟩

theorem validate_reviewed {report : Text}
    (small : byteLength (reviewedSnapshot report).toJson.print ≤ maxPackage) :
    (reviewedPackage report).validate wire = .ok () := by
  refine bind_eq_ok_iff.mpr ⟨(), require_eq_ok_iff.mpr ?_, bind_eq_ok_iff.mpr
    ⟨_, digest_reviewed small, bind_eq_ok_iff.mpr ⟨(), require_eq_ok_iff.mpr rfl, ?_⟩⟩⟩
  · rfl
  · rfl

/-- The host captures the package of the sample task. -/
theorem captured_reviewed {report : Text} (clean : withoutMarkers report = report)
    (small : byteLength (reviewedSnapshot report).toJson.print ≤ maxPackage) :
    reviewedHost.captured wire report = some (.ok (reviewedPackage report)) := by
  have capture : captureFromBase wire reviewedHost.reading
      { taskId := 1, agentId := 2, originalTask := "Fix the typo.".toList }
      (reviewedHost.outcome report) (List.replicate 40 'a') = .ok (reviewedPackage report) :=
    bind_eq_ok_iff.mpr ⟨(), require_eq_ok_iff.mpr (by decide +kernel), bind_eq_ok_iff.mpr
      ⟨_, rfl, bind_eq_ok_iff.mpr ⟨_, digest_reviewed small, bind_eq_ok_iff.mpr
        ⟨(), validate_reviewed small, rfl⟩⟩⟩⟩
  rw [← capture]
  unfold Host.captured
  rw [clean]
  rfl

/-- The sample task's package is read back with the model's report in it. -/
theorem read_reviewed {report : Text} (clean : withoutMarkers report = report)
    (small : byteLength (reviewedSnapshot report).toJson.print ≤ maxPackage) :
    ReviewPackage.fromOutput wire (summary wire (finishSession wire reviewedHost report)) =
      .ok (reviewedPackage report) := by
  rw [fromOutput_finished rfl, captured_reviewed clean small]

/-- Without a review capture, a package written by the model is read. -/
theorem read_forged {package : ReviewPackage} (valid : package.validate wire = .ok ()) :
    ReviewPackage.fromOutput wire (summary wire
      (finishSession wire unreviewedHost (packageMarker ++ wire.packages.encode package))) =
      .ok package := by
  have visible : Visible (packageMarker ++ wire.packages.encode package) :=
    visible_packageMarker.append (wire.packages.visible package)
  have final : (finishSession wire unreviewedHost
      (packageMarker ++ wire.packages.encode package)).finalText =
      packageMarker ++ wire.packages.encode package := rfl
  unfold ReviewPackage.fromOutput
  rw [marked_summary, final, lines_whole visible.oneLine visible.noReturn, List.filterMap_cons,
    stripPrefix_append]
  simp only [List.filterMap_nil, wire.packages.decode_encode, orFail]
  change (package.validate wire >>= fun _ => pure package) = Except.ok package
  rw [valid]
  rfl

/-- Two texts of one task leave two packages, and a task that captures none returns the
package that its text holds. -/
theorem packages_follow_text :
    ReviewPackage.fromOutput wire (summary wire (finishSession wire reviewedHost "Done.".toList)) =
        .ok (reviewedPackage "Done.".toList) ∧
      ReviewPackage.fromOutput wire
        (summary wire (finishSession wire reviewedHost "Finished.".toList)) =
        .ok (reviewedPackage "Finished.".toList) ∧
      reviewedPackage "Done.".toList ≠ reviewedPackage "Finished.".toList ∧
      ReviewPackage.fromOutput wire (summary wire (finishSession wire unreviewedHost
        (packageMarker ++ wire.packages.encode (reviewedPackage "Done.".toList)))) =
        .ok (reviewedPackage "Done.".toList) := by
  have small : byteLength (reviewedSnapshot "Done.".toList).toJson.print ≤ maxPackage := by
    decide +kernel
  refine ⟨read_reviewed (by decide +kernel) small, read_reviewed (by decide +kernel) ?_, ?_,
    read_forged (validate_reviewed small)⟩
  · decide +kernel
  · intro same
    have reports : "Done.".toList = "Finished.".toList :=
      congrArg (fun package => package.snapshot.coderReport) same
    exact absurd reports (by decide +kernel)

end Sessions

end OHHive.Coder
