import OHHive.Coder.Checker
import OHHive.Coder.Receipts

/-! The lines that the host offers a checker to cite, and what its verdict and its receipt are
accepted for. -/

namespace OHHive.Coder

open Foundation

section Offers

/-- A file as `citation_lines` offers it. -/
structure CitedFile where
  path : Text
  version : Text
  lines : List (Nat × Text)

/-- The version of a file that is offered, and its text. -/
def ReviewFile.cited (file : ReviewFile) : Text × Text :=
  match file.after with
  | some source => ("after".toList, source)
  | none => ("before".toList, file.before.getD [])

/-- `citation_lines`. -/
def citationLines (package : ReviewPackage) : List CitedFile :=
  package.snapshot.files.map fun file =>
    { path := file.path
      version := file.cited.1
      lines := (lines file.cited.2).zipIdx.map fun (text, index) => (index + 1, text) }

/-- A line that is offered under its file and number. -/
def Offers (package : ReviewPackage) (path : Text) (line : Nat) (text : Text) : Prop :=
  ∃ cited ∈ citationLines package, cited.path = path ∧ (line, text) ∈ cited.lines

/-- A finding whose evidence is an excerpt, not blank, of the line that it cites. -/
def Finding.Cites (finding : Finding) (package : ReviewPackage) : Prop :=
  ∃ text, Offers package finding.path finding.line text ∧ finding.evidence <:+: text ∧
    finding.evidence.all isWhitespace = false

/-- A finding's message as the host bounds it. -/
def Finding.Explained (finding : Finding) : Prop :=
  finding.message.all isWhitespace = false ∧ byteLength finding.message ≤ 2000

variable {serde : Serde} {package : ReviewPackage} {files : List ReviewFile} {finding : Finding}
  {path text : Text} {line : Nat}

theorem mem_numbered_iff {source : Text} :
    (line, text) ∈ (lines source).zipIdx.map (fun (text, index) => (index + 1, text)) ↔
      line ≠ 0 ∧ (lines source)[line - 1]? = some text := by
  rw [List.mem_map]
  constructor
  · rintro ⟨⟨found, index⟩, member, same⟩
    obtain ⟨rfl, rfl⟩ := Prod.mk.inj same
    exact ⟨Nat.succ_ne_zero index, List.mem_zipIdx_iff_getElem?.mp member⟩
  · rintro ⟨positive, found⟩
    refine ⟨(text, line - 1), List.mem_zipIdx_iff_getElem?.mpr found, ?_⟩
    exact Prod.ext (Nat.sub_add_cancel (Nat.one_le_iff_ne_zero.mpr positive)) rfl

theorem source_cited {file : ReviewFile} {content : Text}
    (source : (file.after <|> file.before) = some content) : file.cited.2 = content := by
  unfold ReviewFile.cited
  cases after : file.after with
  | some current =>
    rw [after] at source
    exact Option.some.inj source
  | none =>
    rw [after] at source
    have before : file.before = some content := source
    rw [before]
    rfl

/-- The lines of every file's current text are offered, a deleted file's last one for it. -/
theorem offers_iff : Offers package path line text ↔
    ∃ file ∈ package.snapshot.files, file.path = path ∧ line ≠ 0 ∧
      (lines file.cited.2)[line - 1]? = some text := by
  unfold Offers citationLines
  constructor
  · rintro ⟨cited, member, named, present⟩
    obtain ⟨file, inside, rfl⟩ := List.mem_map.mp member
    exact ⟨file, inside, named, mem_numbered_iff.mp present⟩
  · rintro ⟨file, inside, named, present⟩
    exact ⟨_, List.mem_map.mpr ⟨file, inside, rfl⟩, named, mem_numbered_iff.mpr present⟩

end Offers

section Findings

variable {serde : Serde} {package : ReviewPackage} {files : List ReviewFile} {finding : Finding}

/-- A finding that passes its checks: it is explained, and quotes the line it cites of the first
file with its path. -/
def Grounded (files : List ReviewFile) (finding : Finding) : Prop :=
  ∃ file content text, files.find? (fun file => file.path = finding.path) = some file ∧
    (file.after <|> file.before) = some content ∧ finding.Explained ∧ finding.line ≠ 0 ∧
    (lines content)[finding.line - 1]? = some text ∧ finding.evidence <:+: text ∧
    finding.evidence.all isWhitespace = false

theorem checkFindings_eq_ok_iff {findings : List Finding} :
    checkFindings files findings = .ok () ↔ ∀ finding ∈ findings, Grounded files finding := by
  induction findings with
  | nil => exact ⟨fun _ => nofun, fun _ => rfl⟩
  | cons finding rest ih =>
    simp only [checkFindings, bind_eq_ok_iff, orFail_eq_ok_iff, require_eq_ok_iff,
      List.forall_mem_cons, ih]
    constructor
    · rintro ⟨file, found, content, source, _, checked, later⟩
      refine ⟨?_, later⟩
      simp only [Bool.and_eq_true, Bool.not_eq_true', decide_eq_true_eq, Option.any_eq_true]
        at checked
      obtain ⟨⟨⟨⟨worded, short⟩, quoted⟩, numbered⟩, text, present, excerpt⟩ := checked
      exact ⟨file, content, text, found, source, ⟨worded, short⟩, numbered, present, excerpt,
        quoted⟩
    · rintro ⟨⟨file, content, text, found, source, ⟨worded, short⟩, numbered, present, excerpt,
        quoted⟩, later⟩
      refine ⟨file, found, content, source, (), ?_, later⟩
      simp only [Bool.and_eq_true, Bool.not_eq_true', decide_eq_true_eq, Option.any_eq_true]
      exact ⟨⟨⟨⟨worded, short⟩, quoted⟩, numbered⟩, text, present, excerpt⟩

/-- A grounded finding cites an offered line. -/
theorem Grounded.cites (grounded : Grounded package.snapshot.files finding) :
    finding.Cites package := by
  obtain ⟨file, content, text, found, source, _, numbered, present, excerpt, quoted⟩ := grounded
  refine ⟨text, offers_iff.mpr ⟨file, List.mem_of_find?_eq_some found, ?_, numbered, ?_⟩, excerpt,
    quoted⟩
  · simpa using List.find?_some found
  · rw [source_cited source]
    exact present

theorem checkFiles_ok {seen : List Text} (checked : checkFiles seen files = .ok ()) :
    (files.map ReviewFile.path).Nodup ∧
      ∀ file ∈ files, file.path ∉ seen ∧ (file.before.isSome ∨ file.after.isSome) := by
  induction files generalizing seen with
  | nil => exact ⟨List.nodup_nil, nofun⟩
  | cons file rest ih =>
    unfold checkFiles at checked
    split at checked
    · cases checked
    · rename_i sound
      obtain ⟨apart, fresh⟩ := ih checked
      simp only [Bool.or_eq_true, Bool.not_eq_true', List.contains_eq_mem, decide_eq_true_eq,
        Bool.and_eq_true, Option.isNone_iff_eq_none, not_or] at sound
      obtain ⟨⟨_, new⟩, present⟩ := sound
      refine ⟨?_, ?_⟩
      · rw [List.map_cons, List.nodup_cons]
        refine ⟨?_, apart⟩
        intro again
        obtain ⟨other, member, same⟩ := List.mem_map.mp again
        exact (fresh other member).1 (same ▸ List.mem_cons_self)
      · intro other member
        rcases List.mem_cons.mp member with rfl | later
        · refine ⟨new, ?_⟩
          rw [← Option.ne_none_iff_isSome, ← Option.ne_none_iff_isSome]
          exact not_and_or.mp present
        · obtain ⟨unseen, kept⟩ := fresh other later
          exact ⟨fun inside => unseen (List.mem_cons_of_mem _ inside), kept⟩

theorem checkFiles_of_validate (valid : package.validate serde = .ok ()) :
    checkFiles [] package.snapshot.files = .ok () := by
  simp only [ReviewPackage.validate, bind_eq_ok_iff] at valid
  obtain ⟨_, _, _, _, _, _, checked⟩ := valid
  exact checked

/-- In a valid package, a finding that quotes an offered line is grounded. -/
theorem Finding.Cites.grounded (valid : package.validate serde = .ok ())
    (cites : finding.Cites package) (explained : finding.Explained) :
    Grounded package.snapshot.files finding := by
  obtain ⟨text, offered, excerpt, quoted⟩ := cites
  obtain ⟨file, member, named, numbered, present⟩ := offers_iff.mp offered
  obtain ⟨apart, kept⟩ := checkFiles_ok (checkFiles_of_validate valid)
  have found : package.snapshot.files.find? (fun file => file.path = finding.path) = some file := by
    cases first : package.snapshot.files.find? (fun file => file.path = finding.path) with
    | none => exact absurd (decide_eq_true named) (List.find?_eq_none.mp first file member)
    | some other =>
      have cited : other.path = finding.path := by simpa using List.find?_some first
      have same : other.path = file.path := cited.trans named.symm
      rw [List.inj_on_of_nodup_map apart (List.mem_of_find?_eq_some first) member same]
  have held : (file.after <|> file.before).isSome := by
    rcases (kept file member).2 with before | after
    · cases file.after with
      | none => exact before
      | some source => rfl
    · obtain ⟨source, same⟩ := Option.isSome_iff_exists.mp after
      rw [same]
      rfl
  obtain ⟨content, source⟩ := Option.isSome_iff_exists.mp held
  rw [source_cited source] at present
  exact ⟨file, content, text, found, source, explained, numbered, present, excerpt, quoted⟩

end Findings

section Verdicts

variable {serde : Serde} {package : ReviewPackage} {review : ReviewVerdict}

theorem validate_eq_ok_iff : review.validate package = .ok () ↔
    (review.summary.all isWhitespace = false ∧ byteLength review.summary ≤ 4000 ∧
      review.findings.length ≤ 20) ∧
    ¬ (review.verdict = .pass ∧ review.findings ≠ [] ∨
      review.verdict = .changesRequired ∧ review.findings = []) ∧
    (review.verdict = .pass → package.snapshot.acceptance.allowsPass = true) ∧
    ∀ finding ∈ review.findings, Grounded package.snapshot.files finding := by
  simp only [ReviewVerdict.validate, bind_eq_ok_iff, require_eq_ok_iff, checkFindings_eq_ok_iff,
    Bool.and_eq_true, Bool.not_eq_true', decide_eq_true_eq, and_assoc, exists_const]

/-- Checks that passed, with a required one among them and all the required ones passed. -/
def AcceptanceOutcome.RequiredPassed (acceptance : AcceptanceOutcome) : Prop :=
  ∃ results, acceptance = .passed results ∧ (∃ result ∈ results, result.required = true) ∧
    ∀ result ∈ results, result.required = true →
      result.passed = true ∧ result.timedOut = false ∧ result.error = none

theorem allowsPass_iff {acceptance : AcceptanceOutcome} :
    acceptance.allowsPass = true ↔ acceptance.RequiredPassed := by
  cases acceptance with
  | passed results =>
    simp only [AcceptanceOutcome.allowsPass, AcceptanceOutcome.RequiredPassed, Bool.and_eq_true,
      List.any_eq_true, List.all_eq_true, List.mem_filter, AcceptanceOutcome.passed.injEq,
      exists_eq_left', Bool.not_eq_true', Option.isNone_iff_eq_none, and_imp, and_assoc]
  | _ => exact ⟨nofun, fun ⟨_, same, _⟩ => nomatch same⟩

/-- The digest of a valid package is that of its snapshot's text. -/
theorem digest_of_validate (valid : package.validate serde = .ok ()) :
    package.digest = serde.sha256 (serde.snapshotJson package.snapshot) := by
  simp only [ReviewPackage.validate, digest, bind_eq_ok_iff, pure_eq_ok_iff, require_eq_ok_iff]
    at valid
  obtain ⟨_, _, _, ⟨_, _, rfl⟩, _, same, _⟩ := valid
  exact same

/-- Valid packages of one digest are one package, unless their digests collide. -/
theorem eq_of_digest {other : ReviewPackage}
    (apart : Function.Injective (fun snapshot => serde.sha256 (serde.snapshotJson snapshot)))
    (valid : package.validate serde = .ok ()) (sound : other.validate serde = .ok ())
    (same : package.digest = other.digest) : package = other := by
  have snapshots : package.snapshot = other.snapshot := by
    apply apart
    change serde.sha256 _ = serde.sha256 _
    rw [← digest_of_validate valid, ← digest_of_validate sound, same]
  cases package
  cases other
  simp_all

/-- An accepted receipt names its task and its request's package. -/
theorem named_of_receipt {receipt : ReviewReceipt} {task : Uuid} {request : ReviewRequest}
    (accepted : receipt.validate serde task request = .ok ()) :
    receipt.checkerTaskId = task ∧ receipt.packageDigest = request.package.digest ∧
      request.package.validate serde = .ok () := by
  simp only [ReviewReceipt.validate, ReviewRequest.validate, bind_eq_ok_iff, require_eq_ok_iff]
    at accepted
  obtain ⟨_, ⟨_, valid, _⟩, _, ⟨task, _, _, _, digest, _⟩, _⟩ := accepted
  exact ⟨task, digest, valid⟩

/-- A verdict within its bounds that asks for changes, or concludes nothing. -/
structure ReviewVerdict.Bounded (review : ReviewVerdict) : Prop where
  summarized : review.summary.all isWhitespace = false ∧ byteLength review.summary ≤ 4000
  few : review.findings.length ≤ 20
  verdict : review.verdict = .inconclusive ∨
    review.verdict = .changesRequired ∧ review.findings ≠ []

theorem Finding.Cites.of_offers {finding : Finding}
    (offered : Offers package finding.path finding.line finding.evidence)
    (quoted : finding.evidence.all isWhitespace = false) : finding.Cites package :=
  ⟨finding.evidence, offered, List.infix_rfl, quoted⟩

theorem validate_of_cites (valid : package.validate serde = .ok ()) (bounded : review.Bounded)
    (cites : ∀ finding ∈ review.findings, finding.Cites package ∧ finding.Explained) :
    review.validate package = .ok () := by
  obtain ⟨⟨worded, short⟩, few, verdict⟩ := bounded
  have grounded : ∀ finding ∈ review.findings, Grounded package.snapshot.files finding := by
    intro finding member
    obtain ⟨cited, explained⟩ := cites finding member
    exact cited.grounded valid explained
  refine validate_eq_ok_iff.mpr ⟨⟨worded, short, few⟩, ?_, ?_, grounded⟩
  · rcases verdict with inconclusive | ⟨changes, found⟩
    · simp [inconclusive]
    · simp [changes, found]
  · intro passes
    rcases verdict with inconclusive | ⟨changes, _⟩
    · cases inconclusive.symm.trans passes
    · cases changes.symm.trans passes

end Verdicts

section Reviews

/-- What verdicts and receipts are accepted for. -/
structure ReviewsChecked (serde : Serde) : Prop where
  cites : ∀ {package : ReviewPackage} {review : ReviewVerdict},
    review.validate package = .ok () → ∀ finding ∈ review.findings, finding.Cites package
  accepts : ∀ {package : ReviewPackage} {review : ReviewVerdict},
    package.validate serde = .ok () → review.Bounded →
    (∀ finding ∈ review.findings, Offers package finding.path finding.line finding.evidence ∧
      finding.evidence.all isWhitespace = false ∧ finding.Explained) →
    review.validate package = .ok ()
  passes : ∀ {package : ReviewPackage} {review : ReviewVerdict},
    review.validate package = .ok () → review.verdict = .pass →
    package.snapshot.acceptance.RequiredPassed
  receipts : ∀ {receipt : ReviewReceipt} {task otherTask : Uuid} {request other : ReviewRequest},
    receipt.validate serde task request = .ok () →
    other.package ≠ request.package ∨
      other.package.snapshot.baseCommit ≠ request.package.snapshot.baseCommit ∨
      otherTask ≠ task →
    ∃ reason, receipt.validate serde otherTask other = .error reason

theorem snapshotJson_injective : Function.Injective wire.snapshotJson :=
  Json.print_injective.comp ReviewSnapshot.toJson_injective

/-- Verdicts are accepted for lines of their package alone, and receipts for their one package. -/
theorem reviews_checked (sha256 : Text → Text) (collisionFree : Function.Injective sha256) :
    ReviewsChecked { wire with sha256 } where
  cites accepted finding member := ((validate_eq_ok_iff.mp accepted).2.2.2 finding member).cites
  accepts valid bounded offered := by
    refine validate_of_cites valid bounded ?_
    intro finding member
    obtain ⟨cited, quoted, explained⟩ := offered finding member
    exact ⟨.of_offers cited quoted, explained⟩
  passes accepted pass := allowsPass_iff.mp ((validate_eq_ok_iff.mp accepted).2.2.1 pass)
  receipts := by
    intro receipt task otherTask request other accepted differs
    obtain ⟨own, digest, valid⟩ := named_of_receipt accepted
    cases again : receipt.validate { wire with sha256 } otherTask other with
    | error reason => exact ⟨reason, rfl⟩
    | ok passed =>
      obtain ⟨named, same, sound⟩ := named_of_receipt again
      have apart := collisionFree.comp snapshotJson_injective
      have one : other.package = request.package :=
        eq_of_digest apart sound valid (same.symm.trans digest)
      rcases differs with package | base | task
      · exact absurd one package
      · exact absurd (congrArg (fun package => package.snapshot.baseCommit) one) base
      · exact absurd (named.symm.trans own) task

/-- The text of the sample task's snapshot. -/
def sampleText : Text := (reviewedSnapshot "Done.".toList).toJson.print

/-- The digest of the sample's text, and distinct texts for all others. -/
def sha256Pinned (text : Text) : Text :=
  if text = sampleText then Sha256.digest (text.flatMap String.utf8EncodeChar) else 'x' :: text

theorem sha256Pinned_injective : Function.Injective sha256Pinned := by
  have hexadecimal : (Sha256.digest (sampleText.flatMap String.utf8EncodeChar)).head? ≠
      some 'x' := by
    decide +kernel
  intro first second same
  unfold sha256Pinned at same
  split at same <;> split at same
  · rename_i sample again
    exact sample.trans again.symm
  · rename_i sample _
    rw [sample] at same
    exact absurd (congrArg List.head? same) hexadecimal
  · rename_i _ sample
    rw [sample] at same
    exact absurd (congrArg List.head? same).symm hexadecimal
  · exact (List.cons.inj same).2

theorem reviews_checked_pinned : Function.Injective sha256Pinned ∧
    ReviewsChecked { wire with sha256 := sha256Pinned } :=
  ⟨sha256Pinned_injective, reviews_checked sha256Pinned sha256Pinned_injective⟩

end Reviews

end OHHive.Coder
