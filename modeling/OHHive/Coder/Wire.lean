import Mathlib.Data.Nat.Digits.Lemmas
import OHHive.Coder.Session
import OHHive.Foundation.Sha256

/-! The texts that `serde_json` and `sha2` give for the host's records. -/

namespace OHHive.Coder

open Foundation

section Values

/-- An array of values. -/
def itemsOf : List Json → Items
  | [] => .nil
  | first :: rest => .cons first (itemsOf rest)

def arrayOf (values : List Json) : Json := .array (itemsOf values)

/-- A struct with its fields in declaration order. -/
def membersOf : List (String × Json) → Members
  | [] => .nil
  | (key, value) :: rest => .cons key.toList value (membersOf rest)

def record (fields : List (String × Json)) : Json := .object (membersOf fields)

def optionalText : Option Text → Json
  | none => .null
  | some value => .text value

def optionalNumber : Option Int → Json
  | none => .null
  | some value => .number value

theorem itemsOf_inj {first second : List Json} : itemsOf first = itemsOf second ↔ first = second := by
  constructor
  · intro same
    induction first generalizing second with
    | nil =>
      cases second with
      | nil => rfl
      | cons => cases same
    | cons value rest ih =>
      cases second with
      | nil => cases same
      | cons other more =>
        obtain ⟨rfl, later⟩ := Items.cons.inj same
        rw [ih later]
  · exact fun same => congrArg itemsOf same

@[simp]
theorem arrayOf_inj {first second : List Json} : arrayOf first = arrayOf second ↔ first = second := by
  rw [arrayOf, arrayOf, Json.array.injEq, itemsOf_inj]

@[simp]
theorem optionalText_inj {first second : Option Text} :
    optionalText first = optionalText second ↔ first = second := by
  cases first <;> cases second <;> simp [optionalText]

@[simp]
theorem optionalNumber_inj {first second : Option Int} :
    optionalNumber first = optionalNumber second ↔ first = second := by
  cases first <;> cases second <;> simp [optionalNumber]

end Values

section Identities

/-- The 32 hexadecimal digits of an identity, the last one first. -/
def hexDigits (uuid : Uuid) : List Nat :=
  let digits := Nat.digits 16 uuid.value
  digits ++ List.replicate (32 - digits.length) 0

/-- Digits in the groups of the hyphenated form, read from the end. -/
def hyphenated (digits : Text) : Text :=
  digits.take 12 ++ '-' :: ((digits.drop 12).take 4 ++ '-' :: ((digits.drop 16).take 4 ++
    '-' :: ((digits.drop 20).take 4 ++ '-' :: digits.drop 24)))

/-- The text of an identity. -/
def uuidText (uuid : Uuid) : Text := (hyphenated ((hexDigits uuid).map Nat.digitChar)).reverse

private theorem eq_of_parts {first second : Text} (count : Nat)
    (starts : first.take count = second.take count) (ends : first.drop count = second.drop count) :
    first = second := by
  rw [← List.take_append_drop count first, starts, ends, List.take_append_drop]

/-- The groups keep every digit. -/
theorem hyphenated_inj {first second : Text} (plain : '-' ∉ first) (smooth : '-' ∉ second)
    (same : hyphenated first = hyphenated second) : first = second := by
  have apart {digits : Text} (clean : '-' ∉ digits) (from' count : Nat) :
      '-' ∉ (digits.drop from').take count :=
    fun member => clean (List.mem_of_mem_drop (List.mem_of_mem_take member))
  have start {digits : Text} (clean : '-' ∉ digits) : '-' ∉ digits.take 12 :=
    fun member => clean (List.mem_of_mem_take member)
  unfold hyphenated at same
  obtain ⟨group1, same⟩ := cut_inj (start plain) (start smooth) same
  obtain ⟨group2, same⟩ := cut_inj (apart plain 12 4) (apart smooth 12 4) same
  obtain ⟨group3, same⟩ := cut_inj (apart plain 16 4) (apart smooth 16 4) same
  obtain ⟨group4, group5⟩ := cut_inj (apart plain 20 4) (apart smooth 20 4) same
  apply eq_of_parts 12 group1
  apply eq_of_parts 4 group2
  rw [List.drop_drop, List.drop_drop]
  apply eq_of_parts 4 group3
  rw [List.drop_drop, List.drop_drop]
  apply eq_of_parts 4 group4
  rw [List.drop_drop, List.drop_drop]
  exact group5

theorem hexDigits_lt {uuid : Uuid} {digit : Nat} (member : digit ∈ hexDigits uuid) : digit < 16 := by
  rcases List.mem_append.mp member with inValue | inPadding
  · exact Nat.digits_lt_base (by decide) inValue
  · rw [List.eq_of_mem_replicate inPadding]
    decide

theorem hexDigits_injective : Function.Injective hexDigits := by
  intro first second same
  have values := congrArg (Nat.ofDigits 16) same
  simp only [hexDigits, Nat.ofDigits_append_replicate_zero, Nat.ofDigits_digits] at values
  cases first
  cases second
  exact congrArg Uuid.mk values

theorem digitChar_inj {first second : Nat} (small : first < 16) (smaller : second < 16)
    (same : Nat.digitChar first = Nat.digitChar second) : first = second := by
  have all : ∀ first < 16, ∀ second < 16,
      Nat.digitChar first = Nat.digitChar second → first = second := by decide
  exact all first small second smaller same

theorem map_digitChar_inj {first second : List Nat} (small : ∀ digit ∈ first, digit < 16)
    (smaller : ∀ digit ∈ second, digit < 16)
    (same : first.map Nat.digitChar = second.map Nat.digitChar) : first = second := by
  induction first generalizing second with
  | nil => exact (List.map_eq_nil_iff.mp same.symm).symm
  | cons digit first ih =>
    cases second with
    | nil => cases same
    | cons other second =>
      obtain ⟨head, tail⟩ := List.cons.inj same
      rw [digitChar_inj (small _ List.mem_cons_self) (smaller _ List.mem_cons_self) head,
        ih (fun digit member => small digit (List.mem_cons_of_mem _ member))
          (fun digit member => smaller digit (List.mem_cons_of_mem _ member)) tail]

theorem hyphen_notMem (uuid : Uuid) : '-' ∉ (hexDigits uuid).map Nat.digitChar := by
  intro member
  obtain ⟨digit, inDigits, hyphen⟩ := List.mem_map.mp member
  have all : ∀ digit < 16, Nat.digitChar digit ≠ '-' := by decide
  exact all digit (hexDigits_lt inDigits) hyphen

/-- Identities have distinct texts. -/
theorem uuidText_injective : Function.Injective uuidText := by
  intro first second same
  have digits := hyphenated_inj (hyphen_notMem first) (hyphen_notMem second)
    (List.reverse_injective same)
  apply hexDigits_injective
  exact map_digitChar_inj (fun _ => hexDigits_lt) (fun _ => hexDigits_lt) digits

@[simp]
theorem uuidText_inj {first second : Uuid} : uuidText first = uuidText second ↔ first = second :=
  uuidText_injective.eq_iff

end Identities

section Records

def AcceptanceResult.toJson (result : AcceptanceResult) : Json :=
  record
    [("name", .text result.name), ("command_line", .text result.commandLine),
      ("exit_status", optionalNumber result.exitStatus), ("passed", .bool result.passed),
      ("required", .bool result.required), ("timed_out", .bool result.timedOut),
      ("stdout_tail", .text result.stdoutTail), ("stderr_tail", .text result.stderrTail),
      ("error", optionalText result.error)]

def resultsJson (results : List AcceptanceResult) : Json :=
  arrayOf (results.map AcceptanceResult.toJson)

/-- Tagged by status, with the results as its content. -/
def AcceptanceOutcome.toJson : AcceptanceOutcome → Json
  | .unverified => record [("status", .text "unverified".toList)]
  | .skipped => record [("status", .text "skipped".toList)]
  | .passed results => record [("status", .text "passed".toList), ("results", resultsJson results)]
  | .failed results => record [("status", .text "failed".toList), ("results", resultsJson results)]
  | .errored results message =>
    record [("status", .text "errored".toList),
      ("results", arrayOf [resultsJson results, .text message])]

def CaptureIdentity.toJson (identity : CaptureIdentity) : Json :=
  record
    [("task_id", .text (uuidText identity.taskId)), ("agent_id", .text (uuidText identity.agentId)),
      ("original_task", .text identity.originalTask)]

def ReviewFile.toJson (file : ReviewFile) : Json :=
  record [("path", .text file.path), ("before", optionalText file.before),
    ("after", optionalText file.after)]

def ReviewSnapshot.toJson (snapshot : ReviewSnapshot) : Json :=
  record
    [("identity", snapshot.identity.toJson), ("base_commit", .text snapshot.baseCommit),
      ("files", arrayOf (snapshot.files.map ReviewFile.toJson)),
      ("coder_report", .text snapshot.coderReport), ("acceptance", snapshot.acceptance.toJson),
      ("model_id", optionalText snapshot.modelId)]

def ReviewPackage.toJson (package : ReviewPackage) : Json :=
  record [("snapshot", package.snapshot.toJson), ("digest", .text package.digest)]

theorem AcceptanceResult.toJson_injective : Function.Injective AcceptanceResult.toJson := by
  intro first second same
  cases first
  cases second
  simpa [toJson, record, membersOf] using same

theorem resultsJson_injective : Function.Injective resultsJson := by
  intro first second same
  rw [resultsJson, resultsJson, arrayOf_inj] at same
  exact AcceptanceResult.toJson_injective.list_map same

theorem AcceptanceOutcome.toJson_injective : Function.Injective AcceptanceOutcome.toJson := by
  intro first second same
  cases first <;> cases second <;>
    simp_all [toJson, record, membersOf, resultsJson_injective.eq_iff]

theorem CaptureIdentity.toJson_injective : Function.Injective CaptureIdentity.toJson := by
  intro first second same
  cases first
  cases second
  simpa [toJson, record, membersOf] using same

theorem ReviewFile.toJson_injective : Function.Injective ReviewFile.toJson := by
  intro first second same
  cases first
  cases second
  simpa [toJson, record, membersOf] using same

theorem ReviewSnapshot.toJson_injective : Function.Injective ReviewSnapshot.toJson := by
  intro first second same
  cases first
  cases second
  simpa [toJson, record, membersOf, CaptureIdentity.toJson_injective.eq_iff,
    AcceptanceOutcome.toJson_injective.eq_iff, ReviewFile.toJson_injective.list_map.eq_iff] using same

theorem ReviewPackage.toJson_injective : Function.Injective ReviewPackage.toJson := by
  intro first second same
  cases first
  cases second
  simpa [toJson, record, membersOf, ReviewSnapshot.toJson_injective.eq_iff] using same

/-- Compact JSON and SHA-256 of its UTF-8 bytes. -/
noncomputable def wire : Serde where
  outcomes := Codec.ofJson AcceptanceOutcome.toJson AcceptanceOutcome.toJson_injective
  packages := Codec.ofJson ReviewPackage.toJson ReviewPackage.toJson_injective
  snapshotJson snapshot := snapshot.toJson.print
  sha256 text := Sha256.digest (text.flatMap String.utf8EncodeChar)

end Records

end OHHive.Coder
