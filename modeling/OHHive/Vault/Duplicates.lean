import Mathlib.Data.Finset.Card
import OHHive.Foundation.Binary64
import OHHive.Vault.Catalog

/-! The duplicates that the curation scan finds: documents of the same normalized text, and
documents that share most of their words. -/

namespace OHHive.Vault

open Foundation
open Foundation.Binary64 (nearest)

section Scan

def maxPairs : Nat := 100000

def maxFindings : Nat := 1000

/-- What the comparison reads of a document. -/
structure ScannedNote where
  id : Uuid
  content : Text
deriving DecidableEq, Repr

structure DuplicateCandidate where
  left : Uuid
  right : Uuid
  kind : String
  similarity : ℚ
deriving DecidableEq, Repr

/-- `str::split_whitespace`. -/
def splitWhitespace (text : Text) : List Text :=
  (text.splitOnP isWhitespace).filter fun word => !word.isEmpty

/-- The words that a document's signature keeps, with the digest of its normalized text. -/
structure Signature where
  id : Uuid
  fingerprint : Text
  words : Finset Text
deriving DecidableEq

/-- Where the first pass stands: the first document of each text, and what it found. -/
structure DuplicateScan where
  exact : List (Text × Uuid)
  signatures : List Signature
  duplicates : List DuplicateCandidate
  complete : Bool

structure DuplicateReport where
  duplicates : List DuplicateCandidate
  nearPairsExamined : Nat
  duplicateScanComplete : Bool

variable (lowercase sha256 : Text → Text)

/-- The words of a text in lower case, with single spaces between them. -/
def normalized (content : Text) : Text :=
  [' '].intercalate ((splitWhitespace content).map lowercase)

def exactFinding (left right : Uuid) : DuplicateCandidate := ⟨left, right, "normalized_exact", 1⟩

/-- A text that was seen before is a finding, while there is room for it. -/
def DuplicateScan.matchExact (scan : DuplicateScan) (id : Uuid) (fingerprint : Text) :
    DuplicateScan :=
  match scan.exact.lookup fingerprint with
  | some first =>
    if scan.duplicates.length < maxFindings then
      { scan with duplicates := scan.duplicates ++ [exactFinding first id] }
    else { scan with complete := false }
  | none => { scan with exact := scan.exact ++ [(fingerprint, id)] }

/-- The signature of a text of few enough words; a longer one leaves the scan incomplete. -/
def DuplicateScan.sign (scan : DuplicateScan) (id : Uuid) (normal : Text) : DuplicateScan :=
  let words := ((splitWhitespace normal).take 2049).toFinset
  if (splitWhitespace normal).length ≤ 2048 ∧ 20 ≤ words.card then
    { scan with signatures := scan.signatures ++ [⟨id, sha256 normal, words⟩] }
  else if 2048 < (splitWhitespace normal).length then { scan with complete := false }
  else scan

def DuplicateScan.read (scan : DuplicateScan) (note : ScannedNote) : DuplicateScan :=
  let normal := normalized lowercase note.content
  let scan := if normal = [] then scan else scan.matchExact note.id (sha256 normal)
  scan.sign sha256 note.id normal

def firstPass (notes : List ScannedNote) : DuplicateScan :=
  notes.foldl (DuplicateScan.read lowercase sha256) ⟨[], [], [], true⟩

/-- `score`, a quotient of doubles. -/
def score (first second : Signature) : ℚ :=
  let intersection := (first.words ∩ second.words).card
  let union := first.words.card + second.words.card - intersection
  nearest (intersection / union)

def DuplicateReport.compare (report : DuplicateReport) (pair : Signature × Signature) :
    DuplicateReport :=
  let report := { report with nearPairsExamined := report.nearPairsExamined + 1 }
  if pair.1.fingerprint = pair.2.fingerprint then report
  else if nearest (17 / 20) ≤ score pair.1 pair.2 then
    { report with
      duplicates := report.duplicates ++ [⟨pair.1.id, pair.2.id, "near", score pair.1 pair.2⟩] }
  else report

/-- The pairs of a list, in the order of the two loops. -/
def pairsOf : List Signature → List (Signature × Signature)
  | [] => []
  | first :: rest => rest.map (first, ·) ++ pairsOf rest

/-- The second pass, which stops at either cap. -/
def comparePairs : List (Signature × Signature) → DuplicateReport → DuplicateReport
  | [], report => report
  | pair :: rest, report =>
    if maxPairs ≤ report.nearPairsExamined ∨ maxFindings ≤ report.duplicates.length then
      { report with duplicateScanComplete := false }
    else comparePairs rest (report.compare pair)

def duplicateScan (notes : List ScannedNote) : DuplicateReport :=
  let scan := firstPass lowercase sha256 notes
  comparePairs (pairsOf scan.signatures) ⟨scan.duplicates, 0, scan.complete⟩

/-- The documents that the scan reads, `ORDER BY d.id`. -/
def scannedNotes (catalog : Catalog) (vault : Uuid) : List ScannedNote :=
  ((curatedRows catalog.db vault).insertionSort fun first second =>
    first.id.value ≤ second.id.value).filterMap fun row =>
      (catalog.observations row.id).map fun _ => ⟨row.id, row.content⟩

/-- `curation_scan_at`, with its comparison of the contents. -/
def curationScanWithDuplicates (catalog : Catalog) (vault : Uuid) (days : Nat) (observedAt : Int) :
    Result (CurationReport × DuplicateReport) := do
  let report ← curationScanAt catalog vault days observedAt
  return (report, duplicateScan lowercase sha256 (scannedNotes catalog vault))

end Scan

section FirstPass

variable {lowercase sha256 : Text → Text}

variable (lowercase) in
/-- The documents of one normalized text, in the order of the scan. -/
def classOf (notes : List ScannedNote) (text : Text) : List Uuid :=
  (notes.filter fun note => normalized lowercase note.content = text).map ScannedNote.id

/-- What the first pass finds at one more document. -/
def findingAfter (lowercase : Text → Text) (before : List ScannedNote) (note : ScannedNote) :
    List DuplicateCandidate :=
  if normalized lowercase note.content = [] then []
  else
    ((classOf lowercase before (normalized lowercase note.content)).head?.map
      (exactFinding · note.id)).toList

/-- What the first pass finds where nothing bounds it. -/
def exactFindings (lowercase : Text → Text) (before : List ScannedNote) :
    List ScannedNote → List DuplicateCandidate
  | [] => []
  | note :: rest =>
    findingAfter lowercase before note ++ exactFindings lowercase (before ++ [note]) rest

theorem exactFindings_concat (lowercase : Text → Text) (before notes : List ScannedNote)
    (note : ScannedNote) :
    exactFindings lowercase before (notes ++ [note]) =
      exactFindings lowercase before notes ++ findingAfter lowercase (before ++ notes) note := by
  induction notes generalizing before with
  | nil => simp [exactFindings]
  | cons first rest ih =>
    rw [List.cons_append, exactFindings, ih, exactFindings, List.append_assoc, List.append_assoc]
    rfl

theorem classOf_concat (notes : List ScannedNote) (note : ScannedNote) (text : Text) :
    classOf lowercase (notes ++ [note]) text = classOf lowercase notes text ++
      if normalized lowercase note.content = text then [note.id] else [] := by
  unfold classOf
  rw [List.filter_append, List.map_append]
  by_cases same : normalized lowercase note.content = text
  · simp [same]
  · simp [same]

variable (lowercase) in
/-- Whether a document is short enough to be compared by its words, and has enough of them. -/
def Signed (note : ScannedNote) : Prop :=
  (splitWhitespace (normalized lowercase note.content)).length ≤ 2048 ∧
    20 ≤ (splitWhitespace (normalized lowercase note.content)).toFinset.card

instance (note : ScannedNote) : Decidable (Signed lowercase note) :=
  inferInstanceAs (Decidable (_ ∧ _))

variable (lowercase sha256) in
def signatureOf (note : ScannedNote) : Signature :=
  ⟨note.id, sha256 (normalized lowercase note.content),
    (splitWhitespace (normalized lowercase note.content)).toFinset⟩

variable {texts : Set Text} {notes : List ScannedNote} {scan : DuplicateScan} {note : ScannedNote}

theorem exact_sign (sha256 : Text → Text) (scan : DuplicateScan) (id : Uuid) (normal : Text) :
    (scan.sign sha256 id normal).exact = scan.exact ∧
      (scan.sign sha256 id normal).duplicates = scan.duplicates := by
  unfold DuplicateScan.sign
  dsimp only
  split
  · exact ⟨rfl, rfl⟩
  · split <;> exact ⟨rfl, rfl⟩

/-- A document is signed after the first pass has matched its text. -/
theorem signatures_sign (note : ScannedNote) (scan : DuplicateScan) :
    (scan.sign sha256 note.id (normalized lowercase note.content)).signatures = scan.signatures ++
      ([note].filter (Signed lowercase ·)).map (signatureOf lowercase sha256) := by
  unfold DuplicateScan.sign
  by_cases short : (splitWhitespace (normalized lowercase note.content)).length ≤ 2048
  · have whole : (splitWhitespace (normalized lowercase note.content)).take 2049 =
        splitWhitespace (normalized lowercase note.content) := List.take_of_length_le (by omega)
    rw [whole]
    by_cases many : 20 ≤ (splitWhitespace (normalized lowercase note.content)).toFinset.card
    · have signed : Signed lowercase note := ⟨short, many⟩
      simp only [short, many, and_self, if_true, List.filter_cons, signed, decide_true]
      rfl
    · have unsigned : ¬ Signed lowercase note := fun signed => many signed.2
      simp [many, unsigned, Nat.not_lt.mpr short]
  · have unsigned : ¬ Signed lowercase note := fun signed => short signed.1
    simp [short, unsigned, Nat.lt_of_not_le short]

theorem complete_sign (note : ScannedNote) (scan : DuplicateScan)
    (complete : (scan.sign sha256 note.id (normalized lowercase note.content)).complete = true) :
    scan.complete = true ∧
      (splitWhitespace (normalized lowercase note.content)).length ≤ 2048 := by
  unfold DuplicateScan.sign at complete
  dsimp only at complete
  split at complete
  · rename_i short
    exact ⟨complete, short.1⟩
  · split at complete
    · cases complete
    · rename_i short
      exact ⟨complete, Nat.le_of_not_lt short⟩

/-- What matching one text does: nothing is lost but for want of room. -/
theorem matchExact_cases (scan : DuplicateScan) (id : Uuid) (fingerprint : Text) :
    (scan.exact.lookup fingerprint = none ∧ scan.matchExact id fingerprint =
        { scan with exact := scan.exact ++ [(fingerprint, id)] }) ∨
      ∃ first, scan.exact.lookup fingerprint = some first ∧
        (scan.duplicates.length < maxFindings ∧ scan.matchExact id fingerprint =
            { scan with duplicates := scan.duplicates ++ [exactFinding first id] } ∨
          maxFindings ≤ scan.duplicates.length ∧
            scan.matchExact id fingerprint = { scan with complete := false }) := by
  unfold DuplicateScan.matchExact
  cases found : scan.exact.lookup fingerprint with
  | none => exact Or.inl ⟨rfl, rfl⟩
  | some first =>
    right
    refine ⟨first, rfl, ?_⟩
    by_cases room : scan.duplicates.length < maxFindings
    · exact Or.inl ⟨room, if_pos room⟩
    · exact Or.inr ⟨Nat.le_of_not_lt room, if_neg room⟩

/-- What the first pass knows after some documents, of texts that the digest keeps apart. -/
structure Matched (lowercase sha256 : Text → Text) (texts : Set Text) (notes : List ScannedNote)
    (scan : DuplicateScan) : Prop where
  exact : ∀ text ∈ texts, text ≠ [] →
    scan.exact.lookup (sha256 text) = (classOf lowercase notes text).head?
  duplicates : scan.duplicates = (exactFindings lowercase [] notes).take maxFindings
  complete : scan.complete = true → (exactFindings lowercase [] notes).length ≤ maxFindings

theorem head?_classOf_concat {text : Text}
    (other : normalized lowercase note.content = text → (classOf lowercase notes text).head? ≠ none) :
    (classOf lowercase (notes ++ [note]) text).head? = (classOf lowercase notes text).head? := by
  rw [classOf_concat]
  by_cases same : normalized lowercase note.content = text
  · cases held : classOf lowercase notes text with
    | nil =>
      have filled := other same
      rw [held] at filled
      exact absurd rfl filled
    | cons first rest => rfl
  · rw [if_neg same, List.append_nil]

theorem Matched.read (matched : Matched lowercase sha256 texts notes scan)
    (apart : Set.InjOn sha256 texts) (known : normalized lowercase note.content ∈ texts)
    (filled : normalized lowercase note.content ≠ []) :
    Matched lowercase sha256 texts (notes ++ [note])
      (scan.matchExact note.id (sha256 (normalized lowercase note.content))) := by
  obtain ⟨exact, duplicates, complete⟩ := matched
  have found := exact _ known filled
  have findings := exactFindings_concat lowercase [] notes note
  rw [List.nil_append, findingAfter, if_neg filled] at findings
  rcases matchExact_cases scan note.id (sha256 (normalized lowercase note.content)) with
    ⟨absent, done⟩ | ⟨first, present, more⟩
  · rw [done]
    rw [← found, absent] at findings
    rw [Option.map_none, Option.toList_none, List.append_nil] at findings
    refine ⟨?_, by rw [findings]; exact duplicates, by rw [findings]; exact complete⟩
    intro text among blank
    rw [List.lookup_append, exact text among blank]
    by_cases same : normalized lowercase note.content = text
    · subst same
      rw [classOf_concat, if_pos rfl, ← found, absent]
      have none : classOf lowercase notes (normalized lowercase note.content) = [] :=
        List.head?_eq_none_iff.mp (found.symm.trans absent)
      rw [none]
      simp
    · have differs : (sha256 text == sha256 (normalized lowercase note.content)) = false := by
        rw [beq_eq_false_iff_ne]
        exact fun equal => same (apart among known equal).symm
      rw [head?_classOf_concat fun equal => absurd equal same]
      simp [List.lookup_cons, differs]
  · rw [← found, present, Option.map_some, Option.toList_some] at findings
    have kept : ∀ text ∈ texts, text ≠ [] →
        scan.exact.lookup (sha256 text) = (classOf lowercase (notes ++ [note]) text).head? := by
      intro text among blank
      rw [exact text among blank]
      symm
      apply head?_classOf_concat
      rintro rfl
      rw [← found, present]
      exact nofun
    have most : scan.duplicates.length =
        min maxFindings (exactFindings lowercase [] notes).length := by
      rw [duplicates, List.length_take]
    rcases more with ⟨room, done⟩ | ⟨full, done⟩
    · have few : (exactFindings lowercase [] notes).length < maxFindings := by omega
      rw [done]
      refine ⟨kept, ?_, ?_⟩
      · rw [findings, List.take_of_length_le (by rw [List.length_append]; exact few), duplicates,
          List.take_of_length_le few.le]
      · intro _
        rw [findings, List.length_append]
        exact few
    · rw [done]
      refine ⟨kept, ?_, nofun⟩
      rw [findings, List.take_append_of_le_length (by omega)]
      exact duplicates

theorem Matched.skip (matched : Matched lowercase sha256 texts notes scan)
    (blank : normalized lowercase note.content = []) :
    Matched lowercase sha256 texts (notes ++ [note]) scan := by
  have findings := exactFindings_concat lowercase [] notes note
  rw [findingAfter, if_pos blank, List.append_nil] at findings
  refine ⟨?_, by rw [findings]; exact matched.duplicates, by rw [findings]; exact matched.complete⟩
  intro text among filled
  rw [matched.exact text among filled]
  exact (head?_classOf_concat fun same => absurd (same.symm.trans blank) filled).symm

/-- What the first pass leaves to the second. -/
structure Scanned (lowercase sha256 : Text → Text) (texts : Set Text) (notes : List ScannedNote)
    (scan : DuplicateScan) : Prop extends Matched lowercase sha256 texts notes scan where
  signatures : scan.signatures =
    (notes.filter (Signed lowercase ·)).map (signatureOf lowercase sha256)
  short : scan.complete = true → ∀ note ∈ notes,
    (splitWhitespace (normalized lowercase note.content)).length ≤ 2048

theorem Scanned.read (scanned : Scanned lowercase sha256 texts notes scan)
    (apart : Set.InjOn sha256 texts) (known : normalized lowercase note.content ∈ texts) :
    Scanned lowercase sha256 texts (notes ++ [note]) (scan.read lowercase sha256 note) := by
  have unsigned : ∃ between : DuplicateScan,
      scan.read lowercase sha256 note =
          between.sign sha256 note.id (normalized lowercase note.content) ∧
        Matched lowercase sha256 texts (notes ++ [note]) between ∧
        between.signatures = scan.signatures ∧ (between.complete = true → scan.complete = true) := by
    unfold DuplicateScan.read
    dsimp only
    by_cases blank : normalized lowercase note.content = []
    · rw [if_pos blank]
      exact ⟨scan, rfl, scanned.skip blank, rfl, id⟩
    · rw [if_neg blank]
      refine ⟨_, rfl, scanned.toMatched.read apart known blank, ?_⟩
      rcases matchExact_cases scan note.id (sha256 (normalized lowercase note.content)) with
        ⟨_, done⟩ | ⟨_, _, ⟨_, done⟩ | ⟨_, done⟩⟩
      · rw [done]
        exact ⟨rfl, id⟩
      · rw [done]
        exact ⟨rfl, id⟩
      · rw [done]
        exact ⟨rfl, nofun⟩
  obtain ⟨between, done, matched, signatures, complete⟩ := unsigned
  obtain ⟨exact, duplicates⟩ := exact_sign sha256 between note.id
    (normalized lowercase note.content)
  rw [done]
  refine ⟨⟨?_, ?_, ?_⟩, ?_, ?_⟩
  · rw [exact]
    exact matched.exact
  · rw [duplicates]
    exact matched.duplicates
  · exact fun whole => matched.complete (complete_sign note between whole).1
  · rw [signatures_sign, signatures, scanned.signatures, List.filter_append, List.map_append]
  · intro whole other member
    obtain ⟨before, fits⟩ := complete_sign note between whole
    rcases List.mem_append.mp member with earlier | last
    · exact scanned.short (complete before) other earlier
    · rw [List.mem_singleton.mp last]
      exact fits

theorem scanned_firstPass (apart : Set.InjOn sha256 texts) (notes : List ScannedNote)
    (known : ∀ note ∈ notes, normalized lowercase note.content ∈ texts) :
    Scanned lowercase sha256 texts notes (firstPass lowercase sha256 notes) := by
  induction notes using List.reverseRecOn with
  | nil => exact ⟨⟨fun _ _ _ => rfl, rfl, fun _ => Nat.zero_le _⟩, rfl, fun _ => nofun⟩
  | append_singleton notes note ih =>
    have earlier := ih fun other member => known other (List.mem_append_left _ member)
    have last := known note (List.mem_append_right _ (List.mem_singleton_self note))
    rw [firstPass, List.foldl_append]
    exact earlier.read apart last

end FirstPass

section Classes

variable {lowercase : Text → Text} {notes : List ScannedNote}

/-- The findings of a class: its first document beside each of the others. -/
def classFindings : List Uuid → List DuplicateCandidate
  | [] => []
  | first :: rest => rest.map (exactFinding first)

theorem mem_findingAfter {before : List ScannedNote} {note : ScannedNote}
    {finding : DuplicateCandidate} (found : finding ∈ findingAfter lowercase before note) :
    normalized lowercase note.content ≠ [] ∧
      ∃ first, (classOf lowercase before (normalized lowercase note.content)).head? = some first ∧
        finding = exactFinding first note.id := by
  unfold findingAfter at found
  split at found
  · cases found
  · rename_i filled
    refine ⟨filled, ?_⟩
    obtain ⟨first, head, made⟩ := Option.map_eq_some_iff.mp (Option.mem_toList.mp found)
    exact ⟨first, head, made.symm⟩

theorem right_of_exactFindings {finding : DuplicateCandidate}
    (found : finding ∈ exactFindings lowercase [] notes) :
    finding.kind = "normalized_exact" ∧ ∃ note ∈ notes,
      normalized lowercase note.content ≠ [] ∧ finding.right = note.id := by
  induction notes using List.reverseRecOn with
  | nil => cases found
  | append_singleton notes note ih =>
    rw [exactFindings_concat] at found
    rcases List.mem_append.mp found with earlier | last
    · obtain ⟨kind, other, read, filled, right⟩ := ih earlier
      exact ⟨kind, other, List.mem_append_left _ read, filled, right⟩
    · obtain ⟨filled, first, _, rfl⟩ := mem_findingAfter last
      exact ⟨rfl, note, List.mem_append_right _ (List.mem_singleton_self _), filled, rfl⟩

theorem classOf_subset (notes : List ScannedNote) (text : Text) :
    classOf lowercase notes text ⊆ notes.map ScannedNote.id :=
  List.map_subset _ (List.filter_subset_self _)

theorem classFindings_concat (ids : List Uuid) (id : Uuid) :
    classFindings (ids ++ [id]) =
      classFindings ids ++ (ids.head?.map (exactFinding · id)).toList := by
  cases ids with
  | nil => rfl
  | cons first rest =>
    rw [List.cons_append, classFindings, classFindings, List.map_append]
    rfl

/-- The unbounded findings about a class are those of its first document beside the others. -/
theorem filter_exactFindings (distinct : (notes.map ScannedNote.id).Nodup) {text : Text}
    (filled : text ≠ []) :
    (exactFindings lowercase [] notes).filter
        (fun finding => finding.right ∈ classOf lowercase notes text) =
      classFindings (classOf lowercase notes text) := by
  induction notes using List.reverseRecOn with
  | nil => rfl
  | append_singleton notes note ih =>
    rw [List.map_append, List.nodup_append] at distinct
    obtain ⟨before, _, fresh⟩ := distinct
    have absent : ∀ finding ∈ exactFindings lowercase [] notes, finding.right ≠ note.id := by
      intro finding found
      obtain ⟨_, other, read, _, right⟩ := right_of_exactFindings found
      rw [right]
      exact fresh _ (List.mem_map_of_mem read) _ (List.mem_singleton_self note.id)
    have unseen : note.id ∉ classOf lowercase notes text := by
      intro member
      exact fresh _ (classOf_subset notes text member) _ (List.mem_singleton_self note.id) rfl
    have earlier : (exactFindings lowercase [] notes).filter
        (fun finding => finding.right ∈ classOf lowercase (notes ++ [note]) text) =
          classFindings (classOf lowercase notes text) := by
      rw [← ih before]
      apply List.filter_congr
      intro finding found
      rw [classOf_concat]
      by_cases same : normalized lowercase note.content = text
      · simp [same, absent finding found]
      · simp [same]
    rw [exactFindings_concat, List.filter_append, earlier, List.nil_append]
    by_cases same : normalized lowercase note.content = text
    · have kept : (findingAfter lowercase notes note).filter
          (fun finding => finding.right ∈ classOf lowercase (notes ++ [note]) text) =
            findingAfter lowercase notes note := by
        apply List.filter_eq_self.mpr
        intro finding found
        obtain ⟨_, first, _, rfl⟩ := mem_findingAfter found
        simp [classOf_concat, same, exactFinding]
      rw [kept, classOf_concat, if_pos same, classFindings_concat, findingAfter,
        if_neg (same ▸ filled), same]
    · have dropped : (findingAfter lowercase notes note).filter
          (fun finding => finding.right ∈ classOf lowercase (notes ++ [note]) text) = [] := by
        apply List.filter_eq_nil_iff.mpr
        intro finding found
        obtain ⟨_, first, _, rfl⟩ := mem_findingAfter found
        simp [classOf_concat, same, exactFinding, unseen]
      rw [dropped, List.append_nil, classOf_concat, if_neg same, List.append_nil]

end Classes

section SecondPass

/-- Two signatures of different texts that share enough words. -/
def Alike (pair : Signature × Signature) : Prop :=
  pair.1.fingerprint ≠ pair.2.fingerprint ∧ nearest (17 / 20) ≤ score pair.1 pair.2

instance (pair : Signature × Signature) : Decidable (Alike pair) :=
  inferInstanceAs (Decidable (_ ∧ _))

def nearFinding (pair : Signature × Signature) : DuplicateCandidate :=
  ⟨pair.1.id, pair.2.id, "near", score pair.1 pair.2⟩

theorem compare_eq (report : DuplicateReport) (pair : Signature × Signature) :
    report.compare pair =
      { report with
        nearPairsExamined := report.nearPairsExamined + 1
        duplicates := report.duplicates ++
          ([pair].filter (Alike ·)).map nearFinding } := by
  unfold DuplicateReport.compare
  dsimp only
  by_cases same : pair.1.fingerprint = pair.2.fingerprint
  · have unlike : ¬ Alike pair := fun alike => alike.1 same
    simp [same, unlike]
  · by_cases close : nearest (17 / 20) ≤ score pair.1 pair.2
    · have alike : Alike pair := ⟨same, close⟩
      simp [same, close, alike, nearFinding]
    · have unlike : ¬ Alike pair := fun alike => close alike.2
      simp [same, close, unlike]

/-- What the second pass has done: it compared the first pairs, all of them if it is complete, and
stayed within both caps. -/
structure Compared (pairs : List (Signature × Signature)) (before after : DuplicateReport)
    (examined : List (Signature × Signature)) : Prop where
  first : examined <+: pairs
  duplicates : after.duplicates = before.duplicates ++ (examined.filter (Alike ·)).map nearFinding
  complete : after.duplicateScanComplete = true →
    before.duplicateScanComplete = true ∧ examined = pairs
  findings : before.duplicates.length ≤ maxFindings → after.duplicates.length ≤ maxFindings
  count : before.nearPairsExamined ≤ maxPairs → after.nearPairsExamined ≤ maxPairs

theorem compared_comparePairs (pairs : List (Signature × Signature)) (report : DuplicateReport) :
    ∃ examined, Compared pairs report (comparePairs pairs report) examined := by
  induction pairs generalizing report with
  | nil =>
    exact ⟨[], List.nil_prefix, (List.append_nil _).symm, fun whole => ⟨whole, rfl⟩, id, id⟩
  | cons pair rest ih =>
    rw [comparePairs]
    by_cases capped : maxPairs ≤ report.nearPairsExamined ∨ maxFindings ≤ report.duplicates.length
    · rw [if_pos capped]
      exact ⟨[], List.nil_prefix, (List.append_nil _).symm, nofun, id, id⟩
    · rw [if_neg capped]
      obtain ⟨examined, first, duplicates, complete, findings, count⟩ := ih (report.compare pair)
      rw [not_or, Nat.not_le, Nat.not_le] at capped
      rw [compare_eq] at duplicates complete findings count
      refine ⟨pair :: examined, List.cons_prefix_cons.mpr ⟨rfl, first⟩, ?_, ?_, ?_, ?_⟩
      · rw [compare_eq, duplicates, List.append_assoc, ← List.map_append, ← List.filter_append]
        rfl
      · intro whole
        rw [compare_eq] at whole
        obtain ⟨before, all⟩ := complete whole
        exact ⟨before, by rw [all]⟩
      · intro _
        rw [compare_eq]
        apply findings
        have one : (([pair].filter (Alike ·)).map nearFinding).length ≤ 1 := by
          rw [List.length_map]
          exact List.length_filter_le _ _
        rw [List.length_append]
        omega
      · intro _
        rw [compare_eq]
        exact count capped.1

theorem mem_pairsOf {signatures : List Signature} {pair : Signature × Signature}
    (member : pair ∈ pairsOf signatures) : pair.1 ∈ signatures ∧ pair.2 ∈ signatures := by
  induction signatures with
  | nil => cases member
  | cons first rest ih =>
    rcases List.mem_append.mp member with here | later
    · obtain ⟨second, among, rfl⟩ := List.mem_map.mp here
      exact ⟨List.mem_cons_self, List.mem_cons_of_mem _ among⟩
    · exact ⟨List.mem_cons_of_mem _ (ih later).1, List.mem_cons_of_mem _ (ih later).2⟩

/-- Every two members of a list are a pair, one way round. -/
theorem pair_mem_pairsOf {signatures : List Signature} {first second : Signature}
    (ordered : [first, second].Sublist signatures) : (first, second) ∈ pairsOf signatures := by
  induction signatures with
  | nil => cases ordered
  | cons head rest ih =>
    cases ordered with
    | cons _ later => exact List.mem_append_right _ (ih later)
    | cons_cons _ later =>
      exact List.mem_append_left _
        (List.mem_map.mpr ⟨second, List.singleton_sublist.mp later, rfl⟩)

end SecondPass

end OHHive.Vault
