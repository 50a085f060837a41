import OHHive.Vault.Duplicates

/-! What a duplicate scan's findings say about the documents it read: each is right, and a scan
that is marked complete has left none out. -/

namespace OHHive.Vault

open Foundation
open Coder (byteLength)
open Foundation.Binary64 (nearest nearest_ratio_le_iff)

section Readings

variable {catalog : Catalog} {vault : Uuid}

/-- The scan reads its documents in the order of their identities, each one once. -/
theorem scannedNotes_ordered (catalog : Catalog) (vault : Uuid) :
    (scannedNotes catalog vault).Pairwise fun first second => first.id.value < second.id.value := by
  have distinct : (curatedRows catalog.db vault).Pairwise fun first second => first.id ≠ second.id :=
    (catalog.db.documents.distinct.imp fun free same => free (Or.inl same)).filter _
  have trans : IsTrans DocumentRow fun first second => first.id.value ≤ second.id.value :=
    ⟨fun _ _ _ => Nat.le_trans⟩
  have total : Std.Total fun first second : DocumentRow => first.id.value ≤ second.id.value :=
    ⟨fun _ _ => Nat.le_total _ _⟩
  have sorted := List.pairwise_insertionSort
    (fun first second : DocumentRow => first.id.value ≤ second.id.value)
    (curatedRows catalog.db vault)
  have apart := ((List.perm_insertionSort
    (fun first second : DocumentRow => first.id.value ≤ second.id.value)
    (curatedRows catalog.db vault)).pairwise_iff fun differs => Ne.symm differs).mpr distinct
  apply List.Pairwise.filterMap _ _ (sorted.and apart)
  intro first second ⟨order, differs⟩ note read other listed
  obtain ⟨_, _, rfl⟩ := Option.map_eq_some_iff.mp read
  obtain ⟨_, _, rfl⟩ := Option.map_eq_some_iff.mp listed
  refine lt_of_le_of_ne order fun same => differs ?_
  cases firstId : first.id
  cases secondId : second.id
  rw [firstId, secondId] at same
  exact congrArg Uuid.mk same

end Readings

section Words

variable (lowercase : Text → Text)

/-- The words of a document's normalized text. -/
def wordsOf (note : ScannedNote) : List Text := splitWhitespace (normalized lowercase note.content)

/-- Two documents of different texts whose distinct words overlap by seventeen twentieths. -/
structure Near (first second : ScannedNote) : Prop where
  texts : normalized lowercase first.content ≠ normalized lowercase second.content
  overlap : 17 * ((wordsOf lowercase first).toFinset ∪ (wordsOf lowercase second).toFinset).card ≤
    20 * ((wordsOf lowercase first).toFinset ∩ (wordsOf lowercase second).toFinset).card

variable {lowercase} {sha256 : Text → Text} {first second : ScannedNote}

theorem card_wordsOf_le (signed : Signed lowercase first) :
    (wordsOf lowercase first).toFinset.card ≤ 2048 :=
  (List.toFinset_card_le _).trans signed.1

/-- The comparison of two doubles decides whether the overlap is large enough. -/
theorem score_iff (signed : Signed lowercase first) (other : Signed lowercase second) :
    nearest (17 / 20) ≤
        score (signatureOf lowercase sha256 first) (signatureOf lowercase sha256 second) ↔
      17 * ((wordsOf lowercase first).toFinset ∪ (wordsOf lowercase second).toFinset).card ≤
        20 * ((wordsOf lowercase first).toFinset ∩ (wordsOf lowercase second).toFinset).card := by
  have scored : score (signatureOf lowercase sha256 first) (signatureOf lowercase sha256 second) =
      nearest (((wordsOf lowercase first).toFinset ∩ (wordsOf lowercase second).toFinset).card /
        ((wordsOf lowercase first).toFinset ∪ (wordsOf lowercase second).toFinset).card) := by
    rw [Finset.card_union]
    rfl
  rw [scored]
  have few := card_wordsOf_le signed
  have fewer := card_wordsOf_le other
  have many : 20 ≤ (wordsOf lowercase first).toFinset.card := signed.2
  generalize (wordsOf lowercase first).toFinset = left at *
  generalize (wordsOf lowercase second).toFinset = right at *
  have most : (left ∪ right).card ≤ left.card + right.card := Finset.card_union_le left right
  have least : left.card ≤ (left ∪ right).card := Finset.card_le_card Finset.subset_union_left
  have part : (left ∩ right).card ≤ left.card := Finset.card_le_card Finset.inter_subset_left
  have ratio := nearest_ratio_le_iff 17 20 (left ∩ right).card (left ∪ right).card (by decide)
    (by omega) (by decide) (by omega) (by omega)
  rw [Nat.mul_comm (left ∩ right).card 20] at ratio
  exact_mod_cast ratio

end Words

section Findings

/-- The exact findings about a class of documents. -/
def exactIn (report : DuplicateReport) (ids : List Uuid) : List DuplicateCandidate :=
  report.duplicates.filter fun finding =>
    finding.kind = "normalized_exact" ∧ finding.right ∈ ids

/-- What a scan's findings say about the documents it read. A class's exact findings are all there
unless the report is full, and a report that has left out any is not marked complete. -/
structure SoundFindings (lowercase : Text → Text) (notes : List ScannedNote)
    (report : DuplicateReport) : Prop where
  kinds : ∀ finding ∈ report.duplicates,
    finding.kind = "normalized_exact" ∨ finding.kind = "near"
  exact : ∀ finding ∈ report.duplicates, finding.kind = "normalized_exact" → ∃ text ≠ [],
    finding ∈ exactIn report (classOf lowercase notes text)
  smallest : ∀ text ≠ [], ∀ finding ∈ exactIn report (classOf lowercase notes text),
    finding.left ≠ finding.right ∧ finding.left ∈ classOf lowercase notes text ∧
      ∀ id ∈ classOf lowercase notes text, finding.left.value ≤ id.value
  once : ∀ text ≠ [], ((exactIn report (classOf lowercase notes text)).map
    DuplicateCandidate.right).Nodup
  counted : ∀ text ≠ [],
    report.duplicates.length < maxFindings ∨ report.duplicateScanComplete = true →
      (exactIn report (classOf lowercase notes text)).length =
        (classOf lowercase notes text).length - 1
  near : ∀ finding ∈ report.duplicates, finding.kind = "near" → ∃ first ∈ notes, ∃ second ∈ notes,
    finding.left = first.id ∧ finding.right = second.id ∧ Near lowercase first second
  capped : report.duplicates.length ≤ maxFindings ∧ report.nearPairsExamined ≤ maxPairs
  complete : report.duplicateScanComplete = true → ∀ first ∈ notes, ∀ second ∈ notes,
    first.id.value < second.id.value → Signed lowercase first → Signed lowercase second →
      Near lowercase first second → ∃ finding ∈ report.duplicates, finding.kind = "near" ∧
        finding.left = first.id ∧ finding.right = second.id

variable {lowercase sha256 : Text → Text} {notes : List ScannedNote} {text : Text}

theorem classOf_ordered
    (ordered : notes.Pairwise fun first second => first.id.value < second.id.value) (text : Text) :
    (classOf lowercase notes text).Pairwise fun first second => first.value < second.value :=
  List.Pairwise.map _ (fun _ _ before => before) (ordered.filter _)

theorem length_classFindings (ids : List Uuid) : (classFindings ids).length = ids.length - 1 := by
  cases ids with
  | nil => rfl
  | cons first rest =>
    rw [classFindings, List.length_map]
    rfl

/-- A class in order has its smallest document on the left of each finding. -/
theorem smallest_of_classFindings {ids : List Uuid} {finding : DuplicateCandidate}
    (ordered : ids.Pairwise fun first second => first.value < second.value)
    (found : finding ∈ classFindings ids) :
    finding.left ≠ finding.right ∧ finding.left ∈ ids ∧ ∀ id ∈ ids, finding.left.value ≤ id.value := by
  cases ids with
  | nil => cases found
  | cons first rest =>
    obtain ⟨other, among, rfl⟩ := List.mem_map.mp found
    obtain ⟨before, _⟩ := List.pairwise_cons.mp ordered
    refine ⟨fun same => ?_, List.mem_cons_self, fun id member => ?_⟩
    · have less := before other among
      have equal : first = other := same
      rw [equal] at less
      exact Nat.lt_irrefl _ less
    · rcases List.mem_cons.mp member with rfl | later
      · exact Nat.le_refl _
      · exact (before id later).le

theorem rights_nodup {ids : List Uuid} (distinct : ids.Nodup) :
    ((classFindings ids).map DuplicateCandidate.right).Nodup := by
  cases ids with
  | nil => exact List.nodup_nil
  | cons first rest =>
    have rights : (classFindings (first :: rest)).map DuplicateCandidate.right = rest := by
      rw [classFindings, List.map_map]
      exact List.map_id'' (fun _ => rfl) rest
    rw [rights]
    exact (List.nodup_cons.mp distinct).2

/-- Two members of a list in order stand in it one after the other. -/
theorem pair_sublist {α : Type} (precedes : α → α → Prop) (irrefl : ∀ member, ¬ precedes member member)
    (trans : ∀ {first second}, precedes first second → ¬ precedes second first) {list : List α}
    (ordered : list.Pairwise precedes) {first second : α} (among : first ∈ list)
    (also : second ∈ list) (before : precedes first second) : [first, second].Sublist list := by
  induction list with
  | nil => cases among
  | cons head rest ih =>
    obtain ⟨least, later⟩ := List.pairwise_cons.mp ordered
    rcases List.mem_cons.mp also with rfl | behind
    · rcases List.mem_cons.mp among with rfl | after
      · exact absurd before (irrefl _)
      · exact absurd (least first after) (trans before)
    · rcases List.mem_cons.mp among with rfl | after
      · exact List.Sublist.cons_cons _ (List.singleton_sublist.mpr behind)
      · exact List.Sublist.cons _ (ih later after behind)

/-- The exact part and the near part of a report's findings. -/
structure Parts (lowercase sha256 : Text → Text) (notes : List ScannedNote)
    (report : DuplicateReport) (examined : List (Signature × Signature)) : Prop where
  duplicates : report.duplicates = (exactFindings lowercase [] notes).take maxFindings ++
    (examined.filter (Alike ·)).map nearFinding
  among : ∀ pair ∈ examined, (∃ first ∈ notes, Signed lowercase first ∧
      pair.1 = signatureOf lowercase sha256 first) ∧
    ∃ second ∈ notes, Signed lowercase second ∧ pair.2 = signatureOf lowercase sha256 second
  complete : report.duplicateScanComplete = true →
    (exactFindings lowercase [] notes).length ≤ maxFindings ∧
      examined = pairsOf ((notes.filter (Signed lowercase ·)).map (signatureOf lowercase sha256))

theorem parts_duplicateScan (lowercase : Text → Text) {texts : Set Text} (apart : Set.InjOn sha256 texts)
    (known : ∀ note ∈ notes, normalized lowercase note.content ∈ texts) :
    (∃ examined, Parts lowercase sha256 notes (duplicateScan lowercase sha256 notes) examined) ∧
      (duplicateScan lowercase sha256 notes).duplicates.length ≤ maxFindings ∧
      (duplicateScan lowercase sha256 notes).nearPairsExamined ≤ maxPairs := by
  have scanned := scanned_firstPass apart notes known
  obtain ⟨examined, compared⟩ := compared_comparePairs
    (pairsOf (firstPass lowercase sha256 notes).signatures)
    ⟨(firstPass lowercase sha256 notes).duplicates, 0, (firstPass lowercase sha256 notes).complete⟩
  have few : (firstPass lowercase sha256 notes).duplicates.length ≤ maxFindings := by
    rw [scanned.duplicates]
    exact List.length_take_le _ _
  have signed : ∀ signature ∈ (firstPass lowercase sha256 notes).signatures,
      ∃ note ∈ notes, Signed lowercase note ∧ signature = signatureOf lowercase sha256 note := by
    intro signature member
    rw [scanned.signatures] at member
    obtain ⟨note, kept, made⟩ := List.mem_map.mp member
    obtain ⟨read, short⟩ := List.mem_filter.mp kept
    exact ⟨note, read, of_decide_eq_true short, made.symm⟩
  refine ⟨⟨examined, ?_, ?_, ?_⟩, compared.findings few, compared.count (Nat.zero_le _)⟩
  · rw [← scanned.duplicates]
    exact compared.duplicates
  · intro pair member
    obtain ⟨first, second⟩ := mem_pairsOf (compared.first.subset member)
    exact ⟨signed _ first, signed _ second⟩
  · intro whole
    obtain ⟨before, all⟩ := compared.complete whole
    rw [← scanned.signatures]
    exact ⟨scanned.complete before, all⟩

variable {report : DuplicateReport} {examined : List (Signature × Signature)}

theorem Parts.cases (parts : Parts lowercase sha256 notes report examined)
    {finding : DuplicateCandidate} (found : finding ∈ report.duplicates) :
    finding ∈ exactFindings lowercase [] notes ∧ finding.kind = "normalized_exact" ∨
      ∃ pair ∈ examined, Alike pair ∧ finding = nearFinding pair := by
  rw [parts.duplicates] at found
  rcases List.mem_append.mp found with exact | near
  · have member := List.mem_of_mem_take exact
    exact Or.inl ⟨member, (right_of_exactFindings member).1⟩
  · obtain ⟨pair, kept, made⟩ := List.mem_map.mp near
    obtain ⟨member, alike⟩ := List.mem_filter.mp kept
    exact Or.inr ⟨pair, member, of_decide_eq_true alike, made.symm⟩

/-- The exact findings about a class are the first of those that it gives. -/
theorem Parts.exactIn_prefix (parts : Parts lowercase sha256 notes report examined)
    (distinct : (notes.map ScannedNote.id).Nodup) (filled : text ≠ []) :
    exactIn report (classOf lowercase notes text) <+:
        classFindings (classOf lowercase notes text) ∧
      ((exactFindings lowercase [] notes).length ≤ maxFindings →
        exactIn report (classOf lowercase notes text) =
          classFindings (classOf lowercase notes text)) := by
  have nears : ((examined.filter (Alike ·)).map nearFinding).filter (fun finding =>
      finding.kind = "normalized_exact" ∧ finding.right ∈ classOf lowercase notes text) = [] := by
    apply List.filter_eq_nil_iff.mpr
    intro finding member
    obtain ⟨pair, _, rfl⟩ := List.mem_map.mp member
    simp [nearFinding]
  have exacts : exactIn report (classOf lowercase notes text) =
      ((exactFindings lowercase [] notes).take maxFindings).filter
        fun finding => finding.right ∈ classOf lowercase notes text := by
    rw [exactIn, parts.duplicates, List.filter_append, nears, List.append_nil]
    apply List.filter_congr
    intro finding member
    simp [(right_of_exactFindings (List.mem_of_mem_take member)).1]
  rw [exacts, ← filter_exactFindings distinct filled]
  refine ⟨(List.take_prefix _ _).filter _, fun few => ?_⟩
  rw [List.take_of_length_le few]

/-- The findings of a scan are right, each class's are counted, and no pair is left out of a
complete one. -/
theorem soundFindings_duplicateScan
    (ordered : notes.Pairwise fun first second => first.id.value < second.id.value)
    (apart : Set.InjOn sha256 { text | ∃ note ∈ notes, normalized lowercase note.content = text }) :
    SoundFindings lowercase notes (duplicateScan lowercase sha256 notes) := by
  obtain ⟨⟨examined, parts⟩, capped⟩ :=
    parts_duplicateScan lowercase apart fun note member => ⟨note, member, rfl⟩
  generalize duplicateScan lowercase sha256 notes = report at parts capped
  have distinct : (notes.map ScannedNote.id).Nodup := by
    apply List.Pairwise.map _ _ ordered
    rintro first second before same
    rw [same] at before
    exact Nat.lt_irrefl _ before
  constructor
  case kinds =>
    intro finding found
    rcases parts.cases found with ⟨_, kind⟩ | ⟨pair, _, _, rfl⟩
    · exact Or.inl kind
    · exact Or.inr rfl
  case exact =>
    intro finding found kind
    rcases parts.cases found with ⟨exact, _⟩ | ⟨pair, _, _, rfl⟩
    · obtain ⟨_, note, read, filled, right⟩ := right_of_exactFindings exact
      refine ⟨_, filled, List.mem_filter.mpr ⟨found, decide_eq_true ⟨kind, ?_⟩⟩⟩
      rw [right]
      exact List.mem_map_of_mem (List.mem_filter.mpr ⟨read, decide_eq_true rfl⟩)
    · have other : "near" = "normalized_exact" := kind
      exact absurd other (by decide)
  case smallest =>
    intro text filled finding found
    exact smallest_of_classFindings (classOf_ordered ordered text)
      ((parts.exactIn_prefix distinct filled).1.subset found)
  case once =>
    intro text filled
    have rights : ((classFindings (classOf lowercase notes text)).map
        DuplicateCandidate.right).Nodup :=
      rights_nodup ((List.filter_sublist.map ScannedNote.id).nodup distinct)
    exact (((parts.exactIn_prefix distinct filled).1.sublist).map _).nodup rights
  case counted =>
    intro text filled whole
    have few : (exactFindings lowercase [] notes).length ≤ maxFindings := by
      rcases whole with room | complete
      · rw [parts.duplicates, List.length_append, List.length_take] at room
        omega
      · exact (parts.complete complete).1
    rw [(parts.exactIn_prefix distinct filled).2 few, length_classFindings]
  case near =>
    intro finding found kind
    rcases parts.cases found with ⟨_, other⟩ | ⟨pair, member, alike, rfl⟩
    · exact absurd (other.symm.trans kind) (by decide)
    · obtain ⟨⟨first, read, signed, left⟩, second, also, short, right⟩ := parts.among pair member
      obtain ⟨texts, close⟩ := alike
      rw [left, right] at texts close
      refine ⟨first, read, second, also, by rw [nearFinding, left]; rfl,
        by rw [nearFinding, right]; rfl, fun same => texts ?_, (score_iff signed short).mp close⟩
      exact congrArg sha256 same
  case capped => exact capped
  case complete =>
    intro whole first read second also before signed short near
    have pairs := (parts.complete whole).2
    have listed : [first, second].Sublist notes :=
      pair_sublist (fun first second : ScannedNote => first.id.value < second.id.value)
        (fun _ => Nat.lt_irrefl _) Nat.lt_asymm ordered read also before
    have kept := (listed.filter (Signed lowercase ·)).map (signatureOf lowercase sha256)
    have both : [first, second].filter (Signed lowercase ·) = [first, second] := by
      simp [signed, short]
    rw [both] at kept
    have paired : (signatureOf lowercase sha256 first, signatureOf lowercase sha256 second) ∈
        examined := by
      rw [pairs]
      exact pair_mem_pairsOf kept
    have alike : Alike (signatureOf lowercase sha256 first, signatureOf lowercase sha256 second) :=
      ⟨fun same => near.texts (apart ⟨first, read, rfl⟩ ⟨second, also, rfl⟩ same),
        (score_iff signed short).mpr near.overlap⟩
    refine ⟨nearFinding (signatureOf lowercase sha256 first, signatureOf lowercase sha256 second),
      ?_, rfl, rfl, rfl⟩
    rw [parts.duplicates]
    exact List.mem_append_right _ (List.mem_map_of_mem
      (List.mem_filter.mpr ⟨paired, decide_eq_true alike⟩))

/-- A scan that answers reports findings that are right, where no two of the texts that it read
have the same digest. -/
theorem curationScan_duplicates (lowercase sha256 : Text → Text) (catalog : Catalog) (vault : Uuid)
    (days : Nat) (observedAt : Int) (report : CurationReport) (found : DuplicateReport)
    (apart : Set.InjOn sha256
      { text | ∃ note ∈ scannedNotes catalog vault, normalized lowercase note.content = text })
    (scanned : curationScanWithDuplicates lowercase sha256 catalog vault days observedAt =
      .ok (report, found)) :
    SoundFindings lowercase (scannedNotes catalog vault) found := by
  obtain ⟨_, _, made⟩ := bind_eq_ok_iff.mp scanned
  obtain ⟨_, rfl⟩ := Prod.mk.inj (pure_eq_ok_iff.mp made)
  exact soundFindings_duplicateScan (scannedNotes_ordered catalog vault) apart

end Findings

section Copies

/-- A document of a vault that holds the same text many times. -/
def copyRow (number : Nat) : DocumentRow :=
  ⟨⟨⟨number⟩, 1, List.replicate number 'a' ++ ".md".toList, [], [], "Same text".toList⟩, none⟩

theorem copyRow_apart {first second : Nat} (differs : first ≠ second) :
    ¬ (copyRow first).Clash (copyRow second) := by
  rintro (same | ⟨_, path⟩)
  · exact differs (congrArg Uuid.value same)
  · have lengths := congrArg List.length path
    simp only [copyRow, List.length_append, List.length_replicate] at lengths
    omega

/-- A ready vault with so many copies of one text. -/
def copies (count : Nat) : Catalog where
  db := { VaultDb.empty with
    vaults := ⟨[⟨1, "Notes", .ready⟩], List.pairwise_singleton _ _⟩
    documents := ⟨(List.range count).map copyRow,
      List.pairwise_map.mpr (List.nodup_range.imp copyRow_apart)⟩ }
  nodes := []
  readers := []
  observations := fun _ => some ⟨1, [], [], 0, 0, true⟩

theorem curatedRows_copies (count : Nat) :
    curatedRows (copies count).db 1 = (List.range count).map copyRow := by
  apply List.filter_eq_self.mpr
  intro row member
  obtain ⟨number, _, rfl⟩ := List.mem_map.mp member
  rfl

theorem scannedNotes_copies (count : Nat) :
    scannedNotes (copies count) 1 =
      (List.range count).map fun number => ⟨⟨number⟩, "Same text".toList⟩ := by
  have sorted : ((List.range count).map copyRow).Pairwise
      fun first second => first.id.value ≤ second.id.value :=
    List.pairwise_map.mpr (List.pairwise_lt_range.imp Nat.le_of_lt)
  rw [scannedNotes, curatedRows_copies, sorted.insertionSort_eq, List.filterMap_map]
  exact congrFun List.filterMap_eq_map' _

/-- The scan answers for up to ten thousand copies. -/
theorem scan_copies (lowercase sha256 : Text → Text) {count : Nat} (few : count ≤ 10000) :
    ∃ report, curationScanWithDuplicates lowercase sha256 (copies count) 1 30 0 =
      .ok (report, duplicateScan lowercase sha256 (scannedNotes (copies count) 1)) := by
  have bytes : (((List.range count).map copyRow).map fun row => (byteLength row.content : Int)) =
      List.replicate count 9 := by
    have each : (List.range count).map (fun _ => (9 : Int)) = List.replicate count 9 := by
      rw [List.map_const', List.length_range]
    rw [List.map_map]
    exact each
  have small : ¬ (maxDocuments < ((List.range count).map copyRow).length ∨
      maxBytes < (((List.range count).map copyRow).map fun row =>
        (byteLength row.content : Int)).sum) := by
    rw [bytes, List.length_map, List.length_range, List.sum_replicate, nsmul_eq_mul]
    simp only [maxDocuments, maxBytes, not_or, not_lt]
    omega
  unfold curationScanWithDuplicates curationScanAt
  rw [curatedRows_copies]
  simp only [small]
  exact ⟨_, rfl⟩

theorem apart_copies (lowercase sha256 : Text → Text) (count : Nat) :
    Set.InjOn sha256 { text | ∃ note ∈ scannedNotes (copies count) 1,
      normalized lowercase note.content = text } := by
  have same : ∀ note ∈ scannedNotes (copies count) 1, note.content = "Same text".toList := by
    intro note member
    rw [scannedNotes_copies] at member
    obtain ⟨number, _, rfl⟩ := List.mem_map.mp member
    rfl
  rintro _ ⟨first, read, rfl⟩ _ ⟨second, also, rfl⟩ _
  rw [same first read, same second also]

theorem length_classOf_copies (lowercase : Text → Text) (count : Nat) :
    (classOf lowercase (scannedNotes (copies count) 1)
      (normalized lowercase "Same text".toList)).length = count := by
  rw [classOf, scannedNotes_copies, List.filter_eq_self.mpr, List.length_map, List.length_map,
    List.length_range]
  intro note member
  obtain ⟨number, _, rfl⟩ := List.mem_map.mp member
  exact decide_eq_true rfl

theorem three_copies_found :
    ∃ report, curationScanWithDuplicates (List.map Char.toLower) digest (copies 3) 1 30 0 =
        .ok (report, duplicateScan (List.map Char.toLower) digest (scannedNotes (copies 3) 1)) ∧
      SoundFindings (List.map Char.toLower) (scannedNotes (copies 3) 1)
        (duplicateScan (List.map Char.toLower) digest (scannedNotes (copies 3) 1)) := by
  have three : 3 ≤ 10000 := by decide
  obtain ⟨report, scanned⟩ := scan_copies (List.map Char.toLower) digest three
  exact ⟨report, scanned, curationScan_duplicates _ _ _ _ _ _ _ _ (apart_copies _ _ 3) scanned⟩

/-- Of a thousand and two copies some findings are left out: the report holds a thousand. -/
theorem copies_left_out :
    ¬ ∀ (lowercase sha256 : Text → Text) (catalog : Catalog) (vault : Uuid) (days : Nat)
        (observedAt : Int) (report : CurationReport) (found : DuplicateReport),
      Set.InjOn sha256
        { text | ∃ note ∈ scannedNotes catalog vault, normalized lowercase note.content = text } →
      curationScanWithDuplicates lowercase sha256 catalog vault days observedAt =
        .ok (report, found) →
      ∀ text ≠ [], (exactIn found (classOf lowercase (scannedNotes catalog vault) text)).length =
        (classOf lowercase (scannedNotes catalog vault) text).length - 1 := by
  intro counted
  have many : 1002 ≤ 10000 := by decide
  obtain ⟨report, scanned⟩ := scan_copies (List.map Char.toLower) digest many
  have filled : normalized (List.map Char.toLower) "Same text".toList ≠ [] := by decide +kernel
  have all := counted _ _ _ _ _ _ _ _ (apart_copies _ _ 1002) scanned _ filled
  have capped := (parts_duplicateScan (List.map Char.toLower) (apart_copies _ digest 1002)
    fun note member => ⟨note, member, rfl⟩).2.1
  have part := List.length_filter_le
    (fun finding : DuplicateCandidate => decide (finding.kind = "normalized_exact" ∧
      finding.right ∈ classOf (List.map Char.toLower) (scannedNotes (copies 1002) 1)
        (normalized (List.map Char.toLower) "Same text".toList)))
    (duplicateScan (List.map Char.toLower) digest (scannedNotes (copies 1002) 1)).duplicates
  rw [length_classOf_copies] at all
  have most := all.symm.le.trans (part.trans capped)
  exact absurd most (by decide)

end Copies

end OHHive.Vault
