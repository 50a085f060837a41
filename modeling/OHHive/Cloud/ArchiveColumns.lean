import OHHive.Foundation.Columns
import OHHive.Foundation.Fallible
import OHHive.Foundation.Json
import OHHive.Foundation.Value

/-! The archive of ledger rows as a columnar file: one writer for text columns, one for integers,
both of them a loop that keeps values and definition levels in two lists. -/

namespace OHHive.Cloud

open Foundation

section Schema

inductive Physical where
  | byteArray
  | int64
deriving DecidableEq

/-- A column of the schema. -/
structure Field where
  name : String
  physical : Physical
  nullable : Bool
deriving DecidableEq

/-- `SCHEMA`. -/
def schema : List Field :=
  [⟨"id", .byteArray, false⟩, ⟨"txn_id", .byteArray, false⟩, ⟨"account_id", .byteArray, false⟩,
    ⟨"entry_type", .byteArray, false⟩, ⟨"direction", .byteArray, false⟩,
    ⟨"amount_honey", .byteArray, false⟩, ⟨"rate_id", .byteArray, true⟩,
    ⟨"tokens_in", .int64, true⟩, ⟨"tokens_out", .int64, true⟩,
    ⟨"compute_seconds", .byteArray, true⟩, ⟨"card_id", .byteArray, true⟩,
    ⟨"node_id", .byteArray, true⟩, ⟨"memo", .byteArray, false⟩,
    ⟨"created_at", .byteArray, false⟩, ⟨"source", .byteArray, false⟩]

inductive ColumnData where
  | bytes (column : Column Text)
  | int64 (column : Column Int)
deriving DecidableEq

/-- What one row holds in one column. -/
inductive Cell where
  | text (value : Text)
  | int (value : Int)
deriving DecidableEq

def ColumnData.cells : ColumnData → Option (List (Option Cell))
  | .bytes column => column.cells.map (List.map (Option.map .text))
  | .int64 column => column.cells.map (List.map (Option.map .int))

def ColumnData.physical : ColumnData → Physical
  | .bytes _ => .byteArray
  | .int64 _ => .int64

def ColumnData.nullable : ColumnData → Bool
  | .bytes column => column.levels.isSome
  | .int64 column => column.levels.isSome

/-- A column as a field has it, with as many cells as there are rows. -/
structure Accords (rows : Nat) (field : Field) (column : ColumnData) : Prop where
  physical : column.physical = field.physical
  nullable : column.nullable = field.nullable
  cells : ∃ cells, column.cells = some cells ∧ cells.length = rows

/-- What the archive uses of the columnar format: the writing of whole row groups, and their
reading. -/
structure Parquet where
  File : Type
  write : List Field → List ColumnData → Except String File
  read : File → Option (List Field × List ColumnData)
  writes : ∀ rows fields columns, List.Forall₂ (Accords rows) fields columns →
    ∃ file, write fields columns = .ok file
  read_write : ∀ fields columns file, write fields columns = .ok file →
    read file = some (fields, columns)

end Schema

section Writers

variable (displayFloat : ℚ → Text)

/-- `n.to_string()` of a number, with how one that has a fraction is displayed. -/
def numberText? : Value → Option Text
  | .posInt value => some (printNumber value)
  | .negInt below => some (printNumber (.negSucc below))
  | .float value => some (displayFloat value)
  | _ => none

def jsonStr (row : Value) (key : String) : Option Text :=
  match row.member? key with
  | some (.text value) => some value
  | some value => numberText? displayFloat value
  | none => none

/-- `as_i64`. -/
def asI64 : Value → Option Int
  | .posInt value => if value < 2 ^ 63 then some value else none
  | .negInt below => if below < 2 ^ 63 then some (.negSucc below) else none
  | _ => none

/-- The loop of both writers: the values found so far, and the level of each row. -/
def gather {α : Type} (read : Value → Except String (Option α)) :
    List Value → List α × List Nat → Except String (List α × List Nat)
  | [], gathered => .ok gathered
  | row :: rows, (values, levels) => do
    match ← read row with
    | some value => gather read rows (values ++ [value], levels ++ [1])
    | none => gather read rows (values, levels ++ [0])

/-- A row group that is being written: the columns to come, and those written. -/
structure RowGroup where
  pending : List Field
  written : List ColumnData

/-- `next_column`, whose writer must be of the given type. -/
def RowGroup.nextColumn (group : RowGroup) (key : String) (column : ColumnData) :
    Except String RowGroup :=
  match group.pending with
  | [] => .error "parquet schema/column mismatch"
  | field :: pending =>
    if field.physical = column.physical then
      .ok ⟨pending, group.written ++ [column]⟩
    else
      .error ("unexpected column writer type for " ++ key)

def writeBytesCol (group : RowGroup) (rows : List Value) (key : String) (nullable : Bool) :
    Except String RowGroup := do
  let (values, levels) ← gather
    (fun row =>
      match jsonStr displayFloat row key with
      | some value => .ok (some value)
      | none =>
        if nullable then .ok none
        else .error ("required column " ++ key ++ " was null in an archived row"))
    rows ([], [])
  group.nextColumn key (.bytes ⟨values, if nullable then some levels else none⟩)

def writeI64Col (group : RowGroup) (rows : List Value) (key : String) : Except String RowGroup := do
  let (values, levels) ← gather (fun row => .ok ((row.member? key).bind asI64)) rows ([], [])
  group.nextColumn key (.int64 ⟨values, some levels⟩)

def encodeParquet (parquet : Parquet) (rows : List Value) : Except String parquet.File := do
  let rg : RowGroup := ⟨schema, []⟩
  let rg ← writeBytesCol displayFloat rg rows "id" false
  let rg ← writeBytesCol displayFloat rg rows "txn_id" false
  let rg ← writeBytesCol displayFloat rg rows "account_id" false
  let rg ← writeBytesCol displayFloat rg rows "entry_type" false
  let rg ← writeBytesCol displayFloat rg rows "direction" false
  let rg ← writeBytesCol displayFloat rg rows "amount_honey" false
  let rg ← writeBytesCol displayFloat rg rows "rate_id" true
  let rg ← writeI64Col rg rows "tokens_in"
  let rg ← writeI64Col rg rows "tokens_out"
  let rg ← writeBytesCol displayFloat rg rows "compute_seconds" true
  let rg ← writeBytesCol displayFloat rg rows "card_id" true
  let rg ← writeBytesCol displayFloat rg rows "node_id" true
  let rg ← writeBytesCol displayFloat rg rows "memo" false
  let rg ← writeBytesCol displayFloat rg rows "created_at" false
  let rg ← writeBytesCol displayFloat rg rows "source" false
  parquet.write schema rg.written

/-- The columns of a file, each with what its rows hold. -/
def decode (parquet : Parquet) (file : parquet.File) :
    Option (List Field × List (List (Option Cell))) := do
  let (fields, columns) ← parquet.read file
  let cells ← columns.mapM ColumnData.cells
  return (fields, cells)

end Writers

section Properties

/-- Whether a column can hold what a row has for it. -/
def Physical.holds : Physical → Option Value → Bool
  | _, none | _, some .null => true
  | .byteArray, some (.text _) => true
  | .byteArray, some value => value.isNumber
  | .int64, some value => (asI64 value).isSome

/-- A row has nothing that a required column could hold. -/
def Field.lacks (field : Field) (row : Value) : Bool :=
  !field.nullable &&
    match row.member? field.name with
    | some (.text _) => false
    | some value => !value.isNumber
    | none => true

/-- The cell that stands for what a row has: nothing for nothing, a text for itself, a number for
its digits, or for itself as an integer. -/
inductive Represents (displayFloat : ℚ → Text) : Physical → Option Value → Option Cell → Prop where
  | missing (physical : Physical) : Represents displayFloat physical none none
  | null (physical : Physical) : Represents displayFloat physical (some .null) none
  | text (value : Text) :
    Represents displayFloat .byteArray (some (.text value)) (some (.text value))
  | number {value : Value} {digits : Text} (shown : numberText? displayFloat value = some digits) :
    Represents displayFloat .byteArray (some value) (some (.text digits))
  | whole {value : Nat} (fits : value < 2 ^ 63) :
    Represents displayFloat .int64 (some (.posInt value)) (some (.int value))
  | negative {below : Nat} (fits : below < 2 ^ 63) :
    Represents displayFloat .int64 (some (.negInt below)) (some (.int (.negSucc below)))

/-- A file that is written gives back every row: each column has one cell for each row, and that
cell stands for what the row has. -/
def KeepsRows (displayFloat : ℚ → Text) (parquet : Parquet) (rows : List Value) : Prop :=
  ∀ file, encodeParquet displayFloat parquet rows = .ok file →
    ∃ cells, decode parquet file = some (schema, cells) ∧
      List.Forall₂ (fun field column =>
        List.Forall₂ (fun row cell =>
          Represents displayFloat field.physical (row.member? field.name) cell) rows column)
        schema cells

/-- Some row lacks a required value, or every optional column can hold what each row has for it. -/
def Representable (rows : List Value) : Prop :=
  (∃ row ∈ rows, ∃ field ∈ schema, field.lacks row = true) ∨
    ∀ row ∈ rows, ∀ field ∈ schema, field.nullable = true →
      field.physical.holds (row.member? field.name) = true

variable {displayFloat : ℚ → Text}

/-- What a column writer reads of a row. -/
def Field.cell (displayFloat : ℚ → Text) (field : Field) (row : Value) : Option Cell :=
  match field.physical with
  | .byteArray => (jsonStr displayFloat row field.name).map .text
  | .int64 => ((row.member? field.name).bind asI64).map .int

/-- What is read of a row stands for what it has exactly when the column can hold it. -/
theorem represents_cell_iff {field : Field} {row : Value} :
    Represents displayFloat field.physical (row.member? field.name)
      (field.cell displayFloat row) ↔ field.physical.holds (row.member? field.name) = true := by
  unfold Field.cell jsonStr
  cases field.physical with
  | byteArray =>
    cases found : row.member? field.name with
    | none => exact ⟨fun _ => rfl, fun _ => .missing _⟩
    | some value =>
      cases value with
      | null => exact ⟨fun _ => rfl, fun _ => .null _⟩
      | text value => exact ⟨fun _ => rfl, fun _ => .text value⟩
      | posInt value => exact ⟨fun _ => rfl, fun _ => .number rfl⟩
      | negInt below => exact ⟨fun _ => rfl, fun _ => .number rfl⟩
      | float value => exact ⟨fun _ => rfl, fun _ => .number rfl⟩
      | bool value => exact ⟨nofun, nofun⟩
      | array items => exact ⟨nofun, nofun⟩
      | object members => exact ⟨nofun, nofun⟩
  | int64 =>
    cases found : row.member? field.name with
    | none => exact ⟨fun _ => rfl, fun _ => .missing _⟩
    | some value =>
      cases value with
      | null => exact ⟨fun _ => rfl, fun _ => .null _⟩
      | posInt value =>
        by_cases fits : value < 2 ^ 63
        · simp only [Option.bind_some, asI64, if_pos fits, Physical.holds]
          exact ⟨fun _ => rfl, fun _ => .whole fits⟩
        · simp only [Option.bind_some, asI64, if_neg fits, Physical.holds]
          exact ⟨nofun, nofun⟩
      | negInt below =>
        by_cases fits : below < 2 ^ 63
        · simp only [Option.bind_some, asI64, if_pos fits, Physical.holds]
          exact ⟨fun _ => rfl, fun _ => .negative fits⟩
        · simp only [Option.bind_some, asI64, if_neg fits, Physical.holds]
          exact ⟨nofun, nofun⟩
      | float value => exact ⟨nofun, nofun⟩
      | text value => exact ⟨nofun, nofun⟩
      | bool value => exact ⟨nofun, nofun⟩
      | array items => exact ⟨nofun, nofun⟩
      | object members => exact ⟨nofun, nofun⟩

end Properties

section Encoding

variable {displayFloat : ℚ → Text} {parquet : Parquet} {rows : List Value} {group : RowGroup}

theorem gather_of_ok {α : Type} {read : Value → Except String (Option α)}
    (cell : Value → Option α) (reads : ∀ row ∈ rows, read row = .ok (cell row))
    (values : List α) (levels : List Nat) :
    gather read rows (values, levels) = .ok (values ++ (rows.map cell).filterMap id,
      levels ++ (rows.map cell).map definitionLevel) := by
  induction rows generalizing values levels with
  | nil => simp [gather]
  | cons row rest ih =>
    have later := ih fun other member => reads other (List.mem_cons_of_mem _ member)
    rw [gather, reads row List.mem_cons_self]
    cases found : cell row with
    | none =>
      refine (later values (levels ++ [0])).trans ?_
      simp [found, definitionLevel]
    | some value =>
      refine (later (values ++ [value]) (levels ++ [1])).trans ?_
      simp [found, definitionLevel]

theorem gather_of_error {α : Type} (read : Value → Except String (Option α)) {row : Value}
    {failure : String} (member : row ∈ rows) (unread : read row = .error failure)
    (gathered : List α × List Nat) : ∃ reason, gather read rows gathered = .error reason := by
  induction rows generalizing gathered with
  | nil => cases member
  | cons first rest ih =>
    rw [gather]
    cases reads : read first with
    | error reason => exact ⟨reason, rfl⟩
    | ok found =>
      rcases List.mem_cons.mp member with rfl | later
      · rw [unread] at reads
        cases reads
      · cases found with
        | none => exact ih later _
        | some value => exact ih later _

/-- The writer of a field's column. -/
def writeField (displayFloat : ℚ → Text) (rows : List Value) (group : RowGroup) (field : Field) :
    Except String RowGroup :=
  match field.physical with
  | .byteArray => writeBytesCol displayFloat group rows field.name field.nullable
  | .int64 => writeI64Col group rows field.name

theorem encodeParquet_eq : encodeParquet displayFloat parquet rows =
    schema.foldlM (writeField displayFloat rows) ⟨schema, []⟩ >>= fun group =>
      parquet.write schema group.written := by
  simp only [encodeParquet, schema, List.foldlM_cons, List.foldlM_nil, writeField, bind_assoc,
    pure_bind]

/-- The column that a field's writer makes of the rows. -/
def Field.column (displayFloat : ℚ → Text) (rows : List Value) (field : Field) : ColumnData :=
  match field.physical with
  | .byteArray =>
    .bytes (.ofCells field.nullable (rows.map (jsonStr displayFloat · field.name)))
  | .int64 => .int64 (.ofCells true (rows.map fun row => (row.member? field.name).bind asI64))

theorem lacks_eq (displayFloat : ℚ → Text) {field : Field} {row : Value} : field.lacks row =
    (!field.nullable && (jsonStr displayFloat row field.name).isNone) := by
  unfold Field.lacks jsonStr
  cases row.member? field.name with
  | none => rfl
  | some value => cases value <;> rfl

theorem writeField_of_full {field : Field} {pending : List Field} {written : List ColumnData}
    (full : ∀ row ∈ rows, field.lacks row = false) :
    writeField displayFloat rows ⟨field :: pending, written⟩ field =
      .ok ⟨pending, written ++ [field.column displayFloat rows]⟩ := by
  unfold writeField Field.column
  cases kind : field.physical with
  | byteArray =>
    dsimp only
    unfold writeBytesCol
    rw [gather_of_ok fun row => jsonStr displayFloat row field.name]
    · simp [RowGroup.nextColumn, kind, ColumnData.physical, Column.ofCells]
    · intro row member
      have present := full row member
      rw [lacks_eq displayFloat] at present
      cases found : jsonStr displayFloat row field.name with
      | some value => rfl
      | none =>
        rw [found, Option.isNone_none, Bool.and_true, Bool.not_eq_false'] at present
        exact if_pos present
  | int64 =>
    dsimp only
    unfold writeI64Col
    rw [gather_of_ok (fun row => (row.member? field.name).bind asI64) fun _ _ => rfl]
    simp [RowGroup.nextColumn, kind, ColumnData.physical, Column.ofCells]

theorem bytes_of_required : ∀ field ∈ schema, field.nullable = false →
    field.physical = .byteArray := by decide

theorem writeField_of_lacks {field : Field} {row : Value} (known : field ∈ schema)
    (member : row ∈ rows) (lacks : field.lacks row = true) :
    ∃ reason, writeField displayFloat rows group field = .error reason := by
  rw [lacks_eq displayFloat, Bool.and_eq_true, Bool.not_eq_true',
    Option.isNone_iff_eq_none] at lacks
  obtain ⟨required, missing⟩ := lacks
  unfold writeField
  rw [bytes_of_required field known required]
  dsimp only
  unfold writeBytesCol
  have failed := gather_of_error
    (fun row =>
      match jsonStr displayFloat row field.name with
      | some value => .ok (some value)
      | none =>
        if field.nullable then .ok none
        else .error ("required column " ++ field.name ++ " was null in an archived row"))
    member (by rw [missing, required]; rfl) ([], [])
  obtain ⟨reason, failed⟩ := failed
  rw [failed]
  exact ⟨reason, rfl⟩

theorem foldlM_of_full {fields : List Field} {written : List ColumnData}
    (full : ∀ field ∈ fields, ∀ row ∈ rows, field.lacks row = false) :
    fields.foldlM (writeField displayFloat rows) ⟨fields, written⟩ =
      .ok ⟨[], written ++ fields.map (Field.column displayFloat rows)⟩ := by
  induction fields generalizing written with
  | nil =>
    rw [List.map_nil, List.append_nil]
    rfl
  | cons field rest ih =>
    have later := fun written => @ih written fun other member =>
      full other (List.mem_cons_of_mem _ member)
    rw [List.foldlM_cons, writeField_of_full (full field List.mem_cons_self)]
    refine (later (written ++ [field.column displayFloat rows])).trans ?_
    rw [List.append_assoc, List.map_cons]
    rfl

theorem foldlM_of_lacks {fields : List Field} (known : fields ⊆ schema) {field : Field}
    {row : Value} (listed : field ∈ fields) (member : row ∈ rows)
    (lacks : field.lacks row = true) :
    ∃ reason, fields.foldlM (writeField displayFloat rows) group = .error reason := by
  induction fields generalizing group with
  | nil => cases listed
  | cons first rest ih =>
    rw [List.foldlM_cons]
    cases done : writeField displayFloat rows group first with
    | error reason => exact ⟨reason, rfl⟩
    | ok next =>
      rcases List.mem_cons.mp listed with rfl | later
      · obtain ⟨reason, failed⟩ := @writeField_of_lacks displayFloat rows group field row
          (known List.mem_cons_self) member lacks
        rw [failed] at done
        cases done
      · exact ih (fun other inside => known (List.mem_cons_of_mem _ inside)) later

theorem nullable_of_int64 : ∀ field ∈ schema, field.physical = .int64 → field.nullable = true := by
  decide

/-- A column reads back as one cell for each row. -/
theorem cells_column {field : Field} (full : ∀ row ∈ rows, field.lacks row = false) :
    (field.column displayFloat rows).cells = some (rows.map (field.cell displayFloat)) := by
  unfold Field.column
  cases kind : field.physical with
  | byteArray =>
    have present : field.nullable = false →
        ∀ cell ∈ rows.map (jsonStr displayFloat · field.name), cell.isSome := by
      intro required cell member
      obtain ⟨row, inside, rfl⟩ := List.mem_map.mp member
      have held := full row inside
      rw [lacks_eq displayFloat, required, Bool.not_false, Bool.true_and] at held
      exact Option.isNone_eq_false_iff.mp held
    simp only [ColumnData.cells, cells_ofCells present, Option.map_some, List.map_map]
    refine congrArg some (List.map_congr_left ?_)
    intro row _
    simp [Field.cell, kind]
  | int64 =>
    have present : true = false → ∀ cell ∈ rows.map fun row => (row.member? field.name).bind asI64,
        cell.isSome := nofun
    simp only [ColumnData.cells, cells_ofCells present, Option.map_some, List.map_map]
    refine congrArg some (List.map_congr_left ?_)
    intro row _
    simp [Field.cell, kind]

theorem accords_column {field : Field} (known : field ∈ schema)
    (full : ∀ row ∈ rows, field.lacks row = false) :
    Accords rows.length field (field.column displayFloat rows) where
  physical := by
    unfold Field.column
    cases field.physical <;> rfl
  nullable := by
    have whole := nullable_of_int64 field known
    unfold Field.column
    cases kind : field.physical with
    | byteArray => cases nullable : field.nullable <;> rfl
    | int64 =>
      rw [whole kind]
      rfl
  cells := ⟨_, cells_column full, List.length_map _⟩

theorem mapM_of_some {fields : List Field} {column : Field → ColumnData}
    {cells : Field → List (Option Cell)}
    (found : ∀ field ∈ fields, (column field).cells = some (cells field)) :
    (fields.map column).mapM ColumnData.cells = some (fields.map cells) := by
  induction fields with
  | nil => rfl
  | cons field rest ih =>
    have later := ih fun other member => found other (List.mem_cons_of_mem _ member)
    rw [List.map_cons, List.mapM_cons, found field List.mem_cons_self, later]
    rfl

/-- Rows that lack no required value are written, and each column reads back as what its writer
read of them. -/
theorem decode_of_full (parquet : Parquet)
    (full : ∀ field ∈ schema, ∀ row ∈ rows, field.lacks row = false) :
    ∃ file, encodeParquet displayFloat parquet rows = .ok file ∧
      decode parquet file =
        some (schema, schema.map fun field => rows.map (field.cell displayFloat)) := by
  have accords : List.Forall₂ (Accords rows.length) schema
      (schema.map (Field.column displayFloat rows)) := by
    rw [List.forall₂_map_right_iff, List.forall₂_same]
    exact fun field known => accords_column known (full field known)
  obtain ⟨file, written⟩ := parquet.writes _ _ _ accords
  refine ⟨file, ?_, ?_⟩
  · rw [encodeParquet_eq, foldlM_of_full full]
    exact written
  · have cells : (schema.map (Field.column displayFloat rows)).mapM ColumnData.cells =
        some (schema.map fun field => rows.map (field.cell displayFloat)) := by
      apply mapM_of_some
      exact fun field known => cells_column (full field known)
    rw [decode, parquet.read_write _ _ _ written]
    change ((schema.map (Field.column displayFloat rows)).mapM ColumnData.cells).bind _ = _
    rw [cells]
    rfl

/-- The decoded cells stand for the rows exactly when every column can hold what is there. -/
theorem stands_iff : List.Forall₂ (fun field column =>
      List.Forall₂ (fun row cell =>
        Represents displayFloat field.physical (row.member? field.name) cell) rows column)
      schema (schema.map fun field => rows.map (field.cell displayFloat)) ↔
    ∀ field ∈ schema, ∀ row ∈ rows,
      field.physical.holds (row.member? field.name) = true := by
  simp only [List.forall₂_map_right_iff, List.forall₂_same, represents_cell_iff]

theorem representable_of_keeps (kept : KeepsRows displayFloat parquet rows) :
    Representable rows := by
  by_cases lacking : ∃ row ∈ rows, ∃ field ∈ schema, field.lacks row = true
  · exact Or.inl lacking
  · have full : ∀ field ∈ schema, ∀ row ∈ rows, field.lacks row = false := by
      intro field known row member
      exact eq_false_of_ne_true fun lacks => lacking ⟨row, member, field, known, lacks⟩
    obtain ⟨file, encoded, decoded⟩ := @decode_of_full displayFloat rows parquet full
    obtain ⟨cells, read, each⟩ := kept file encoded
    rw [decoded] at read
    obtain rfl := (Prod.mk.inj (Option.some.inj read)).2
    exact Or.inr fun row member field known _ => stands_iff.mp each field known row member

/-- A required value that is not lacking can be held. -/
theorem holds_of_required {field : Field} {row : Value} (known : field ∈ schema)
    (required : field.nullable = false) (present : field.lacks row = false) :
    field.physical.holds (row.member? field.name) = true := by
  rw [Field.lacks, required, Bool.not_false, Bool.true_and] at present
  rw [bytes_of_required field known required]
  cases found : row.member? field.name with
  | none => rfl
  | some value =>
    rw [found] at present
    cases value with
    | bool value => cases present
    | array items => cases present
    | object members => cases present
    | _ => rfl

theorem keeps_of_representable (representable : Representable rows) :
    KeepsRows displayFloat parquet rows := by
  by_cases lacking : ∃ row ∈ rows, ∃ field ∈ schema, field.lacks row = true
  · obtain ⟨row, member, field, known, lacks⟩ := lacking
    intro file encoded
    obtain ⟨reason, failed⟩ := @foldlM_of_lacks displayFloat rows ⟨schema, []⟩ schema
      (fun _ inside => inside) field row known member lacks
    rw [encodeParquet_eq, failed] at encoded
    cases encoded
  · have full : ∀ field ∈ schema, ∀ row ∈ rows, field.lacks row = false := by
      intro field known row member
      exact eq_false_of_ne_true fun lacks => lacking ⟨row, member, field, known, lacks⟩
    have held := representable.resolve_left lacking
    obtain ⟨file, encoded, decoded⟩ := @decode_of_full displayFloat rows parquet full
    intro other written
    rw [encoded] at written
    obtain rfl := Except.ok.inj written
    refine ⟨_, decoded, stands_iff.mpr ?_⟩
    intro field known row member
    cases nullable : field.nullable with
    | true => exact held row member field known nullable
    | false => exact holds_of_required known nullable (full field known row member)

/-- A file gives back every row exactly when some row lacks a required value, so that there is no
file, or every optional column can hold what each row has for it. -/
theorem keeps_rows_iff (displayFloat : ℚ → Text) (parquet : Parquet) (rows : List Value) :
    KeepsRows displayFloat parquet rows ↔ Representable rows :=
  ⟨representable_of_keeps, keeps_of_representable⟩

end Encoding

section Examples

/-- A library whose files are what was written. -/
def plainParquet : Parquet where
  File := List Field × List ColumnData
  write fields columns := .ok (fields, columns)
  read file := some file
  writes _ _ _ _ := ⟨_, rfl⟩
  read_write _ _ _ written := congrArg some (Except.ok.inj written).symm

/-- An entry whose tokens are given as a text, as its amounts are. -/
def quotedTokens : Value :=
  .object
    [("id".toList, .text "1".toList), ("txn_id".toList, .text "2".toList),
      ("account_id".toList, .text "3".toList), ("entry_type".toList, .text "usage".toList),
      ("direction".toList, .text "debit".toList),
      ("amount_honey".toList, .text "12.500000".toList), ("rate_id".toList, .null),
      ("tokens_in".toList, .text "100".toList), ("tokens_out".toList, .posInt 200),
      ("compute_seconds".toList, .text "1.500".toList), ("card_id".toList, .null),
      ("node_id".toList, .null), ("memo".toList, .text "essay".toList),
      ("created_at".toList, .text "2026-01-15T00:00:00+00:00".toList),
      ("source".toList, .text "usage".toList)]

/-- Not every file gives back its rows: a count of tokens that is not an integer is archived as no
count at all. -/
theorem quoted_tokens_lost :
    ¬ ∀ (displayFloat : ℚ → Text) (parquet : Parquet) (rows : List Value),
      KeepsRows displayFloat parquet rows := by
  intro keeps
  have representable := representable_of_keeps (keeps (fun _ => []) plainParquet [quotedTokens])
  revert representable
  unfold Representable
  decide +kernel

end Examples

end OHHive.Cloud
