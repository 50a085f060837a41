import OHHive.Coder.Wire
import OHHive.Foundation.Value

/-! The choice of a card for a node: a snapshot of the database is decoded card by card, and the
scheduler places each card on the node or elsewhere. -/

namespace OHHive.Control

open Foundation

section Capabilities

inductive Modality where
  | text
  | code
  | image
  | video
  | speech
  | music
deriving DecidableEq, Repr

inductive ToolsLevel where
  | inferenceOnly
  | sandboxedTools
deriving DecidableEq, Repr

inductive Presence where
  | checkedIn
  | checkedOut
  | draining
deriving DecidableEq, Repr

structure Hardware where
  ramBytes : Nat
  vramBytes : Option Nat
deriving DecidableEq, Repr

structure ModelRef where
  id : Text
  modality : Modality
  backend : Text
  sizeBytes : Option Nat
deriving DecidableEq, Repr

structure Capabilities where
  hardware : Hardware
  modalities : List Modality
  models : List ModelRef
  allowInternet : Bool
  toolsLevel : ToolsLevel
deriving DecidableEq, Repr

structure Requirements where
  modality : Option Modality
  modelId : Option Text
  minVramBytes : Option Nat
  minRamBytes : Option Nat
  requiresInternet : Bool
  toolsLevel : ToolsLevel
deriving DecidableEq, Repr

/-- The matching rule. -/
def Capabilities.satisfies (capabilities : Capabilities) (req : Requirements) : Bool :=
  !(req.requiresInternet && !capabilities.allowInternet) &&
  !(req.toolsLevel = .sandboxedTools && capabilities.toolsLevel = .inferenceOnly) &&
  req.modality.all (fun modality => modality ∈ capabilities.modalities) &&
  req.modelId.all (fun id => capabilities.models.any (·.id = id)) &&
  req.minVramBytes.all (fun bytes => bytes ≤ capabilities.hardware.vramBytes.getD 0) &&
  req.minRamBytes.all (fun bytes => bytes ≤ capabilities.hardware.ramBytes)

end Capabilities

section Placement

structure NodeView where
  id : Uuid
  region : Text
  presence : Presence
  capabilities : Capabilities
  activeLeases : Nat
deriving DecidableEq, Repr

inductive Placement where
  | node (id : Uuid)
  | providerOverflow
  | starved
deriving DecidableEq, Repr

def eligible (requirements : Requirements) (node : NodeView) : Bool :=
  node.presence = .checkedIn && node.activeLeases = 0 && node.capabilities.satisfies requirements

/-- A node that fits, of the preferred region if there is one there. -/
def place (requirements : Requirements) (nodes : List NodeView) (preferredRegion : Option Text) :
    Placement :=
  let fitting := nodes.filter (eligible requirements)
  match preferredRegion.bind fun region => fitting.find? (·.region = region) with
  | some node => .node node.id
  | none =>
    match fitting.head? with
    | some node => .node node.id
    | none =>
      match requirements.modality with
      | some .text | some .code | none => .providerOverflow
      | _ => .starved

end Placement

section Decoding

open Value (Decoder variant required optional defaulted list option asNat asText asBool isStruct)

def modality : Decoder Modality :=
  variant [("text".toList, .text), ("code".toList, .code), ("image".toList, .image),
    ("video".toList, .video), ("speech".toList, .speech), ("music".toList, .music)]

def toolsLevel : Decoder ToolsLevel :=
  variant [("inference_only".toList, .inferenceOnly), ("sandboxed_tools".toList, .sandboxedTools)]

def presence : Decoder Presence :=
  variant [("checked_in".toList, .checkedIn), ("checked_out".toList, .checkedOut),
    ("draining".toList, .draining)]

def gpuVendor : Decoder Unit :=
  variant [("apple".toList, ()), ("nvidia".toList, ()), ("amd".toList, ()), ("intel".toList, ()),
    ("none".toList, ())]

def number (value : Value) : Option Unit := if value.isNumber then some () else none

/-- All fields are checked, and those that the matching rule reads are kept. -/
def hardware (value : Value) : Option Hardware := do
  guard (isStruct 11 value)
  let _ ← required value 0 "cpu_model" asText
  let _ ← required value 1 "cpu_cores" (asNat 32)
  let ramBytes ← required value 2 "ram_bytes" (asNat 64)
  let _ ← optional value 3 "ram_free_bytes" (asNat 64)
  let _ ← required value 4 "gpu_vendor" gpuVendor
  let _ ← optional value 5 "gpu_model" asText
  let vramBytes ← optional value 6 "vram_bytes" (asNat 64)
  let _ ← optional value 7 "vram_free_bytes" (asNat 64)
  let _ ← required value 8 "disk_free_bytes" (asNat 64)
  let _ ← optional value 9 "upload_mbps" number
  let _ ← optional value 10 "download_mbps" number
  return { ramBytes, vramBytes }

def modelRef (value : Value) : Option ModelRef := do
  guard (isStruct 4 value)
  let id ← required value 0 "id" asText
  let modality ← required value 1 "modality" modality
  let backend ← required value 2 "backend" asText
  let sizeBytes ← defaulted value 3 "size_bytes" none (option (asNat 64))
  return { id, modality, backend, sizeBytes }

def capabilities (value : Value) : Option Capabilities := do
  guard (isStruct 8 value)
  let hardware ← required value 0 "hardware" hardware
  let modalities ← required value 1 "modalities" (list modality)
  let models ← required value 2 "models" (list modelRef)
  let allowInternet ← required value 3 "allow_internet" asBool
  let toolsLevel ← required value 4 "tools_level" toolsLevel
  let _ ← optional value 5 "storage_gb_offered" (asNat 32)
  let _ ← optional value 6 "shard_capable" asBool
  let _ ← defaulted value 7 "acceptance" false asBool
  return { hardware, modalities, models, allowInternet, toolsLevel }

/-- The requirements with nothing set, for inference only. -/
def unset : List (Text × Value) :=
  [("modality".toList, .null), ("model_id".toList, .null), ("min_vram_bytes".toList, .null),
    ("min_ram_bytes".toList, .null), ("requires_internet".toList, .bool false),
    ("tools_level".toList, .text "inference_only".toList)]

def requirements (value : Value) : Option Requirements := do
  let modality ← optional value 0 "modality" modality
  let modelId ← optional value 1 "model_id" asText
  let minVramBytes ← optional value 2 "min_vram_bytes" (asNat 64)
  let minRamBytes ← optional value 3 "min_ram_bytes" (asNat 64)
  let requiresInternet ← required value 4 "requires_internet" asBool
  let toolsLevel ← required value 5 "tools_level" toolsLevel
  return { modality, modelId, minVramBytes, minRamBytes, requiresInternet, toolsLevel }

end Decoding

section Identities

def hexDigit (char : Char) : Option Nat :=
  if '0' ≤ char ∧ char ≤ '9' then some (char.toNat - 48)
  else if 'a' ≤ char ∧ char ≤ 'f' then some (char.toNat - 87)
  else if 'A' ≤ char ∧ char ≤ 'F' then some (char.toNat - 55)
  else none

def simpleUuid (text : Text) : Option Uuid := do
  guard (text.length = 32)
  let digits ← text.mapM hexDigit
  return ⟨digits.foldl (fun value digit => 16 * value + digit) 0⟩

def hyphenatedUuid (text : Text) : Option Uuid := do
  guard (text.length = 36 ∧ ∀ place ∈ [8, 13, 18, 23], text[place]? = some '-')
  simpleUuid (text.take 8 ++ (text.drop 9).take 4 ++ (text.drop 14).take 4 ++
    (text.drop 19).take 4 ++ text.drop 24)

/-- An identity with or without hyphens, in braces or as a URN. -/
def parseUuid (text : Text) : Option Uuid :=
  match text.length with
  | 32 => simpleUuid text
  | 36 => hyphenatedUuid text
  | 38 =>
    if text.head? = some '\x7b' ∧ text.getLast? = some '\x7d' then
      hyphenatedUuid (text.drop 1).dropLast
    else none
  | 45 => if text.take 9 = "urn:uuid:".toList then hyphenatedUuid (text.drop 9) else none
  | _ => none

def uuid (value : Value) : Option Uuid := value.asText.bind parseUuid

/-- `json!(id)`. -/
def writesUuid (value : Value) (id : Uuid) : Bool := value.asText = some (Coder.uuidText id)

end Identities

section Choosing

structure Job where
  id : Uuid
  projectId : Uuid
  requirements : Requirements
deriving DecidableEq, Repr

/-- A card of the snapshot as a job. -/
def job (card : Value) : Option Job := do
  let required ← (card.get "required_capabilities").asObject
  let requirements ← requirements (.object (required ++ unset))
  let id ← uuid (card.get "id")
  let projectId ← uuid (card.get "project_id")
  return {
    id, projectId
    requirements := { requirements with
      modality := modality (card.get "modality")
      requiresInternet := (card.get "requires_internet").asBool.getD false } }

/-- The node of the snapshot. -/
def nodeView (snapshot : Value) : Option NodeView := do
  let node := snapshot.get "node"
  let capabilities ← capabilities (node.get "capabilities")
  let id ← uuid (node.get "id")
  let activeLeases ← (snapshot.get "active_leases").asNat 64
  return {
    id, capabilities, activeLeases
    region := (node.get "region").asText.getD []
    presence := (presence (node.get "presence")).getD .checkedOut }

def fits (node : NodeView) (job : Job) : Bool :=
  place job.requirements [node] (some node.region) = .node node.id

/-- The first card in order that fits, unless a card before it does not decode. -/
def chooseFrom (node : NodeView) : List Value → Option Uuid
  | [] => none
  | card :: rest =>
    match job card with
    | none => none
    | some job => if fits node job then some job.id else chooseFrom node rest

def choose (snapshot : Value) : Option Uuid := do
  let node ← nodeView snapshot
  let cards ← (snapshot.get "cards").asArray
  chooseFrom node cards

end Choosing

end OHHive.Control
