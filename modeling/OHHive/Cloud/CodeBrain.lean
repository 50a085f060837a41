import Mathlib.Data.List.DropRight
import OHHive.Cloud.Months
import OHHive.Cloud.Cards
import OHHive.Foundation.Lines

/-! The meter of code-brain turns: a guard before the provider is called, and a record of what the
turn cost after it answered. -/

namespace OHHive.Cloud

open Foundation

section Meter

inductive BrainProvider where
  | anthropic
  | openai
  | nous
deriving DecidableEq, Repr

/-- A row of `code_brain_usage`. -/
structure CodeBrainUsage where
  member : MemberId
  provider : BrainProvider
  modelId : Text
  tokensIn : Int
  tokensOut : Int
  usdEstimate : ℚ
  createdAt : Time
deriving DecidableEq, Repr

/-- The usage, the caps of members, the cap for the others in `settings`, and who is active. -/
structure CodeBrainDb where
  usage : List CodeBrainUsage
  caps : MemberId → Option ℚ
  capSetting : Option ℚ
  active : MemberId → Bool

def CodeBrainDb.capUsd (db : CodeBrainDb) (member : MemberId) : ℚ :=
  ((db.caps member).or db.capSetting).getD 0

/-- The member's turns since the month of `now` began. -/
def CodeBrainDb.monthUsage (db : CodeBrainDb) (member : MemberId) (now : Time) :
    List CodeBrainUsage :=
  db.usage.filter fun row => row.member = member && monthStart now ≤ row.createdAt

def CodeBrainDb.monthUsd (db : CodeBrainDb) (member : MemberId) (now : Time) : ℚ :=
  ((db.monthUsage member now).map CodeBrainUsage.usdEstimate).sum

/-- `round(value, places)` as PostgreSQL prints it. -/
def fixedText (places : Nat) (value : ℚ) : String :=
  let scaled := roundMicro (value * 10 ^ places)
  let digits := toString (scaled.natAbs % 10 ^ places)
  (if scaled < 0 then "-" else "") ++ toString (scaled.natAbs / 10 ^ places) ++ "." ++
    String.ofList (List.replicate (places - digits.length) '0') ++ digits

/-- What the guard answers, in millionths of a dollar. -/
structure GuardAnswer where
  spentUsd : Int
  capUsd : Int
  remainingUsd : Int
deriving DecidableEq, Repr

def micros (usd : ℚ) : Int := roundMicro (usd * 1000000)

def CodeBrainDb.codeBrainGuard (db : CodeBrainDb) (member : MemberId) (now : Time) :
    Except CloudError GuardAnswer :=
  let cap := db.capUsd member
  let spent := db.monthUsd member now
  if cap ≤ spent then
    .error (.raised ("code_brain_month_cap_reached: " ++ fixedText 4 spent ++ " of " ++
      fixedText 2 cap ++ " USD used this month"))
  else .ok ⟨micros spent, micros cap, micros (cap - spent)⟩

/-- `btrim(p_text)`: spaces at both ends. -/
def btrim (text : Text) : Text := (text.dropWhile (· = ' ')).rdropWhile (· = ' ')

/-- `left(coalesce(nullif(btrim(p_model), ''), 'unknown'), 200)`. -/
def recordedModel (model : Option Text) : Text :=
  match model.map btrim with
  | none | some [] => "unknown".toList
  | some (c :: rest) => (c :: rest).take 200

/-- The arguments of `code_brain_record`; each may be null. -/
structure BrainTurn where
  provider : BrainProvider
  model : Option Text
  tokensIn : Option Int
  tokensOut : Option Int
  usdInPerM : Option ℚ
  usdOutPerM : Option ℚ
deriving DecidableEq, Repr

/-- What a turn costs at its prices, in dollars. -/
def BrainTurn.usd (turn : BrainTurn) : ℚ :=
  (turn.tokensIn.getD 0 * turn.usdInPerM.getD 0 + turn.tokensOut.getD 0 * turn.usdOutPerM.getD 0) /
    1000000

def BrainTurn.row (turn : BrainTurn) (member : MemberId) (now : Time) : CodeBrainUsage where
  member := member
  provider := turn.provider
  modelId := recordedModel turn.model
  tokensIn := max (turn.tokensIn.getD 0) 0
  tokensOut := max (turn.tokensOut.getD 0) 0
  usdEstimate := max turn.usd 0
  createdAt := now

structure RecordAnswer where
  turnUsd : Int
  spentUsd : Int
  capUsd : Int
  remainingUsd : Int
deriving DecidableEq, Repr

/-- A transaction that began at `now`. -/
def CodeBrainDb.codeBrainRecord (db : CodeBrainDb) (member : MemberId) (turn : BrainTurn)
    (now : Time) : Except CloudError (RecordAnswer × CodeBrainDb) := do
  require (db.active member) (.raised "not_a_hive_member")
  let db := { db with usage := db.usage ++ [turn.row member now] }
  let cap := db.capUsd member
  let spent := db.monthUsd member now
  return (⟨micros turn.usd, micros spent, micros cap, micros (cap - spent)⟩, db)

end Meter

section Prices

/-- Dollars for a million tokens; `none` is not a finite number that is at least zero. -/
structure BrainRate where
  input : Option ℚ
  output : Option ℚ
deriving DecidableEq, Repr

structure BrainPrice where
  rate : BrainRate
  models : List (Text × BrainRate)
deriving DecidableEq, Repr

abbrev BrainPrices := BrainProvider → Option BrainPrice

def BrainRate.usable (rate : BrainRate) : Option (ℚ × ℚ) :=
  match rate.input, rate.output with
  | some input, some output => some (input, output)
  | _, _ => none

/-- The rate of the exact model, else of the provider. -/
def rateFor (prices : BrainPrices) (provider : BrainProvider) (model : Text) : Option (ℚ × ℚ) :=
  match prices provider with
  | none => none
  | some price =>
    match (price.models.lookup model).bind BrainRate.usable with
    | some exact => some exact
    | none => price.rate.usable

/-- What the provider answered, normalized. -/
structure ProviderAnswer where
  provider : BrainProvider
  model : Text
  tokensIn : Nat
  tokensOut : Nat
deriving DecidableEq, Repr

/-- What the handler records of a turn, by the prices in `settings` before those it was made
with; a turn without a price counts as free. -/
def ProviderAnswer.turn (answer : ProviderAnswer) (configured? : Option BrainPrices)
    (prices : BrainPrices) : BrainTurn :=
  let price := (rateFor (configured?.getD prices) answer.provider answer.model).or <|
    if configured?.isSome then rateFor prices answer.provider answer.model else none
  { provider := answer.provider
    model := some answer.model
    tokensIn := some answer.tokensIn
    tokensOut := some answer.tokensOut
    usdInPerM := some ((price.map Prod.fst).getD 0)
    usdOutPerM := some ((price.map Prod.snd).getD 0) }

end Prices

section Sessions

abbrev SessionId := Nat

/-- How far a session's turn has come, with the usage that its guard counted. -/
inductive TurnPhase where
  | resting
  | guarded (seen : List CodeBrainUsage)
  | recording (seen : List CodeBrainUsage) (turn : BrainTurn) (began : Time)

/-- Coding sessions over one database. -/
structure Sessions where
  db : CodeBrainDb
  clock : Time
  phase : SessionId → TurnPhase

/-- A session asks its guard, gets the provider's answer or fails, and records it in a transaction
of its own; time passes meanwhile. -/
inductive SessionMove where
  | wait (micros : Nat)
  | guard (session : SessionId)
  | fail (session : SessionId)
  | answer (session : SessionId) (answer : ProviderAnswer) (configured? : Option BrainPrices)
  | record (session : SessionId)

def CodeBrainDb.usageOf (db : CodeBrainDb) (member : MemberId) : List CodeBrainUsage :=
  db.usage.filter fun row => row.member = member

def Sessions.setPhase (state : Sessions) (session : SessionId) (phase : TurnPhase) : Sessions :=
  { state with phase := Function.update state.phase session phase }

variable (prices : BrainPrices) (owner : SessionId → MemberId)

def Sessions.step (state : Sessions) : SessionMove → Sessions
  | .wait micros => { state with clock := state.clock + micros }
  | .guard session =>
    match state.phase session, state.db.codeBrainGuard (owner session) state.clock with
    | .resting, .ok _ => state.setPhase session (.guarded (state.db.usageOf (owner session)))
    | _, _ => state
  | .fail session =>
    match state.phase session with
    | .guarded _ => state.setPhase session .resting
    | _ => state
  | .answer session answer configured? =>
    match state.phase session with
    | .guarded seen =>
      state.setPhase session (.recording seen (answer.turn configured? prices) state.clock)
    | _ => state
  | .record session =>
    match state.phase session with
    | .recording _ turn began =>
      match state.db.codeBrainRecord (owner session) turn began with
      | .ok (_, db) => { state with db : Sessions }.setPhase session .resting
      -- a record that failed does not fail the turn
      | .error _ => state.setPhase session .resting
    | _ => state

end Sessions

end OHHive.Cloud
