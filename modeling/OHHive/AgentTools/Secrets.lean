import OHHive.AgentTools.Hub

/-! The secrets of posts reach the bodies that they are put into, and nothing else. -/

namespace OHHive.AgentTools

open Foundation

/-- The world without its secrets. -/
def World.hidden (world : World) : World := { world with secrets := fun _ _ => none }

def ToolStore.hidden (store : ToolStore) : ToolStore := { store with world := store.world.hidden }

def ToolEvent.hidden : ToolEvent → ToolEvent
  | .call made => .call made
  | .elsewhere world => .elsewhere world.hidden

/-- The answer to a post, with the body as the agent wrote it. -/
def ToolOp.withheld : ToolOp → ToolAnswer → ToolAnswer
  | .webPostAuthorize _ body, .post grant => .post { grant with body }
  | _, answer => answer

/-- A transaction that goes the same way without the secrets. -/
def Blind {Answer : Type} (transaction : ToolStore → Result (ToolStore × Answer)) : Prop :=
  ∀ store, transaction store.hidden = Prod.map ToolStore.hidden id <$> transaction store

variable {caller : ToolCaller} {draws : Draws} {services : Services} {receipt vault node : Uuid}
  {title findings : Text} {receipts : List Uuid} {now : Int}

theorem record_hidden {tool : String} {vault : Text} {revision : Nat} (store : ToolStore) :
    store.hidden.record caller node tool vault revision receipt now =
      ToolStore.hidden <$> store.record caller node tool vault revision receipt now := by
  unfold ToolStore.record
  simp only [map_bind, map_pure]
  rfl

theorem recordEvidence_hidden {row : Evidence} (store : ToolStore) :
    store.hidden.recordEvidence row = ToolStore.hidden <$> store.recordEvidence row := by
  unfold ToolStore.recordEvidence
  simp only [map_bind, map_pure]
  rfl

theorem recordLibrary_hidden {sha256 : Text → Text} {call : LibraryCall} {result : LibraryResult}
    (store : ToolStore) :
    recordLibrary sha256 store.hidden receipt vault now call result =
      ToolStore.hidden <$> recordLibrary sha256 store receipt vault now call result := by
  unfold recordLibrary
  split
  · exact recordEvidence_hidden store
  · rfl

theorem blind_saveFindings {sources : List SourceRecord} : Blind fun store =>
    saveFindings services store caller draws node vault title findings receipts sources := by
  intro store
  simp only [saveFindings, map_bind, map_pure]
  refine bind_congr fun _ => bind_congr fun db => bind_congr fun saves => ?_
  let written : ToolStore := { store with world := { store.world with
    catalog := store.world.catalog.write (1000 * draws.clock 3) db
    saves } }
  show (written.hidden.record caller node _ _ _ _ _ >>= _) = _
  rw [record_hidden, bind_map_left]
  rfl

theorem blind_librarySave : Blind fun store =>
    botsAgentLibrarySave services store caller draws vault title findings receipts := by
  intro store
  simp only [botsAgentLibrarySave, map_bind]
  iterate 10 refine bind_congr fun _ => ?_
  rw [show store.hidden.world.saved caller vault = store.world.saved caller vault from rfl]
  cases store.world.saved caller vault with
  | none => exact blind_saveFindings store
  | some found =>
    simp only [map_bind, map_pure]
    rfl

theorem blind_webObserve {observation : Observation} : Blind fun store =>
    botsAgentWebObserve services store caller draws receipt observation := by
  intro store
  simp only [botsAgentWebObserve, map_bind]
  iterate 6 refine bind_congr fun _ => ?_
  refine bind_congr fun existing => ?_
  cases existing.observation <;> simp only [map_bind, map_pure] <;> rfl

/-- A call goes the same way without the secrets, but for the body of a post. -/
theorem reply_hidden (services : Services) (call : ToolCall) (store : ToolStore) :
    call.reply services store.hidden =
      Prod.map ToolStore.hidden call.op.withheld <$> call.reply services store := by
  obtain ⟨caller, op, draws⟩ := call
  have blind {Answer : Type} {call : ToolStore → Result (ToolStore × Answer)}
      {answer : Answer → ToolAnswer} (same : Blind call) :
      Prod.map id answer <$> call store.hidden =
        Prod.map ToolStore.hidden id <$> Prod.map id answer <$> call store := by
    rw [same, Functor.map_map, Functor.map_map]
    rfl
  cases op with
  | librarySave => exact blind blind_librarySave
  | webObserve => exact blind blind_webObserve
  | execute tool =>
    simp only [ToolCall.reply, botsAgentToolExecute]
    split
    · exact blind blind_librarySave
    · simp only [map_bind, map_pure]
      refine bind_congr fun ⟨node, current⟩ => bind_congr fun ⟨vault, library⟩ => ?_
      simp only [record_hidden, recordLibrary_hidden, bind_map_left]
      rfl
  | _ =>
    simp only [ToolCall.reply, botsAgentWebAuthorize, botsAgentWebPostAuthorize,
      botsAgentHandoffCreate, botsAgentHandoffResolve, map_bind, map_pure]
    -- Two or three checks come before the fences.
    refine bind_congr fun _ => bind_congr fun _ => ?_
    first
      | refine bind_congr fun ⟨node, current⟩ => ?_
      | refine bind_congr fun _ => bind_congr fun ⟨node, current⟩ => ?_
    simp only [record_hidden, recordEvidence_hidden, bind_map_left]
    rfl

theorem step_hidden (services : Services) (store : ToolStore) (event : ToolEvent) :
    store.hidden.step services event.hidden = (store.step services event).hidden := by
  cases event with
  | elsewhere world => rfl
  | call made =>
    simp only [ToolEvent.hidden, ToolStore.step, reply_hidden]
    cases made.reply services store <;> rfl

/-- In every run, no table and no outcome of a call depends on a secret, but the body of a post. -/
theorem secrets_hidden (services : Services) (world : World) (events : List ToolEvent)
    (moment : Nat) :
    toolsAt services world.hidden (events.map ToolEvent.hidden) moment =
        (toolsAt services world events moment).hidden ∧
      ∀ call : ToolCall,
        call.reply services (toolsAt services world.hidden (events.map ToolEvent.hidden) moment) =
          Prod.map ToolStore.hidden call.op.withheld <$>
            call.reply services (toolsAt services world events moment) := by
  have stores : toolsAt services world.hidden (events.map ToolEvent.hidden) moment =
      (toolsAt services world events moment).hidden := by
    unfold toolsAt stateAt
    rw [← List.map_take, List.foldl_map]
    show List.foldl _ (ToolStore.new world).hidden _ = _
    apply List.foldl_hom ToolStore.hidden
    exact step_hidden services
  exact ⟨stores, fun call => stores ▸ reply_hidden services call _⟩

end OHHive.AgentTools
