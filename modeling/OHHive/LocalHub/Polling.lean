import OHHive.LocalHub.WorkflowMoves

/-! What a poll keeps of all workflows: each is read once, takes its turn once, and is left alone by
the turns of the others. -/

namespace OHHive.LocalHub

open Foundation

section Rows

variable {hub next : WorkflowHub} {row later : WorkflowRow} {flow moved : ReviewWorkflow}

/-- What holds of every stored workflow. -/
structure WorkflowRow.Sound (row : WorkflowRow) : Prop where
  id : row.id = row.data.request.requestId
  source : row.source = row.data.request.sourceTaskId
  owner : row.owner = row.data.owner
  corrections : row.data.corrections ≤ row.data.request.maxCorrections
  bound : row.data.request.maxCorrections ≤ 3
  first : row.data.stage = 0 → row.data.currentTask = row.source

/-- How a stored workflow may change: its stage only grows, a task belongs to its stage, and what is
no longer active stays as it is. -/
structure RowMove (row later : WorkflowRow) : Prop where
  id : later.id = row.id
  source : later.source = row.source
  owner : later.owner = row.owner
  request : later.data.request = row.data.request
  stage : row.data.stage ≤ later.data.stage
  task : later.data.stage = row.data.stage → later.data.currentTask = row.data.currentTask
  ended : row.data.state ≠ .active → later = row

theorem RowMove.refl (row : WorkflowRow) : RowMove row row :=
  ⟨rfl, rfl, rfl, rfl, Nat.le_refl _, fun _ => rfl, fun _ => rfl⟩

theorem RowMove.trans {first second third : WorkflowRow} (before : RowMove first second)
    (after : RowMove second third) : RowMove first third := by
  refine ⟨after.id.trans before.id, after.source.trans before.source,
    after.owner.trans before.owner, after.request.trans before.request,
    before.stage.trans after.stage, ?_, ?_⟩
  · intro same
    have upper := after.stage
    have lower := before.stage
    exact (after.task (by omega)).trans (before.task (by omega))
  · intro ended
    obtain rfl := before.ended ended
    exact after.ended ended

theorem FlowMove.request (move : FlowMove flow moved) : moved.request = flow.request := by
  cases move <;> rfl

theorem FlowMove.stage (move : FlowMove flow moved) : flow.stage ≤ moved.stage := by
  cases move with
  | noted | ended => exact Nat.le_refl _
  | checked _ _ _ coding => simp [ReviewWorkflow.stage, coding]
  | corrected _ _ _ checking =>
    simp only [ReviewWorkflow.stage, checking, if_true]
    omega

theorem FlowMove.task (move : FlowMove flow moved) (same : moved.stage = flow.stage) :
    moved.currentTask = flow.currentTask := by
  cases move with
  | noted | ended => rfl
  | checked _ _ _ coding => simp [ReviewWorkflow.stage, coding] at same
  | corrected _ _ _ checking =>
    simp only [ReviewWorkflow.stage, checking, if_true] at same
    omega

theorem FlowMove.corrections (move : FlowMove flow moved)
    (within : flow.corrections ≤ flow.request.maxCorrections) :
    moved.corrections ≤ moved.request.maxCorrections := by
  cases move with
  | noted | ended | checked => exact within
  | corrected _ _ _ _ left => exact left

theorem FlowMove.owner (move : FlowMove flow moved) : moved.owner = flow.owner := by
  cases move <;> rfl

/-- A turn's effect on its own row. -/
theorem FlowMove.rowMove (move : FlowMove row.data moved) (active : row.data.state = .active) :
    RowMove row { row with data := moved } :=
  ⟨rfl, rfl, rfl, move.request, move.stage, move.task, fun ended => absurd active ended⟩

theorem FlowMove.sound (move : FlowMove row.data moved) (sound : row.Sound) :
    WorkflowRow.Sound { row with data := moved } := by
  refine ⟨sound.id.trans (congrArg _ move.request.symm), ?_, sound.owner.trans move.owner.symm,
    move.corrections sound.corrections, ?_, ?_⟩
  · exact sound.source.trans (congrArg _ move.request.symm)
  · change moved.request.maxCorrections ≤ 3
    rw [move.request]
    exact sound.bound
  · intro first
    have lower := move.stage
    have first : moved.stage = 0 := first
    exact (move.task (by omega)).trans (sound.first (by omega))

theorem WorkflowHub.eq_of_id {other : WorkflowRow} (stored : row ∈ hub.workflows.rows)
    (stored' : other ∈ hub.workflows.rows) (same : row.id = other.id) : row = other :=
  hub.workflows.eq_of_clash (fun _ _ clash => clash.imp Eq.symm Eq.symm) stored stored'
    (Or.inl same)

/-- The rows after a turn: its own has moved, the others are as they were. -/
theorem TurnEffect.rows (effect : TurnEffect hub next row.data moved)
    (stored : row ∈ hub.workflows.rows) (sound : row.Sound) (other : WorkflowRow) :
    other ∈ next.workflows.rows ↔
      other = { row with data := moved } ∨ other ∈ hub.workflows.rows ∧ other.id ≠ row.id := by
  have own : row.id = moved.request.requestId :=
    sound.id.trans (congrArg _ effect.moved.request.symm)
  rw [effect.saved, List.mem_map]
  constructor
  · rintro ⟨before, inHub, rfl⟩
    by_cases same : before.id = row.id
    · obtain rfl := WorkflowHub.eq_of_id inHub stored same
      exact Or.inl (if_pos own)
    · have alone : before.saved moved = before := if_neg (fun equal => same (equal.trans own.symm))
      rw [alone]
      exact Or.inr ⟨inHub, same⟩
  · rintro (rfl | ⟨inHub, apart⟩)
    · exact ⟨row, stored, if_pos own⟩
    · exact ⟨other, inHub, if_neg (fun equal => apart (equal.trans own.symm))⟩

end Rows

section Polls

variable {staging : Staging} {turns : Nat → Turn} {hub next : WorkflowHub}
  {flows : List ReviewWorkflow}

/-- What holds of the hub at every moment. -/
structure WorkflowHub.Sound (hub : WorkflowHub) : Prop where
  rows : ∀ row ∈ hub.workflows.rows, row.Sound
  slots : ∀ id, (hub.store.board.slot id).Sound
  sources : ∀ row ∈ hub.workflows.rows, (hub.store.board.card? row.source).isSome
  active : ∀ owner, (hub.activeRows owner).length ≤ maxActive

/-- The workflows that still have their turn in a poll: as they were read, each once. -/
structure Awaiting (hub : WorkflowHub) (flows : List ReviewWorkflow) : Prop where
  read : ∀ flow ∈ flows, ∃ row ∈ hub.workflows.rows, row.data = flow
  active : ∀ flow ∈ flows, flow.state = .active
  once : flows.Pairwise (fun first second => first.request.requestId ≠ second.request.requestId)

/-- What the turns of some workflows do to the hub. -/
structure Polled (hub next : WorkflowHub) (flows : List ReviewWorkflow) : Prop where
  board : BoardKept hub.store.board next.store.board
  sound : ∀ row ∈ next.workflows.rows, row.Sound
  rows : ∀ row ∈ hub.workflows.rows, ∃ later ∈ next.workflows.rows, RowMove row later
  back : ∀ later ∈ next.workflows.rows, ∃ row ∈ hub.workflows.rows, RowMove row later
  others : ∀ row ∈ hub.workflows.rows, (∀ flow ∈ flows, row.id ≠ flow.request.requestId) →
    row ∈ next.workflows.rows
  staged : ∀ id, (next.store.board.card? id).isSome → (hub.store.board.card? id).isSome ∨
    ∃ later ∈ next.workflows.rows, later.data.currentTask = id
  shut : ∀ task, Shut hub.store.board task → Shut next.store.board task
  leaves : ∀ later ∈ next.workflows.rows, later.data.state ≠ .active →
    later ∈ hub.workflows.rows ∨ Shut next.store.board later.data.currentTask

theorem Polled.refl (sound : ∀ row ∈ hub.workflows.rows, row.Sound) : Polled hub hub [] :=
  ⟨.refl _, sound, fun row stored => ⟨row, stored, .refl row⟩,
    fun row stored => ⟨row, stored, .refl row⟩, fun _ stored _ => stored, fun _ => Or.inl,
    fun _ => id, fun _ stored _ => Or.inl stored⟩

/-- One workflow's turn, then those of the others. -/
theorem Polled.cons {middle : WorkflowHub} {row : WorkflowRow} {moved : ReviewWorkflow}
    (effect : TurnEffect hub middle row.data moved) (stored : row ∈ hub.workflows.rows)
    (active : row.data.state = .active) (sound : ∀ row ∈ hub.workflows.rows, row.Sound)
    (slots : ∀ id, (hub.store.board.slot id).Sound)
    (apart : ∀ flow ∈ flows, row.data.request.requestId ≠ flow.request.requestId)
    (rest : Polled middle next flows) : Polled hub next (row.data :: flows) := by
  have rows := effect.rows stored (sound row stored)
  have own : RowMove row { row with data := moved } := effect.moved.rowMove active
  have last : ({ row with data := moved } : WorkflowRow) ∈ next.workflows.rows := by
    refine rest.others _ ((rows _).mpr (Or.inl rfl)) fun flow member => ?_
    change row.id ≠ _
    rw [(sound row stored).id]
    exact apart flow member
  refine ⟨effect.kept.trans rest.board, rest.sound, ?_, ?_, ?_, ?_,
    fun task => rest.shut task ∘ effect.shut task, ?_⟩
  · intro other member
    by_cases same : other.id = row.id
    · obtain rfl := WorkflowHub.eq_of_id member stored same
      exact ⟨_, last, own⟩
    · exact rest.rows other ((rows other).mpr (Or.inr ⟨member, same⟩))
  · intro later member
    obtain ⟨between, inMiddle, after⟩ := rest.back later member
    rcases (rows between).mp inMiddle with rfl | ⟨inHub, _⟩
    · exact ⟨row, stored, own.trans after⟩
    · exact ⟨between, inHub, after⟩
  · intro other member elsewhere
    have alone : other.id ≠ row.id := by
      rw [(sound row stored).id]
      exact elsewhere row.data List.mem_cons_self
    refine rest.others other ((rows other).mpr (Or.inr ⟨member, alone⟩)) fun flow inRest => ?_
    exact elsewhere flow (List.mem_cons_of_mem _ inRest)
  · intro id present
    rcases rest.staged id present with before | current
    · rcases effect.staged id before with inHub | rfl
      · exact Or.inl inHub
      · exact Or.inr ⟨_, last, rfl⟩
    · exact Or.inr current
  · intro later member inactive
    rcases rest.leaves later member inactive with inMiddle | shut
    · rcases (rows later).mp inMiddle with rfl | ⟨inHub, _⟩
      · exact Or.inr (rest.shut _ (effect.leaves slots inactive))
      · exact Or.inl inHub
    · exact Or.inr shut

/-- The rest of a poll still finds its workflows as they were read. -/
theorem Awaiting.rest {row : WorkflowRow} {moved : ReviewWorkflow}
    (awaiting : Awaiting hub (row.data :: flows)) (effect : TurnEffect hub next row.data moved)
    (stored : row ∈ hub.workflows.rows) (sound : ∀ row ∈ hub.workflows.rows, row.Sound) :
    Awaiting next flows := by
  obtain ⟨apart, once⟩ := List.pairwise_cons.mp awaiting.once
  refine ⟨?_, fun flow member => awaiting.active flow (List.mem_cons_of_mem _ member), once⟩
  intro flow member
  obtain ⟨other, inHub, rfl⟩ := awaiting.read flow (List.mem_cons_of_mem _ member)
  refine ⟨other, (effect.rows stored (sound row stored) other).mpr (Or.inr ⟨inHub, ?_⟩), rfl⟩
  intro same
  refine apart other.data member ?_
  rw [← (sound row stored).id, ← (sound other inHub).id, same]

theorem TurnEffect.sound {row : WorkflowRow} {moved : ReviewWorkflow}
    (effect : TurnEffect hub next row.data moved) (stored : row ∈ hub.workflows.rows)
    (sound : ∀ row ∈ hub.workflows.rows, row.Sound) : ∀ row ∈ next.workflows.rows, row.Sound := by
  intro other member
  rcases (effect.rows stored (sound row stored) other).mp member with rfl | ⟨inHub, _⟩
  · exact effect.moved.sound (sound row stored)
  · exact sound other inHub

/-- Every workflow of a poll has its turn, whatever came of those before it. -/
theorem polled_advanceEach (index : Nat) (awaiting : Awaiting hub flows)
    (sound : ∀ row ∈ hub.workflows.rows, row.Sound)
    (slots : ∀ id, (hub.store.board.slot id).Sound) :
    Polled hub (advanceEach staging turns index flows hub) flows := by
  induction flows generalizing hub index with
  | nil => exact .refl sound
  | cons flow rest ih =>
    obtain ⟨row, stored, rfl⟩ := awaiting.read flow List.mem_cons_self
    have active := awaiting.active row.data List.mem_cons_self
    obtain ⟨moved, effect⟩ : ∃ moved,
        TurnEffect hub (advanceOne staging (turns index) hub row.data) row.data moved :=
      turnEffect_advanceOne active
    have others := ih (index + 1) (awaiting.rest effect stored sound) (effect.sound stored sound)
      (fun id => (effect.kept.slots id).sound (slots id))
    exact .cons effect stored active sound slots (List.pairwise_cons.mp awaiting.once).1 others

theorem advanceEach_append (index : Nat) (first second : List ReviewWorkflow) :
    advanceEach staging turns index (first ++ second) hub =
      advanceEach staging turns (index + first.length) second
        (advanceEach staging turns index first hub) := by
  induction first generalizing hub index with
  | nil => rfl
  | cons flow rest ih =>
    rw [List.cons_append, advanceEach, ih, advanceEach, List.length_cons, Nat.add_assoc,
      Nat.add_comm 1]

/-- What a poll reads: the active workflows of an owner. -/
def WorkflowHub.activeFlows (hub : WorkflowHub) (owner : String) : List ReviewWorkflow :=
  (hub.activeRows owner).map WorkflowRow.data

theorem WorkflowHub.Sound.advanceOwner (sound : hub.Sound) (owner : String) :
    advanceOwner staging turns hub owner =
      advanceEach staging turns 0 (hub.activeFlows owner) hub := by
  rw [LocalHub.advanceOwner, List.take_of_length_le (sound.active owner)]
  rfl

theorem WorkflowHub.Sound.awaiting (sound : hub.Sound) (owner : String) :
    Awaiting hub (hub.activeFlows owner) := by
  refine ⟨?_, ?_, ?_⟩
  · intro flow member
    obtain ⟨row, inActive, rfl⟩ := List.mem_map.mp member
    exact ⟨row, (List.mem_filter.mp inActive).1, rfl⟩
  · intro flow member
    obtain ⟨row, inActive, rfl⟩ := List.mem_map.mp member
    have selected := (List.mem_filter.mp inActive).2
    rw [Bool.and_eq_true] at selected
    exact of_decide_eq_true selected.2
  · apply List.pairwise_map.mpr
    have distinct := hub.workflows.distinct.filter
      (fun row => row.owner = owner && row.data.state = .active)
    refine distinct.imp_of_mem ?_
    intro first second inFirst inSecond apart same
    have firstSound := sound.rows first (List.mem_filter.mp inFirst).1
    have secondSound := sound.rows second (List.mem_filter.mp inSecond).1
    exact apart (Or.inl (firstSound.id.trans (same.trans secondSound.id.symm)))

theorem polled_advanceOwner (sound : hub.Sound) (owner : String) :
    Polled hub (advanceOwner staging turns hub owner) (hub.activeFlows owner) := by
  rw [sound.advanceOwner]
  exact polled_advanceEach 0 (sound.awaiting owner) sound.rows sound.slots

end Polls

end OHHive.LocalHub
