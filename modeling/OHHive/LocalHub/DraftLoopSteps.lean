import OHHive.LocalHub.CheckpointRows
import OHHive.LocalHub.DraftLoop

/-! What the worker's loop keeps: how many strides a state has behind it, which of them wrote its
draft, and that its step is no earlier than that of the stored checkpoint. -/

namespace OHHive.LocalHub

open Foundation

section Strides

/-- The text of the last stride that wrote the deliverable; only critiques came after it. -/
def LastWritten (strides : List Stride) (draft : Option Text) : Prop :=
  ∃ before last after, strides = before ++ last :: after ∧ last.phase.writes = true ∧
    last.inferred.truncated = false ∧ (∀ stride ∈ after, stride.phase = .critique) ∧
    draft = some last.inferred.text

def revised (strides : List Stride) : Nat := strides.countP fun stride => stride.phase = .revise

/-- How many strides a state of a phase has behind it. -/
def Phase.Fits (phase : Phase) (revisions count : Nat) : Prop :=
  match phase with
  | .waitingOnChild | .draft => count = 0 ∧ revisions = 0
  | .critique => count = 2 * revisions + 1 ∧ revisions ≤ maxRevisions
  | .revise => count = 2 * revisions + 2 ∧ revisions < maxRevisions
  | .done => 0 < count ∧ count ≤ 6 ∧ revisions ≤ maxRevisions

/-- The strides that led to a state. -/
structure Led (state : LoopState) (strides : List Stride) : Prop where
  version : state.version = loopStateVersion
  step : state.step = strides.length
  revisions : state.revisions = revised strides
  fits : state.phase.Fits state.revisions strides.length
  draft : strides ≠ [] → LastWritten strides state.draft

variable {worker : DraftWorker} {state : LoopState} {strides : List Stride} {inferred : Inferred}
  {single : Bool}

theorem LastWritten.append {draft : Option Text} (last : LastWritten strides draft)
    {stride : Stride} (critique : stride.phase = .critique) :
    LastWritten (strides ++ [stride]) draft := by
  obtain ⟨before, written, after, rfl, writes, whole, critiques, text⟩ := last
  refine ⟨before, written, after ++ [stride], by simp, writes, whole, ?_, text⟩
  intro other member
  rcases List.mem_append.mp member with earlier | same
  · exact critiques other earlier
  · rw [List.mem_singleton.mp same]
    exact critique

theorem lastWritten_concat {stride : Stride} (writes : stride.phase.writes = true)
    (whole : stride.inferred.truncated = false) :
    LastWritten (strides ++ [stride]) (some stride.inferred.text) :=
  ⟨strides, stride, [], rfl, writes, whole, nofun, rfl⟩

theorem revised_concat (strides : List Stride) (stride : Stride) :
    revised (strides ++ [stride]) = revised strides + if stride.phase = .revise then 1 else 0 := by
  simp [revised, List.countP_append, List.countP_singleton]

theorem Led.revised_le (led : Led state strides) : revised strides ≤ maxRevisions := by
  have fits := led.fits
  rw [← led.revisions]
  cases phase : state.phase <;> rw [phase] at fits <;> simp only [Phase.Fits] at fits <;> omega

theorem Led.length_lt (led : Led state strides) (unfinished : state.phase ≠ .done) :
    strides.length < 6 := by
  have fits := led.fits
  cases phase : state.phase with
  | done => exact absurd phase unfinished
  | waitingOnChild =>
    rw [phase] at fits
    exact fits.1 ▸ by decide
  | draft =>
    rw [phase] at fits
    exact fits.1 ▸ by decide
  | critique =>
    rw [phase] at fits
    simp only [Phase.Fits, maxRevisions] at fits
    omega
  | revise =>
    rw [phase] at fits
    simp only [Phase.Fits, maxRevisions] at fits
    omega

theorem Led.length_le (led : Led state strides) : strides.length ≤ 6 := by
  by_cases done : state.phase = .done
  · have fits := led.fits
    rw [done] at fits
    exact fits.2.1
  · exact (led.length_lt done).le

theorem led_new (model : Option String) : Led (LoopState.new model) [] where
  version := rfl
  step := rfl
  revisions := rfl
  fits := ⟨rfl, rfl⟩
  draft := fun some => absurd rfl some

/-- What a step keeps of the strides behind its state. -/
theorem Led.afterReply (led : Led state strides) (whole : cutOff state.phase inferred = false)
    (unfinished : state.phase ≠ .done) (unblocked : state.phase ≠ .waitingOnChild) :
    Led (LocalHub.afterReply worker single state inferred)
      (strides ++ [⟨state.phase, inferred⟩]) := by
  have fits := led.fits
  have uncut (writes : state.phase ≠ .critique) : inferred.truncated = false := by
    rw [cutOff, Bool.and_eq_false_iff, decide_eq_false_iff_not] at whole
    exact whole.resolve_right fun critique => critique writes
  have length : (strides ++ [Stride.mk state.phase inferred]).length = strides.length + 1 :=
    List.length_append
  have count := revised_concat strides ⟨state.phase, inferred⟩
  have step := led.step
  have revisions := led.revisions
  cases phase : state.phase with
  | done => exact absurd phase unfinished
  | waitingOnChild => exact absurd phase unblocked
  | draft =>
    rw [phase] at fits count length uncut
    obtain ⟨none, unrevised⟩ := fits
    simp only [LocalHub.afterReply, phase, counted]
    refine ⟨led.version, ?_, ?_, ?_, ?_⟩
    · rw [length, step]
    · rw [count, revisions]
      rfl
    · rw [length, none, unrevised]
      cases single
      · exact ⟨rfl, Nat.zero_le _⟩
      · exact ⟨by decide, by decide, Nat.zero_le _⟩
    · intro _
      exact lastWritten_concat rfl (uncut (by decide))
  | critique =>
    rw [phase] at fits count length
    obtain ⟨odd, bounded⟩ := fits
    have written : strides ≠ [] := by
      rintro rfl
      rw [List.length_nil] at odd
      omega
    simp only [LocalHub.afterReply, phase, counted]
    refine ⟨led.version, ?_, ?_, ?_, ?_⟩
    · rw [length, step]
    · rw [count, revisions]
      rfl
    · rw [length]
      split
      · simp only [Phase.Fits, maxRevisions] at bounded ⊢
        omega
      · rename_i continues
        rw [Bool.not_eq_true, Bool.or_eq_false_iff, decide_eq_false_iff_not] at continues
        simp only [Phase.Fits]
        omega
    · intro _
      exact (led.draft written).append rfl
  | revise =>
    rw [phase] at fits count length uncut
    obtain ⟨even, bounded⟩ := fits
    simp only [LocalHub.afterReply, phase, counted]
    refine ⟨led.version, ?_, ?_, ?_, ?_⟩
    · rw [length, step]
    · rw [count, revisions]
      rfl
    · rw [length]
      simp only [Phase.Fits]
      omega
    · intro _
      exact lastWritten_concat rfl (uncut (by decide))

theorem step_afterReply (worker : DraftWorker) (single : Bool) (state : LoopState)
    (inferred : Inferred) : (afterReply worker single state inferred).step = state.step + 1 := by
  unfold afterReply
  split <;> rfl

theorem afterReply_unblocked (unblocked : state.phase ≠ .waitingOnChild) :
    (afterReply worker single state inferred).phase ≠ .waitingOnChild := by
  unfold afterReply
  split
  · dsimp only
    split <;> nofun
  · dsimp only
    split <;> nofun
  · nofun
  · rename_i done
    exact fun same => nomatch done.symm.trans same
  · rename_i waits
    exact absurd waits unblocked

/-- A resumed state has the strides of the checkpoint. -/
theorem Led.resumed (led : Led state strides) (read : String → Option Text)
    (model : Option String) :
    Led (resumeChild read { state with model }) strides ∧
      (resumeChild read { state with model }).phase ≠ .waitingOnChild := by
  obtain ⟨version, step, revisions, fits, draft⟩ := led
  unfold resumeChild
  by_cases waits : state.phase = .waitingOnChild
  · rw [waits] at fits
    have drafts : Phase.draft.Fits state.revisions strides.length := fits
    rw [if_pos waits]
    split
    · split
      · exact ⟨⟨version, step, revisions, drafts, draft⟩, by simp⟩
      · exact ⟨⟨version, step, revisions, drafts, draft⟩, by simp⟩
    · exact ⟨⟨version, step, revisions, drafts, draft⟩, by simp⟩
  · rw [if_neg waits]
    exact ⟨⟨version, step, revisions, fits, draft⟩, waits⟩

theorem step_resumeChild (read : String → Option Text) (state : LoopState) :
    (resumeChild read state).step = state.step := by
  unfold resumeChild
  split
  · split
    · split <;> rfl
    · rfl
  · rfl

end Strides

section Cards

variable {worker : DraftWorker} {run later : CardRun} {input : Input} {answered : Bool}

/-- The step that a worker saves next, or saved last. -/
def Stage.due : Stage → Nat
  | .tools => 0
  | .blocking state _ | .awaiting state _ | .looping state | .saving state
  | .finishing state => state.step

/-- What holds of a worker's card at each stage. -/
def CardRun.Sound (run : CardRun) : Prop :=
  match run.stage with
  | .tools => run.strides = [] ∧ run.claimed.checkpoint = none
  | .blocking state _ | .awaiting state _ =>
    run.strides = [] ∧ Led state [] ∧ state.phase = .waitingOnChild
  | .looping state =>
    Led state run.strides ∧ state.phase ≠ .waitingOnChild ∧ state.phase ≠ .done
  | .saving state => Led state run.strides ∧ state.phase ≠ .waitingOnChild ∧ state.phase ≠ .done
  | .finishing state => Led state run.strides ∧ state.phase = .done

theorem CardRun.Sound.revised_le (sound : run.Sound) : revised run.strides ≤ maxRevisions := by
  unfold CardRun.Sound at sound
  split at sound
  · rw [sound.1]
    exact Nat.zero_le _
  · rw [sound.1]
    exact Nat.zero_le _
  · rw [sound.1]
    exact Nat.zero_le _
  · exact sound.1.revised_le
  · exact sound.1.revised_le
  · exact sound.1.revised_le

/-- A worker in its loop has an inference left. -/
def CardRun.Bounded (run : CardRun) : Prop :=
  match run.stage with
  | .looping _ => run.strides.length < 6
  | _ => run.strides.length ≤ 6

theorem CardRun.Sound.bounded (sound : run.Sound) : run.Bounded := by
  obtain ⟨hub, claimed, stage, strides⟩ := run
  have none (fresh : strides = []) : strides.length ≤ 6 := by
    rw [fresh]
    exact Nat.zero_le _
  cases stage with
  | tools => exact none sound.1
  | blocking state child => exact none sound.1
  | awaiting state child => exact none sound.1
  | looping state => exact sound.1.length_lt sound.2.2
  | saving state => exact sound.1.length_le
  | finishing state => exact sound.1.length_le

theorem sound_toolStage (hub : Session) (claimed : Claimed) (found : ToolPhaseResult) :
    (CardRun.mk hub claimed (toolStage worker claimed.card found) []).Sound ∧
      (toolStage worker claimed.card found).due = 0 := by
  have fresh := led_new (worker.model claimed.card)
  unfold toolStage CardRun.Sound
  cases found.waitOnChild with
  | none =>
    exact ⟨⟨⟨rfl, rfl, rfl, fresh.fits, fresh.draft⟩, by simp [LoopState.new],
      by simp [LoopState.new]⟩, rfl⟩
  | some child =>
    exact ⟨⟨rfl, ⟨rfl, rfl, rfl, fresh.fits, fresh.draft⟩, rfl⟩, rfl⟩

end Cards

end OHHive.LocalHub
