/-! A permit that is issued once, is held by one party at most, and is used at most once. -/

namespace OHHive.Foundation

universe u

/-- How far a permit has got: whether it was issued, who may still use it, and how often it was
used. -/
structure Permit (Party : Type u) where
  issued : Prop
  holder : Party → Prop
  uses : Nat

namespace Permit

variable {Party : Type u} {before after : Permit Party}

/-- What a step of a system may do to a permit. Holders may vanish in every move. -/
inductive Move (before after : Permit Party) : Prop
  | keep (issued : before.issued → after.issued)
      (holder : ∀ party, after.holder party → before.holder party)
      (uses : after.uses = before.uses)
  | issue (holds : Party) (fresh : ¬ before.issued) (issued : after.issued)
      (holder : ∀ party, after.holder party → party = holds ∨ before.holder party)
      (uses : after.uses = before.uses)
  | use (holds : Party) (held : before.holder holds) (issued : before.issued → after.issued)
      (holder : ∀ party, after.holder party → before.holder party ∧ party ≠ holds)
      (uses : after.uses = before.uses + 1)
  | spend (fresh : ¬ before.issued) (issued : after.issued)
      (holder : ∀ party, after.holder party → before.holder party)
      (uses : after.uses = before.uses + 1)

structure OneShot (permit : Permit Party) : Prop where
  unissued : ¬ permit.issued → (∀ party, ¬ permit.holder party) ∧ permit.uses = 0
  alone : ∀ first second, permit.holder first → permit.holder second → first = second
  unused : ∀ party, permit.holder party → permit.uses = 0
  once : permit.uses ≤ 1

/-- Every move keeps a permit one-shot. -/
theorem OneShot.move (oneShot : before.OneShot) (moved : Move before after) : after.OneShot := by
  cases moved with
  | keep issued holder uses =>
    refine ⟨?_, ?_, ?_, uses ▸ oneShot.once⟩
    · intro fresh
      obtain ⟨nobody, never⟩ := oneShot.unissued (fun was => fresh (issued was))
      exact ⟨fun party holds => nobody party (holder party holds), uses.trans never⟩
    · intro first second firstHolds secondHolds
      exact oneShot.alone first second (holder first firstHolds) (holder second secondHolds)
    · intro party holds
      exact uses.trans (oneShot.unused party (holder party holds))
  | issue holds fresh issued holder uses =>
    obtain ⟨nobody, never⟩ := oneShot.unissued fresh
    have only : ∀ party, after.holder party → party = holds :=
      fun party held => (holder party held).resolve_right (nobody party)
    refine ⟨fun open' => absurd issued open', ?_, ?_, ?_⟩
    · intro first second firstHolds secondHolds
      rw [only first firstHolds, only second secondHolds]
    · exact fun _ _ => uses.trans never
    · omega
  | use holds held issued holder uses =>
    have nobody : ∀ party, ¬ after.holder party := by
      intro party stays
      obtain ⟨was, other⟩ := holder party stays
      exact other (oneShot.alone party holds was held)
    refine ⟨?_, ?_, ?_, ?_⟩
    · intro open'
      exact absurd held ((oneShot.unissued (fun was => open' (issued was))).1 holds)
    · exact fun first _ firstHolds => absurd firstHolds (nobody first)
    · exact fun party stays => absurd stays (nobody party)
    · have never := oneShot.unused holds held
      omega
  | spend fresh issued holder uses =>
    obtain ⟨nobody, never⟩ := oneShot.unissued fresh
    have none : ∀ party, ¬ after.holder party :=
      fun party stays => nobody party (holder party stays)
    refine ⟨fun open' => absurd issued open', ?_, ?_, ?_⟩
    · exact fun first _ firstHolds => absurd firstHolds (none first)
    · exact fun party stays => absurd stays (none party)
    · omega

end Permit

end OHHive.Foundation
