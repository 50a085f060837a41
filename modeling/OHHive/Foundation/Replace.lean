import Mathlib.Data.List.Infix

/-! Replacing every occurrence of a pattern in a text, from left to right and without overlap, as
`str::replace` does. -/

namespace OHHive.Foundation

universe u

variable {α : Type u} [DecidableEq α]

/-- `skip` counts the symbols of the last match that are still to be passed over. -/
def replaceFrom (pattern change : List α) (skip : Nat) : List α → List α
  | [] => []
  | head :: rest =>
    if skip > 0 then replaceFrom pattern change (skip - 1) rest
    else if pattern.isPrefixOf (head :: rest) then
      change ++ replaceFrom pattern change (pattern.length - 1) rest
    else head :: replaceFrom pattern change 0 rest

def replaceAll (pattern change text : List α) : List α := replaceFrom pattern change 0 text

section Rules

variable {pattern change text rest block : List α} {head mark : α}

theorem replaceFrom_skip (skip : Nat) (text : List α) :
    replaceFrom pattern change skip text = replaceAll pattern change (text.drop skip) := by
  induction text generalizing skip with
  | nil =>
    rw [List.drop_nil]
    rfl
  | cons head rest ih =>
    cases skip with
    | zero => rfl
    | succ skip =>
      rw [List.drop_succ_cons, ← ih skip]
      rfl

theorem replaceAll_match (filled : pattern ≠ []) :
    replaceAll pattern change (pattern ++ rest) = change ++ replaceAll pattern change rest := by
  cases pattern with
  | nil => exact absurd rfl filled
  | cons first others =>
    have starts : (first :: others).isPrefixOf (first :: (others ++ rest)) = true :=
      List.isPrefixOf_iff_prefix.mpr ⟨rest, rfl⟩
    rw [replaceAll, List.cons_append, replaceFrom, if_neg (Nat.lt_irrefl 0), if_pos starts,
      replaceFrom_skip, List.length_cons, Nat.add_sub_cancel, List.drop_left]

theorem replaceAll_cons (apart : ¬ pattern <+: head :: rest) :
    replaceAll pattern change (head :: rest) = head :: replaceAll pattern change rest := by
  rw [replaceAll, replaceFrom, if_neg (Nat.lt_irrefl 0),
    if_neg fun found => apart (List.isPrefixOf_iff_prefix.mp found)]
  rfl

omit [DecidableEq α] in
theorem not_prefix_of_head {first : α} {others : List α} (apart : first ≠ head) :
    ¬ first :: others <+: head :: rest := by
  intro found
  exact apart (List.cons_prefix_cons.mp found).1

/-- Symbols at which no match can start are copied. -/
theorem replaceAll_copy {others : List α} (free : mark ∉ block) (rest : List α) :
    replaceAll (mark :: others) change (block ++ rest) =
      block ++ replaceAll (mark :: others) change rest := by
  induction block with
  | nil => rfl
  | cons head tail ih =>
    rw [List.mem_cons, not_or] at free
    rw [List.cons_append, replaceAll_cons (not_prefix_of_head free.1), ih free.2]
    rfl

theorem replaceAll_of_not_infix (absent : ¬ pattern <:+: text) :
    replaceAll pattern change text = text := by
  induction text with
  | nil => rfl
  | cons head rest ih =>
    have later : ¬ pattern <:+: rest := fun found =>
      absent (found.trans (List.suffix_cons head rest).isInfix)
    rw [replaceAll_cons fun found => absent found.isInfix, ih later]

end Rules

section Codes

variable {before after : α → List α} {change body : List α} {mark special : α}

/-- A code word that the pattern does not start: one plain symbol, or the mark with a body. -/
def Silent (mark : α) (body : List α) (symbol : α) (word : List α) : Prop :=
  word = [symbol] ∧ symbol ≠ mark ∨
    ∃ others, word = mark :: others ∧ mark ∉ others ∧
      ∀ rest, ¬ body <+: others ++ rest

theorem replaceAll_silent {symbol : α} {word : List α} (silent : Silent mark body symbol word)
    (rest : List α) :
    replaceAll (mark :: body) change (word ++ rest) =
      word ++ replaceAll (mark :: body) change rest := by
  rcases silent with ⟨rfl, plain⟩ | ⟨others, rfl, free, apart⟩
  · exact replaceAll_copy (fun member => plain (List.mem_singleton.mp member).symm) rest
  · have missed : ¬ mark :: body <+: mark :: (others ++ rest) := fun found =>
      apart rest (List.cons_prefix_cons.mp found).2
    rw [List.cons_append, replaceAll_cons missed, replaceAll_copy free]
    rfl

/-- Replacing a code word changes the coding: that word is replaced and the others stay. -/
theorem replaceAll_code (text : List α)
    (codes : ∀ symbol, before symbol = mark :: body ∧ after symbol = change ∨
      after symbol = before symbol ∧ Silent mark body symbol (before symbol)) :
    replaceAll (mark :: body) change (text.flatMap before) = text.flatMap after := by
  induction text with
  | nil => rfl
  | cons symbol rest ih =>
    rw [List.flatMap_cons, List.flatMap_cons]
    rcases codes symbol with ⟨word, changed⟩ | ⟨same, silent⟩
    · rw [word, changed, replaceAll_match (List.cons_ne_nil _ _), ih]
    · rw [same, replaceAll_silent silent, ih]

omit [DecidableEq α] in
/-- A plain word before a coded text is a plain word before the text itself. -/
theorem prefix_flatMap_iff {word text : List α} (plain : ∀ symbol ∈ word, before symbol = [symbol])
    (codes : ∀ symbol, before symbol = [symbol] ∨ ∃ others, before symbol = mark :: others)
    (free : mark ∉ word) : word <+: text.flatMap before ↔ word <+: text := by
  induction word generalizing text with
  | nil => exact ⟨fun _ => List.nil_prefix, fun _ => List.nil_prefix⟩
  | cons first others ih =>
    rw [List.mem_cons, not_or] at free
    have later : ∀ text : List α, others <+: text.flatMap before ↔ others <+: text := fun _ => ih
      (fun symbol member => plain symbol (List.mem_cons_of_mem _ member)) free.2
    cases text with
    | nil => simp
    | cons symbol rest =>
      rw [List.flatMap_cons]
      rcases codes symbol with single | ⟨tail, word⟩
      · rw [single, List.singleton_append, List.cons_prefix_cons, List.cons_prefix_cons, later]
      · rw [word, List.cons_append, List.cons_prefix_cons, List.cons_prefix_cons]
        constructor
        · exact fun found => absurd found.1.symm free.1
        · rintro ⟨rfl, _⟩
          have single := plain first List.mem_cons_self
          rw [word] at single
          exact absurd (List.cons.inj single).1 free.1

/-- When the mark itself is not coded, a literal copy of the code word is replaced as well. -/
theorem replaceAll_code_literal (text : List α) (apart : special ≠ mark) (free : mark ∉ body)
    (coded : before special = mark :: body) (decoded : after special = [special])
    (literal : before mark = [mark]) (kept : after mark = [mark])
    (plain : ∀ symbol ∈ body, before symbol = [symbol])
    (codes : ∀ symbol, symbol ≠ special → symbol ≠ mark →
      after symbol = before symbol ∧ Silent mark body symbol (before symbol)) :
    replaceAll (mark :: body) [special] (text.flatMap before) =
      (replaceAll (mark :: body) [special] text).flatMap after := by
  have words : ∀ symbol, before symbol = [symbol] ∨ ∃ others, before symbol = mark :: others := by
    intro symbol
    by_cases isSpecial : symbol = special
    · exact Or.inr ⟨body, isSpecial ▸ coded⟩
    · by_cases isMark : symbol = mark
      · exact Or.inl (isMark ▸ literal)
      · rcases (codes symbol isSpecial isMark).2 with ⟨single, _⟩ | ⟨others, word, _⟩
        · exact Or.inl single
        · exact Or.inr ⟨others, word⟩
  have copied : ∀ {code : α → List α} (word : List α), (∀ symbol ∈ word, code symbol = [symbol]) →
      word.flatMap code = word := by
    intro code word single
    induction word with
    | nil => rfl
    | cons first others ih =>
      rw [List.flatMap_cons, single first List.mem_cons_self,
        ih fun symbol member => single symbol (List.mem_cons_of_mem _ member)]
      rfl
  induction size : text.length using Nat.strongRecOn generalizing text with
  | ind size ih =>
    subst size
    cases text with
    | nil => rfl
    | cons symbol rest =>
      have onward := ih _ (Nat.lt_succ_self rest.length) rest rfl
      rw [List.flatMap_cons]
      by_cases isSpecial : symbol = special
      · subst isSpecial
        rw [coded, replaceAll_match (List.cons_ne_nil _ _), onward,
          replaceAll_cons (not_prefix_of_head apart.symm), List.flatMap_cons, decoded]
      · by_cases isMark : symbol = mark
        · subst isMark
          rw [literal]
          by_cases found : body <+: rest
          · obtain ⟨tail, rfl⟩ := found
            have shorter : tail.length < (symbol :: (body ++ tail)).length := by
              rw [List.length_cons, List.length_append]
              omega
            have replaced : ∀ rest, replaceAll (symbol :: body) [special]
                (symbol :: (body ++ rest)) =
                  special :: replaceAll (symbol :: body) [special] rest := fun rest =>
              replaceAll_match (List.cons_ne_nil symbol body)
            rw [List.flatMap_append, copied body plain, List.singleton_append, replaced, replaced,
              ih _ shorter tail rfl, List.flatMap_cons, decoded]
            rfl
          · have missed : ¬ symbol :: body <+: symbol :: rest.flatMap before := by
              intro hit
              have inside := (List.cons_prefix_cons.mp hit).2
              exact found ((prefix_flatMap_iff plain words free).mp inside)
            rw [List.singleton_append, replaceAll_cons missed, onward,
              replaceAll_cons fun hit => found (List.cons_prefix_cons.mp hit).2, List.flatMap_cons,
              kept]
            rfl
        · obtain ⟨same, silent⟩ := codes symbol isSpecial isMark
          rw [replaceAll_silent silent, onward,
            replaceAll_cons (not_prefix_of_head (Ne.symm isMark)), List.flatMap_cons, same]

end Codes

section Counting

variable {pattern change : List α} {counted : α → Bool}

/-- A change that counts less than the pattern lowers the count, wherever the pattern occurs. -/
theorem countP_replaceAll (filled : pattern ≠ [])
    (less : change.countP counted < pattern.countP counted) (text : List α) :
    (replaceAll pattern change text).countP counted ≤ text.countP counted ∧
      (pattern <:+: text →
        (replaceAll pattern change text).countP counted < text.countP counted) := by
  induction size : text.length using Nat.strongRecOn generalizing text with
  | ind size ih =>
    subst size
    by_cases found : pattern <+: text
    · obtain ⟨rest, rfl⟩ := found
      have shorter : rest.length < (pattern ++ rest).length := by
        have := List.length_pos_iff.mpr filled
        rw [List.length_append]
        omega
      have lower := (ih _ shorter rest rfl).1
      rw [replaceAll_match filled, List.countP_append, List.countP_append]
      exact ⟨by omega, fun _ => by omega⟩
    · cases text with
      | nil => exact ⟨le_rfl, fun inside => absurd (List.infix_nil.mp inside) filled⟩
      | cons head rest =>
        obtain ⟨atMost, below⟩ := ih _ (Nat.lt_succ_self _) rest rfl
        rw [replaceAll_cons found, List.countP_cons, List.countP_cons]
        refine ⟨by omega, fun inside => ?_⟩
        rcases List.infix_cons_iff.mp inside with first | later
        · exact absurd first found
        · have := below later
          omega

end Counting

end OHHive.Foundation
