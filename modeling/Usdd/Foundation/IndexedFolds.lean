import Usdd.Foundation.Checks
/-!
# Loops over a list with positions, and sums by key

A loop goes through a list with the position of each item and keeps a state; its body may fail.
`FoldLaw` is the rule for such a loop: it gives a condition on lists that holds of a longer list
exactly where the body accepts the next item, and a relation between the items so far and the
state, and concludes that the loop succeeds exactly on the lists with the condition. What such a
loop often checks of two lists, that items with distinct keys each have a source under the same
key, bounds the sum of the items by that of the sources.
-/
namespace Usdd.Foundation

variable {ε σ α : Type}

/-- A loop over a list from a position on, whose body may fail. -/
def foldIndexed (step : Nat → σ → α → Except ε σ) : Nat → σ → List α → Except ε σ
  | _, state, [] => .ok state
  | position, state, item :: rest =>
    step position state item >>= fun next => foldIndexed step (position + 1) next rest

/-- The last step of a loop. -/
theorem foldIndexed_concat (step : Nat → σ → α → Except ε σ) (position : Nat) (state : σ)
    (items : List α) (last : α) :
    foldIndexed step position state (items ++ [last]) =
      foldIndexed step position state items >>= fun next =>
        step (position + items.length) next last := by
  induction items generalizing position state with
  | nil =>
    have single : foldIndexed step position state [last] = step position state last :=
      bind_pure _
    exact single
  | cons item rest ih =>
    rw [List.cons_append, foldIndexed, foldIndexed, bind_assoc, List.length_cons]
    refine bind_congr fun next => ?_
    rw [ih, Nat.add_assoc, Nat.add_comm 1]

/-- The rule for a loop: `Listed` is the condition it checks, `Holds` what its state knows of
the items so far. -/
structure FoldLaw (step : Nat → σ → α → Except ε σ) (start : σ) (Holds : List α → σ → Prop)
    (Listed : List α → Prop) : Prop where
  empty : Listed []
  start : Holds [] start
  closed : ∀ {before item}, Listed (before ++ [item]) → Listed before
  accepts : ∀ {before state item}, Listed before → Holds before state →
    (Succeeds (step before.length state item) ↔ Listed (before ++ [item]))
  keeps : ∀ {before state item next}, Holds before state →
    step before.length state item = .ok next → Holds (before ++ [item]) next

namespace FoldLaw

variable {step : Nat → σ → α → Except ε σ} {start : σ} {Holds : List α → σ → Prop}
  {Listed : List α → Prop}

/-- What the state after a loop knows of all items. -/
theorem holds (law : FoldLaw step start Holds Listed) {items : List α} {final : σ}
    (ran : foldIndexed step 0 start items = .ok final) : Holds items final := by
  induction items using List.reverseRecOn generalizing final with
  | nil =>
    obtain rfl : start = final := Except.ok.inj ran
    exact law.start
  | append_singleton items last ih =>
    rw [foldIndexed_concat, bind_eq_ok, Nat.zero_add] at ran
    obtain ⟨middle, early, late⟩ := ran
    exact law.keeps (ih early) late

/-- A loop succeeds exactly on the lists with its condition. -/
theorem succeeds (law : FoldLaw step start Holds Listed) (items : List α) :
    Succeeds (foldIndexed step 0 start items) ↔ Listed items := by
  induction items using List.reverseRecOn with
  | nil => exact iff_of_true (succeeds_ok start) law.empty
  | append_singleton items last ih =>
    rw [foldIndexed_concat, succeeds_bind, Nat.zero_add]
    constructor
    · rintro ⟨middle, early, late⟩
      exact (law.accepts (ih.mp ⟨middle, early⟩) (law.holds early)).mp late
    · intro listed
      obtain ⟨middle, early⟩ := ih.mpr (law.closed listed)
      exact ⟨middle, early, (law.accepts (law.closed listed) (law.holds early)).mpr listed⟩

end FoldLaw

section Sums

variable {β κ : Type}

/-- Items with distinct keys that each have a source of their key weigh no more than all the
sources. -/
theorem sum_le_of_keys {items : List α} {sources : List β} (key : α → κ) (keyOf : β → κ)
    (weight : α → Nat) (weightOf : β → Nat) (distinct : (items.map key).Nodup)
    (held : ∀ item ∈ items, ∃ source ∈ sources, keyOf source = key item ∧
      weight item ≤ weightOf source) :
    (items.map weight).sum ≤ (sources.map weightOf).sum := by
  induction items generalizing sources with
  | nil => exact Nat.zero_le _
  | cons item rest ih =>
    rw [List.map_cons, List.nodup_cons] at distinct
    obtain ⟨source, member, same, lighter⟩ := held item List.mem_cons_self
    obtain ⟨before, after, rfl⟩ := List.append_of_mem member
    -- the other items have other keys, hence sources among the others
    have others : (rest.map weight).sum ≤ ((before ++ after).map weightOf).sum := by
      refine ih distinct.2 fun next listed => ?_
      obtain ⟨found, present, equal, bound⟩ := held next (List.mem_cons_of_mem _ listed)
      have apart : found ≠ source := by
        rintro rfl
        exact distinct.1 (List.mem_map.mpr ⟨next, listed, equal.symm.trans same⟩)
      have kept : found ∈ before ++ after := by
        simpa [apart] using present
      exact ⟨found, kept, equal, bound⟩
    simp only [List.map_cons, List.sum_cons, List.map_append, List.sum_append] at others ⊢
    omega

end Sums

end Usdd.Foundation
