import Usdd.Foundation.Reentrant
/-!
# Contracts behind a lock

An entry point that takes a lock, runs its body and releases the lock refuses every call made
while the lock is taken. A run then keeps every invariant of log, world and storage that its
returning calls keep, that drifts of the world keep, and that a logged revert does not disturb.
-/
namespace Usdd.Foundation.Reentrant

variable {World Storage Request Reply Error α Call Result : Type}
  {env : Environment World Request Reply}
  {contract : Call → Program World Storage Request Reply Error Result}
  {world world' : World} {storage storage' : Storage}

/-- Refuse the call while the lock is taken; otherwise take it, run the body and release it. -/
def Program.locking (taken : Storage → Prop) [DecidablePred taken] (refusal : Error)
    (take release : Storage → Storage)
    (body : Program World Storage Request Reply Error α) :
    Program World Storage Request Reply Error α := do
  let storage ← Program.load
  Program.revertIf (taken storage) refusal
  Program.update take
  let result ← body
  Program.update release
  return result

section Locking

variable {taken : Storage → Prop} [DecidablePred taken] {refusal : Error}
  {take release : Storage → Storage} {body : Program World Storage Request Reply Error α}

/-- A body behind a lock runs with the lock taken and releases it. -/
theorem returns_locking {result : α} :
    Returns env contract (Program.locking taken refusal take release body) world storage result
        world' storage' ↔
      ¬taken storage ∧ ∃ kept,
        Returns env contract body world (take storage) result world' kept ∧
        release kept = storage' := by
  simp only [Program.locking, returns_bind, returns_load, returns_revertIf, returns_update,
    returns_pure]
  constructor
  · rintro ⟨_, _, _, ⟨rfl, rfl, rfl⟩, _, _, _, ⟨free, rfl, rfl⟩, _, _, _, ⟨rfl, rfl⟩, _, _, kept,
      ran, _, _, _, ⟨rfl, rfl⟩, rfl, rfl, rfl⟩
    exact ⟨free, kept, ran, rfl⟩
  · rintro ⟨free, kept, ran, rfl⟩
    exact ⟨_, _, _, ⟨rfl, rfl, rfl⟩, (), _, _, ⟨free, rfl, rfl⟩, (), _, _, ⟨rfl, rfl⟩,
      _, _, kept, ran, (), _, _, ⟨rfl, rfl⟩, rfl, rfl, rfl⟩

/-- A taken lock refuses at once, whatever the body is. -/
theorem locking_refuses (held : taken storage) :
    Program.locking taken refusal take release body world storage = .reverted refusal := by
  change (if taken storage then Execution.reverted refusal
    else Execution.returned () world storage).andThen _ = _
  rw [if_pos held]
  rfl

end Locking

/-- An invariant of log, world and storage that returning calls and drifts keep, and that a
logged revert does not disturb, holds along every run. -/
theorem Run.preserves {I : List (Call × Except Error Result) → World → Storage → Prop}
    (returns : ∀ log call world storage value world' storage', I log world storage →
      Returns env contract (contract call) world storage value world' storage' →
      I (log ++ [(call, .ok value)]) world' storage')
    (reverts : ∀ log call world storage error, I log world storage →
      I (log ++ [(call, .error error)]) world storage)
    (drifts : ∀ log world world' storage, I log world storage → env.drifts world world' →
      I log world' storage)
    {first last : World} {initial kept : Storage} {log : List (Call × Except Error Result)}
    (run : Run env contract first initial log last kept) (holds : I [] first initial) :
    I log last kept := by
  induction run with
  | start => exact holds
  | drift _ drifted ih => exact drifts _ _ _ _ (ih holds) drifted
  | call call _ done ih =>
    rename_i final _
    cases final with
    | reverted error => exact reverts _ _ _ _ _ (ih holds)
    | returned value world' storage' => exact returns _ _ _ _ _ _ _ (ih holds) done

end Usdd.Foundation.Reentrant
