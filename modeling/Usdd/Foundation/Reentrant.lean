import Mathlib.Tactic
/-!
# Contracts that call out and may be re-entered

A contract function is a program that reads and writes its own storage, observes the world
around it, may revert, and may hand control to code it does not know. While such an external
call is open the world may change and the contract may be called again, to any depth; a call
that reverts leaves world and storage as they were. `Finishes` is the big-step meaning of one
execution and `Run` a sequence of calls with arbitrary changes of the world between them.

The rules below are what a proof about one contract needs: the effect of each program
constructor, sequencing, the rule for a storage that refuses every call (`Opens.locked`), and
the rule that an invariant kept by every call that returns holds along every run.
-/
namespace Usdd.Foundation.Reentrant

/-- One call of a contract, up to its next external call. -/
inductive Execution (World Storage Request Reply Error α : Type) where
  /-- The call reverts. -/
  | reverted (error : Error)
  /-- The call returns a value, leaving this world and storage. -/
  | returned (value : α) (world : World) (storage : Storage)
  /-- Control passes to other code, which answers a request and resumes the call. -/
  | calling (request : Request) (world : World) (storage : Storage)
      (resume : World → Storage → Reply → Execution World Storage Request Reply Error α)

/-- How a call ends. -/
inductive Final (World Storage Error α : Type) where
  /-- The call reverted. -/
  | reverted (error : Error)
  /-- The call returned. -/
  | returned (value : α) (world : World) (storage : Storage)

namespace Final

variable {World Storage Error α : Type}

/-- The world after a call; a call that reverts restores the one before it. -/
def worldAfter (before : World) : Final World Storage Error α → World
  | .reverted _ => before
  | .returned _ world _ => world

/-- The storage after a call; a call that reverts restores the one before it. -/
def storageAfter (before : Storage) : Final World Storage Error α → Storage
  | .reverted _ => before
  | .returned _ _ storage => storage

/-- What the caller sees. -/
def outcome : Final World Storage Error α → Except Error α
  | .reverted error => .error error
  | .returned value _ _ => .ok value

end Final

/-- A program of a contract: an execution from every world and storage. -/
def Program (World Storage Request Reply Error α : Type) : Type :=
  World → Storage → Execution World Storage Request Reply Error α

variable {World Storage Request Reply Error α β : Type}

/-- Continue an execution once it returns. -/
def Execution.andThen (execution : Execution World Storage Request Reply Error α)
    (next : α → Program World Storage Request Reply Error β) :
    Execution World Storage Request Reply Error β :=
  match execution with
  | .reverted error => .reverted error
  | .returned value world storage => next value world storage
  | .calling request world storage resume =>
    .calling request world storage fun world storage reply =>
      (resume world storage reply).andThen next

namespace Program

instance : Monad (Program World Storage Request Reply Error) where
  pure value := fun world storage => .returned value world storage
  bind program next := fun world storage => (program world storage).andThen next

/-- Abort the call. -/
def revert (error : Error) : Program World Storage Request Reply Error α :=
  fun _ _ => .reverted error

/-- Abort the call when the condition holds. -/
def revertIf (condition : Prop) [Decidable condition] (error : Error) :
    Program World Storage Request Reply Error Unit :=
  fun world storage => if condition then .reverted error else .returned () world storage

/-- The value of a computation that may fail with an error of the contract. -/
def ofExcept (computation : Except Error α) : Program World Storage Request Reply Error α :=
  fun world storage =>
    match computation with
    | .error error => .reverted error
    | .ok value => .returned value world storage

/-- Read the storage. -/
def load : Program World Storage Request Reply Error Storage :=
  fun world storage => .returned storage world storage

/-- Change the storage. -/
def update (change : Storage → Storage) : Program World Storage Request Reply Error Unit :=
  fun world storage => .returned () world (change storage)

/-- Look at the world without changing it. -/
def inspect (observe : World → α) : Program World Storage Request Reply Error α :=
  fun world storage => .returned (observe world) world storage

/-- Hand control to other code until it answers. -/
def call (request : Request) : Program World Storage Request Reply Error Reply :=
  fun world storage => .calling request world storage fun world storage reply =>
    .returned reply world storage

end Program

/-- What code outside the contract may do. -/
structure Environment (World Request Reply : Type) where
  /-- A step of other code while an external call is open. -/
  moves : World → World → Prop
  /-- The replies with which an open external call may end. -/
  answers : Request → World → Reply → Prop
  /-- A change of the world between two calls. -/
  drifts : World → World → Prop

/-- Code about which nothing is known. -/
def Environment.arbitrary : Environment World Request Reply :=
  ⟨fun _ _ => True, fun _ _ _ => True, fun _ _ => True⟩

section Semantics

variable {Call Result : Type} (env : Environment World Request Reply)
  (contract : Call → Program World Storage Request Reply Error Result)

mutual

/-- An execution ends in a final state, for some behaviour of the code it calls. -/
inductive Finishes : {α : Type} → Execution World Storage Request Reply Error α →
    Final World Storage Error α → Prop
  | reverted {α : Type} (error : Error) :
    Finishes (α := α) (.reverted error) (.reverted error)
  | returned {α : Type} (value : α) (world : World) (storage : Storage) :
    Finishes (.returned value world storage) (.returned value world storage)
  | calling {α : Type} {request : Request} {world world' : World} {storage storage' : Storage}
      {reply : Reply} {final : Final World Storage Error α}
      {resume : World → Storage → Reply → Execution World Storage Request Reply Error α} :
    Opens world storage world' storage' → env.answers request world' reply →
    Finishes (resume world' storage' reply) final →
    Finishes (.calling request world storage resume) final

/-- What may happen to world and storage while an external call is open. -/
inductive Opens : World → Storage → World → Storage → Prop
  | close (world : World) (storage : Storage) : Opens world storage world storage
  | move {world next world' : World} {storage storage' : Storage} :
    env.moves world next → Opens next storage world' storage' →
    Opens world storage world' storage'
  | reenter {world world' : World} {storage storage' : Storage} (call : Call)
      {final : Final World Storage Error Result} :
    Finishes (contract call world storage) final →
    Opens (final.worldAfter world) (final.storageAfter storage) world' storage' →
    Opens world storage world' storage'

end

/-- A program returns a value and leaves a world and a storage. -/
def Returns (program : Program World Storage Request Reply Error α) (world : World)
    (storage : Storage) (value : α) (world' : World) (storage' : Storage) : Prop :=
  Finishes env contract (program world storage) (.returned value world' storage')

/-- A program reverts with an error. -/
def Reverts (program : Program World Storage Request Reply Error α) (world : World)
    (storage : Storage) (error : Error) : Prop :=
  Finishes env contract (program world storage) (.reverted error)

section Rules

variable {env contract} {world world' : World} {storage storage' : Storage} {error : Error}

@[simp]
theorem finishes_reverted {final : Final World Storage Error α} :
    Finishes env contract (.reverted error) final ↔ final = .reverted error :=
  ⟨fun done => by cases done; rfl, fun same => same ▸ .reverted error⟩

@[simp]
theorem finishes_returned {value : α} {final : Final World Storage Error α} :
    Finishes env contract (.returned value world storage) final ↔
      final = .returned value world storage :=
  ⟨fun done => by cases done; rfl, fun same => same ▸ .returned value world storage⟩

theorem finishes_calling {request : Request} {final : Final World Storage Error α}
    {resume : World → Storage → Reply → Execution World Storage Request Reply Error α} :
    Finishes env contract (.calling request world storage resume) final ↔
      ∃ world' storage' reply, Opens env contract world storage world' storage' ∧
        env.answers request world' reply ∧
        Finishes env contract (resume world' storage' reply) final := by
  constructor
  · intro done
    cases done with
    | calling opened answered rest => exact ⟨_, _, _, opened, answered, rest⟩
  · rintro ⟨_, _, _, opened, answered, rest⟩
    exact .calling opened answered rest

/-- Sequencing: the first part reverts, or it returns and the rest ends the call. -/
theorem finishes_andThen (execution : Execution World Storage Request Reply Error α)
    (next : α → Program World Storage Request Reply Error β)
    (final : Final World Storage Error β) :
    Finishes env contract (execution.andThen next) final ↔
      (∃ error, Finishes env contract execution (.reverted error) ∧ final = .reverted error) ∨
        ∃ value world storage, Finishes env contract execution (.returned value world storage) ∧
          Finishes env contract (next value world storage) final := by
  induction execution with
  | reverted error => simp [Execution.andThen]
  | returned value world storage =>
    constructor
    · intro done
      exact Or.inr ⟨value, world, storage, .returned value world storage, done⟩
    · rintro (⟨error, wrong, _⟩ | ⟨value', world', storage', same, done⟩)
      · simp at wrong
      · obtain ⟨rfl, rfl, rfl⟩ := by simpa using same
        exact done
  | calling request world storage resume ih =>
    simp only [Execution.andThen, finishes_calling, ih]
    constructor
    · rintro ⟨world', storage', reply, opened, answered, ⟨error, failed, same⟩ |
        ⟨value, last, kept, first, rest⟩⟩
      · exact Or.inl ⟨error, ⟨world', storage', reply, opened, answered, failed⟩, same⟩
      · exact Or.inr ⟨value, last, kept, ⟨world', storage', reply, opened, answered, first⟩, rest⟩
    · rintro (⟨error, ⟨world', storage', reply, opened, answered, failed⟩, same⟩ |
        ⟨value, last, kept, ⟨world', storage', reply, opened, answered, first⟩, rest⟩)
      · exact ⟨world', storage', reply, opened, answered, Or.inl ⟨error, failed, same⟩⟩
      · exact ⟨world', storage', reply, opened, answered, Or.inr ⟨value, last, kept, first, rest⟩⟩

variable {program : Program World Storage Request Reply Error α}

@[simp]
theorem returns_bind {next : α → Program World Storage Request Reply Error β} {result : β} :
    Returns env contract (program >>= next) world storage result world' storage' ↔
      ∃ value middle kept, Returns env contract program world storage value middle kept ∧
        Returns env contract (next value) middle kept result world' storage' := by
  simp only [Returns]
  refine (finishes_andThen _ _ _).trans ⟨?_, Or.inr⟩
  rintro (⟨_, _, wrong⟩ | done)
  · cases wrong
  · exact done

@[simp]
theorem returns_pure {value result : α} :
    Returns env contract (pure value) world storage result world' storage' ↔
      value = result ∧ world = world' ∧ storage = storage' := by
  simp only [Returns]
  exact finishes_returned.trans (by simp [eq_comm])

@[simp]
theorem returns_revert {result : α} :
    ¬Returns env contract (Program.revert error) world storage result world' storage' := by
  simp [Returns, Program.revert]

@[simp]
theorem returns_revertIf {condition : Prop} [Decidable condition] {result : Unit} :
    Returns env contract (Program.revertIf condition error) world storage result world' storage' ↔
      ¬condition ∧ world = world' ∧ storage = storage' := by
  unfold Returns Program.revertIf
  split <;> simp_all [eq_comm]

@[simp]
theorem returns_ofExcept {computation : Except Error α} {result : α} :
    Returns env contract (Program.ofExcept computation) world storage result world' storage' ↔
      computation = .ok result ∧ world = world' ∧ storage = storage' := by
  unfold Returns Program.ofExcept
  cases computation <;> simp [eq_comm]

@[simp]
theorem returns_load {result : Storage} :
    Returns env contract Program.load world storage result world' storage' ↔
      storage = result ∧ world = world' ∧ storage = storage' := by
  simp [Returns, Program.load, eq_comm]

@[simp]
theorem returns_update {change : Storage → Storage} {result : Unit} :
    Returns env contract (Program.update change) world storage result world' storage' ↔
      world = world' ∧ change storage = storage' := by
  simp [Returns, Program.update, eq_comm]

@[simp]
theorem returns_inspect {observe : World → α} {result : α} :
    Returns env contract (Program.inspect observe) world storage result world' storage' ↔
      observe world = result ∧ world = world' ∧ storage = storage' := by
  simp [Returns, Program.inspect, eq_comm]

@[simp]
theorem returns_call {request : Request} {reply : Reply} :
    Returns env contract (Program.call request) world storage reply world' storage' ↔
      Opens env contract world storage world' storage' ∧ env.answers request world' reply := by
  simp only [Returns, Program.call, finishes_calling, finishes_returned, Final.returned.injEq]
  constructor
  · rintro ⟨_, _, _, opened, answered, rfl, rfl, rfl⟩
    exact ⟨opened, answered⟩
  · rintro ⟨opened, answered⟩
    exact ⟨_, _, _, opened, answered, rfl, rfl, rfl⟩

/-- A guard before the rest of a program. -/
@[simp high]
theorem returns_revertIf_bind {condition : Prop} [Decidable condition]
    {next : Unit → Program World Storage Request Reply Error β} {result : β} :
    Returns env contract (Program.revertIf condition error >>= next) world storage result world'
        storage' ↔
      ¬condition ∧ Returns env contract (next ()) world storage result world' storage' := by
  simp only [returns_bind, returns_revertIf]
  constructor
  · rintro ⟨_, _, _, ⟨passed, rfl, rfl⟩, rest⟩
    exact ⟨passed, rest⟩
  · rintro ⟨passed, rest⟩
    exact ⟨(), _, _, ⟨passed, rfl, rfl⟩, rest⟩

/-- A fallible computation before the rest of a program. -/
@[simp high]
theorem returns_ofExcept_bind {computation : Except Error α}
    {next : α → Program World Storage Request Reply Error β} {result : β} :
    Returns env contract (Program.ofExcept computation >>= next) world storage result world'
        storage' ↔
      ∃ value, computation = .ok value ∧
        Returns env contract (next value) world storage result world' storage' := by
  simp only [returns_bind, returns_ofExcept]
  constructor
  · rintro ⟨value, _, _, ⟨computed, rfl, rfl⟩, rest⟩
    exact ⟨value, computed, rest⟩
  · rintro ⟨value, computed, rest⟩
    exact ⟨value, _, _, ⟨computed, rfl, rfl⟩, rest⟩

/-- A read of the storage before the rest of a program. -/
@[simp high]
theorem returns_load_bind {next : Storage → Program World Storage Request Reply Error β}
    {result : β} :
    Returns env contract (Program.load >>= next) world storage result world' storage' ↔
      Returns env contract (next storage) world storage result world' storage' := by
  simp only [returns_bind, returns_load]
  constructor
  · rintro ⟨_, _, _, ⟨rfl, rfl, rfl⟩, rest⟩
    exact rest
  · exact fun rest => ⟨_, _, _, ⟨rfl, rfl, rfl⟩, rest⟩

/-- A change of the storage before the rest of a program. -/
@[simp high]
theorem returns_update_bind {change : Storage → Storage}
    {next : Unit → Program World Storage Request Reply Error β} {result : β} :
    Returns env contract (Program.update change >>= next) world storage result world' storage' ↔
      Returns env contract (next ()) world (change storage) result world' storage' := by
  simp only [returns_bind, returns_update]
  constructor
  · rintro ⟨_, _, _, ⟨rfl, rfl⟩, rest⟩
    exact rest
  · exact fun rest => ⟨(), _, _, ⟨rfl, rfl⟩, rest⟩

/-- A look at the world before the rest of a program. -/
@[simp high]
theorem returns_inspect_bind {observe : World → α}
    {next : α → Program World Storage Request Reply Error β} {result : β} :
    Returns env contract (Program.inspect observe >>= next) world storage result world'
        storage' ↔
      Returns env contract (next (observe world)) world storage result world' storage' := by
  simp only [returns_bind, returns_inspect]
  constructor
  · rintro ⟨_, _, _, ⟨rfl, rfl, rfl⟩, rest⟩
    exact rest
  · exact fun rest => ⟨_, _, _, ⟨rfl, rfl, rfl⟩, rest⟩

@[simp]
theorem reverts_bind {next : α → Program World Storage Request Reply Error β} :
    Reverts env contract (program >>= next) world storage error ↔
      Reverts env contract program world storage error ∨
        ∃ value middle kept, Returns env contract program world storage value middle kept ∧
          Reverts env contract (next value) middle kept error := by
  simp only [Returns, Reverts]
  refine (finishes_andThen _ _ _).trans (or_congr_left ?_)
  constructor
  · rintro ⟨_, failed, same⟩
    cases same
    exact failed
  · exact fun failed => ⟨error, failed, rfl⟩

/-- A guard before the rest of a program. -/
theorem reverts_revertIf_bind {condition : Prop} [Decidable condition] {failure : Error}
    {next : Unit → Program World Storage Request Reply Error β} :
    Reverts env contract (Program.revertIf condition failure >>= next) world storage error ↔
      (condition ∧ error = failure) ∨
        ¬condition ∧ Reverts env contract (next ()) world storage error := by
  rw [reverts_bind]
  simp only [Reverts, Returns, Program.revertIf]
  by_cases holds : condition
  · simp [holds]
  · simp only [holds, ↓reduceIte, finishes_returned, false_and, not_false_eq_true, true_and]
    simp
    exact ⟨fun ⟨_, done⟩ => done, fun done => ⟨(), done⟩⟩

/-- A fallible computation before the rest of a program. -/
theorem reverts_ofExcept_bind {computation : Except Error α}
    {next : α → Program World Storage Request Reply Error β} :
    Reverts env contract (Program.ofExcept computation >>= next) world storage error ↔
      computation = .error error ∨
        ∃ value, computation = .ok value ∧ Reverts env contract (next value) world storage error := by
  rw [reverts_bind]
  simp only [Reverts, Returns, Program.ofExcept]
  cases computation <;> simp [eq_comm]

/-- A read of the storage before the rest of a program. -/
theorem reverts_load_bind {next : Storage → Program World Storage Request Reply Error β} :
    Reverts env contract (Program.load >>= next) world storage error ↔
      Reverts env contract (next storage) world storage error := Iff.rfl

/-- A change of the storage before the rest of a program. -/
theorem reverts_update_bind {change : Storage → Storage}
    {next : Unit → Program World Storage Request Reply Error β} :
    Reverts env contract (Program.update change >>= next) world storage error ↔
      Reverts env contract (next ()) world (change storage) error := Iff.rfl

@[simp]
theorem reverts_pure {value : α} :
    ¬Reverts env contract (pure value) world storage error := by
  intro failed
  have wrong := finishes_returned.mp failed
  cases wrong

@[simp]
theorem reverts_revertIf {condition : Prop} [Decidable condition] {failure : Error} :
    Reverts env contract (Program.revertIf condition failure) world storage error ↔
      condition ∧ error = failure := by
  unfold Reverts Program.revertIf
  split <;> simp_all

@[simp]
theorem reverts_ofExcept {computation : Except Error α} :
    Reverts env contract (Program.ofExcept computation) world storage error ↔
      computation = .error error := by
  unfold Reverts Program.ofExcept
  cases computation <;> simp [eq_comm]

@[simp]
theorem reverts_load : ¬Reverts env contract Program.load world storage error := by
  simp [Reverts, Program.load]

@[simp]
theorem reverts_update {change : Storage → Storage} :
    ¬Reverts env contract (Program.update change) world storage error := by
  simp [Reverts, Program.update]

@[simp]
theorem reverts_inspect {observe : World → α} :
    ¬Reverts env contract (Program.inspect observe) world storage error := by
  simp [Reverts, Program.inspect]

@[simp]
theorem reverts_call {request : Request} :
    ¬Reverts env contract (Program.call request) world storage error := by
  simp [Reverts, Program.call, finishes_calling]

end Rules

/-- A storage from which every call reverts at once. -/
def Locked (storage : Storage) : Prop :=
  ∀ call world, ∃ error, contract call world storage = .reverted error

/-- While a locked contract is left open its storage does not change, and the world changes by
moves of other code only. -/
theorem Opens.locked {env : Environment World Request Reply}
    {contract : Call → Program World Storage Request Reply Error Result}
    {world world' : World} {storage storage' : Storage}
    (opened : Opens env contract world storage world' storage')
    (locked : Locked contract storage) :
    storage' = storage ∧ Relation.ReflTransGen env.moves world world' := by
  refine Opens.rec (motive_1 := fun _ _ _ => True)
    (motive_2 := fun world storage world' storage' _ => Locked contract storage →
      storage' = storage ∧ Relation.ReflTransGen env.moves world world')
    (fun _ => trivial) (fun _ _ _ => trivial) (fun _ _ _ _ _ => trivial)
    (fun _ _ _ => ⟨rfl, .refl⟩) ?_ ?_ opened locked
  · intro _ _ _ _ _ moved _ ih locked
    exact ⟨(ih locked).1, .head moved (ih locked).2⟩
  · intro world _ storage _ call final done _ _ ih locked
    obtain ⟨error, refused⟩ := locked call world
    rw [refused, finishes_reverted] at done
    subst done
    exact ih locked

/-- While a call is open other code may move the world. -/
theorem Opens.of_moves {env : Environment World Request Reply}
    {contract : Call → Program World Storage Request Reply Error Result}
    {world world' : World} {storage : Storage}
    (moved : Relation.ReflTransGen env.moves world world') :
    Opens env contract world storage world' storage := by
  induction moved using Relation.ReflTransGen.head_induction_on with
  | refl => exact .close _ _
  | head step _ ih => exact .move step ih

/-- A sequence of calls with what each caller saw, the world drifting between them. -/
inductive Run : World → Storage → List (Call × Except Error Result) → World → Storage → Prop
  | start (world : World) (storage : Storage) : Run world storage [] world storage
  | drift {first world world' : World} {initial storage : Storage}
      {log : List (Call × Except Error Result)} :
    Run first initial log world storage → env.drifts world world' →
    Run first initial log world' storage
  | call {first world : World} {initial storage : Storage}
      {log : List (Call × Except Error Result)} (call : Call)
      {final : Final World Storage Error Result} :
    Run first initial log world storage → Finishes env contract (contract call world storage) final →
    Run first initial (log ++ [(call, final.outcome)]) (final.worldAfter world)
      (final.storageAfter storage)

section Runs

variable {env contract}

/-- An invariant of log and storage that every returning call keeps, and that a logged revert
does not disturb, holds along every run. -/
theorem Run.invariant {I : List (Call × Except Error Result) → Storage → Prop}
    (returns : ∀ log call world storage value world' storage', I log storage →
      Returns env contract (contract call) world storage value world' storage' →
      I (log ++ [(call, .ok value)]) storage')
    (reverts : ∀ log call storage error, I log storage →
      I (log ++ [(call, .error error)]) storage)
    {first world : World} {initial storage : Storage} {log : List (Call × Except Error Result)}
    (run : Run env contract first initial log world storage) (holds : I [] initial) :
    I log storage := by
  induction run with
  | start => exact holds
  | drift _ _ ih => exact ih holds
  | call call _ done ih =>
    rename_i final _
    cases final with
    | reverted error => exact reverts _ _ _ _ (ih holds)
    | returned value world' storage' => exact returns _ _ _ _ _ _ _ (ih holds) done

/-- A run continues a run. -/
theorem Run.trans {first middle last : World} {initial kept storage : Storage}
    {before after : List (Call × Except Error Result)}
    (early : Run env contract first initial before middle kept)
    (late : Run env contract middle kept after last storage) :
    Run env contract first initial (before ++ after) last storage := by
  induction late with
  | start => simpa using early
  | drift _ drifted ih => exact .drift (ih early) drifted
  | call call _ done ih => rw [← List.append_assoc]; exact .call call (ih early) done

/-- A run can be cut at every prefix of its log. -/
theorem Run.split {first last : World} {initial storage : Storage}
    {log : List (Call × Except Error Result)} (run : Run env contract first initial log last storage)
    (before after : List (Call × Except Error Result)) (cut : log = before ++ after) :
    ∃ middle kept, Run env contract first initial before middle kept ∧
      Run env contract middle kept after last storage := by
  induction run generalizing after with
  | start =>
    obtain ⟨rfl, rfl⟩ := List.append_eq_nil_iff.mp cut.symm
    exact ⟨_, _, .start _ _, .start _ _⟩
  | drift _ drifted ih =>
    obtain ⟨middle, kept, early, late⟩ := ih after cut
    exact ⟨middle, kept, early, .drift late drifted⟩
  | call call run done ih =>
    rcases List.eq_nil_or_concat after with rfl | ⟨shorter, entry, rfl⟩
    · rw [List.append_nil] at cut
      subst cut
      exact ⟨_, _, .call call run done, .start _ _⟩
    · rw [List.concat_eq_append, ← List.append_assoc] at cut
      obtain ⟨same, entries⟩ := List.append_inj' cut rfl
      obtain ⟨middle, kept, early, late⟩ := ih shorter same
      refine ⟨middle, kept, early, ?_⟩
      rw [List.concat_eq_append, ← entries]
      exact .call call late done

/-- Without a call the storage does not change. -/
theorem Run.idle {first last : World} {initial storage : Storage}
    {log : List (Call × Except Error Result)} (run : Run env contract first initial log last storage)
    (empty : log = []) : storage = initial := by
  induction run with
  | start => rfl
  | drift _ _ ih => exact ih empty
  | call => simp at empty

/-- A run with one returned entry is one call, with drifts around it. -/
theorem Run.single {first last : World} {initial storage : Storage}
    {log : List (Call × Except Error Result)} {call : Call} {value : Result}
    (run : Run env contract first initial log last storage) (one : log = [(call, .ok value)]) :
    ∃ world world', Run env contract first initial [] world initial ∧
      Returns env contract (contract call) world initial value world' storage ∧
      Run env contract world' storage [] last storage := by
  induction run with
  | start => cases one
  | drift _ drifted ih =>
    obtain ⟨world, world', early, returned, late⟩ := ih one
    exact ⟨world, world', early, returned, .drift late drifted⟩
  | @call world kept storage log called final early done ih =>
    rcases List.append_eq_singleton_iff.mp one with ⟨rfl, entry⟩ | ⟨_, none⟩
    · obtain rfl := early.idle rfl
      rw [List.cons.injEq, Prod.mk.injEq] at entry
      obtain ⟨⟨rfl, outcome⟩, _⟩ := entry
      cases final with
      | reverted error => cases outcome
      | returned value' world' storage' =>
        obtain rfl := Except.ok.inj outcome
        exact ⟨world, world', early, done, .start _ _⟩
    · cases none

/-- A call that a run logged as returned did return, between two shorter runs. -/
theorem Run.returned {first last : World} {initial storage : Storage}
    {before after : List (Call × Except Error Result)} {call : Call} {value : Result}
    (run : Run env contract first initial (before ++ (call, .ok value) :: after) last storage) :
    ∃ world kept world' kept', Run env contract first initial before world kept ∧
      Returns env contract (contract call) world kept value world' kept' ∧
      Run env contract world' kept' after last storage := by
  obtain ⟨_, kept, early, rest⟩ := run.split before _ rfl
  obtain ⟨_, kept', single, late⟩ := rest.split [(call, .ok value)] after rfl
  obtain ⟨world, world', idle, returned, calm⟩ := single.single rfl
  have whole := early.trans idle
  rw [List.append_nil] at whole
  exact ⟨world, kept, world', kept', whole, returned, calm.trans late⟩

end Runs

end Semantics

section Play

/-- Run an execution against code that answers every request by a function of the world. -/
def Execution.runWith (answer : Request → World → World × Reply) :
    Execution World Storage Request Reply Error α → Final World Storage Error α
  | .reverted error => .reverted error
  | .returned value world storage => .returned value world storage
  | .calling request world storage resume =>
    (resume (answer request world).1 storage (answer request world).2).runWith answer

/-- Make calls in order, against code that answers by a function of the world: the log, and the
world and storage left. -/
def play {Call Result : Type} (answer : Request → World → World × Reply)
    (contract : Call → Program World Storage Request Reply Error Result) :
    List Call → World → Storage → List (Call × Except Error Result) × World × Storage
  | [], world, storage => ([], world, storage)
  | call :: calls, world, storage =>
    let final := (contract call world storage).runWith answer
    let rest := play answer contract calls (final.worldAfter world) (final.storageAfter storage)
    ((call, final.outcome) :: rest.1, rest.2)

variable {Call Result : Type} {env : Environment World Request Reply}
  {contract : Call → Program World Storage Request Reply Error Result}
  {answer : Request → World → World × Reply}
  (moves : ∀ request world, env.moves world (answer request world).1)
  (answers : ∀ request world, env.answers request (answer request world).1
    (answer request world).2)
include moves answers

/-- An execution run against a function finishes as the function makes it. -/
theorem finishes_runWith (execution : Execution World Storage Request Reply Error α) :
    Finishes env contract execution (execution.runWith answer) := by
  induction execution with
  | reverted error => exact .reverted error
  | returned value world storage => exact .returned value world storage
  | calling request world storage resume ih =>
    exact .calling (.move (moves request world) (.close _ _)) (answers request world) (ih _ _ _)

/-- Calls made in order are a run. -/
theorem run_play (calls : List Call) (world : World) (storage : Storage) :
    Run env contract world storage (play answer contract calls world storage).1
      (play answer contract calls world storage).2.1
      (play answer contract calls world storage).2.2 := by
  induction calls generalizing world storage with
  | nil => exact .start world storage
  | cons call calls ih =>
    have first : Run env contract world storage [(call, _)] _ _ :=
      .call call (.start world storage)
        (finishes_runWith moves answers (contract call world storage))
    exact first.trans (ih _ _)

end Play

end Usdd.Foundation.Reentrant
