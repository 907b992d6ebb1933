import Mathlib.Tactic
import Mathlib.Data.List.Chain
/-!
# Runs of a step that may refuse

A step function that refuses some actions is driven by any sequence of attempts; a refused
attempt leaves the state as it was. `history` computes the accepted actions with the states
they led to, and `Reaches` is the same run grown one accepted action at a time, which is the
form invariants are proved in. A relation that every accepted step establishes links the
consecutive states of a run, and a transitive one links every two of them.
-/
namespace Usdd.Foundation.Attempts

variable {State Action Error : Type} (step : State → Action → Except Error State)

/-- The accepted actions of a sequence of attempts, each with the state it led to. -/
def history (state : State) : List Action → List (Action × State)
  | [] => []
  | action :: rest =>
    match step state action with
    | .ok next => (action, next) :: history next rest
    | .error _ => history state rest

/-- The state after a sequence of attempts. -/
def reached (state : State) : List Action → State
  | [] => state
  | action :: rest =>
    match step state action with
    | .ok next => reached next rest
    | .error _ => reached state rest

/-- A run from an initial state, grown by one accepted action at a time. -/
inductive Reaches (initial : State) : List (Action × State) → State → Prop
  | start : Reaches initial [] initial
  | accept {log : List (Action × State)} {state next : State} {action : Action} :
    Reaches initial log state → step state action = .ok next →
    Reaches initial (log ++ [(action, next)]) next

/-- The states of a run, the initial one first. -/
def states (initial : State) (log : List (Action × State)) : List State :=
  initial :: log.map Prod.snd

variable {step} {initial state : State} {log : List (Action × State)}

/-- An invariant of log and state that every accepted step keeps holds along every run. -/
theorem Reaches.invariant {I : List (Action × State) → State → Prop}
    (run : Reaches step initial log state) (start : I [] initial)
    (kept : ∀ log state action next, I log state → step state action = .ok next →
      I (log ++ [(action, next)]) next) : I log state := by
  induction run with
  | start => exact start
  | accept _ accepted ih => exact kept _ _ _ _ ih accepted

/-- A run continues a run. -/
theorem Reaches.trans {middle : State} {before after : List (Action × State)}
    (early : Reaches step initial before middle) (late : Reaches step middle after state) :
    Reaches step initial (before ++ after) state := by
  induction late with
  | start => simpa using early
  | accept _ accepted ih =>
    rw [← List.append_assoc]
    exact .accept ih accepted

/-- One accepted action is a run. -/
theorem Reaches.single {action : Action} {next : State} (accepted : step initial action = .ok next) :
    Reaches step initial [(action, next)] next := by
  have one : Reaches step initial ([] ++ [(action, next)]) next := .accept .start accepted
  simpa using one

/-- A run can be cut at every prefix of its log. -/
theorem Reaches.split (run : Reaches step initial log state) (before after : List (Action × State))
    (cut : log = before ++ after) :
    ∃ middle, Reaches step initial before middle ∧ Reaches step middle after state := by
  induction run generalizing after with
  | start =>
    obtain ⟨rfl, rfl⟩ := List.append_eq_nil_iff.mp cut.symm
    exact ⟨_, .start, .start⟩
  | accept run accepted ih =>
    rcases List.eq_nil_or_concat after with rfl | ⟨shorter, entry, rfl⟩
    · rw [List.append_nil] at cut
      subst cut
      exact ⟨_, .accept run accepted, .start⟩
    · rw [List.concat_eq_append, ← List.append_assoc] at cut
      obtain ⟨same, entries⟩ := List.append_inj' cut rfl
      obtain ⟨middle, early, late⟩ := ih shorter same
      refine ⟨middle, early, ?_⟩
      rw [List.concat_eq_append, ← entries]
      exact .accept late accepted

/-- The last entry of a log was accepted from the state before it. -/
theorem Reaches.of_append (run : Reaches step initial log state)
    {before : List (Action × State)} {action : Action} {next : State}
    (last : log = before ++ [(action, next)]) :
    ∃ prior, Reaches step initial before prior ∧ step prior action = .ok next ∧ state = next := by
  cases run with
  | start => simp at last
  | accept run accepted =>
    obtain ⟨rfl, entries⟩ := List.append_inj' last rfl
    obtain ⟨rfl, rfl⟩ := Prod.mk.inj (List.cons.inj entries).1
    exact ⟨_, run, accepted, rfl⟩

variable (step) in
/-- The computed history and state form a run. -/
theorem reaches_history (attempts : List Action) :
    Reaches step initial (history step initial attempts) (reached step initial attempts) := by
  induction attempts generalizing initial with
  | nil => exact .start
  | cons action rest ih =>
    simp only [history, reached]
    cases taken : step initial action with
    | error refusal => exact ih
    | ok next => exact (Reaches.single taken).trans ih

/-- A relation that every accepted step establishes links the consecutive states of a run. -/
theorem Reaches.isChain {R : State → State → Prop} (run : Reaches step initial log state)
    (linked : ∀ state action next, step state action = .ok next → R state next) :
    (states initial log).IsChain R := by
  have chained : (states initial log).getLast? = some state ∧
      (states initial log).IsChain R := by
    refine run.invariant (I := fun log state => (states initial log).getLast? = some state ∧
      (states initial log).IsChain R) ⟨rfl, .singleton _⟩ ?_
    rintro log state action next ⟨last, chain⟩ accepted
    have grown : states initial (log ++ [(action, next)]) = states initial log ++ [next] := by
      simp [states]
    rw [grown]
    refine ⟨by simp, List.isChain_append.mpr ⟨chain, .singleton _, ?_⟩⟩
    intro before isLast after isFirst
    rw [last, Option.mem_some_iff] at isLast
    rw [List.head?_cons, Option.mem_some_iff] at isFirst
    subst isLast isFirst
    exact linked _ _ _ accepted
  exact chained.2

/-- A transitive relation that every accepted step establishes links any two states of a run,
the earlier one first. -/
theorem Reaches.pairwise {R : State → State → Prop} [IsTrans State R]
    (run : Reaches step initial log state)
    (linked : ∀ state action next, step state action = .ok next → R state next) :
    (states initial log).Pairwise R :=
  List.isChain_iff_pairwise.mp (run.isChain linked)

end Usdd.Foundation.Attempts
