import Mathlib.Data.List.Basic
import Mathlib.Logic.Relation
/-!
# Linear sweeps over instructions of different sizes

A code is a list of units. An instruction starts at a unit, its opcode, which gives its size, and
the units after the opcode up to the next instruction are its data. A sweep goes from instruction
to instruction. Every unit of the code is an opcode or data and not both, so a machine that goes
from an instruction to the next, or jumps to units that are not data, executes only opcodes that a
sweep sees.
-/
namespace Usdd.Foundation

variable {α β : Type}

/-- A position where an instruction starts, or the end of the last one. -/
inductive Boundary (size : α → Nat) (code : List α) : Nat → Prop
  | start : Boundary size code 0
  | next {position : Nat} {opcode : α} (before : Boundary size code position)
      (found : code[position]? = some opcode) : Boundary size code (position + size opcode)

/-- A position in the data of an instruction. -/
def InData (size : α → Nat) (code : List α) (position : Nat) : Prop :=
  ∃ (start : Nat) (opcode : α), Boundary size code start ∧ code[start]? = some opcode ∧
    start < position ∧ position < start + size opcode

/-- One move of a machine: to the next instruction, or to a unit where one may land and which is
not data. -/
inductive Moves (size : α → Nat) (landing : α → Prop) (code : List α) : Nat → Nat → Prop
  | advance {position : Nat} {opcode : α} (found : code[position]? = some opcode) :
      Moves size landing code position (position + size opcode)
  | jump {position target : Nat} {opcode : α} (found : code[target]? = some opcode)
      (lands : landing opcode) (outside : ¬InData size code target) :
      Moves size landing code position target

/-- A sweep for a number of rounds, which collects what it finds at each instruction. It returns
the position it got to. -/
def sweep (size : α → Nat) (look : Nat → α → List β) (code : List α) :
    Nat → Nat → List β → Nat × List β
  | 0, position, found => (position, found)
  | rounds + 1, position, found =>
    match code[position]? with
    | none => (position, found)
    | some opcode =>
      sweep size look code rounds (position + size opcode) (found ++ look position opcode)

section Boundaries

variable {size : α → Nat} {code : List α} {position later : Nat} {opcode : α}

/-- A later instruction starts after the whole of an earlier one. -/
theorem Boundary.next_le (positive : ∀ opcode, 0 < size opcode)
    (first : Boundary size code position) (second : Boundary size code later)
    (found : code[position]? = some opcode) (order : position < later) :
    position + size opcode ≤ later := by
  -- The two instructions change places in the recursion, so it goes by the later position.
  induction later using Nat.strongRecOn generalizing position opcode with
  | ind later ih =>
    cases second with
    | start => omega
    | @next previous other second seen =>
      have wide := positive other
      rcases Nat.lt_trichotomy position previous with before | same | after
      · have stride := ih previous (by omega) first second found before
        omega
      · subst same
        rw [found, Option.some.injEq] at seen
        exact Nat.le_of_eq (by rw [seen])
      · have stride := ih position order second first seen after
        omega

/-- No instruction starts in the data of another. -/
theorem Boundary.not_inData (positive : ∀ opcode, 0 < size opcode)
    (boundary : Boundary size code position) : ¬InData size code position := by
  rintro ⟨start, opcode, first, found, after, inside⟩
  have stride := first.next_le positive boundary found after
  omega

/-- Every unit of a code starts an instruction or is data. -/
theorem boundary_or_inData (positive : ∀ opcode, 0 < size opcode)
    (inside : position < code.length) :
    Boundary size code position ∨ InData size code position := by
  induction position with
  | zero => exact Or.inl .start
  | succ position ih =>
    have here : position < code.length := by omega
    have found : code[position]? = some code[position] := List.getElem?_eq_getElem here
    rcases ih here with boundary | ⟨start, opcode, first, seen, after, within⟩
    · by_cases single : size code[position] = 1
      · have next := boundary.next found
        rw [single] at next
        exact Or.inl next
      · have wide := positive code[position]
        exact Or.inr ⟨position, code[position], boundary, found, by omega, by omega⟩
    · by_cases last : position + 1 = start + size opcode
      · rw [last]
        exact Or.inl (first.next seen)
      · exact Or.inr ⟨start, opcode, first, seen, by omega, by omega⟩

/-- A machine executes only units where an instruction starts. -/
theorem boundary_of_moves {landing : α → Prop} (positive : ∀ opcode, 0 < size opcode)
    (run : Relation.ReflTransGen (Moves size landing code) 0 position) :
    Boundary size code position := by
  induction run with
  | refl => exact .start
  | tail _ move boundary =>
    cases move with
    | advance found => exact boundary.next found
    | jump found lands outside =>
      have inside := (List.getElem?_eq_some_iff.mp found).1
      exact (boundary_or_inData positive inside).resolve_right outside

end Boundaries

section Sweep

variable {size : α → Nat} {look : Nat → α → List β} {code : List α} {rounds position : Nat}
  {found : List β}

/-- A sweep whose rounds suffice has left the code. -/
theorem length_le_sweep (positive : ∀ opcode, 0 < size opcode)
    (enough : code.length ≤ position + rounds) :
    code.length ≤ (sweep size look code rounds position found).1 := by
  induction rounds generalizing position found with
  | zero => exact enough
  | succ rounds ih =>
    rw [sweep]
    cases here : code[position]? with
    | none => exact List.getElem?_eq_none_iff.mp here
    | some opcode =>
      have wide := positive opcode
      exact ih (by omega)

/-- More rounds than suffice change nothing. -/
theorem sweep_add (positive : ∀ opcode, 0 < size opcode)
    (enough : code.length ≤ position + rounds) (extra : Nat) :
    sweep size look code (rounds + extra) position found =
      sweep size look code rounds position found := by
  induction rounds generalizing position found with
  | zero =>
    have gone : code[position]? = none := List.getElem?_eq_none_iff.mpr enough
    cases extra with
    | zero => rfl
    | succ extra => rw [Nat.zero_add, sweep, sweep, gone]
  | succ rounds ih =>
    rw [Nat.succ_add, sweep, sweep]
    cases here : code[position]? with
    | none => rfl
    | some opcode =>
      have wide := positive opcode
      exact ih (by omega)

/-- A sweep finds what is at the instructions from its start on. -/
theorem mem_sweep (positive : ∀ opcode, 0 < size opcode)
    (enough : code.length ≤ position + rounds) (boundary : Boundary size code position)
    {item : β} :
    item ∈ (sweep size look code rounds position found).2 ↔ item ∈ found ∨
      ∃ (start : Nat) (opcode : α), position ≤ start ∧ Boundary size code start ∧
        code[start]? = some opcode ∧ item ∈ look start opcode := by
  induction rounds generalizing position found with
  | zero =>
    have beyond : ∀ start, position ≤ start → code[start]? = none := fun start after =>
      List.getElem?_eq_none_iff.mpr (by omega)
    constructor
    · exact Or.inl
    · rintro (old | ⟨start, opcode, after, _, seen, _⟩)
      · exact old
      · rw [beyond start after] at seen
        cases seen
  | succ rounds ih =>
    rw [sweep]
    cases here : code[position]? with
    | none =>
      have gone := List.getElem?_eq_none_iff.mp here
      constructor
      · exact Or.inl
      · rintro (old | ⟨start, opcode, after, _, seen, _⟩)
        · exact old
        · have inside := (List.getElem?_eq_some_iff.mp seen).1
          omega
    | some opcode =>
      have wide := positive opcode
      rw [ih (by omega) (boundary.next here), List.mem_append, or_assoc]
      refine or_congr_right ⟨?_, ?_⟩
      · rintro (new | ⟨start, other, after, first, seen, listed⟩)
        · exact ⟨position, opcode, Nat.le_refl _, boundary, here, new⟩
        · exact ⟨start, other, by omega, first, seen, listed⟩
      · rintro ⟨start, other, after, first, seen, listed⟩
        rcases Nat.eq_or_lt_of_le after with same | strict
        · subst same
          rw [here, Option.some.injEq] at seen
          rw [seen]
          exact Or.inl listed
        · have beyond := boundary.next_le positive first here strict
          exact Or.inr ⟨start, other, beyond, first, seen, listed⟩

end Sweep

end Usdd.Foundation
