import Usdd.Foundation.Readers
/-!
# Readers that keep a running total

A reader may bound what it reads over many values: it is given the total of the sizes so far,
returns the next one, and stops when that passes a limit. Its law says which values it returns,
and that their sizes are within the limit. The law passes from values to lists of them and to
what is made of them, so that a limit checked value by value is a limit on the sum.
-/
namespace Usdd.Foundation

variable {ε α β : Type}

/-- A reader returns the values that satisfy a condition, each from its own bytes, and adds
their sizes to a total that stays within a limit. -/
def Counts (read : Nat → Reader ε (α × Nat)) (write : α → List UInt8) (valid : α → Prop)
    (size : α → Nat) (limit : Nat) : Prop :=
  ∀ total ≤ limit, Reads (read total) (fun found => write found.1) fun found =>
    valid found.1 ∧ found.2 = total + size found.1 ∧ found.2 ≤ limit

/-- A number of values read in a row, from a total on. -/
def Reader.running (one : Nat → Reader ε (α × Nat)) : Nat → Nat → Reader ε (List α × Nat)
  | 0, total => return ([], total)
  | count + 1, total => do
    let (head, total) ← one total
    let (tail, total) ← running one count total
    return (head :: tail, total)

namespace Counts

variable {read : Nat → Reader ε (α × Nat)} {write : α → List UInt8} {valid : α → Prop}
  {size : α → Nat} {limit : Nat}

/-- The law for a list of values read in a row. -/
theorem running (law : Counts read write valid size limit) (count : Nat) :
    Counts (Reader.running read count) (fun values => (values.map write).flatten)
      (fun values => values.length = count ∧ ∀ value ∈ values, valid value)
      (fun values => (values.map size).sum) limit := by
  induction count with
  | zero =>
    intro total within input found rest
    obtain ⟨values, last⟩ := found
    simp only [Reader.running, Reader.pure_eq_ok, Prod.mk.injEq, List.length_eq_zero_iff]
    constructor
    · rintro ⟨⟨rfl, rfl⟩, rfl⟩
      exact ⟨⟨⟨rfl, by simp⟩, rfl, within⟩, rfl⟩
    · rintro ⟨⟨⟨rfl, -⟩, rfl, -⟩, rfl⟩
      exact ⟨⟨rfl, rfl⟩, rfl⟩
  | succ count ih =>
    intro total within input found rest
    obtain ⟨values, last⟩ := found
    rw [Reader.running, Reader.bind_eq_ok]
    constructor
    · rintro ⟨⟨head, middle⟩, after, front, back⟩
      obtain ⟨⟨good, exact, bound⟩, rfl⟩ := (law total within _ _ _).mp front
      obtain ⟨⟨tail, final⟩, left, found, done⟩ := Reader.bind_eq_ok.mp back
      obtain ⟨⟨⟨rfl, others⟩, sum, fits⟩, rfl⟩ := (ih middle bound _ _ _).mp found
      obtain ⟨made, rfl⟩ := Reader.pure_eq_ok.mp done
      obtain ⟨rfl, rfl⟩ := Prod.mk.inj made
      simp only at exact bound sum fits
      refine ⟨⟨⟨rfl, List.forall_mem_cons.mpr ⟨good, others⟩⟩, ?_, fits⟩, ?_⟩
      · simp only [List.map_cons, List.sum_cons]
        omega
      · simp only [List.map_cons, List.flatten_cons, List.append_assoc]
    · rintro ⟨⟨⟨length, all⟩, sum, fits⟩, rfl⟩
      cases values with
      | nil => simp at length
      | cons head tail =>
        obtain ⟨good, others⟩ := List.forall_mem_cons.mp all
        simp only [List.map_cons, List.sum_cons] at sum fits
        have bound : total + size head ≤ limit := by omega
        refine ⟨(head, total + size head), (tail.map write).flatten ++ rest, ?_,
          Reader.bind_eq_ok.mpr ⟨(tail, last), rest, ?_, Reader.pure_eq_ok.mpr ⟨rfl, rfl⟩⟩⟩
        · rw [law total within]
          exact ⟨⟨good, rfl, bound⟩, by simp⟩
        · rw [ih _ bound]
          exact ⟨⟨⟨Nat.succ.inj length, others⟩, by simp only; omega, fits⟩, rfl⟩

/-- The law for what is made of the values. -/
theorem map {f : α → β} {g : β → α} (law : Counts read write valid size limit)
    (made : ∀ value, f (g value) = value) (unmade : ∀ part, g (f part) = part) :
    Counts (fun total => do
        let (part, total) ← read total
        return (f part, total))
      (fun value => write (g value)) (fun value => valid (g value)) (fun value => size (g value))
      limit := by
  intro total within
  refine ((law total within).map (f := fun found => (f found.1, found.2))
    (g := fun found => (g found.1, found.2)) ?_ ?_)
  · rintro ⟨value, last⟩ holds
    exact ⟨holds, by rw [made]⟩
  · rintro ⟨part, last⟩ holds
    simp only [unmade]
    exact ⟨holds, trivial⟩

end Counts

end Usdd.Foundation
