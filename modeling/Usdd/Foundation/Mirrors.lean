import Usdd.Foundation.Readers
/-!
# Two readers of one format

A second implementation of a format keeps its values in other types. It mirrors the first one
when it reads a value exactly where the first one does, leaves the same bytes, and its value is
the view of the first one's. The law is kept by the ways in which readers of records are put
together, so two implementations are compared field by field and check by check.
-/
namespace Usdd.Foundation

variable {ε ε' α β γ δ : Type}

/-- The second reader returns the view of what the first one returns, from the same bytes. -/
def Mirrors (view : α → β) (read : Reader ε α) (read' : Reader ε' β) : Prop :=
  ∀ input part rest,
    read' input = .ok (part, rest) ↔ ∃ value, read input = .ok (value, rest) ∧ part = view value

/-- Every value that a reader returns satisfies a condition. -/
def Returns (read : Reader ε α) (valid : α → Prop) : Prop :=
  ∀ {input value rest}, read input = .ok (value, rest) → valid value

theorem Reads.returns {read : Reader ε α} {write : α → List UInt8} {valid : α → Prop}
    (law : Reads read write valid) : Returns read valid :=
  fun taken => ((law _ _ _).mp taken).1

namespace Mirrors

variable {view : α → β} {read : Reader ε α} {read' : Reader ε' β}

/-- A value that both return without reading. -/
theorem pure {made : α} {made' : β} (same : made' = view made) :
    Mirrors view (Pure.pure made : Reader ε α) (Pure.pure made' : Reader ε' β) := by
  intro input part rest
  rw [Reader.pure_eq_ok, same]
  constructor
  · rintro ⟨rfl, rfl⟩
    exact ⟨made, Reader.pure_eq_ok.mpr ⟨rfl, rfl⟩, rfl⟩
  · rintro ⟨value, returned, rfl⟩
    obtain ⟨rfl, rfl⟩ := Reader.pure_eq_ok.mp returned
    exact ⟨rfl, rfl⟩

/-- A field, and then the rest of a record that both read knowing it and a condition on what the
first reader returns. -/
theorem known {wide : γ → δ} {next : α → Reader ε γ} {next' : β → Reader ε' δ} {valid : α → Prop}
    (first : Mirrors view read read') (returns : Returns read valid)
    (later : ∀ value, valid value → Mirrors wide (next value) (next' (view value))) :
    Mirrors wide (read >>= next) (read' >>= next') := by
  intro input part rest
  simp only [Reader.bind_eq_ok]
  constructor
  · rintro ⟨found, middle, front, back⟩
    obtain ⟨value, taken, rfl⟩ := (first _ _ _).mp front
    obtain ⟨whole, behind, rfl⟩ := (later value (returns taken) _ _ _).mp back
    exact ⟨whole, ⟨value, middle, taken, behind⟩, rfl⟩
  · rintro ⟨whole, ⟨value, middle, taken, behind⟩, rfl⟩
    exact ⟨view value, middle, (first _ _ _).mpr ⟨value, taken, rfl⟩,
      (later value (returns taken) _ _ _).mpr ⟨whole, behind, rfl⟩⟩

/-- A field, and then the rest of a record that both read knowing it. -/
theorem field {wide : γ → δ} {next : α → Reader ε γ} {next' : β → Reader ε' δ}
    (first : Mirrors view read read')
    (later : ∀ value, Mirrors wide (next value) (next' (view value))) :
    Mirrors wide (read >>= next) (read' >>= next') :=
  known first (fun _ => trivial) fun value _ => later value

/-- A check that both make of what was read so far. -/
theorem check {computation : Except ε Unit} {computation' : Except ε' Unit}
    (same : computation' = .ok () ↔ computation = .ok ()) :
    Mirrors id (Reader.check computation) (Reader.check computation') := by
  intro input part rest
  rw [Reader.check_eq_ok, same]
  constructor
  · rintro ⟨passed, rfl⟩
    exact ⟨(), Reader.check_eq_ok.mpr ⟨passed, rfl⟩, rfl⟩
  · rintro ⟨_, passed, -⟩
    exact Reader.check_eq_ok.mp passed

/-- Such a check, and then the rest of a record once it passed. -/
theorem checked {computation : Except ε Unit} {computation' : Except ε' Unit}
    {wide : γ → δ} {next : Unit → Reader ε γ} {next' : Unit → Reader ε' δ}
    (same : computation' = .ok () ↔ computation = .ok ())
    (later : computation = .ok () → Mirrors wide (next ()) (next' ())) :
    Mirrors wide (Reader.check computation >>= next) (Reader.check computation' >>= next') :=
  known (check same) (fun passed => (Reader.check_eq_ok.mp passed).1) fun _ passed => later passed

/-- A value that both return once their checks of it pass. -/
theorem validated {validate : α → Except ε Unit} {validate' : β → Except ε' Unit} {made : α}
    {made' : β} (same : made' = view made)
    (agree : validate' (view made) = .ok () ↔ validate made = .ok ()) :
    Mirrors view (Reader.validated validate made) (Reader.validated validate' made') := by
  subst same
  exact checked agree fun _ => pure rfl

/-- A value that the first reader returns and that passes the check of the second one. -/
theorem accepted {validate' : β → Except ε' Unit} {made : α} {made' : β} (same : made' = view made)
    (passes : validate' made' = .ok ()) :
    Mirrors view (Pure.pure made : Reader ε α) (Reader.validated validate' made') := by
  intro input part rest
  rw [← pure same input part rest, Reader.validated, Reader.bind_eq_ok]
  constructor
  · rintro ⟨_, _, checked, returned⟩
    obtain ⟨-, rfl⟩ := Reader.check_eq_ok.mp checked
    exact returned
  · intro returned
    exact ⟨(), input, Reader.check_eq_ok.mpr ⟨passes, rfl⟩, returned⟩

/-- A value that both read a number of times in a row. -/
theorem times (law : Mirrors view read read') (count : Nat) :
    Mirrors (List.map view) (Reader.times count read) (Reader.times count read') := by
  induction count with
  | zero => exact pure rfl
  | succ count ih =>
    exact field law fun _ => field ih fun _ => pure rfl

/-- The values that both make of the parts they read. -/
theorem map {wide : γ → δ} {make : α → γ} {make' : β → δ} {valid : α → Prop}
    (law : Mirrors view read read') (returns : Returns read valid)
    (same : ∀ value, valid value → make' (view value) = wide (make value)) :
    Mirrors wide (do return make (← read)) (do return make' (← read')) :=
  known law returns fun value holds => pure (same value holds)

/-- The first reader has a record of its own where the second one reads on. -/
theorem nested {next : α → Reader ε γ} {last : γ → Reader ε δ} {read' : Reader ε' β}
    {wide : δ → β} (law : Mirrors wide (read >>= fun found => next found >>= last) read') :
    Mirrors wide ((read >>= next) >>= last) read' := by
  rw [bind_assoc]
  exact law

/-- A reader of all of a byte string mirrors the other when both accept the same strings. -/
theorem exact_eq_ok (law : Mirrors view read read') {trailing : Nat → ε} {trailing' : Nat → ε'}
    {bytes : List UInt8} {part : β} :
    read'.exact trailing' bytes = .ok part ↔
      ∃ value, read.exact trailing bytes = .ok value ∧ part = view value := by
  simp only [Reader.exact]
  simp only [↓then_eq_ok, bind_eq_ok, rejectIf_eq_ok, pure_eq_ok, ne_eq, not_not,
    List.length_eq_zero_iff, Prod.exists]
  constructor
  · rintro ⟨found, rest, front, rfl, rfl⟩
    obtain ⟨value, read, rfl⟩ := (law _ _ _).mp front
    exact ⟨value, ⟨value, [], read, rfl, rfl⟩, rfl⟩
  · rintro ⟨value, ⟨found, rest, read, rfl, rfl⟩, rfl⟩
    exact ⟨view found, [], (law _ _ _).mpr ⟨found, read, rfl⟩, rfl, rfl⟩

end Mirrors

end Usdd.Foundation
