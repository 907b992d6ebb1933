import Usdd.Foundation.Checks
import Usdd.Foundation.Bytes
/-!
# Readers of byte strings

A reader takes a value from the front of a byte string or stops with an error. It reads what a
writer writes when it returns exactly the values that satisfy a condition, each from exactly its
own bytes: the one law gives the round trip, the canonicity, and that two writings of the same
bytes are of the same value. The law is kept by the ways in which readers of records are put
together from readers of their fields.
-/
namespace Usdd.Foundation

/-- A reader of the front of a byte string. -/
abbrev Reader (ε α : Type) := StateT (List UInt8) (Except ε) α

variable {ε ε' α β : Type}

/-- A reader returns the values that satisfy a condition, each from its own bytes. -/
def Reads (read : Reader ε α) (write : α → List UInt8) (valid : α → Prop) : Prop :=
  ∀ input value rest,
    read input = .ok (value, rest) ↔ valid value ∧ input = write value ++ rest

/-- A front of a given length and what follows it are the parts the byte string is made of. -/
theorem front_iff {length : Nat} {input front rest : List UInt8} :
    (length ≤ input.length ∧ input.take length = front ∧ input.drop length = rest) ↔
      front.length = length ∧ input = front ++ rest := by
  constructor
  · rintro ⟨enough, rfl, rfl⟩
    exact ⟨List.length_take_of_le enough, (List.take_append_drop ..).symm⟩
  · rintro ⟨rfl, rfl⟩
    rw [List.length_append]
    exact ⟨Nat.le_add_right _ _, List.take_left, List.drop_left⟩

/-- A front is taken exactly where the byte string is long enough. -/
theorem takeFront_eq_ok {error : ε} {length : Nat} {input front rest : List UInt8} :
    (if length ≤ input.length then Except.ok (input.take length, input.drop length)
      else Except.error error) = .ok (front, rest) ↔
      front.length = length ∧ input = front ++ rest := by
  rw [← front_iff]
  by_cases enough : length ≤ input.length
  · rw [if_pos enough, Except.ok.injEq, Prod.mk.injEq]
    exact (and_iff_right enough).symm
  · rw [if_neg enough]
    constructor
    · intro failed
      cases failed
    · intro found
      exact absurd found.1 enough

namespace Reader

/-- Stop with an error when a computation fails, and read nothing. -/
def check (computation : Except ε Unit) : Reader ε Unit := StateT.lift computation

/-- The value read `count` times in a row. -/
def times (count : Nat) (one : Reader ε α) : Reader ε (List α) :=
  match count with
  | 0 => return []
  | count + 1 => do
    let head ← one
    let tail ← times count one
    return head :: tail

/-- A value that is returned once a check of it passes. -/
def validated (validate : α → Except ε Unit) (value : α) : Reader ε α := do
  check (validate value)
  return value

/-- A reader whose errors are converted. -/
def orFail (convert : ε → ε') (read : Reader ε α) : Reader ε' α :=
  fun bytes => (read bytes).mapError convert

/-- A value that must be all of a byte string. -/
def exact (read : Reader ε α) (trailing : Nat → ε) (bytes : List UInt8) : Except ε α := do
  let (value, remaining) ← read bytes
  rejectIf (remaining.length ≠ 0) (trailing remaining.length)
  return value

theorem bind_eq_ok {read : Reader ε α} {next : α → Reader ε β} {input rest : List UInt8}
    {value : β} : (read >>= next) input = .ok (value, rest) ↔
      ∃ part middle, read input = .ok (part, middle) ∧ next part middle = .ok (value, rest) := by
  change (read input >>= fun found => next found.1 found.2) = _ ↔ _
  rw [Foundation.bind_eq_ok]
  exact Prod.exists

@[simp]
theorem pure_eq_ok {made value : α} {input rest : List UInt8} :
    (pure made : Reader ε α) input = .ok (value, rest) ↔ made = value ∧ input = rest := by
  change Except.ok (made, input) = _ ↔ _
  rw [Except.ok.injEq, Prod.mk.injEq]

theorem lift_eq_ok {computation : Except ε α} {value : α} {input rest : List UInt8} :
    (StateT.lift computation : Reader ε α) input = .ok (value, rest) ↔
      computation = .ok value ∧ input = rest := by
  cases computation <;> simp [StateT.lift, bind, Except.bind, pure, Except.pure]

@[simp]
theorem check_eq_ok {computation : Except ε Unit} {done : Unit} {input rest : List UInt8} :
    (check computation : Reader ε Unit) input = .ok (done, rest) ↔
      computation = .ok () ∧ input = rest :=
  lift_eq_ok

end Reader

namespace Reads

variable {read : Reader ε α} {write write' : α → List UInt8} {valid valid' : α → Prop}

/-- The law for an equivalent condition and a writer equal on the values that satisfy it. -/
theorem congr (law : Reads read write valid) (same : ∀ value, valid value ↔ valid' value)
    (writes : ∀ value, valid' value → write value = write' value) : Reads read write' valid' := by
  intro input value rest
  rw [law, same]
  exact and_congr_right fun holds => by rw [writes value holds]

/-- The law does not depend on the errors. -/
theorem orFail {convert : ε → ε'} (law : Reads read write valid) :
    Reads (read.orFail convert) write valid := by
  intro input value rest
  rw [Reader.orFail, mapError_eq_ok]
  exact law input value rest

/-- The value returned without reading. -/
theorem pure {made : α} (only : ∀ value, valid value ↔ value = made)
    (nothing : ∀ value, valid value → write value = []) :
    Reads (Pure.pure made : Reader ε α) write valid := by
  intro input value rest
  rw [Reader.pure_eq_ok]
  constructor
  · rintro ⟨rfl, rfl⟩
    have holds := (only made).mpr rfl
    rw [nothing made holds]
    exact ⟨holds, rfl⟩
  · rintro ⟨holds, rfl⟩
    rw [nothing value holds]
    exact ⟨((only value).mp holds).symm, rfl⟩

/-- The values made from the raw parts that a reader returns. -/
theorem map {f : α → β} {g : β → α} {p : β → Prop} (law : Reads read write valid)
    (made : ∀ value, p value → valid (g value) ∧ f (g value) = value)
    (unmade : ∀ part, valid part → p (f part) ∧ g (f part) = part) :
    Reads (do return f (← read)) (fun value => write (g value)) p := by
  intro input value rest
  rw [Reader.bind_eq_ok]
  constructor
  · rintro ⟨part, middle, front, back⟩
    obtain ⟨good, rfl⟩ := (law _ _ _).mp front
    obtain ⟨rfl, rfl⟩ := Reader.pure_eq_ok.mp back
    obtain ⟨holds, same⟩ := unmade part good
    exact ⟨holds, by simp only [same]⟩
  · rintro ⟨holds, rfl⟩
    obtain ⟨good, same⟩ := made value holds
    exact ⟨g value, rest, (law _ _ _).mpr ⟨good, rfl⟩, Reader.pure_eq_ok.mpr ⟨same, rfl⟩⟩

/-- The values that a conversion admits of the raw parts that a reader returns. -/
theorem convert {f : α → Except ε β} {g : β → α} {p : β → Prop} (law : Reads read write valid)
    (admits : ∀ part value, valid part ∧ f part = .ok value ↔ p value ∧ part = g value) :
    Reads (do StateT.lift (f (← read))) (fun value => write (g value)) p := by
  intro input value rest
  rw [Reader.bind_eq_ok]
  constructor
  · rintro ⟨part, middle, front, back⟩
    obtain ⟨good, rfl⟩ := (law _ _ _).mp front
    obtain ⟨converted, rfl⟩ := Reader.lift_eq_ok.mp back
    obtain ⟨holds, rfl⟩ := (admits part value).mp ⟨good, converted⟩
    exact ⟨holds, rfl⟩
  · rintro ⟨holds, rfl⟩
    obtain ⟨good, converted⟩ := (admits (g value) value).mpr ⟨holds, rfl⟩
    exact ⟨g value, rest, (law _ _ _).mpr ⟨good, rfl⟩, Reader.lift_eq_ok.mpr ⟨converted, rfl⟩⟩

/-- A field and then the rest of a record: the rest is read knowing the field and that it is
valid. -/
theorem field {next : α → Reader ε β} {f : β → α} {remaining : β → List (List UInt8)}
    {ok : β → Prop} (first : Reads read write valid) (holds : ∀ value, ok value → valid (f value))
    (later : ∀ found, valid found → Reads (next found) (fun value => (remaining value).flatten)
      fun value => ok value ∧ f value = found) :
    Reads (read >>= next) (fun value => (write (f value) :: remaining value).flatten) ok := by
  intro input value rest
  rw [Reader.bind_eq_ok]
  constructor
  · rintro ⟨found, middle, front, back⟩
    obtain ⟨sound, rfl⟩ := (first _ _ _).mp front
    obtain ⟨⟨good, rfl⟩, rfl⟩ := (later _ sound _ _ _).mp back
    exact ⟨good, by simp only [List.flatten_cons, List.append_assoc]⟩
  · rintro ⟨good, rfl⟩
    refine ⟨f value, (remaining value).flatten ++ rest, ?_, ?_⟩
    · simp only [List.flatten_cons, List.append_assoc]
      exact (first _ _ _).mpr ⟨holds value good, rfl⟩
    · rw [later _ (holds value good)]
      exact ⟨⟨good, rfl⟩, rfl⟩

/-- A field of any value and then the rest of a record. -/
theorem plain {next : α → Reader ε β} {f : β → α} {remaining : β → List (List UInt8)}
    {ok : β → Prop} (first : Reads read write fun _ => True)
    (later : ∀ found, Reads (next found) (fun value => (remaining value).flatten)
      fun value => ok value ∧ f value = found) :
    Reads (read >>= next) (fun value => (write (f value) :: remaining value).flatten) ok :=
  field first (fun _ _ => trivial) fun found _ => later found

/-- Fixed bytes and then the rest of a record. -/
theorem constant {read : Reader ε Unit} {bytes : List UInt8} {next : Unit → Reader ε β}
    {remaining : β → List (List UInt8)} {ok : β → Prop}
    (first : Reads read (fun _ => bytes) fun _ => True)
    (later : Reads (next ()) (fun value => (remaining value).flatten) ok) :
    Reads (read >>= next) (fun value => (bytes :: remaining value).flatten) ok :=
  field (f := fun _ => ()) first (fun _ _ => trivial) fun _ _ =>
    later.congr (fun _ => (and_iff_left rfl).symm) fun _ _ => rfl

/-- Two pieces of fixed bytes that one reader reads, and then the rest of a record. -/
theorem constants {read : Reader ε Unit} {bytes bytes' : List UInt8} {next : Unit → Reader ε β}
    {remaining : β → List (List UInt8)} {ok : β → Prop}
    (first : Reads read (fun _ => bytes ++ bytes') fun _ => True)
    (later : Reads (next ()) (fun value => (remaining value).flatten) ok) :
    Reads (read >>= next) (fun value => (bytes :: bytes' :: remaining value).flatten) ok :=
  (constant first later).congr (fun _ => Iff.rfl) fun _ _ => by simp

/-- A check of what was read so far, and then the rest of a record. -/
theorem checked {computation : Except ε Unit} {next : Unit → Reader ε β}
    {write : β → List UInt8} {ok : β → Prop} (holds : ∀ value, ok value → computation = .ok ())
    (later : computation = .ok () → Reads (next ()) write ok) :
    Reads (Reader.check computation >>= next) write ok := by
  intro input value rest
  rw [Reader.bind_eq_ok]
  constructor
  · rintro ⟨_, _, passed, back⟩
    obtain ⟨good, rfl⟩ := Reader.check_eq_ok.mp passed
    exact (later good _ _ _).mp back
  · rintro ⟨good, rfl⟩
    have passed := holds value good
    exact ⟨(), _, Reader.check_eq_ok.mpr ⟨passed, rfl⟩, (later passed _ _ _).mpr ⟨good, rfl⟩⟩

/-- A field that must have one value, and then the rest of a record. -/
theorem expected {refuse : α → Except ε Unit} {next : α → Reader ε β} {wanted : α}
    {remaining : β → List (List UInt8)} {ok : β → Prop}
    (first : Reads read write fun _ => True)
    (only : ∀ found, refuse found = .ok () ↔ found = wanted)
    (later : Reads (next wanted) (fun value => (remaining value).flatten) ok) :
    Reads (do
      let found ← read
      Reader.check (refuse found)
      next found)
      (fun value => (write wanted :: remaining value).flatten) ok := by
  refine .plain (f := fun _ => wanted) first fun found => ?_
  refine .checked (fun _ holds => (only found).mpr holds.2.symm) fun passed => ?_
  obtain rfl := (only found).mp passed
  exact later.congr (fun _ => (and_iff_left rfl).symm) fun _ _ => rfl

/-- A check of what was read, and nothing else. -/
theorem guard {computation : Except ε Unit} {write : Unit → List UInt8} {ok : Unit → Prop}
    (only : ok () ↔ computation = .ok ()) (nothing : write () = []) :
    Reads (Reader.check computation) write ok := by
  intro input value rest
  rw [Reader.check_eq_ok, only, nothing, List.nil_append]

/-- Two fields, each checked to have one value. -/
theorem header {first : Reader ε α} {second : Reader ε β} {writeFirst : α → List UInt8}
    {writeSecond : β → List UInt8} {refuseFirst : α → Except ε Unit}
    {refuseSecond : β → Except ε Unit} {expected : α} {expected' : β}
    (firstLaw : Reads first writeFirst fun _ => True)
    (secondLaw : Reads second writeSecond fun _ => True)
    (firstOnly : ∀ found, refuseFirst found = .ok () ↔ found = expected)
    (secondOnly : ∀ found, refuseSecond found = .ok () ↔ found = expected') :
    Reads (do
      let found ← first
      Reader.check (refuseFirst found)
      let found ← second
      Reader.check (refuseSecond found))
      (fun _ => writeFirst expected ++ writeSecond expected') fun _ => True := by
  have law : Reads (do
      let found ← first
      Reader.check (refuseFirst found)
      let found ← second
      Reader.check (refuseSecond found))
      (fun _ => [writeFirst expected, writeSecond expected'].flatten) fun _ => True := by
    refine .plain (f := fun _ => expected) firstLaw fun found => ?_
    refine .checked (fun _ holds => (firstOnly found).mpr holds.2.symm) fun passed => ?_
    refine .plain (f := fun _ => expected') secondLaw fun found' => .guard ?_ rfl
    rw [secondOnly]
    exact ⟨fun holds => holds.2.symm,
      fun same => ⟨⟨trivial, ((firstOnly found).mp passed).symm⟩, same.symm⟩⟩
  exact law.congr (fun _ => Iff.rfl) fun _ _ => by simp

/-- The value that the fields make, returned after its validation. -/
theorem validated {validate : α → Except ε Unit} {made : α}
    (only : ∀ value, valid value ↔ validate value = .ok () ∧ value = made)
    (nothing : ∀ value, valid value → write value = []) :
    Reads (Reader.validated validate made) write valid := by
  intro input value rest
  rw [Reader.validated, Reader.bind_eq_ok]
  constructor
  · rintro ⟨_, _, passed, back⟩
    obtain ⟨good, rfl⟩ := Reader.check_eq_ok.mp passed
    obtain ⟨rfl, rfl⟩ := Reader.pure_eq_ok.mp back
    have holds := (only made).mpr ⟨good, rfl⟩
    rw [nothing made holds]
    exact ⟨holds, rfl⟩
  · rintro ⟨holds, rfl⟩
    obtain ⟨good, rfl⟩ := (only value).mp holds
    rw [nothing value holds]
    exact ⟨(), _, Reader.check_eq_ok.mpr ⟨good, rfl⟩, Reader.pure_eq_ok.mpr ⟨rfl, rfl⟩⟩

/-- A value read a number of times in a row. -/
theorem times (law : Reads read write valid) (count : Nat) :
    Reads (Reader.times count read) (fun values => (values.map write).flatten)
      fun values => values.length = count ∧ ∀ value ∈ values, valid value := by
  induction count with
  | zero =>
    refine pure (fun values => ?_) fun values ⟨empty, _⟩ => ?_
    · rw [List.length_eq_zero_iff]
      exact ⟨fun ⟨empty, _⟩ => empty, fun empty => ⟨empty, by simp [empty]⟩⟩
    · rw [List.length_eq_zero_iff.mp empty]
      rfl
  | succ count ih =>
    intro input values rest
    rw [Reader.times, Reader.bind_eq_ok]
    constructor
    · rintro ⟨head, middle, front, back⟩
      obtain ⟨good, rfl⟩ := (law _ _ _).mp front
      obtain ⟨tail, last, found, done⟩ := Reader.bind_eq_ok.mp back
      obtain ⟨⟨rfl, others⟩, rfl⟩ := (ih _ _ _).mp found
      obtain ⟨rfl, rfl⟩ := Reader.pure_eq_ok.mp done
      refine ⟨⟨rfl, List.forall_mem_cons.mpr ⟨good, others⟩⟩, ?_⟩
      simp only [List.map_cons, List.flatten_cons, List.append_assoc]
    · rintro ⟨⟨length, all⟩, rfl⟩
      cases values with
      | nil => simp at length
      | cons head tail =>
        obtain ⟨good, others⟩ := List.forall_mem_cons.mp all
        refine ⟨head, (tail.map write).flatten ++ rest, ?_, Reader.bind_eq_ok.mpr
          ⟨tail, rest, ?_, Reader.pure_eq_ok.mpr ⟨rfl, rfl⟩⟩⟩
        · simp only [List.map_cons, List.flatten_cons, List.append_assoc]
          exact (law _ _ _).mpr ⟨good, rfl⟩
        · rw [ih]
          exact ⟨⟨Nat.succ.inj length, others⟩, rfl⟩

/-- A reader of a whole byte string returns the valid values, each from its own bytes. -/
theorem exact_eq_ok (law : Reads read write valid) {trailing : Nat → ε} {bytes : List UInt8}
    {value : α} : read.exact trailing bytes = .ok value ↔ valid value ∧ bytes = write value := by
  simp only [Reader.exact]
  simp only [↓then_eq_ok, bind_eq_ok, rejectIf_eq_ok, pure_eq_ok, ne_eq, not_not,
    List.length_eq_zero_iff]
  constructor
  · rintro ⟨⟨found, rest⟩, front, rfl, rfl⟩
    rw [← List.append_nil (write found)]
    exact (law _ _ _).mp front
  · rintro ⟨good, rfl⟩
    exact ⟨(value, []), (law _ _ _).mpr ⟨good, (List.append_nil _).symm⟩, rfl, rfl⟩

/-- Valid values with the same bytes, each followed by anything, are the same. -/
theorem write_inj (law : Reads read write valid) {left right : α} {after after' : List UInt8}
    (leftValid : valid left) (rightValid : valid right)
    (same : write left ++ after = write right ++ after') : left = right ∧ after = after' := by
  have front := (law (write left ++ after) left after).mpr ⟨leftValid, rfl⟩
  have back := (law (write right ++ after') right after').mpr ⟨rightValid, rfl⟩
  rw [same, back] at front
  obtain ⟨rfl, rfl⟩ := Prod.mk.inj (Except.ok.inj front)
  exact ⟨rfl, rfl⟩

end Reads

/-- Every error of a computation satisfies a condition. -/
def FailsWith (allowed : ε → Prop) (computation : Except ε α) : Prop :=
  ∀ error, computation = .error error → allowed error

namespace FailsWith

variable {allowed : ε → Prop}

theorem ok (value : α) : FailsWith allowed (.ok value : Except ε α) := nofun

theorem rejectIf {condition : Prop} [Decidable condition] {error : ε} (holds : allowed error) :
    FailsWith allowed (Foundation.rejectIf condition error) := by
  intro failed
  by_cases refused : condition
  · simp only [Foundation.rejectIf, refused, if_true, Except.error.injEq]
    rintro rfl
    exact holds
  · simp [Foundation.rejectIf, refused]

theorem okOr {value : Option α} {error : ε} (holds : allowed error) :
    FailsWith allowed (Foundation.okOr value error) := by
  cases value with
  | some found => exact ok found
  | none =>
    rintro failed ⟨rfl⟩
    exact holds

/-- A check that passes never fails. -/
theorem passed {condition : Prop} [Decidable condition] {error : ε} (fine : ¬condition) :
    FailsWith allowed (Foundation.rejectIf condition error) := by
  intro failed
  simp [Foundation.rejectIf, fine]

theorem mapError {computation : Except ε' α} {convert : ε' → ε}
    (inner : FailsWith (fun error => allowed (convert error)) computation) :
    FailsWith allowed (computation.mapError convert) := by
  intro failed
  cases computation with
  | ok value => nofun
  | error error =>
    rintro ⟨rfl⟩
    exact inner error rfl

/-- A sequence fails as its steps do; a later step is judged knowing the values before it. -/
theorem bind {computation : Except ε α} {next : α → Except ε β}
    (first : FailsWith allowed computation)
    (later : ∀ value, computation = .ok value → FailsWith allowed (next value)) :
    FailsWith allowed (computation >>= next) := by
  cases computation with
  | ok value => exact later value rfl
  | error error =>
    rintro failed ⟨rfl⟩
    exact first error rfl

theorem readerBind {read : Reader ε α} {next : α → Reader ε β} {bytes : List UInt8}
    (first : FailsWith allowed (read bytes))
    (later : ∀ value rest, FailsWith allowed (next value rest)) :
    FailsWith allowed ((read >>= next) bytes) :=
  bind first fun found _ => later found.1 found.2

theorem lift {computation : Except ε α} {bytes : List UInt8}
    (holds : FailsWith allowed computation) :
    FailsWith allowed ((StateT.lift computation : Reader ε α) bytes) :=
  bind holds fun _ _ => ok _

end FailsWith

end Usdd.Foundation
