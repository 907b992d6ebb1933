import Usdd.BitcoinBmm.Headers
/-!
# Runs of the parent header chain

A run is a list of headers accepted one after another. One step carries the start time of the
difficulty interval along; over a run it is the time of the block at the last boundary, and the
block that closes an interval is judged by the start time of the interval it closes.
-/
namespace Usdd.Verif

open Usdd.Foundation Usdd.Core Usdd.BitcoinBmm

variable [Hashing]

/-- The states after each of a list of headers, when every header is accepted. -/
def acceptHeaders (params : PowParameters) :
    HeaderChainState → List (List UInt8) → Except HeaderError (List HeaderChainState)
  | _, [] => .ok []
  | state, bytes :: rest => do
    let next ← verifySuccessor state bytes params
    let states ← acceptHeaders params next rest
    return next :: states

/-- The time of the added block of a height, or the start time the run began with where the
block of that height was not added. -/
def startTimeAt (start : HeaderChainState) (states : List HeaderChainState) (height : Nat) :
    UInt32 :=
  match states.find? (·.height.toNat = height) with
  | some state => state.tip.header.time
  | none => start.intervalStartTime

/-- The work of the blocks a run added. -/
def addedWork (states : List HeaderChainState) : Nat :=
  (states.map (·.tip.work.toNat)).sum

/-- What a run says about the state of one accepted header and the state before it. -/
structure AcceptedHeader (params : PowParameters) (interval : UInt32)
    (start : HeaderChainState) (states : List HeaderChainState) (position : Nat)
    (bytes : List UInt8) (previous state : HeaderChainState) : Prop where
  decoded : BitcoinHeader.decodeExact bytes = .ok state.tip.header
  hashed : state.tip.hash = state.tip.header.blockHash
  linked : state.tip.header.previousBlock = previous.tip.hash
  height : state.height.toNat = start.height.toNat + position + 1
  target : decodeAndValidateTarget state.tip.header.bits params.powLimit = .ok state.tip.target
  worked : blockWork state.tip.target = .ok state.tip.work
  chainwork : state.cumulativeWork.toNat =
    start.cumulativeWork.toNat + addedWork (states.take (position + 1))
  grows : previous.cumulativeWork.toNat < state.cumulativeWork.toNat
  enough : leNat state.tip.hash.bytes ≤ state.tip.target.toNat
  steady : state.height.toNat % interval.toNat ≠ 0 →
    state.tip.header.bits = previous.tip.header.bits
  retargeted : state.height.toNat % interval.toNat = 0 →
    retarget params previous.tip.header.bits previous.tip.header.time
      (startTimeAt start states (state.height.toNat - interval.toNat)) =
        .ok state.tip.header.bits
  startTime : state.intervalStartTime =
    startTimeAt start states (state.height.toNat - state.height.toNat % interval.toNat)

omit [Hashing] in
/-- An accepted interval is positive. -/
theorem interval_pos {params : PowParameters} {interval : UInt32}
    (sized : params.interval = .ok interval) : 0 < interval.toNat := by
  simp only [PowParameters.interval, ↓then_eq_ok, rejectIf_eq_ok, pure_eq_ok] at sized
  obtain ⟨-, positive, rfl⟩ := sized
  exact Nat.pos_of_ne_zero fun zero => positive (UInt32.toNat_inj.mp zero)

omit [Hashing] in
/-- A height is a boundary exactly when its number is. -/
theorem boundary_iff (height interval : UInt32) :
    height % interval = 0 ↔ height.toNat % interval.toNat = 0 := by
  rw [← UInt32.toNat_inj, UInt32.toNat_mod]
  rfl

omit [Hashing] in
/-- The difficulty a state determines for its successor. -/
theorem nextWorkRequired_ok {params : PowParameters} {interval bits : UInt32}
    {state : HeaderChainState} (sized : params.interval = .ok interval)
    (retargets : params.noRetargeting = false)
    (required : nextWorkRequired state params = .ok bits) :
    ((state.height.toNat + 1) % interval.toNat ≠ 0 → bits = state.tip.header.bits) ∧
    ((state.height.toNat + 1) % interval.toNat = 0 →
      retarget params state.tip.header.bits state.tip.header.time state.intervalStartTime =
        .ok bits) := by
  simp only [nextWorkRequired, bind_eq_ok, okOr_eq_ok, sized, Except.ok.injEq,
    exists_eq_left', retargets, Bool.false_eq_true, if_false] at required
  obtain ⟨height, counted, required⟩ := required
  have sum := checkedSucc_eq_some.mp counted
  have boundary := boundary_iff height interval
  rw [← sum] at boundary
  by_cases closes : height % interval = 0
  · rw [if_neg (not_not.mpr closes)] at required
    exact ⟨fun open_ => absurd (boundary.mp closes) open_, fun _ => required⟩
  · rw [if_pos closes] at required
    simp only [↓then_eq_ok, rejectIf_eq_ok, pure_eq_ok] at required
    exact ⟨fun _ => required.2.symm, fun closed => absurd (boundary.mpr closed) closes⟩

omit [Hashing] in
/-- The number after `height` opens an interval exactly when `height` is the last of one. -/
theorem closes_iff {height interval : Nat} (positive : 0 < interval) :
    (height + 1) % interval = 0 ↔ height % interval = interval - 1 := by
  obtain ⟨last, rfl⟩ := Nat.exists_eq_add_of_lt positive
  rw [Nat.zero_add]
  exact Nat.succ_mod_succ_eq_zero_iff

omit [Hashing] in
/-- Inside an interval the remainder increases with the number. -/
theorem inside_mod {height interval : Nat} (positive : 0 < interval)
    (inside : (height + 1) % interval ≠ 0) :
    (height + 1) % interval = height % interval + 1 := by
  have last := (closes_iff positive).not.mp inside
  have fits := Nat.mod_lt height positive
  have one : 1 % interval = 1 := Nat.mod_eq_of_lt (by omega)
  rw [Nat.add_mod_of_add_mod_lt (by omega), one]

section Runs

variable {params : PowParameters} {interval : UInt32} {start : HeaderChainState}
  {headers : List (List UInt8)} {states : List HeaderChainState}

/-- Each state of a run is the accepted successor of the state before it. -/
theorem acceptHeaders_step (accepted : acceptHeaders params start headers = .ok states)
    {position : Nat} {state : HeaderChainState} (here : states[position]? = some state) :
    ∃ bytes previous, headers[position]? = some bytes ∧
      (start :: states)[position]? = some previous ∧
      verifySuccessor previous bytes params = .ok state := by
  induction headers generalizing start states position with
  | nil =>
    cases accepted
    simp at here
  | cons bytes rest ih =>
    simp only [acceptHeaders, bind_eq_ok, pure_eq_ok] at accepted
    obtain ⟨next, verified, others, restAccepted, rfl⟩ := accepted
    cases position with
    | zero =>
      simp only [List.getElem?_cons_zero, Option.some.injEq] at here
      subst here
      exact ⟨bytes, start, rfl, rfl, verified⟩
    | succ position =>
      simp only [List.getElem?_cons_succ] at here ⊢
      exact ih restAccepted here

/-- A run has one state for each header. -/
theorem acceptHeaders_length (accepted : acceptHeaders params start headers = .ok states) :
    states.length = headers.length := by
  induction headers generalizing start states with
  | nil =>
    cases accepted
    rfl
  | cons bytes rest ih =>
    simp only [acceptHeaders, bind_eq_ok, pure_eq_ok] at accepted
    obtain ⟨next, verified, others, restAccepted, rfl⟩ := accepted
    rw [List.length_cons, List.length_cons, ih restAccepted]

/-- Heights increase by one. -/
theorem acceptHeaders_height (accepted : acceptHeaders params start headers = .ok states)
    {position : Nat} {state : HeaderChainState} (here : (start :: states)[position]? = some state) :
    state.height.toNat = start.height.toNat + position := by
  induction position generalizing state with
  | zero =>
    simp only [List.getElem?_cons_zero, Option.some.injEq] at here
    rw [here, Nat.add_zero]
  | succ position ih =>
    obtain ⟨bytes, previous, -, before, verified⟩ := acceptHeaders_step accepted here
    obtain ⟨-, -, -, -, -, height, -⟩ := verifySuccessor_ok verified
    rw [height, ih before, Nat.add_assoc]

/-- The cumulative work grows by the work of every added block. -/
theorem acceptHeaders_work (accepted : acceptHeaders params start headers = .ok states)
    {position : Nat} {state : HeaderChainState} (here : (start :: states)[position]? = some state) :
    state.cumulativeWork.toNat =
      start.cumulativeWork.toNat + addedWork (states.take position) := by
  induction position generalizing state with
  | zero =>
    simp only [List.getElem?_cons_zero, Option.some.injEq] at here
    rw [here]
    rfl
  | succ position ih =>
    obtain ⟨bytes, previous, -, before, verified⟩ := acceptHeaders_step accepted here
    obtain ⟨-, -, -, -, -, -, work, -⟩ := verifySuccessor_ok verified
    have here' : states[position]? = some state := here
    rw [work, ih before, List.take_add_one, here']
    simp [addedWork, Nat.add_assoc]

/-- The time of an added block is found at its height. -/
theorem startTimeAt_added (accepted : acceptHeaders params start headers = .ok states)
    {position : Nat} {state : HeaderChainState} (here : states[position]? = some state) :
    startTimeAt start states state.height.toNat = state.tip.header.time := by
  have heightAt : ∀ {other : Nat} {added : HeaderChainState}, states[other]? = some added →
      added.height.toNat = start.height.toNat + (other + 1) := by
    intro other added found
    exact acceptHeaders_height accepted (show (start :: states)[other + 1]? = some added from found)
  have member : state ∈ states := List.mem_of_getElem? here
  cases found : states.find? (·.height.toNat = state.height.toNat) with
  | none =>
    have absent := List.find?_eq_none.mp found state member
    simp at absent
  | some other =>
    have same : other.height.toNat = state.height.toNat := by
      simpa using List.find?_some found
    obtain ⟨position', here'⟩ := List.getElem?_of_mem (List.mem_of_find?_eq_some found)
    have equal : position' = position := by
      have there := heightAt here'
      have height := heightAt here
      omega
    rw [equal, here, Option.some.injEq] at here'
    rw [startTimeAt, found, here']

/-- No block was added at a height up to the one the run began at. -/
theorem startTimeAt_before (accepted : acceptHeaders params start headers = .ok states)
    {height : Nat} (before : height ≤ start.height.toNat) :
    startTimeAt start states height = start.intervalStartTime := by
  have absent : states.find? (·.height.toNat = height) = none := by
    rw [List.find?_eq_none]
    intro state member same
    obtain ⟨position, here⟩ := List.getElem?_of_mem member
    have added := acceptHeaders_height accepted
      (show (start :: states)[position + 1]? = some state from here)
    simp only [decide_eq_true_eq] at same
    omega
  rw [startTimeAt, absent]

/-- Every state carries the start time of the interval its height lies in. -/
theorem acceptHeaders_startTime (sized : params.interval = .ok interval)
    (accepted : acceptHeaders params start headers = .ok states)
    {position : Nat} {state : HeaderChainState} (here : (start :: states)[position]? = some state) :
    state.intervalStartTime =
      startTimeAt start states (state.height.toNat - state.height.toNat % interval.toNat) := by
  induction position generalizing state with
  | zero =>
    simp only [List.getElem?_cons_zero, Option.some.injEq] at here
    rw [← here, startTimeAt_before accepted (Nat.sub_le ..)]
  | succ position ih =>
    obtain ⟨bytes, previous, -, before, verified⟩ := acceptHeaders_step accepted here
    obtain ⟨interval', sized', -, -, -, height, -, startTime⟩ := verifySuccessor_ok verified
    have same : interval' = interval := by
      rw [sized, Except.ok.injEq] at sized'
      exact sized'.symm
    rw [startTime, same]
    by_cases boundary : state.height % interval = 0
    · have closed := (boundary_iff ..).mp boundary
      rw [if_pos boundary, closed, Nat.sub_zero, startTimeAt_added accepted here]
    · -- Inside an interval the last boundary is the one of the block before.
      have inside : (previous.height.toNat + 1) % interval.toNat ≠ 0 := by
        rw [← height]
        exact fun closed => boundary ((boundary_iff ..).mpr closed)
      rw [if_neg boundary, ih before, height, inside_mod (interval_pos sized) inside]
      congr 1
      omega

/-- One position of a run, assembled from the step and the invariants of the run. -/
theorem acceptHeaders_acceptedHeader (sized : params.interval = .ok interval)
    (retargets : params.noRetargeting = false)
    (accepted : acceptHeaders params start headers = .ok states) {position : Nat}
    {bytes : List UInt8} {previous state : HeaderChainState}
    (header : headers[position]? = some bytes)
    (before : (start :: states)[position]? = some previous)
    (here : states[position]? = some state) :
    AcceptedHeader params interval start states position bytes previous state := by
  have here' : (start :: states)[position + 1]? = some state := here
  obtain ⟨bytes', previous', header', before', verified⟩ := acceptHeaders_step accepted here
  rw [header, Option.some.injEq] at header'
  rw [before, Option.some.injEq] at before'
  subst header' before'
  obtain ⟨-, -, required, checked, linked, height, work, -⟩ := verifySuccessor_ok verified
  obtain ⟨decoded, -, target, hashed, enough, worked⟩ := verifyHeaderPow_eq_ok.mp checked
  obtain ⟨steady, closing⟩ := nextWorkRequired_ok sized retargets required
  have positive := interval_pos sized
  have startTime := acceptHeaders_startTime sized accepted before
  refine ⟨decoded, hashed, linked, acceptHeaders_height accepted here', target, worked,
    acceptHeaders_work accepted here', ?_, ?_, ?_, ?_, acceptHeaders_startTime sized accepted here'⟩
  · have grows := blockWork_pos worked
    omega
  · rw [← Uint256.toNat_fromLeBytes]
    exact enough
  · rw [height]
    exact steady
  · intro boundary
    rw [height] at boundary ⊢
    have last := (closes_iff positive).mp boundary
    have opened : previous.height.toNat - previous.height.toNat % interval.toNat =
        previous.height.toNat + 1 - interval.toNat := by omega
    rw [← opened, ← startTime]
    exact closing boundary

/-- A start state that carries the time of its own block at a boundary counts as an added one. -/
theorem startTimeAt_own (accepted : acceptHeaders params start headers = .ok states)
    (own : start.height.toNat % interval.toNat = 0 →
      start.intervalStartTime = start.tip.header.time)
    {height : Nat} (boundary : height % interval.toNat = 0) :
    startTimeAt start (start :: states) height = startTimeAt start states height := by
  by_cases same : start.height.toNat = height
  · rw [startTimeAt_before accepted (Nat.le_of_eq same.symm), own (same ▸ boundary)]
    simp [startTimeAt, same]
  · simp [startTimeAt, same]

end Runs

/-- Every run of accepted headers, at every position: the header links to the block before it,
heights and work add up, the hash meets the target, the bits are constant inside an interval and
retargeted from the start of the closing interval at its end, and the start time is the time of
the block at the last boundary. -/
theorem header_runs (params : PowParameters) (interval : UInt32) (start : HeaderChainState)
    (headers : List (List UInt8)) (states : List HeaderChainState)
    (sized : params.interval = .ok interval) (retargets : params.noRetargeting = false)
    (accepted : acceptHeaders params start headers = .ok states) :
    states.length = headers.length ∧
    (∀ position bytes previous state, headers[position]? = some bytes →
      (start :: states)[position]? = some previous → states[position]? = some state →
      AcceptedHeader params interval start states position bytes previous state) ∧
    ((start.height.toNat % interval.toNat = 0 →
        start.intervalStartTime = start.tip.header.time) →
      ∀ height, height % interval.toNat = 0 →
        startTimeAt start (start :: states) height = startTimeAt start states height) := by
  refine ⟨acceptHeaders_length accepted, ?_, ?_⟩
  · intro position bytes previous state header before here
    exact acceptHeaders_acceptedHeader sized retargets accepted header before here
  · intro own height boundary
    exact startTimeAt_own accepted own boundary

section Sample

/-- An easy chain whose intervals are two blocks long. -/
def easyParameters : PowParameters where
  powLimit := .fromLimbsLe 0 0 0 0x007fffff00000000
  targetTimespan := 1200
  targetSpacing := 600
  allowMinDifficultyBlocks := false
  noRetargeting := false

/-- Its first state: a block at height zero and time 100. -/
def easyStart : HeaderChainState where
  height := 0
  tip := {
    header := ⟨1, .zero 32, .zero 32, 100, 0x1f7fffff, 0, .zero 80⟩
    hash := .zero 32
    target := .fromLimbsLe 0 0 0 0x007fffff00000000
    work := .fromLimbsLe 512 0 0 0 }
  cumulativeWork := .fromLimbsLe 512 0 0 0
  intervalStartTime := 100

/-- The next two headers; the second is at a boundary and four times as hard. -/
def easyHeaders : List (List UInt8) :=
  [[1, 0, 0, 0] ++ List.replicate 64 0 ++
      [0x90, 0x01, 0, 0, 0xff, 0xff, 0x7f, 0x1f, 0x28, 0, 0, 0],
    [1, 0, 0, 0] ++
      [0xf2, 0xa7, 0x51, 0xfd, 0x9b, 0x89, 0xa4, 0xeb, 0xa2, 0xe8, 0x96, 0xbf,
        0x21, 0x13, 0x63, 0x12, 0x29, 0x83, 0x28, 0xb4, 0x62, 0x97, 0xa8, 0x04,
        0xb8, 0x56, 0x71, 0xce, 0xef, 0xf9, 0x7a, 0x00] ++
      List.replicate 32 0 ++
      [0x84, 0x03, 0, 0, 0xff, 0xff, 0x1f, 0x1f, 0xe3, 0x01, 0, 0]]

omit [Hashing] in
/-- Both headers are accepted, and the run has every property. -/
theorem header_runs_easy :
    letI := sha256Hashing
    ∃ states, acceptHeaders easyParameters easyStart easyHeaders = .ok states ∧
      states.length = 2 ∧
      ∀ position bytes previous state, easyHeaders[position]? = some bytes →
        (easyStart :: states)[position]? = some previous → states[position]? = some state →
        AcceptedHeader easyParameters 2 easyStart states position bytes previous state := by
  let hashing := sha256Hashing
  obtain ⟨states, accepted⟩ : Succeeds (acceptHeaders easyParameters easyStart easyHeaders) := by
    decide +kernel
  obtain ⟨length, facts, -⟩ :=
    header_runs easyParameters 2 easyStart easyHeaders states (by decide) rfl accepted
  exact ⟨states, accepted, length, facts⟩

end Sample

end Usdd.Verif
