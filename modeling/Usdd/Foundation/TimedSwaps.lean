import Mathlib.Tactic
/-!
# Swaps over two ledgers with deadlines

Two assets are locked under one secret, each on a ledger of its own. The holder of the secret
claims the first asset, which publishes the secret, and the counterparty then claims the second.
The first asset can be returned after an early deadline and the second after a late one. Every
ledger dates its entries by a clock of its own, which is off by a bounded skew.

Neither ledger knows the other, so what protects a party is a rule it follows. A party that reacts
within a bounded time cannot lose its asset without getting the other one, as long as the deadlines
are further apart than both reactions and both skews together.
-/
namespace Usdd.Foundation.TimedSwaps

/-- What became of an asset. -/
inductive Lock where
  | absent
  | held
  | claimed
  | refunded
deriving DecidableEq

/-- The terms of a swap: the deadlines of its assets, the skew of the clocks and the time in which
a party reacts. -/
structure Terms where
  firstDeadline : Nat
  secondDeadline : Nat
  skew : Nat
  reaction : Nat

/-- A swap at a time: when the secret was published, and when the first asset was claimed. -/
structure State where
  now : Nat
  published : Option Nat
  claimedAt : Option Nat
  first : Lock
  second : Lock

/-- The state before anything happened. -/
def State.start (now : Nat) : State := ⟨now, none, none, .absent, .absent⟩

/-- The moves of the parties and of time, with the dates the ledgers give them. -/
inductive Action where
  | wait (later : Nat)
  | publish
  | lockFirst
  | lockSecond
  | claimFirst
  | refundFirst (date : Nat)
  | claimSecond (date : Nat)
  | refundSecond (date : Nat)

variable (terms : Terms)

/-- A date that a ledger may give at a time. -/
def Dated (now date : Nat) : Prop := now ≤ date + terms.skew ∧ date ≤ now + terms.skew

/-- What the ledgers and the secret allow. A claim needs the published secret. -/
inductive Step : State → Action → State → Prop
  | wait {state : State} {later : Nat} :
    state.now ≤ later → Step state (.wait later) { state with now := later }
  | publish {state : State} :
    state.published = none → Step state .publish { state with published := some state.now }
  | lockFirst {state : State} :
    state.first = .absent → Step state .lockFirst { state with first := .held }
  | lockSecond {state : State} :
    state.second = .absent → Step state .lockSecond { state with second := .held }
  | claimFirst {state : State} :
    state.first = .held → state.published.isSome →
    Step state .claimFirst { state with first := .claimed, claimedAt := some state.now }
  | refundFirst {state : State} {date : Nat} :
    state.first = .held → Dated terms state.now date → terms.firstDeadline < date →
    Step state (.refundFirst date) { state with first := .refunded }
  | claimSecond {state : State} {date : Nat} :
    state.second = .held → state.published.isSome → Dated terms state.now date →
    date < terms.secondDeadline → Step state (.claimSecond date) { state with second := .claimed }
  | refundSecond {state : State} {date : Nat} :
    state.second = .held → Dated terms state.now date → terms.secondDeadline ≤ date →
    Step state (.refundSecond date) { state with second := .refunded }

/-- What a party allows to happen: it makes no other move of its own, and lets no time pass while
a move of its own is due. -/
def Rule : Type := State → Action → Prop

/-- The time by which the counterparty has taken an unclaimed first asset back. -/
def Terms.returnBy : Nat := terms.firstDeadline + terms.skew + 1 + terms.reaction

/-- The rule of the holder: publish only where the first asset is held and its deadline is a
reaction away on every clock, and claim it within a reaction. -/
def holderRule : Rule := fun state action =>
  match action with
  | .publish => state.first = .held ∧ state.now + terms.reaction + terms.skew ≤ terms.firstDeadline
  | .wait later => ∀ since, state.published = some since → state.first = .held →
      later ≤ since + terms.reaction
  | _ => True

/-- The rule of the counterparty: lock the first asset only against the second one and before its
deadline, take it back within a reaction of the deadline, and claim the second asset within a
reaction of the claim of the first. -/
def counterpartyRule : Rule := fun state action =>
  match action with
  | .lockFirst => state.second = .held ∧ state.now ≤ terms.firstDeadline
  | .wait later => (state.first = .held → later ≤ terms.returnBy) ∧
      ∀ since, state.claimedAt = some since → state.second = .held →
        later ≤ since + terms.reaction
  | _ => True

/-- Both parties follow their rules. -/
def bothRules : Rule := fun state action =>
  holderRule terms state action ∧ counterpartyRule terms state action

/-- The states of the runs in which a rule is followed. -/
inductive Reached (rule : Rule) (start : Nat) : State → Prop
  | start : Reached rule start (.start start)
  | step {state next : State} {action : Action} :
    Reached rule start state → rule state action → Step terms state action next →
    Reached rule start next

variable {terms} {rule : Rule} {start : Nat} {state next : State} {action : Action}

/-- A run that follows a rule follows every weaker one. -/
theorem Reached.mono {weaker : Rule} (reached : Reached terms rule start state)
    (implied : ∀ state action, rule state action → weaker state action) :
    Reached terms weaker start state := by
  induction reached with
  | start => exact .start
  | step _ followed taken ih => exact .step ih (implied _ _ followed) taken

section Holder

/-- What the holder's rule keeps: once the secret is out, the first asset is claimed, or it is still
held and its deadline has not come on any clock. -/
structure HolderSafe (terms : Terms) (state : State) : Prop where
  taken : ∀ since, state.published = some since →
    since + terms.reaction + terms.skew ≤ terms.firstDeadline ∧
      (state.first = .claimed ∨ state.first = .held ∧ state.now ≤ since + terms.reaction)
  revealed : state.second = .claimed → state.published.isSome

theorem HolderSafe.step (safe : HolderSafe terms state)
    (followed : holderRule terms state action) (taken : Step terms state action next) :
    HolderSafe terms next := by
  obtain ⟨out, revealed⟩ := safe
  cases taken with
  | wait ordered =>
    refine ⟨fun since published => ?_, revealed⟩
    obtain ⟨early, claimed | ⟨held, -⟩⟩ := out since published
    · exact ⟨early, Or.inl claimed⟩
    · exact ⟨early, Or.inr ⟨held, followed since published held⟩⟩
  | publish fresh =>
    obtain ⟨held, early⟩ := followed
    refine ⟨fun since published => ?_, fun _ => rfl⟩
    obtain rfl := Option.some.inj published
    exact ⟨early, Or.inr ⟨held, Nat.le_add_right _ _⟩⟩
  | lockFirst absent =>
    refine ⟨fun since published => ?_, revealed⟩
    obtain ⟨-, claimed | ⟨held, -⟩⟩ := out since published
    · rw [absent] at claimed
      cases claimed
    · rw [absent] at held
      cases held
  | lockSecond absent => exact ⟨out, fun claimed => nomatch claimed⟩
  | claimFirst held published =>
    exact ⟨fun since published => ⟨(out since published).1, Or.inl rfl⟩, revealed⟩
  | refundFirst held dated late =>
    -- a refund is dated after the deadline, and by then an unclaimed asset had been claimed
    refine ⟨fun since published => ?_, revealed⟩
    obtain ⟨early, claimed | ⟨-, soon⟩⟩ := out since published
    · rw [held] at claimed
      cases claimed
    · have close := dated.2
      omega
  | claimSecond held published dated early => exact ⟨out, fun _ => published⟩
  | refundSecond held dated late => exact ⟨out, fun claimed => nomatch claimed⟩

theorem Reached.holderSafe (reached : Reached terms (holderRule terms) start state) :
    HolderSafe terms state := by
  induction reached with
  | start =>
    refine ⟨fun since published => ?_, fun claimed => ?_⟩
    · cases published
    · cases claimed
  | step _ followed taken ih => exact ih.step followed taken

/-- The second asset is claimed only from a holder who has claimed the first, or still can. -/
theorem Reached.second_claimed (reached : Reached terms (holderRule terms) start state)
    (claimed : state.second = .claimed) :
    state.first = .claimed ∨ state.first = .held ∧ ∃ since, state.published = some since ∧
      state.now ≤ since + terms.reaction ∧
      since + terms.reaction + terms.skew ≤ terms.firstDeadline := by
  obtain ⟨out, revealed⟩ := reached.holderSafe
  obtain ⟨since, published⟩ := Option.isSome_iff_exists.mp (revealed claimed)
  obtain ⟨early, first | ⟨held, soon⟩⟩ := out since published
  · exact Or.inl first
  · exact Or.inr ⟨held, since, published, soon, early⟩

end Holder

section Counterparty

/-- Deadlines that leave time for both reactions on clocks that disagree. -/
def Terms.Separated (terms : Terms) : Prop :=
  terms.firstDeadline + 2 * (terms.skew + terms.reaction) + 1 < terms.secondDeadline

/-- What the counterparty's rule keeps: a held first asset is taken back in time, a claimed one was
claimed in time, and the second asset stands against it. -/
structure CounterpartySafe (terms : Terms) (state : State) : Prop where
  held : state.first = .held → state.now ≤ terms.returnBy
  claimed : state.first = .claimed → ∃ since, state.claimedAt = some since ∧
    since ≤ terms.returnBy ∧ (state.second = .held → state.now ≤ since + terms.reaction)
  since : ∀ since, state.claimedAt = some since → state.first = .claimed
  covered : state.first = .held ∨ state.first = .claimed →
    state.second = .held ∨ state.second = .claimed

/-- While the first asset stands, no clock has reached the second deadline. -/
theorem CounterpartySafe.early (safe : CounterpartySafe terms state)
    (separated : terms.Separated) (stands : state.first = .held ∨ state.first = .claimed)
    (open_ : state.second = .held) {date : Nat} (dated : Dated terms state.now date) :
    date < terms.secondDeadline := by
  have close := dated.2
  unfold Terms.Separated at separated
  have bound : state.now ≤ terms.returnBy + terms.reaction := by
    rcases stands with held | claimed
    · exact Nat.le_trans (safe.held held) (Nat.le_add_right _ _)
    · obtain ⟨since, -, timely, soon⟩ := safe.claimed claimed
      exact Nat.le_trans (soon open_) (Nat.add_le_add_right timely _)
  unfold Terms.returnBy at bound
  omega

theorem CounterpartySafe.step (separated : terms.Separated)
    (safe : CounterpartySafe terms state) (followed : counterpartyRule terms state action)
    (taken : Step terms state action next) : CounterpartySafe terms next := by
  cases taken with
  | wait ordered =>
    refine ⟨followed.1, fun claimed => ?_, safe.since, safe.covered⟩
    obtain ⟨since, at_, timely, -⟩ := safe.claimed claimed
    exact ⟨since, at_, timely, followed.2 since at_⟩
  | publish fresh => exact ⟨safe.held, safe.claimed, safe.since, safe.covered⟩
  | lockFirst absent =>
    obtain ⟨against, early⟩ := followed
    refine ⟨fun _ => ?_, (fun claimed => nomatch claimed), fun since at_ => ?_,
      fun _ => Or.inl against⟩
    · change state.now ≤ terms.returnBy
      unfold Terms.returnBy
      omega
    · have claimed := safe.since since at_
      rw [absent] at claimed
      cases claimed
  | lockSecond absent =>
    refine ⟨safe.held, fun claimed => ?_, safe.since, fun _ => Or.inl rfl⟩
    have standing := safe.covered (Or.inr claimed)
    rw [absent] at standing
    rcases standing with wrong | wrong <;> cases wrong
  | claimFirst held published =>
    refine ⟨(fun wrong => nomatch wrong), fun _ => ?_, fun _ _ => rfl,
      fun _ => safe.covered (Or.inl held)⟩
    exact ⟨state.now, rfl, safe.held held, fun _ => Nat.le_add_right _ _⟩
  | refundFirst held dated late =>
    refine ⟨(fun wrong => nomatch wrong), (fun wrong => nomatch wrong), fun since at_ => ?_, ?_⟩
    · have claimed := safe.since since at_
      rw [held] at claimed
      cases claimed
    · rintro (wrong | wrong) <;> cases wrong
  | claimSecond held published dated early =>
    refine ⟨safe.held, fun claimed => ?_, safe.since, fun _ => Or.inr rfl⟩
    obtain ⟨since, at_, timely, -⟩ := safe.claimed claimed
    exact ⟨since, at_, timely, (fun wrong => nomatch wrong)⟩
  | refundSecond open_ dated late =>
    -- a refund is dated after the second deadline, and nothing stands against it by then
    have settled : ¬(state.first = .held ∨ state.first = .claimed) := fun stands =>
      absurd (safe.early separated stands open_ dated) (Nat.not_lt.mpr late)
    exact ⟨fun held => absurd (Or.inl held) settled,
      fun claimed => absurd (Or.inr claimed) settled, safe.since,
      fun stands => absurd stands settled⟩

theorem Reached.counterpartySafe (separated : terms.Separated)
    (reached : Reached terms (counterpartyRule terms) start state) :
    CounterpartySafe terms state := by
  induction reached with
  | start =>
    refine ⟨(fun held => nomatch held), (fun claimed => nomatch claimed), fun since at_ => ?_, ?_⟩
    · cases at_
    · rintro (wrong | wrong) <;> cases wrong
  | step _ followed taken ih => exact ih.step separated followed taken

/-- The first asset is claimed only from a counterparty who has claimed the second, or still can:
the second asset is held, and no clock has reached its deadline. -/
theorem Reached.first_claimed (separated : terms.Separated)
    (reached : Reached terms (counterpartyRule terms) start state)
    (claimed : state.first = .claimed) :
    state.second = .claimed ∨ state.second = .held ∧
      (∃ since, state.claimedAt = some since ∧ state.now ≤ since + terms.reaction) ∧
      ∀ date, Dated terms state.now date → date < terms.secondDeadline := by
  have safe := reached.counterpartySafe separated
  rcases safe.covered (Or.inr claimed) with held | second
  · refine Or.inr ⟨held, ?_, fun date dated => safe.early separated (Or.inr claimed) held dated⟩
    obtain ⟨since, at_, -, soon⟩ := safe.claimed claimed
    exact ⟨since, at_, soon held⟩
  · exact Or.inl second

/-- Where both parties follow their rules, a swap with nothing left to claim or take back changed
both assets' hands or neither's. -/
theorem Reached.atomic (separated : terms.Separated)
    (reached : Reached terms (bothRules terms) start state) (first : state.first ≠ .held)
    (second : state.second ≠ .held) : state.first = .claimed ↔ state.second = .claimed := by
  constructor
  · intro claimed
    have counterparty : Reached terms (counterpartyRule terms) start state :=
      reached.mono fun _ _ both => both.2
    rcases counterparty.first_claimed separated claimed with done | ⟨held, _⟩
    · exact done
    · exact absurd held second
  · intro claimed
    have holder : Reached terms (holderRule terms) start state :=
      reached.mono fun _ _ both => both.1
    rcases holder.second_claimed claimed with done | ⟨held, _⟩
    · exact done
    · exact absurd held first

end Counterparty

end Usdd.Foundation.TimedSwaps
