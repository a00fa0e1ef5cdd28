import HubCard.Proofs.Selector

/-!
The selector over a run of inputs. Between two of them it is at rest, and all that can be seen of it
is what a much simpler selector does, which has no phases and nothing that waits to be collected.
-/

namespace HubCard.Selector

/-- One thing that is done with a selector. -/
inductive Input where
  | pick (value confirmed : String) (now : Millis)
  | settle (confirmed : String) (now : Millis)
  | writeBack
  | takeOutcome
  deriving Repr, DecidableEq

/-- The value that the hub confirms and the time, where the selector is told of them. -/
def Input.told? : Input → Option (String × Millis)
  | .pick _ confirmed now | .settle confirmed now => some (confirmed, now)
  | .writeBack | .takeOutcome => none

/-- What the inputs have told last. -/
def lastTold (inputs : List Input) : String × Millis :=
  (inputs.filterMap Input.told?).getLastD ("", 0)

namespace Control

/-- The selector after an input, and what it asks of the card. -/
def accept (c : Control) : Input → Control × List Action
  | .pick value confirmed now => c.pick value confirmed now
  | .settle confirmed now => c.settle confirmed now
  | .writeBack => (c.writeBack.1, [])
  | .takeOutcome => (c.takeOutcome.1, [])

def after (c : Control) (inputs : List Input) : Control :=
  inputs.foldl (fun c i => (c.accept i).1) c

/-- What the machine was told last. -/
def told (c : Control) : String × Millis :=
  (c.confirmed, c.machine.memory.now)

/-! ## At rest -/

theorem Settled.accept {c : Control} (h : c.Settled) (i : Input) : (c.accept i).1.Settled := by
  cases i with
  | pick value confirmed now => exact h.pick value confirmed now
  | settle confirmed now => exact h.settle confirmed now
  | writeBack => exact h.writeBack
  | takeOutcome => exact h.takeOutcome

theorem Settled.after {c : Control} (h : c.Settled) (inputs : List Input) :
    (c.after inputs).Settled := by
  induction inputs generalizing c with
  | nil => exact h
  | cons i inputs ih => exact ih (h.accept i)

theorem Settled.told_settle {c : Control} (h : c.Settled) (confirmed : String) (now : Millis) :
    (c.settle confirmed now).1.told = (confirmed, now) := by
  rw [settle_eq h.toReady]
  rfl

theorem Settled.told_pick {c : Control} (h : c.Settled) (value confirmed : String)
    (now : Millis) : (c.pick value confirmed now).1.told = (confirmed, now) := by
  rcases pick_cases h.toReady value confirmed now with ⟨-, hpick⟩ | ⟨-, -, hpick⟩ | ⟨-, -, hpick⟩
  · rw [hpick]
    exact h.told_settle confirmed now
  · rw [hpick]
    rfl
  · rw [hpick]
    rfl

theorem Settled.told_accept {c : Control} (h : c.Settled) (i : Input) :
    (c.accept i).1.told = i.told?.getD c.told := by
  cases i with
  | pick value confirmed now => exact h.told_pick value confirmed now
  | settle confirmed now => exact h.told_settle confirmed now
  | writeBack =>
    unfold Control.accept Control.writeBack
    dsimp only
    split <;> rfl
  | takeOutcome => rfl

theorem Settled.told_after {c : Control} (h : c.Settled) (inputs : List Input) :
    (c.after inputs).told = (inputs.filterMap Input.told?).getLastD c.told := by
  induction inputs generalizing c with
  | nil => rfl
  | cons i inputs ih =>
    have hrest : (c.after (i :: inputs)).told =
        (inputs.filterMap Input.told?).getLastD (c.accept i).1.told := ih (h.accept i)
    rw [hrest, h.told_accept, List.filterMap_cons]
    cases i.told? with
    | none => rfl
    | some told => rw [List.getLastD_cons, Option.getD_some]

theorem Settled.expiry_accept {c : Control} (h : c.Settled) (i : Input) :
    (c.accept i).1.expiry = c.expiry := by
  cases i with
  | pick value confirmed now => exact (h.pick_frame value confirmed now).2
  | settle confirmed now => exact (h.settle_frame confirmed now).2
  | writeBack => exact c.writeBack_frame.2.2.2.1
  | takeOutcome => rfl

theorem Settled.expiry_after {c : Control} (h : c.Settled) (inputs : List Input) :
    (c.after inputs).expiry = c.expiry := by
  induction inputs generalizing c with
  | nil => rfl
  | cons i inputs ih => exact (ih (h.accept i)).trans (h.expiry_accept i)

/-- After any inputs the selector is pending exactly on a request, which is for another value than
the one confirmed last and has not expired by the last time. No pick is left to be taken in, and
nothing to be given out. So the selector shows the request while it is pending, and what is confirmed
while it is idle. -/
theorem at_rest_after (expiry : Millis) (inputs : List Input) :
    let c := (new expiry).after inputs
    let confirmed := (lastTold inputs).1
    let now := (lastTold inputs).2
    (c.phase = .pending ↔ ∃ r, c.request = some r) ∧
      (∀ r, c.request = some r → r.value ≠ confirmed ∧ Millis.since now r.start ≤ expiry) ∧
      c.machine.memory.picked = none ∧ c.machine.memory.outbox = [] ∧
      (c.phase = .pending → ∃ r, c.request = some r ∧ c.shown = r.value) ∧
      (c.phase = .idle → c.shown = confirmed) := by
  intro c confirmed now
  have hsettled : c.Settled := (settled_new expiry).after inputs
  have htold : c.told = (confirmed, now) := (settled_new expiry).told_after inputs
  have hconfirmed : c.confirmed = confirmed := congrArg Prod.fst htold
  have hnow : c.machine.memory.now = now := congrArg Prod.snd htold
  have hexpiry : c.expiry = expiry := (settled_new expiry).expiry_after inputs
  have hphase := hsettled.phase
  have hshown := hsettled.shown_eq
  refine ⟨?_, ?_, hsettled.picked, hsettled.outbox, ?_, ?_⟩
  · rw [hphase]
    cases c.request <;> simp [Phase.of]
  · intro r hr
    refine ⟨hconfirmed ▸ hsettled.differs r hr, ?_⟩
    rw [← hnow, ← hexpiry]
    exact UInt64.not_lt.mp (hsettled.live r hr)
  · intro hpending
    cases hr : c.request with
    | none =>
      rw [hphase, hr] at hpending
      cases hpending
    | some r =>
      rw [hr] at hshown
      exact ⟨r, rfl, hshown⟩
  · intro hidle
    cases hr : c.request with
    | none =>
      rw [hr] at hshown
      exact hshown.trans hconfirmed
    | some r =>
      rw [hphase, hr] at hidle
      cases hidle

-- A request that is replaced after it has expired, with the clock set back in between.
theorem at_rest_after_set_back :
    ∃ r, ((new 15000).after [.pick "Movie" "TV" 1000, .settle "TV" 500,
      .pick "Radio" "TV" 16001]).request = some r ∧
        ((new 15000).after [.pick "Movie" "TV" 1000, .settle "TV" 500,
          .pick "Radio" "TV" 16001]).shown = r.value :=
  (at_rest_after 15000 [.pick "Movie" "TV" 1000, .settle "TV" 500,
    .pick "Radio" "TV" 16001]).2.2.2.2.1 (by decide)

end Control

/-! ## Without a machine -/

/-- All that a selector has to know: what has been asked for, if anything, and what the hub
confirms. -/
structure Plain where
  request : Option Request
  confirmed : String
  deriving Repr, DecidableEq

namespace Plain

def new : Plain := ⟨none, ""⟩

def phase (p : Plain) : Phase :=
  .of p.request

def shown (p : Plain) : String :=
  match p.request with
  | some r => r.value
  | none => p.confirmed

/-- A request that the hub confirms is over, and so is its loading. One that has expired is given
up. -/
def settle (p : Plain) (expiry : Millis) (confirmed : String) (now : Millis) :
    Plain × List Action :=
  match p.request with
  | none => (⟨none, confirmed⟩, [])
  | some r =>
    if r.value = confirmed then (⟨none, confirmed⟩, [.stopLoading])
    else if expiry < Millis.since now r.start then (⟨none, confirmed⟩, [])
    else (⟨some r, confirmed⟩, [])

/-- Asks for a value. A request for what the hub confirms anyway is over at once. -/
def ask (p : Plain) (value : String) (now : Millis) : Plain × List Action :=
  if value = p.confirmed then
    (⟨none, p.confirmed⟩, [.selectOption value, .startLoading value, .stopLoading])
  else (⟨some ⟨value, now⟩, p.confirmed⟩, [.selectOption value, .startLoading value])

def pick (p : Plain) (expiry : Millis) (value confirmed : String) (now : Millis) :
    Plain × List Action :=
  let (p, first) := p.settle expiry confirmed now
  if value = p.shown then (p, first)
  else
    let (p, second) := p.ask value now
    (p, first ++ second)

def accept (p : Plain) (expiry : Millis) : Input → Plain × List Action
  | .pick value confirmed now => p.pick expiry value confirmed now
  | .settle confirmed now => p.settle expiry confirmed now
  | .writeBack | .takeOutcome => (p, [])

end Plain

/-- What can be seen of a selector when it has taken in an input. -/
structure Sight where
  actions : List Action
  phase : Phase
  request : Option Request
  shown : String
  deriving Repr, DecidableEq

def Control.trace (c : Control) : List Input → List Sight
  | [] => []
  | i :: inputs =>
    let (next, actions) := c.accept i
    ⟨actions, next.phase, next.request, next.shown⟩ :: next.trace inputs

def Plain.trace (p : Plain) (expiry : Millis) : List Input → List Sight
  | [] => []
  | input :: inputs =>
    let (next, actions) := p.accept expiry input
    ⟨actions, next.phase, next.request, next.shown⟩ :: next.trace expiry inputs

/-- A selector at rest that knows what the plain one knows. -/
structure Control.Refines (c : Control) (p : Plain) : Prop extends Settled c where
  request : c.request = p.request
  confirmed : c.confirmed = p.confirmed

namespace Control.Refines

variable {c : Control} {p : Plain} (h : c.Refines p)

include h

theorem sight_eq : c.phase = p.phase ∧ c.request = p.request ∧ c.shown = p.shown := by
  refine ⟨?_, h.request, ?_⟩
  · rw [h.phase, h.request]
    rfl
  · rw [h.toSettled.shown_eq, h.request, h.confirmed]
    rfl

theorem plain_settle (confirmed : String) (now : Millis) :
    p.settle c.expiry confirmed now =
      (⟨c.kept? confirmed now, confirmed⟩, Outcome.actions (c.ending? confirmed now)) := by
  unfold Plain.settle kept? ending?
  rw [← h.request]
  cases c.request with
  | none => rfl
  | some r =>
    simp only [Option.bind_some, Request.ending?, eq_comm (a := confirmed)]
    by_cases hvalue : r.value = confirmed
    · simp [hvalue, Outcome.actions]
    · by_cases hexpired : c.expiry < Millis.since now r.start <;>
        simp [hvalue, hexpired, Outcome.actions]

theorem settle (confirmed : String) (now : Millis) :
    (c.settle confirmed now).2 = (p.settle c.expiry confirmed now).2 ∧
      (c.settle confirmed now).1.Refines (p.settle c.expiry confirmed now).1 := by
  have hsettled := h.toSettled.settle confirmed now
  rw [h.plain_settle, settle_eq h.toReady] at *
  exact ⟨rfl, hsettled, rfl, rfl⟩

-- Once it has settled, a plain selector shows what the selector shows at the time.
theorem plain_shown (confirmed : String) (now : Millis) :
    (p.settle c.expiry confirmed now).1.shown = c.shownAt confirmed now := by
  rw [← (h.settle confirmed now).2.sight_eq.2.2, settle_shown h.toReady]

theorem pick (value confirmed : String) (now : Millis) :
    (c.pick value confirmed now).2 = (p.pick c.expiry value confirmed now).2 ∧
      (c.pick value confirmed now).1.Refines (p.pick c.expiry value confirmed now).1 := by
  have hsettled := h.toSettled.pick value confirmed now
  unfold Plain.pick Plain.ask
  simp only [h.plain_shown]
  by_cases hshown : value = c.shownAt confirmed now
  · rw [if_pos hshown, pick_of_shown h.toReady hshown]
    exact h.settle confirmed now
  · rw [if_neg hshown, h.plain_settle]
    by_cases hvalue : value = confirmed
    · -- a request that is taken back had not ended before
      subst hvalue
      rcases pick_of_confirmed h.toReady hshown with ⟨hends, hpick⟩
      rw [hpick] at hsettled ⊢
      rw [hends, if_pos rfl]
      exact ⟨rfl, hsettled, rfl, rfl⟩
    · rw [pick_of_new h.toReady hshown hvalue] at hsettled ⊢
      rw [if_neg hvalue]
      exact ⟨rfl, hsettled, rfl, rfl⟩

theorem accept (input : Input) :
    (c.accept input).2 = (p.accept c.expiry input).2 ∧
      (c.accept input).1.Refines (p.accept c.expiry input).1 := by
  cases input with
  | pick value confirmed now => exact h.pick value confirmed now
  | settle confirmed now => exact h.settle confirmed now
  | writeBack =>
    have hframe := c.writeBack_frame
    exact ⟨rfl, h.toSettled.writeBack, hframe.1.trans h.request, hframe.2.2.1.trans h.confirmed⟩
  | takeOutcome => exact ⟨rfl, h.toSettled.takeOutcome, h.request, h.confirmed⟩

theorem trace_eq (inputs : List Input) : c.trace inputs = p.trace c.expiry inputs := by
  induction inputs generalizing c p with
  | nil => rfl
  | cons input inputs ih =>
    rcases h.accept input with ⟨hactions, hnext⟩
    rcases hnext.sight_eq with ⟨hphase, hrequest, hshown⟩
    have htrace := ih hnext
    rw [h.toSettled.expiry_accept] at htrace
    simp only [Control.trace, Plain.trace]
    rw [hactions, hphase, hrequest, hshown, htrace]

end Control.Refines

theorem refines_new (expiry : Millis) : (Control.new expiry).Refines .new where
  toSettled := Control.settled_new expiry
  request := rfl
  confirmed := rfl

/-- Over any inputs a selector asks for the same things as the plain one, and is in the same phase,
has the same request and shows the same value after each of them. -/
theorem trace_eq_plain (expiry : Millis) (inputs : List Input) :
    (Control.new expiry).trace inputs = Plain.new.trace expiry inputs :=
  (refines_new expiry).trace_eq inputs

end HubCard.Selector
