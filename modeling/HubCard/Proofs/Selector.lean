import HubCard.Selector.Control

/-!
The selector from one step of its machine to the next: when a request ends, what a pick comes to,
and what holds of a selector between two steps.
-/

namespace HubCard.Selector

/-- How a request ends at a time, if it does. A confirmation goes before an expiry. -/
def Request.ending? (r : Request) (confirmed : String) (expiry now : Millis) : Option Outcome :=
  if confirmed = r.value then some (.confirmed r.value)
  else if expiry < Millis.since now r.start then some (.expired r.value)
  else none

/-- What the end of a request asks of the card. -/
def Outcome.actions : Option Outcome → List Action
  | some (.confirmed _) => [.stopLoading]
  | _ => []

/-- The phase that goes with a request, or with none. -/
def Phase.of : Option Request → Phase
  | some _ => .pending
  | none => .idle

theorem Phase.of_inj {a b : Option Request} : Phase.of a = Phase.of b ↔ a.isSome = b.isSome := by
  cases a <;> cases b <;> simp [Phase.of]

namespace Control

/-- The confirmed value that the machine was last told. -/
def confirmed (c : Control) : String :=
  c.machine.memory.confirmed

def expiry (c : Control) : Millis :=
  c.machine.memory.expiry

def outcome (c : Control) : Option Outcome :=
  c.machine.memory.outcome

def ending? (c : Control) (confirmed : String) (now : Millis) : Option Outcome :=
  c.request.bind (·.ending? confirmed c.expiry now)

/-- The request that is still there once the selector has settled. -/
def kept? (c : Control) (confirmed : String) (now : Millis) : Option Request :=
  if (c.ending? confirmed now).isSome then none else c.request

/-- What the selector shows at a time, whether or not it has been told the time. -/
def shownAt (c : Control) (confirmed : String) (now : Millis) : String :=
  match c.request with
  | some r => if c.expiry < Millis.since now r.start then confirmed else r.value
  | none => confirmed

/-- The selector with a request, or with none, at rest. -/
def holding (c : Control) (confirmed : String) (now : Millis) (request : Option Request)
    (outcome : Option Outcome) : Control :=
  { c with machine := ⟨.of request, ⟨now, confirmed, none, request, c.expiry, [], outcome⟩⟩ }

@[simp] theorem holding_request (c : Control) (confirmed : String) (now : Millis)
    (request : Option Request) (outcome : Option Outcome) :
    (c.holding confirmed now request outcome).request = request := rfl

@[simp] theorem holding_phase (c : Control) (confirmed : String) (now : Millis)
    (request : Option Request) (outcome : Option Outcome) :
    (c.holding confirmed now request outcome).phase = .of request := rfl

@[simp] theorem holding_outcome (c : Control) (confirmed : String) (now : Millis)
    (request : Option Request) (outcome : Option Outcome) :
    (c.holding confirmed now request outcome).outcome = outcome := rfl

@[simp] theorem takeOutcome_frame (c : Control) :
    c.takeOutcome.1.request = c.request ∧ c.takeOutcome.1.phase = c.phase ∧
      c.takeOutcome.1.outcome = none ∧ c.takeOutcome.1.confirmed = c.confirmed ∧
      c.takeOutcome.1.expiry = c.expiry ∧ c.takeOutcome.1.shown = c.shown :=
  ⟨rfl, rfl, rfl, rfl, rfl, rfl⟩

@[simp] theorem writeBack_frame (c : Control) :
    c.writeBack.1.request = c.request ∧ c.writeBack.1.outcome = c.outcome ∧
      c.writeBack.1.confirmed = c.confirmed ∧ c.writeBack.1.expiry = c.expiry ∧
      c.writeBack.1.shown = c.shown := by
  unfold Control.writeBack
  split <;> exact ⟨rfl, rfl, rfl, rfl, rfl⟩

/-! ## Between two steps -/

/-- A selector that is ready for a step: its phase goes with its request, the last pick has been taken
in and all that was asked for has been given out. -/
structure Ready (c : Control) : Prop where
  phase : c.phase = .of c.request
  picked : c.machine.memory.picked = none
  outbox : c.machine.memory.outbox = []

/-- A selector at rest: it is pending on a request that has not ended, or it is idle. -/
structure Settled (c : Control) : Prop extends Ready c where
  differs : ∀ r, c.request = some r → r.value ≠ c.confirmed
  live : ∀ r, c.request = some r → ¬ c.expiry < Millis.since c.machine.memory.now r.start

theorem ready_holding (c : Control) (confirmed : String) (now : Millis)
    (request : Option Request) (outcome : Option Outcome) :
    (c.holding confirmed now request outcome).Ready :=
  ⟨rfl, rfl, rfl⟩

theorem settled_new (expiry : Millis) : (new expiry).Settled where
  toReady := ⟨rfl, rfl, rfl⟩
  differs := fun _ h => by cases h
  live := fun _ h => by cases h

theorem ending?_eq_none_iff {c : Control} {confirmed : String} {now : Millis} :
    c.ending? confirmed now = none ↔
      ∀ r, c.request = some r → r.value ≠ confirmed ∧ ¬ c.expiry < Millis.since now r.start := by
  unfold ending?
  cases c.request with
  | none => simp
  | some r =>
    simp only [Option.bind_some, Request.ending?, Option.some.injEq, forall_eq']
    by_cases hvalue : confirmed = r.value
    · simp [hvalue]
    · by_cases hexpired : c.expiry < Millis.since now r.start
      · simp [hvalue, hexpired]
      · simp [hvalue, Ne.symm hvalue, hexpired]

theorem ending?_of_confirmed {c : Control} {r : Request} (hreq : c.request = some r)
    (now : Millis) : c.ending? r.value now = some (.confirmed r.value) := by
  rw [ending?, hreq, Option.bind_some, Request.ending?, if_pos rfl]

theorem ending?_of_expired {c : Control} {r : Request} (hreq : c.request = some r)
    {confirmed : String} (hvalue : confirmed ≠ r.value) {now : Millis}
    (hexpired : c.expiry < Millis.since now r.start) :
    c.ending? confirmed now = some (.expired r.value) := by
  rw [ending?, hreq, Option.bind_some, Request.ending?, if_neg hvalue, if_pos hexpired]

-- Only a request that was there can expire.
theorem request_of_expired {c : Control} {confirmed value : String} {now : Millis}
    (h : c.ending? confirmed now = some (.expired value)) :
    ∃ r, c.request = some r ∧ r.value = value := by
  rcases Option.bind_eq_some_iff.mp h with ⟨r, hreq, hends⟩
  refine ⟨r, hreq, ?_⟩
  unfold Request.ending? at hends
  split at hends
  · cases hends
  · split at hends
    · exact Outcome.expired.inj (Option.some.inj hends)
    · cases hends

-- Only a request for what is confirmed can be confirmed.
theorem request_of_confirmed {c : Control} {confirmed value : String} {now : Millis}
    (h : c.ending? confirmed now = some (.confirmed value)) :
    ∃ r, c.request = some r ∧ confirmed = r.value := by
  rcases Option.bind_eq_some_iff.mp h with ⟨r, hreq, hends⟩
  refine ⟨r, hreq, ?_⟩
  unfold Request.ending? at hends
  split at hends
  · assumption
  · split at hends <;> cases hends

theorem kept?_eq_none {c : Control} {confirmed : String} {now : Millis} {ended : Outcome}
    (h : c.ending? confirmed now = some ended) : c.kept? confirmed now = none := by
  rw [kept?, h]
  rfl

theorem kept?_eq_some_iff {c : Control} {confirmed : String} {now : Millis} {r : Request} :
    c.kept? confirmed now = some r ↔ c.ending? confirmed now = none ∧ c.request = some r := by
  unfold kept?
  cases c.ending? confirmed now <;> simp

-- Whatever ends, the selector is at rest afterwards.
theorem settled_holding_kept {c : Control} {confirmed : String} {now : Millis}
    (outcome : Option Outcome) :
    (c.holding confirmed now (c.kept? confirmed now) outcome).Settled := by
  have hopen : ∀ r, c.kept? confirmed now = some r →
      r.value ≠ confirmed ∧ ¬ c.expiry < Millis.since now r.start := by
    intro r hr
    rcases kept?_eq_some_iff.mp hr with ⟨hnone, hreq⟩
    exact ending?_eq_none_iff.mp hnone r hreq
  exact ⟨ready_holding .., fun r hr => (hopen r hr).1, fun r hr => (hopen r hr).2⟩

theorem settled_holding_none (c : Control) (confirmed : String) (now : Millis)
    (outcome : Option Outcome) : (c.holding confirmed now none outcome).Settled where
  toReady := ready_holding ..
  differs := fun _ h => by cases h
  live := fun _ h => by cases h

theorem since_self (now : Millis) : Millis.since now now = 0 := by
  apply UInt64.toNat_inj.mp
  rw [Millis.toNat_since, Nat.sub_self]
  rfl

theorem not_expiry_lt_since_self (expiry now : Millis) : ¬ expiry < Millis.since now now := by
  rw [since_self]
  exact UInt64.not_lt.mpr (UInt64.zero_le)

theorem settled_holding_new {c : Control} {confirmed value : String} (h : value ≠ confirmed)
    (now : Millis) (outcome : Option Outcome) :
    (c.holding confirmed now (some ⟨value, now⟩) outcome).Settled where
  toReady := ready_holding ..
  differs := by
    intro r hr
    rw [holding_request, Option.some.injEq] at hr
    rw [← hr]
    exact h
  live := by
    intro r hr
    rw [holding_request, Option.some.injEq] at hr
    rw [← hr]
    exact not_expiry_lt_since_self c.expiry now

theorem Settled.takeOutcome {c : Control} (h : c.Settled) : c.takeOutcome.1.Settled :=
  ⟨⟨h.phase, h.picked, h.outbox⟩, h.differs, h.live⟩

theorem Settled.writeBack {c : Control} (h : c.Settled) : c.writeBack.1.Settled := by
  unfold Control.writeBack
  split
  · exact h
  · exact ⟨⟨h.phase, h.picked, h.outbox⟩, h.differs, h.live⟩

/-! ## Settling -/

-- A step without a pick ends the request when it is its time, and does nothing else.
theorem settle_eq {c : Control} (h : c.Ready) (confirmed : String) (now : Millis) :
    c.settle confirmed now =
      (c.holding confirmed now (c.kept? confirmed now) ((c.ending? confirmed now).or c.outcome),
        Outcome.actions (c.ending? confirmed now)) := by
  rcases c with ⟨⟨phase, now₀, confirmed₀, picked, request, expiry, outbox, outcome⟩, written⟩
  rcases h with ⟨hphase, hpicked, houtbox⟩
  change phase = .of request at hphase
  change picked = none at hpicked
  change outbox = [] at houtbox
  subst hphase hpicked houtbox
  cases request with
  | none => rfl
  | some r =>
    by_cases hvalue : confirmed = r.value
    · simp [settle, observe, advance, Machine.step, Phase.of, Phase.step, Memory.pendingStep,
        Memory.replaceRequest, hvalue, Machine.move, Phase.onLeave?, Phase.onEnter?,
        Memory.clearRequest, holding, kept?, ending?, Control.request, Control.expiry,
        Request.ending?, Outcome.actions]
    · by_cases hexpired : expiry < Millis.since now r.start
      · simp [settle, observe, advance, Machine.step, Phase.of, Phase.step, Memory.pendingStep,
          Memory.replaceRequest, Memory.isExpired, hvalue, hexpired, Machine.move, Phase.onLeave?,
          Phase.onEnter?, Memory.clearRequest, holding, kept?, ending?, Control.request,
          Control.expiry, Request.ending?, Outcome.actions]
      · simp [settle, observe, advance, Machine.step, Phase.of, Phase.step, Memory.pendingStep,
          Memory.replaceRequest, Memory.isExpired, hvalue, hexpired, holding, kept?, ending?,
          Control.request, Control.expiry, Control.outcome, Request.ending?, Outcome.actions]

theorem shown_holding_kept (c : Control) (confirmed : String) (now : Millis)
    (outcome : Option Outcome) :
    (c.holding confirmed now (c.kept? confirmed now) outcome).shown = c.shownAt confirmed now := by
  unfold kept? ending? shownAt
  cases hreq : c.request with
  | none => rfl
  | some r =>
    simp only [Option.bind_some, Request.ending?]
    by_cases hvalue : confirmed = r.value
    · simp [hvalue, holding, Control.shown, Memory.shown]
    · by_cases hexpired : c.expiry < Millis.since now r.start <;>
        simp [hvalue, hexpired, holding, Control.shown, Memory.shown, Memory.isExpired]

theorem settle_shown {c : Control} (h : c.Ready) (confirmed : String)
    (now : Millis) : (c.settle confirmed now).1.shown = c.shownAt confirmed now := by
  rw [settle_eq h, shown_holding_kept]

-- At rest a selector shows its request and, without one, the confirmed value.
theorem Settled.shown_eq {c : Control} (h : c.Settled) :
    c.shown = match c.request with | some r => r.value | none => c.confirmed := by
  have hmemory : c.machine.memory.request = c.request := rfl
  unfold Control.shown Memory.shown
  rw [hmemory]
  cases hreq : c.request with
  | none => rfl
  | some r =>
    have hlive : c.machine.memory.isExpired = false := by
      unfold Memory.isExpired
      rw [hmemory, hreq]
      exact decide_eq_false (h.live r hreq)
    simp only [hlive, Bool.false_eq_true, if_false]

-- Where nothing ends, what is shown stays.
theorem Settled.shownAt_eq {c : Control} (h : c.Settled) {now : Millis}
    (hnone : c.ending? c.confirmed now = none) : c.shownAt c.confirmed now = c.shown := by
  rw [ending?_eq_none_iff] at hnone
  rw [h.shown_eq, shownAt]
  cases hreq : c.request with
  | none => rfl
  | some r => simp only [(hnone r hreq).2, if_false]

/-! ## Picks -/

-- A pick while idle becomes a request, and what was there to report of the one before is lost.
theorem advance_idle (c : Control) {value confirmed : String} (h : value ≠ confirmed)
    (now : Millis) (outcome : Option Outcome) :
    ((c.holding confirmed now none outcome).choose value).advance =
      (c.holding confirmed now (some ⟨value, now⟩) none,
        [.selectOption value, .startLoading value]) := by
  simp [advance, choose, holding, Phase.of, Machine.step, Phase.step, Memory.idleStep, h, Machine.move,
    Phase.onLeave?, Phase.onEnter?, Memory.startRequest, Memory.enterPending, Memory.ask]

-- A pick of another value while pending replaces the request. A pick of the confirmed value ends it
-- right away.
theorem advance_pending (c : Control) {r : Request} {value : String} (h : value ≠ r.value)
    (confirmed : String) (now : Millis) (outcome : Option Outcome) :
    ((c.holding confirmed now (some r) outcome).choose value).advance =
      if value = confirmed then
        (c.holding confirmed now none (some (.confirmed value)),
          [.selectOption value, .startLoading value, .stopLoading])
      else
        (c.holding confirmed now (some ⟨value, now⟩) outcome,
          [.selectOption value, .startLoading value]) := by
  have hexpired := not_expiry_lt_since_self c.expiry now
  by_cases hvalue : value = confirmed
  · subst hvalue
    simp [advance, choose, holding, Phase.of, Machine.step, Phase.step, Memory.pendingStep,
      Memory.replaceRequest, Ne.symm h, Memory.startRequest, Memory.ask, Machine.move,
      Phase.onLeave?, Phase.onEnter?, Memory.clearRequest]
  · simp [advance, choose, holding, Phase.of, Machine.step, Phase.step, Memory.pendingStep,
      Memory.replaceRequest, Memory.isExpired, Ne.symm h, hvalue, Ne.symm hvalue, hexpired,
      Memory.startRequest, Memory.ask]

-- A pick of what is shown already only lets the selector settle.
theorem pick_of_shown {c : Control} (h : c.Ready) {value confirmed : String}
    {now : Millis} (hvalue : value = c.shownAt confirmed now) :
    c.pick value confirmed now = c.settle confirmed now := by
  unfold pick
  simp only [settle_shown h, if_pos hvalue]

-- A pick of the confirmed value takes a request back. The hub is told, and the request is over.
theorem pick_of_confirmed {c : Control} (h : c.Ready) {confirmed : String}
    {now : Millis} (hvalue : confirmed ≠ c.shownAt confirmed now) :
    c.ending? confirmed now = none ∧
      c.pick confirmed confirmed now =
        (c.holding confirmed now none (some (.confirmed confirmed)),
          [.selectOption confirmed, .startLoading confirmed, .stopLoading]) := by
  have hends : c.ending? confirmed now = none := by
    rw [ending?_eq_none_iff]
    intro r hr
    unfold shownAt at hvalue
    simp only [hr] at hvalue
    split at hvalue
    · exact absurd rfl hvalue
    · rename_i hlive
      exact ⟨hvalue.symm, hlive⟩
  refine ⟨hends, ?_⟩
  unfold pick
  simp only [settle_shown h, if_neg hvalue]
  rw [settle_eq h, kept?, hends]
  cases hreq : c.request with
  | none =>
    simp only [shownAt, hreq] at hvalue
    exact absurd rfl hvalue
  | some r =>
    have hdiffers : confirmed ≠ r.value := ((ending?_eq_none_iff.mp hends r hreq).1).symm
    have hpending := advance_pending c hdiffers confirmed now c.outcome
    simp only [if_true] at hpending
    simp only [Option.isSome_none, Bool.false_eq_true, if_false, Option.none_or, hpending]
    rfl

-- A pick of anything else becomes the request, in the place of the one before.
theorem pick_of_new {c : Control} (h : c.Ready) {value confirmed : String}
    {now : Millis} (hvalue : value ≠ c.shownAt confirmed now) (hnew : value ≠ confirmed) :
    c.pick value confirmed now =
      (c.holding confirmed now (some ⟨value, now⟩)
          (if (c.kept? confirmed now).isSome then c.outcome else none),
        Outcome.actions (c.ending? confirmed now) ++
          [.selectOption value, .startLoading value]) := by
  unfold pick
  simp only [settle_shown h, if_neg hvalue]
  rw [settle_eq h]
  cases hkept : c.kept? confirmed now with
  | none =>
    simp only [advance_idle c hnew]
    rfl
  | some r =>
    have hends := kept?_eq_some_iff.mp hkept
    have hdiffers : value ≠ r.value := by
      intro he
      apply hvalue
      rw [he, shownAt, hends.2]
      simp only [(ending?_eq_none_iff.mp hends.1 r hends.2).2, if_false]
    simp only [hends.1, Option.none_or, advance_pending c hdiffers, if_neg hnew]
    rfl

/-- A pick shows nothing new, takes a request back, or becomes the request. -/
theorem pick_cases {c : Control} (h : c.Ready) (value confirmed : String)
    (now : Millis) :
    (value = c.shownAt confirmed now ∧ c.pick value confirmed now = c.settle confirmed now) ∨
      (value ≠ c.shownAt confirmed now ∧ c.ending? confirmed now = none ∧
        c.pick value confirmed now =
          (c.holding confirmed now none (some (.confirmed value)),
            [.selectOption value, .startLoading value, .stopLoading])) ∨
      (value ≠ c.shownAt confirmed now ∧ value ≠ confirmed ∧
        c.pick value confirmed now =
          (c.holding confirmed now (some ⟨value, now⟩)
              (if (c.kept? confirmed now).isSome then c.outcome else none),
            Outcome.actions (c.ending? confirmed now) ++
              [.selectOption value, .startLoading value])) := by
  by_cases hshown : value = c.shownAt confirmed now
  · exact .inl ⟨hshown, pick_of_shown h hshown⟩
  · right
    by_cases hvalue : value = confirmed
    · subst hvalue
      exact .inl ⟨hshown, pick_of_confirmed h hshown⟩
    · exact .inr ⟨hshown, hvalue, pick_of_new h hshown hvalue⟩

/-! ## What a pick and a settling keep -/

theorem Settled.settle {c : Control} (h : c.Settled) (confirmed : String) (now : Millis) :
    (c.settle confirmed now).1.Settled := by
  rw [settle_eq h.toReady]
  exact settled_holding_kept _

theorem Settled.pick {c : Control} (h : c.Settled) (value confirmed : String) (now : Millis) :
    (c.pick value confirmed now).1.Settled := by
  rcases pick_cases h.toReady value confirmed now with ⟨-, hpick⟩ | ⟨-, -, hpick⟩ | ⟨-, hnew, hpick⟩
  · rw [hpick]
    exact h.settle confirmed now
  · rw [hpick]
    exact settled_holding_none c confirmed now _
  · rw [hpick]
    exact settled_holding_new hnew now _

-- Neither loses what it is told, and neither changes the expiry.
theorem Settled.settle_frame {c : Control} (h : c.Settled) (confirmed : String) (now : Millis) :
    (c.settle confirmed now).1.confirmed = confirmed ∧
      (c.settle confirmed now).1.expiry = c.expiry := by
  rw [settle_eq h.toReady]
  exact ⟨rfl, rfl⟩

theorem Settled.pick_frame {c : Control} (h : c.Settled) (value confirmed : String)
    (now : Millis) :
    (c.pick value confirmed now).1.confirmed = confirmed ∧
      (c.pick value confirmed now).1.expiry = c.expiry := by
  rcases pick_cases h.toReady value confirmed now with ⟨-, hpick⟩ | ⟨-, -, hpick⟩ | ⟨-, -, hpick⟩
  · rw [hpick]
    exact h.settle_frame confirmed now
  · rw [hpick]
    exact ⟨rfl, rfl⟩
  · rw [hpick]
    exact ⟨rfl, rfl⟩

-- A request that is still there once the selector has settled leaves nothing to be done.
theorem settle_of_pending {c : Control} (h : c.Ready) {confirmed : String} {now : Millis}
    {r : Request} (hreq : (c.settle confirmed now).1.request = some r) :
    c.request = some r ∧ (c.settle confirmed now).2 = [] := by
  rw [settle_eq h] at hreq ⊢
  rcases kept?_eq_some_iff.mp hreq with ⟨hends, hbefore⟩
  rw [hends]
  exact ⟨hbefore, rfl⟩

-- A request that is there after a pick was there before, or is what the pick has asked for last.
theorem pick_of_pending {c control : Control} (h : c.Ready) {value confirmed : String}
    {now : Millis} {actions : List Action} {r : Request}
    (hpick : c.pick value confirmed now = (control, actions)) (hreq : control.request = some r) :
    (c.request = some r ∧ actions = []) ∨
      (r.start = now ∧ ∃ before, actions =
        before ++ [.selectOption r.value, .startLoading r.value]) := by
  rcases pick_cases h value confirmed now with ⟨-, heq⟩ | ⟨-, -, heq⟩ | ⟨-, -, heq⟩
  · have hsettle : c.settle confirmed now = (control, actions) := heq.symm.trans hpick
    have hkept : (c.settle confirmed now).1.request = some r := by
      rw [hsettle]
      exact hreq
    have hstill := settle_of_pending h hkept
    rw [hsettle] at hstill
    exact .inl hstill
  · rw [heq] at hpick
    rw [← (Prod.mk.inj hpick).1] at hreq
    cases hreq
  · rw [heq] at hpick
    rw [← (Prod.mk.inj hpick).1, holding_request, Option.some.injEq] at hreq
    rw [← (Prod.mk.inj hpick).2, ← hreq]
    exact .inr ⟨rfl, _, rfl⟩

-- Where nothing was left to report, a pick reports how the request has ended that was there, or that
-- it has taken the request back.
theorem pick_outcome {c control : Control} (h : c.Ready) (hquiet : c.outcome = none)
    {value confirmed : String} {now : Millis} {actions : List Action}
    (hpick : c.pick value confirmed now = (control, actions)) :
    control.outcome = none ∨ control.outcome = c.ending? confirmed now ∨
      (control.outcome = some (.confirmed value) ∧
        actions = [.selectOption value, .startLoading value, .stopLoading]) := by
  rcases pick_cases h value confirmed now with ⟨-, heq⟩ | ⟨-, -, heq⟩ | ⟨-, -, heq⟩
  · rw [heq, settle_eq h, hquiet, Option.or_none] at hpick
    rw [← (Prod.mk.inj hpick).1]
    exact .inr (.inl rfl)
  · rw [heq] at hpick
    rw [← (Prod.mk.inj hpick).1, ← (Prod.mk.inj hpick).2]
    exact .inr (.inr ⟨rfl, rfl⟩)
  · rw [heq, hquiet, ite_self] at hpick
    rw [← (Prod.mk.inj hpick).1]
    exact .inl rfl

-- A pick that asks for nothing and keeps the phase ends no request.
theorem Settled.pick_still {c control : Control} (h : c.Settled) {value confirmed : String}
    {now : Millis} (hpick : c.pick value confirmed now = (control, []))
    (hphase : control.phase = c.phase) :
    c.ending? confirmed now = none ∧ control = c.holding confirmed now c.request c.outcome := by
  rcases pick_cases h.toReady value confirmed now with ⟨-, heq⟩ | ⟨-, -, heq⟩ | ⟨-, -, heq⟩
  · rw [heq, settle_eq h.toReady, Prod.mk.injEq] at hpick
    rw [← hpick.1, holding_phase, h.phase, Phase.of_inj, kept?] at hphase
    have hnone : c.ending? confirmed now = none := by
      cases hends : c.ending? confirmed now with
      | none => rfl
      | some ended =>
        -- something was there to end
        have hreq : c.request ≠ none := by
          intro hreq
          rw [ending?, hreq] at hends
          cases hends
        rw [hends] at hphase
        simp [Option.isSome_iff_ne_none.mpr hreq] at hphase
    refine ⟨hnone, ?_⟩
    rw [← hpick.1, kept?, hnone]
    rfl
  · -- the other picks ask for something
    rw [heq] at hpick
    cases hpick
  · rw [heq] at hpick
    simp at hpick

end Control

end HubCard.Selector
