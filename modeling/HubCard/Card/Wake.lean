import HubCard.Card

/-!
Waking a card at its next deadline leaves nothing that is due before it: the timers that stay are
due no earlier, and neither is a timer or a request that comes in on the way. So a card that is woken
at its own deadlines gets on with every one of them, which is what `Card.wakeUntil` relies on.
-/

namespace HubCard

namespace Millis

theorem le_later (t span : Millis) : t ≤ later t span := by
  have := t.toNat_lt
  rw [UInt64.le_iff_toNat_le, toNat_later, UInt64.size]
  omega

end Millis

namespace Timers

/-! ## The next deadline -/

section Deadlines

variable {P : Millis → Prop} (hup : ∀ s t, s ≤ t → P s → P t)

include hup

-- What goes on holding once it holds is true of the earlier deadline when it is true of both.
theorem forall_earlier?_iff {a b : Option Millis} :
    (∀ d, earlier? a b = some d → P d) ↔ (∀ d, a = some d → P d) ∧ ∀ d, b = some d → P d := by
  cases a with
  | none => cases b <;> simp [earlier?]
  | some x =>
    cases b with
    | none => simp [earlier?]
    | some y =>
      simp only [earlier?, Option.some.injEq, forall_eq']
      constructor
      · intro h
        split at h
        · rename_i hle
          exact ⟨h, hup x y hle h⟩
        · rename_i hle
          exact ⟨hup y x (UInt64.le_of_lt (UInt64.not_le.mp hle)) h, h⟩
      · rintro ⟨hx, hy⟩
        split
        · exact hx
        · exact hy

theorem forall_nextDeadline?_iff {t : Timers} :
    (∀ d, t.nextDeadline? = some d → P d) ↔ ∀ x ∈ t.live, P x.deadline := by
  unfold nextDeadline?
  induction t.live with
  | nil => simp
  | cons x live ih =>
    rw [List.foldr_cons, forall_earlier?_iff hup, ih]
    simp

end Deadlines

/-! ## Timers that are still to come -/

/-- No live timer is due before a time. -/
def From (now : Millis) (t : Timers) : Prop :=
  ∀ x ∈ t.live, now ≤ x.deadline

theorem mem_of_mem_fireAll {live : List Timer} {now : Millis} {x : Timer}
    (h : x ∈ (fireAll live now).2) : x ∈ live := by
  fun_induction fireAll live now with
  | case1 live _ => exact h
  | case2 live t _ fired left hrec ih =>
    rw [hrec] at ih
    exact List.mem_of_mem_erase (ih h)

variable {now : Millis} {t : Timers}

theorem From.fireDue (h : t.From now) (time : Millis) : (t.fireDue time).2.From now :=
  fun x hx => h x (mem_of_mem_fireAll hx)

theorem From.cancel? (h : t.From now) (handle : Option Handle) : (t.cancel? handle).From now := by
  cases handle with
  | none => exact h
  | some handle => exact fun x hx => h x ((List.mem_filter.mp hx).1)

theorem From.arm (h : t.From now) (kind : TimerKind) {deadline : Millis} (hd : now ≤ deadline) :
    (t.arm kind deadline).1.From now := by
  have hkept : ∀ x ∈ t.live.filter (·.kind ≠ kind), now ≤ x.deadline :=
    fun x hx => h x ((List.mem_filter.mp hx).1)
  intro x hx
  simp only [Timers.arm] at hx
  split at hx
  · rcases List.mem_append.mp hx with hx | hx
    · exact hkept x hx
    · rw [List.mem_singleton.mp hx]
      exact hd
  · exact hkept x hx

end Timers

namespace Selector

theorem Memory.replaceRequest_request {m : Memory} {r : Request}
    (h : m.replaceRequest.request = some r) : m.request = some r ∨ r.start = m.now := by
  unfold replaceRequest at h
  split at h
  · exact .inl h
  · dsimp only at h
    split at h
    · exact .inl h
    · unfold startRequest ask at h
      rw [← Option.some.inj h]
      exact .inr rfl

-- A request that is there after a step was there before, or begins with it.
theorem Machine.step_request {s : Machine} {r : Request}
    (h : s.step.1.memory.request = some r) : s.memory.request = some r ∨ r.start = s.memory.now := by
  rcases s with ⟨phase, m⟩
  cases phase with
  | idle =>
    cases hpicked : m.picked with
    | none =>
      left
      simpa [Machine.step, Phase.step, Memory.idleStep, hpicked] using h
    | some value =>
      by_cases hvalue : value = m.confirmed
      · left
        simpa [Machine.step, Phase.step, Memory.idleStep, hpicked, hvalue] using h
      · right
        simp [Machine.step, Phase.step, Memory.idleStep, hpicked, hvalue, Machine.move,
          Phase.onLeave?, Phase.onEnter?, Memory.startRequest, Memory.enterPending,
          Memory.ask] at h
        rw [← h]
  | pending =>
    cases hrequest : m.replaceRequest.request with
    | none => simp [Machine.step, Phase.step, Memory.pendingStep, hrequest] at h
    | some q =>
      by_cases hvalue : m.replaceRequest.confirmed = q.value
      · simp [Machine.step, Phase.step, Memory.pendingStep, hrequest, hvalue, Machine.move,
          Phase.onLeave?, Phase.onEnter?, Memory.clearRequest] at h
      · by_cases hexpired : m.replaceRequest.isExpired
        · simp [Machine.step, Phase.step, Memory.pendingStep, hrequest, hvalue, hexpired,
            Machine.move, Phase.onLeave?, Phase.onEnter?, Memory.clearRequest] at h
        · simp [Machine.step, Phase.step, Memory.pendingStep, hrequest, hvalue, hexpired] at h
          rw [h] at hrequest
          exact Memory.replaceRequest_request hrequest

theorem Control.settle_request {c : Control} {confirmed : String} {now : Millis} {r : Request}
    (h : (c.settle confirmed now).1.request = some r) : c.request = some r ∨ r.start = now :=
  Machine.step_request (s := (c.observe confirmed now).machine) h

end Selector

namespace Pass

theorem reportOutcome_card (p : Pass) :
    p.reportOutcome.card = { p.card with control := p.card.control.takeOutcome.1 } := by
  unfold reportOutcome
  rcases p.card.control.takeOutcome with ⟨control, _ | ⟨_⟩ | ⟨_⟩⟩ <;> rfl

theorem reportLight_card (p : Pass) (now : Millis) :
    (p.reportLight now).1.card = { p.card with busy := (p.card.busy.refresh now).1 } := by
  unfold reportLight
  rcases p.card.busy.refresh now with ⟨busy, _ | _⟩ <;> rfl

/-- What the selector asks for touches the busy light and the timers, and arms none in the past. -/
theorem applyLoading_card {p : Pass} {now : Millis} (h : p.card.timers.From now)
    (a : Selector.Action) :
    ∃ busy timers, (p.applyLoading now a).card = { p.card with busy, timers } ∧
      timers.From now := by
  cases a with
  | selectOption option => exact ⟨p.card.busy, p.card.timers, rfl, h⟩
  | startLoading target =>
    exact ⟨_, _, rfl, (h.cancel? _).arm .loadSafety (Millis.le_later now _)⟩
  | stopLoading =>
    refine ⟨_, (p.card.busy.stopLoad p.card.timers).2.1, rfl, ?_⟩
    rw [Busy.stopLoad_timers]
    exact h.cancel? _

theorem foldl_applyLoading_card {p : Pass} {now : Millis} (h : p.card.timers.From now)
    (actions : List Selector.Action) :
    ∃ busy timers, (actions.foldl (Pass.applyLoading · now) p).card =
      { p.card with busy, timers } ∧ timers.From now := by
  induction actions generalizing p with
  | nil => exact ⟨p.card.busy, p.card.timers, rfl, h⟩
  | cons a actions ih =>
    rcases applyLoading_card h a with ⟨busy, timers, hcard, hfrom⟩
    have hone : (p.applyLoading now a).card.timers.From now := by
      rw [hcard]
      exact hfrom
    rcases ih hone with ⟨busy', timers', hcard', hfrom'⟩
    refine ⟨busy', timers', ?_, hfrom'⟩
    rw [List.foldl_cons, hcard', hcard]

end Pass

namespace Card

theorem forall_nextDeadline?_iff {P : Millis → Prop} (hup : ∀ s t, s ≤ t → P s → P t) {c : Card} :
    (∀ d, c.nextDeadline? = some d → P d) ↔
      (∀ x ∈ c.timers.live, P x.deadline) ∧
        ∀ r, c.control.request = some r →
          P (Millis.later (Millis.later r.start c.config.timing.requestExpiry) 1) := by
  unfold nextDeadline?
  rw [Timers.forall_earlier?_iff hup, Timers.forall_nextDeadline?_iff hup]
  cases c.control.request with
  | none => simp
  | some r => simp

theorem fireTimers_card (c : Card) (now : Millis) :
    ∃ busy, (c.fireTimers now).1.card =
      { c with busy, timers := (c.timers.fireDue now).2 } := by
  unfold fireTimers Busy.fireTimers Busy.takeTimedOut
  dsimp only
  split <;> exact ⟨_, rfl⟩

theorem rouse_card {c : Card} {now : Millis} (h : c.timers.From now) :
    ∃ busy timers, (c.rouse now).1.card =
      { c with
        control := (c.control.settle c.confirmed now).1.takeOutcome.1
        busy
        timers } ∧ timers.From now := by
  rcases fireTimers_card c now with ⟨fired, hfire⟩
  unfold rouse Pass.settle
  dsimp only
  rw [hfire]
  dsimp only
  generalize hp : Pass.mk _ _ = p
  have hfrom : p.card.timers.From now := by
    rw [← hp]
    exact h.fireDue now
  rcases Pass.foldl_applyLoading_card hfrom (c.control.settle c.confirmed now).2 with
    ⟨busy, timers, hcard, hlater⟩
  rw [Pass.reportLight_card, Pass.reportOutcome_card, hcard, ← hp]
  exact ⟨_, timers, rfl, hlater⟩

theorem wake_card (c : Card) (now : Millis) :
    ∃ lastView, (c.wake now).1.card = { (c.rouse now).1.card with lastView } := by
  unfold wake
  dsimp only
  split
  · exact ⟨_, rfl⟩
  · exact ⟨_, rfl⟩

/-- A card that is woken at its next deadline is not to be woken before that again. -/
theorem le_nextDeadline?_wake {c : Card} {now d : Millis} (hnow : c.nextDeadline? = some now)
    (hnext : (c.wake now).1.card.nextDeadline? = some d) : now ≤ d := by
  have hup : ∀ s t : Millis, s ≤ t → now ≤ s → now ≤ t :=
    fun s t hle hs => UInt64.le_trans hs hle
  have hbefore : ∀ d, c.nextDeadline? = some d → now ≤ d := by
    intro d hd
    rw [hnow, Option.some.injEq] at hd
    exact hd ▸ UInt64.le_refl now
  rcases (forall_nextDeadline?_iff hup).mp hbefore with ⟨htimers, hrequest⟩
  rcases rouse_card htimers with ⟨busy, timers, hroused, hlater⟩
  rcases wake_card c now with ⟨lastView, hwoken⟩
  rw [hwoken, hroused] at hnext
  refine (forall_nextDeadline?_iff hup).mpr ?_ d hnext
  refine ⟨hlater, ?_⟩
  intro r hr
  rcases Selector.Control.settle_request hr with hkept | hstart
  · exact hrequest r hkept
  · rw [hstart]
    exact UInt64.le_trans (Millis.le_later now _) (Millis.le_later _ 1)

/-- One waking of a card: when, what it did, and its new view if it gave one. -/
structure Waking where
  time : Millis
  acts : List Act
  view : Option View

/-- How much time there is from the next deadline on to wake the card in. A deadline at which it has
just been woken does not count. -/
def timeLeft (c : Card) (limit : Millis) (last : Option Millis) : Nat :=
  match c.nextDeadline? with
  | none => 0
  | some deadline => if last = some deadline then 0 else limit.toNat + 1 - deadline.toNat

theorem timeLeft_wake {c : Card} {limit deadline : Millis} {last : Option Millis}
    (hnext : c.nextDeadline? = some deadline) (hle : deadline ≤ limit)
    (hlast : last ≠ some deadline) :
    (c.wake deadline).1.card.timeLeft limit (some deadline) < c.timeLeft limit last := by
  rw [UInt64.le_iff_toNat_le] at hle
  have hbefore : c.timeLeft limit last = limit.toNat + 1 - deadline.toNat := by
    simp only [timeLeft, hnext, if_neg hlast]
  rw [hbefore, timeLeft]
  split
  · omega
  · rename_i d hd
    split
    · omega
    · rename_i hne
      have hlater : deadline ≤ d := le_nextDeadline?_wake hnext hd
      have hdiffers : deadline.toNat ≠ d.toNat :=
        fun he => hne (congrArg some (UInt64.toNat_inj.mp he))
      rw [UInt64.le_iff_toNat_le] at hlater
      omega

/-- Wakes the card at its deadlines up to `limit`, one after another. It stops early when a waking
leaves the deadline it was for, given as `last`. -/
def wakeUntil (c : Card) (limit : Millis) (last : Option Millis) : Card × List Waking :=
  match _h : c.nextDeadline? with
  | none => (c, [])
  | some deadline =>
    if deadline ≤ limit ∧ last ≠ some deadline then
      let woken := c.wake deadline
      let (after, wakings) := woken.1.card.wakeUntil limit (some deadline)
      (after, ⟨deadline, woken.1.acts, woken.2⟩ :: wakings)
    else (c, [])
termination_by c.timeLeft limit last
decreasing_by
  rename_i hgo
  exact timeLeft_wake _h hgo.1 hgo.2

end Card

end HubCard
