import HubCard.Proofs.Invariants

/-!
When a card has to be woken. Before its next deadline a waking does nothing at all; from the deadline
on it gives a view, and leaves nothing behind that was due.
-/

namespace HubCard

/-! ## The deadline of a request -/

/-- The first moment at which a request has expired. -/
def Selector.Request.deadline (r : Request) (expiry : Millis) : Millis :=
  Millis.later (Millis.later r.start expiry) 1

namespace Selector.Request

theorem toNat_deadline (r : Request) (expiry : Millis) :
    (r.deadline expiry).toNat = min (r.start.toNat + expiry.toNat + 1) (UInt64.size - 1) := by
  have hone : (1 : Millis).toNat = 1 := rfl
  rw [deadline, Millis.toNat_later, Millis.toNat_later, hone]
  omega

theorem not_expired_of_lt_deadline {r : Request} {expiry now : Millis}
    (h : now < r.deadline expiry) : ¬ expiry < Millis.since now r.start := by
  rw [UInt64.lt_iff_toNat_lt, toNat_deadline] at h
  rw [UInt64.lt_iff_toNat_lt, Millis.toNat_since]
  omega

-- Without overflow the deadline is exact.
theorem lt_deadline_iff {r : Request} {expiry now : Millis}
    (hroom : r.start.toNat + expiry.toNat + 1 < UInt64.size) :
    now < r.deadline expiry ↔ ¬ expiry < Millis.since now r.start := by
  rw [UInt64.lt_iff_toNat_lt, toNat_deadline, UInt64.lt_iff_toNat_lt, Millis.toNat_since]
  omega

end Selector.Request

/-! ## Nothing due -/

theorem Timers.fireDue_of_none {t : Timers} {now : Millis} (h : ∀ x ∈ t.live, now < x.deadline) :
    t.fireDue now = ([], t) := by
  have hfired : (Timers.fireAll t.live now).1 = [] := by
    rw [List.eq_nil_iff_forall_not_mem]
    intro x hx
    rcases Timers.mem_fireAll.mp hx with ⟨hmem, hdue⟩
    exact UInt64.not_le.mpr (h x hmem) hdue
  have hleft : (Timers.fireAll t.live now).2 = t.live := by
    rw [Timers.fireAll_left, List.filter_eq_self]
    intro x hx
    simpa using h x hx
  simp only [Timers.fireDue, hfired, hleft]

namespace Lamp

theorem fire_of_none_due {l : Lamp} {now : Millis} (h : ∀ x ∈ l.timers.live, now < x.deadline) :
    l.obey (.fire now) = l := by
  simp only [obey, Busy.fireTimers, Timers.fireDue_of_none h]
  rfl

theorem takeTimedOut_of_none {l : Lamp} (h : l.busy.timedOut = none) :
    l.obey .takeTimedOut = l := by
  rcases l with ⟨⟨⟨timing, state, hubBusy, light, timedOut⟩, paired⟩, timers⟩
  change timedOut = none at h
  subst h
  rfl

-- A pulse that is running has a live timer, so it is not over before that is due.
theorem Coupled.pulse_running {l : Lamp} (h : l.Coupled) {now : Millis}
    (hlive : ∀ x ∈ l.timers.live, now < x.deadline) :
    ∀ p, l.busy.pulse = some p → now < p.ends :=
  fun p hp => hlive p.alarm (h.pulse_alarm_live hp)

theorem Accurate.refresh_eq {l : Lamp} {now : Millis} (h : l.Accurate now)
    (hpulse : ∀ p, l.busy.pulse = some p → now < p.ends) : l.busy.refresh now = (l.busy, none) := by
  have hlight := h now (UInt64.le_refl now) hpulse
  rw [Busy.refresh_eq, if_pos hlight.symm]

end Lamp

namespace Card

theorem lt_nextDeadline?_iff {c : Card} {now : Millis} :
    (∀ d, c.nextDeadline? = some d → now < d) ↔
      (∀ x ∈ c.timers.live, now < x.deadline) ∧
        ∀ r, c.control.request = some r → now < r.deadline c.config.timing.requestExpiry :=
  forall_nextDeadline?_iff fun _ _ hle hlt => UInt64.lt_of_lt_of_le hlt hle

/-! ## Waking a card at rest -/

namespace Rest

variable {c : Card} (h : c.Rest)

include h

theorem wakeOrders_eq (now : Millis) : c.wakeOrders now = [.fire now, .takeTimedOut] := by
  rw [wakeOrders, h.settle_actions]
  rfl

-- A waking keeps the timers that are not due.
theorem timers_roused (now : Millis) : (c.roused now).timers = (c.timers.fireDue now).2 := by
  have hlamp := c.lamp_roused now
  rw [h.wakeOrders_eq] at hlamp
  exact congrArg Lamp.timers hlamp

end Rest

-- What a waking leaves of the card, part by part.
theorem woken_frame {c : Card} (h : c.Rest) (now : Millis) :
    (c.wake now).1.card.confirmed = c.confirmed ∧
      (c.wake now).1.card.control =
        c.control.holding c.confirmed now (c.control.kept? c.confirmed now) none ∧
      (c.wake now).1.card.lamp = (c.lamp.obeyAll (c.wakeOrders now)).obey (.refresh now) ∧
      (c.wake now).1.card.timers = (c.timers.fireDue now).2 := by
  rcases c.wake_card now with ⟨lastView, hwoken⟩
  rw [rouse_eq] at hwoken
  refine ⟨?_, ?_, ?_, ?_⟩
  · rw [hwoken]
    rfl
  · rw [hwoken]
    show (c.control.settle c.confirmed now).1.takeOutcome.1 = _
    rw [Selector.Control.settle_eq h.settled.toReady]
    rfl
  · rw [hwoken, ← lamp_roused]
    rfl
  · rw [← h.timers_roused, hwoken]

-- The request is the one before, if it is there at all.
theorem request_wake_eq_some_iff {c : Card} (h : c.Rest) {now : Millis} {r : Selector.Request} :
    (c.wake now).1.card.control.request = some r ↔
      c.control.ending? c.confirmed now = none ∧ c.control.request = some r := by
  rcases woken_frame h now with ⟨-, hcontrol, -, -⟩
  rw [hcontrol, Selector.Control.holding_request]
  exact Selector.Control.kept?_eq_some_iff

/-- A time has been taken in: no timer is due at it, and the request has not expired. -/
structure Past (c : Card) (now : Millis) : Prop where
  timers : ∀ x ∈ c.timers.live, now < x.deadline
  request : ∀ r, c.control.request = some r →
    ¬ c.config.timing.requestExpiry < Millis.since now r.start

theorem past_wake {c : Card} (h : c.Rest) (now : Millis) : (c.wake now).1.card.Past now := by
  have hrest : (c.wake now).1.card.Rest := h.perform (.wake now)
  rcases woken_frame h now with ⟨-, hcontrol, -, htimers⟩
  generalize (c.wake now).1.card = d at hrest hcontrol htimers ⊢
  constructor
  · intro x hx
    rw [htimers] at hx
    simp only [Timers.fireDue, Timers.fireAll_left, List.mem_filter] at hx
    simpa using hx.2
  · have hnow : d.control.machine.memory.now = now := by
      rw [hcontrol]
      rfl
    rw [← hnow, ← hrest.expiry]
    exact hrest.settled.live

/-- Nothing is due at a time, and the light is as it should be. -/
structure Idle (c : Card) (now : Millis) : Prop where
  timers : ∀ x ∈ c.timers.live, now < x.deadline
  request : c.control.ending? c.confirmed now = none
  quiet : c.busy.timedOut = none
  light : c.lamp.busy.refresh now = (c.lamp.busy, none)

-- Then a waking tells the selector the time, and that is all.
theorem wake_idle {c : Card} {now : Millis} (h : c.Rest) (hidle : c.Idle now) :
    c.wake now =
      (⟨c.withControl (c.control.holding c.confirmed now c.control.request none), []⟩, none) := by
  have hsettle : c.control.settle c.confirmed now =
      (c.control.holding c.confirmed now c.control.request none, []) := by
    rw [Selector.Control.settle_eq h.settled.toReady, Selector.Control.kept?, hidle.request,
      h.reported]
    rfl
  have hshown : (c.control.settle c.confirmed now).1.shown = c.control.shown := by
    have hends := hidle.request
    rw [← h.told] at hends ⊢
    rw [Selector.Control.settle_shown h.settled.toReady, h.settled.shownAt_eq hends]
  -- no timer fires, and no load times out
  have hfire : c.lamp.obey (.fire now) = c.lamp := Lamp.fire_of_none_due hidle.timers
  have hlamp : c.lamp.obeyAll (c.wakeOrders now) = c.lamp := by
    rw [h.wakeOrders_eq, Lamp.obeyAll_cons, Lamp.obeyAll_cons, hfire,
      Lamp.takeTimedOut_of_none hidle.quiet, Lamp.obeyAll_nil]
  have hstirs : c.stirs now = false := by
    simp [stirs, Timers.fireDue_of_none hidle.timers, hlamp, hidle.light, hshown]
  have hacts : c.wakeActs now = [] := by
    have hquiet : c.lamp.busy.timedOut = none := hidle.quiet
    rw [wakeActs, hlamp, hidle.light, hfire, hquiet, hsettle, Act.ofOutcome_of_none rfl]
    rfl
  have hroused : c.roused now =
      c.withControl (c.control.holding c.confirmed now c.control.request none) := by
    rw [roused, hlamp, hsettle, Lamp.obey, hidle.light]
    rfl
  rw [wake_eq, hstirs, hacts, hroused]
  rfl

/-- Before the next deadline a waking does nothing. -/
theorem wake_early {c : Card} {now : Millis} (h : c.Rest) (hsound : c.Sound now)
    (hfew : c.timers.Few) (hearly : ∀ d, c.nextDeadline? = some d → now < d) :
    (c.wake now).2 = none ∧ (c.wake now).1.acts = [] ∧
      (c.wake now).1.card.control.request = c.control.request ∧
      (c.wake now).1.card.control.shown = c.control.shown ∧ (c.wake now).1.card.lamp = c.lamp := by
  rcases lt_nextDeadline?_iff.mp hearly with ⟨hlive, hreq⟩
  have hends : c.control.ending? c.confirmed now = none := by
    rcases h.ending?_eq now with hnone | ⟨r, hr, -, hexpired⟩
    · exact hnone
    · exact absurd hexpired (Selector.Request.not_expired_of_lt_deadline (hreq r hr))
  have hrefresh : c.lamp.busy.refresh now = (c.lamp.busy, none) :=
    hsound.accurate.refresh_eq ((hsound.coupled hfew).pulse_running hlive)
  have hrest : (c.wake now).1.card.Rest := h.perform (.wake now)
  rw [wake_idle h ⟨hlive, hends, hsound.quiet, hrefresh⟩] at hrest ⊢
  refine ⟨rfl, rfl, rfl, ?_, rfl⟩
  rw [hrest.settled.shown_eq, h.settled.shown_eq, h.told]
  rfl

/-- From the next deadline on a waking gives a view, and what was due is gone. -/
theorem wake_late {c : Card} {now d : Millis} (h : c.Rest) (hnext : c.nextDeadline? = some d)
    (hlate : d ≤ now)
    (hroom : ∀ r, c.control.request = some r →
      r.start.toNat + c.config.timing.requestExpiry.toNat + 1 < UInt64.size) :
    (c.wake now).2 = some (c.wake now).1.card.view ∧
      ∀ d', (c.wake now).1.card.nextDeadline? = some d' → now < d' := by
  have hstirs : c.stirs now = true := by
    have hdue : ¬ ∀ d, c.nextDeadline? = some d → now < d :=
      fun hearly => UInt64.not_lt.mpr hlate (hearly d hnext)
    rw [lt_nextDeadline?_iff, Classical.not_and_iff_not_or_not] at hdue
    rw [stirs, Bool.or_eq_true, Bool.or_eq_true]
    rcases hdue with htimer | hrequest
    · -- a timer fires
      left; left
      rw [Classical.not_forall] at htimer
      rcases htimer with ⟨x, hx⟩
      rw [Classical.not_imp, UInt64.not_lt] at hx
      have hfired : x ∈ (c.timers.fireDue now).1 := Timers.mem_fireAll.mpr hx
      have hpos := List.length_pos_of_mem hfired
      rw [bne_iff_ne]
      omega
    · -- the request expires, and no longer shows
      right
      rw [Classical.not_forall] at hrequest
      rcases hrequest with ⟨r, hr⟩
      rw [Classical.not_imp] at hr
      rcases hr with ⟨hreq, hpast⟩
      rw [Selector.Request.lt_deadline_iff (hroom r hreq), Classical.not_not, ← h.expiry] at hpast
      have hbefore : c.control.shown = r.value := by
        rw [h.settled.shown_eq, hreq]
      have hafter : (c.control.settle c.confirmed now).1.shown = c.confirmed := by
        rw [Selector.Control.settle_shown h.settled.toReady, Selector.Control.shownAt, hreq]
        simp only [hpast, if_true]
      rw [hbefore, hafter, bne_iff_ne]
      exact h.confirmed_ne hreq
  have hpast := past_wake h now
  have hconfig : (c.wake now).1.card.config = c.config := config_perform c (.wake now)
  constructor
  · rw [wake_eq, hstirs]
    rfl
  · rw [lt_nextDeadline?_iff]
    refine ⟨hpast.timers, ?_⟩
    intro r hr
    have hlive := hpast.request r hr
    rw [hconfig] at hlive ⊢
    exact (Selector.Request.lt_deadline_iff (hroom r ((request_wake_eq_some_iff h).mp hr).2)).mpr hlive

/-! ## Waking a card after a run -/

/-- After any run in order, with fewer timers armed than there are handles, a card that is woken
before its next deadline does nothing, and one that is woken later gives a view and has only
deadlines that are still to come. -/
theorem wake_exact {config : Config} {start : Card} (hnew : Card.new config = .ok start)
    {ops : List Operation} (horder : InOrder ops) {now : Millis}
    (hlast : ∀ t ∈ times ops, t ≤ now) (hfew : (start.after ops).timers.Few) :
    let c := start.after ops
    let woken := c.wake now
    ((∀ d, c.nextDeadline? = some d → now < d) →
      woken.2 = none ∧ woken.1.acts = [] ∧
        woken.1.card.control.request = c.control.request ∧
        woken.1.card.control.shown = c.control.shown ∧ woken.1.card.busy = c.busy ∧
        woken.1.card.nextDeadline? = c.nextDeadline?) ∧
    ∀ d, c.nextDeadline? = some d → d ≤ now →
      (∀ r, c.control.request = some r →
        r.start.toNat + config.timing.requestExpiry.toNat + 1 ≤ Millis.last.toNat) →
      (∃ v, woken.2 = some v) ∧ ∀ d', woken.1.card.nextDeadline? = some d' → now < d' := by
  intro c woken
  have hrest : c.Rest := (rest_and_drawn_after hnew ops).1
  have hconfig : c.config = config := config_after hnew ops
  constructor
  · intro hearly
    obtain ⟨hview, hacts, hrequest, hshown, hlamp⟩ :=
      wake_early hrest (sound_after hnew horder hlast) hfew hearly
    have hkept : woken.1.card.config = c.config := config_perform c (.wake now)
    have hbusy : woken.1.card.busy = c.busy := congrArg Lamp.busy hlamp
    have htimers : woken.1.card.timers = c.timers := congrArg Lamp.timers hlamp
    refine ⟨hview, hacts, hrequest, hshown, hbusy, ?_⟩
    simp only [nextDeadline?, hkept, htimers]
    rw [hrequest]
  · intro d hnext hlate hroom
    rw [Millis.toNat_last, ← hconfig] at hroom
    have hwoken := wake_late hrest hnext hlate fun r hr => by
      have hend := hroom r hr
      omega
    exact ⟨⟨_, hwoken.1⟩, hwoken.2⟩

open Sample

theorem wake_exact_picked :
    (((card Sample.config).after picked).wake 16000).2 = none ∧
      ∃ v, (((card Sample.config).after picked).wake 16001).2 = some v := by
  have htimes : times picked = [0, 1000] := rfl
  have horder : InOrder picked := by
    rw [InOrder, htimes]
    decide
  have hfew : ((card Sample.config).after picked).timers.Few := by
    unfold Timers.Few
    decide +kernel
  have hnext : ((card Sample.config).after picked).nextDeadline? = some 16001 := by decide +kernel
  have hrequest : ((card Sample.config).after picked).control.request = some ⟨"Movie", 1000⟩ := by
    decide +kernel
  constructor
  · have hlast : ∀ t ∈ times picked, t ≤ 16000 := by simp [htimes]
    refine ((wake_exact new_config horder hlast hfew).1 ?_).1
    intro d hd
    rw [hnext] at hd
    cases hd
    decide
  · have hlast : ∀ t ∈ times picked, t ≤ 16001 := by simp [htimes]
    refine ((wake_exact new_config horder hlast hfew).2 16001 hnext (by decide) ?_).1
    intro r hr
    rw [hrequest] at hr
    cases hr
    decide

end Card

end HubCard
