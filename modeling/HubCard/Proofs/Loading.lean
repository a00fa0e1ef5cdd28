import HubCard.Proofs.Confirmation
import HubCard.Proofs.History
import HubCard.Proofs.Waking

/-!
The activity that is loading and the request that is pending. The selector and the busy light know
nothing of each other, and yet what is loading is what has been asked for, and its timer counts from
when it was asked for.
-/

namespace HubCard

namespace Timers

theorem mem_ofKind_of_cancel? {t : Timers} {handle : Option Handle} {kind : TimerKind} {x : Timer}
    (h : x ∈ (t.cancel? handle).ofKind kind) : x ∈ t.ofKind kind := by
  cases handle with
  | none => exact h
  | some handle =>
    rw [cancel?, ofKind_cancel] at h
    exact (List.mem_filter.mp h).1

theorem eq_of_mem_ofKind_arm {t : Timers} {kind : TimerKind} {deadline : Millis} {x : Timer}
    (h : x ∈ (t.arm kind deadline).1.ofKind kind) : x = ⟨t.nextHandle, kind, deadline⟩ := by
  rcases List.mem_filter.mp h with ⟨hlive, hkind⟩
  exact (mem_live_arm hlive).resolve_left fun hold => hold.2 (of_decide_eq_true hkind)

end Timers

namespace Lamp

/-! ## What is loading -/

/-- Whether an order starts a load. -/
def Order.isLoad : Order → Bool
  | .load .. => true
  | _ => false

/-- What is loading, if anything, is `target`, and a timer that gives up on a load, if there is one,
does so at `deadline`. -/
structure LoadsOnly (l : Lamp) (target : String) (deadline : Millis) : Prop where
  target : ∀ x, l.busy.load = some x → x.target = target
  alarm : ∀ y ∈ l.timers.ofKind .loadSafety, y.deadline = deadline

theorem loadsOnly_load (l : Lamp) (target : String) (now : Millis) :
    (l.obey (.load target now)).LoadsOnly target
      (Millis.later now l.busy.timing.loadTimeout) := by
  rw [obey_load_eq]
  constructor
  · intro x hx
    rw [← Option.some.inj hx]
  · intro y hy
    rw [Timers.eq_of_mem_ofKind_arm hy]

namespace LoadsOnly

variable {l : Lamp} {target : String} {deadline : Millis} (h : l.LoadsOnly target deadline)

include h

theorem obey_stop : (l.obey .stop).LoadsOnly target deadline := by
  rw [obey_stop_eq]
  constructor
  · intro x hx
    cases hx
  · exact fun y hy => h.alarm y (Timers.mem_ofKind_of_cancel? hy)

-- No other order starts a load or arms such a timer.
theorem obey {o : Order} (ho : o.isLoad = false) : (l.obey o).LoadsOnly target deadline := by
  cases o with
  | load target now => cases ho
  | pulse now =>
    rw [obey_pulse_eq]
    refine ⟨h.target, ?_⟩
    intro y hy
    rw [Timers.ofKind_rearm_of_ne (by decide)] at hy
    exact h.alarm y (Timers.mem_ofKind_of_cancel? hy)
  | stop => exact h.obey_stop
  | arrive label =>
    rw [obey_arrive]
    split
    · exact h.obey_stop
    · exact h
  | fire now =>
    constructor
    · intro x hx
      simp only [Lamp.obey, Busy.fireTimers, foldl_timerFired_load] at hx
      exact h.target x (Option.eq_some_of_filter_eq_some hx)
    · intro y hy
      simp only [Lamp.obey, Busy.fireTimers, Timers.ofKind_fireDue] at hy
      exact h.alarm y (List.mem_filter.mp hy).1
  | refresh now => exact ⟨by rw [obey_refresh_load]; exact h.target, h.alarm⟩
  | hubBusy _ | takeTimedOut => exact ⟨h.target, h.alarm⟩

theorem obeyAll {orders : List Order} (hnone : ∀ o ∈ orders, o.isLoad = false) :
    (l.obeyAll orders).LoadsOnly target deadline := by
  induction orders generalizing l with
  | nil => exact h
  | cons o orders ih =>
    rw [List.forall_mem_cons] at hnone
    exact ih (h.obey hnone.1) hnone.2

-- A load that times out does so at the deadline.
theorem deadline_le_of_timedOut (hquiet : l.busy.timedOut = none) {now : Millis} {given : String}
    (hgiven : (l.obey (.fire now)).busy.timedOut = some given) : deadline ≤ now := by
  simp only [Lamp.obey, Busy.fireTimers, foldl_timerFired_timedOut, hquiet] at hgiven
  split at hgiven
  · split at hgiven
    · rename_i hfired
      rcases List.any_eq_true.mp hfired with ⟨y, hy, hsame⟩
      rw [decide_eq_true_iff] at hsame
      rcases Timers.mem_fireAll.mp hy with ⟨hlive, hdue⟩
      rw [Timers.mem_live_iff, hsame.1] at hlive
      rw [← h.alarm y hlive]
      exact hdue
    · cases hgiven
  · cases hgiven

-- With few timers the timer of the load is live.
theorem alarm_eq (hcoupled : l.Coupled) {x : Load} (hload : l.busy.load = some x) :
    l.timers.ofKind .loadSafety = [x.alarm deadline] := by
  rcases hcoupled.load_timer hload with ⟨due, halarm⟩
  have hmem : x.alarm due ∈ l.timers.ofKind .loadSafety := by
    rw [halarm]
    exact List.mem_singleton_self _
  rw [halarm, show due = deadline from h.alarm _ hmem]

end LoadsOnly

end Lamp

namespace Act

theorem confirmed_mem_endings {acts : List Act} {option : String}
    (h : .event (.activityConfirmed option) ∈ acts) : .confirmed option ∈ endings acts :=
  List.mem_filterMap.mpr ⟨_, h, rfl⟩

end Act

namespace Card

/-! ## In step -/

/-- What is loading is what has been asked for, and is given up when that is due. -/
def InStep (c : Card) : Prop :=
  ∀ r, c.control.request = some r →
    c.lamp.LoadsOnly r.value (Millis.later r.start c.config.timing.loadTimeout)

theorem InStep.perform {c : Card} (h : c.InStep) (hrest : c.Rest) (hwired : c.Wired)
    (o : Operation) : (c.perform o).card.InStep := by
  have hready := hrest.settled.toReady
  have hturn := c.turn o
  generalize c.perform o = p at hturn ⊢
  cases hturn with
  | start | ignored | skipped => exact h
  | writeBack =>
    intro r hr
    exact h r (c.control.writeBack_frame.1.symm.trans hr)
  | @updated _ host hub selector now =>
    intro r hr
    simp only [updated_frame, Selector.Control.takeOutcome_frame] at hr
    rcases Selector.Control.settle_of_pending hready hr with ⟨hreq, hactions⟩
    have horders : ∀ o ∈ c.updateOrders hub selector now, o.isLoad = false := by
      rw [updateOrders, settling, hactions]
      simp [Lamp.Order.isLoad]
    rw [lamp_updated]
    simp only [updated_frame]
    exact ((h r hreq).obeyAll horders).obey rfl
  | @still option now control hoffers hpick =>
    intro r hr
    rcases Selector.Control.pick_of_pending hready hpick hr with ⟨hreq, -⟩ | ⟨-, before, hactions⟩
    · exact h r hreq
    · simp at hactions
  | @stirred option now control actions hoffers hpick =>
    intro r hr
    simp only [stirred_frame, Selector.Control.takeOutcome_frame] at hr
    rw [lamp_stirred, pickLamp]
    simp only [stirred_frame]
    rcases Selector.Control.pick_of_pending hready hpick hr with ⟨hreq, rfl⟩ | ⟨rfl, before, rfl⟩
    · exact (h r hreq).obey rfl
    · -- the load is started after all else that is asked for
      have hload := (c.lamp.obeyAll (before.flatMap (·.orders r.start))).loadsOnly_load r.value
        r.start
      rw [Lamp.obeyAll_timing, show c.lamp.busy.timing = c.config.timing from hwired.timing] at hload
      rw [List.flatMap_append, Lamp.obeyAll_append]
      exact hload.obey rfl
  | pressed hpress answer now =>
    intro r hr
    have horders : ∀ o ∈ [Lamp.Order.pulse now], o.isLoad = false := by simp [Lamp.Order.isLoad]
    simp only [pulsed_frame] at hr
    rw [lamp_pulsed]
    simp only [pulsed_frame]
    exact ((h r hr).obeyAll horders).obey rfl
  | @woken now | @undisturbed now =>
    intro r hr
    simp only [withView_frame, roused_frame, Selector.Control.takeOutcome_frame] at hr
    have hreq := (Selector.Control.settle_of_pending hready hr).1
    have horders : ∀ o ∈ c.wakeOrders now, o.isLoad = false := by
      rw [hrest.wakeOrders_eq]
      simp [Lamp.Order.isLoad]
    simp only [withView_frame, lamp_roused, roused_frame]
    exact ((h r hreq).obeyAll horders).obey rfl

/-! ## The end of a request -/

-- A confirmation ends the loading of the activity.
theorem load_of_confirmed {c : Card} (h : c.Rest) {o : Operation} {option : String}
    (hreported : .confirmed option ∈ Act.endings (c.perform o).acts) :
    (c.perform o).card.busy.load = none := by
  have hwaking : ∀ now, c.control.ending? c.confirmed now ≠ some (.confirmed option) := by
    intro now hends
    rcases Selector.Control.request_of_confirmed hends with ⟨r, hreq, hvalue⟩
    exact h.confirmed_ne hreq hvalue
  have hturn := c.turn o
  generalize c.perform o = p at hturn hreported ⊢
  cases hturn with
  | start | ignored | still | skipped | writeBack => cases hreported
  | pressed =>
    rw [Act.endings_eq_nil (by simp [pressActs])] at hreported
    cases hreported
  | @updated _ host hub selector now =>
    rw [endings_updateActs h, Option.mem_toList] at hreported
    rcases Selector.Control.request_of_confirmed hreported with ⟨r, hreq, hvalue⟩
    exact load_updated h host hub selector now hreq hvalue
  | @woken now | @undisturbed now =>
    rw [endings_wakeActs h, Option.mem_toList] at hreported
    exact absurd hreported (hwaking now)
  | @stirred picked now control actions hoffers hpick =>
    rw [endings_pickActs, Option.mem_toList] at hreported
    rcases Selector.Control.pick_outcome h.settled.toReady h.reported hpick with
      hnone | hends | ⟨-, rfl⟩
    · rw [hnone] at hreported
      cases hreported
    · rw [hends] at hreported
      exact absurd hreported (hwaking now)
    · -- the request is taken back, so what it has started is stopped at once
      have hbusy := congrArg Lamp.busy (c.lamp_stirred control
        [.selectOption picked, .startLoading picked, .stopLoading] now)
      exact (congrArg Busy.load hbusy).trans (Lamp.obey_refresh_load _ now)

theorem phase_wake {c : Card} (h : c.Rest) (now : Millis) :
    (c.perform (.wake now)).card.control.phase = .of (c.control.kept? c.confirmed now) := by
  have hphase : (c.perform (.wake now)).card.control.phase =
      (c.control.settle c.confirmed now).1.phase := by
    rw [perform, wake_eq]
    split <;> simp
  rw [hphase, Selector.Control.settle_eq h.settled.toReady, Selector.Control.holding_phase]

theorem timedOut_of_wakeActs {c : Card} {now : Millis} {target : String}
    (hreported : .event (.loadTimedOut target) ∈ c.wakeActs now) :
    (c.lamp.obey (.fire now)).busy.timedOut = some target := by
  rw [wakeActs, List.append_assoc, List.mem_append] at hreported
  rcases hreported with hreported | hreported
  · cases htimedOut : (c.lamp.obey (.fire now)).busy.timedOut with
    | none =>
      rw [htimedOut] at hreported
      cases hreported
    | some given =>
      rw [htimedOut, Act.ofTimeout, List.mem_singleton] at hreported
      cases hreported
      rfl
  · -- the end of a request and the light are something else
    have hspare : Act.Spare .timeout (Act.ofOutcome (c.control.settle c.confirmed now).1 ++
        Act.ofLight ((c.lamp.obeyAll (c.wakeOrders now)).busy.refresh now).2) := by simp
    exact absurd rfl (hspare _ hreported)

-- A request that is given up before its load is over by the time the load times out.
theorem kept?_of_timedOut {c : Card} (h : c.InStep) (hrest : c.Rest) (hwired : c.Wired)
    (hshorter : c.config.timing.requestExpiry < c.config.timing.loadTimeout) {now : Millis}
    {target : String} (htimedOut : (c.lamp.obey (.fire now)).busy.timedOut = some target)
    (hroom : ∀ r, c.control.request = some r →
      r.start.toNat + c.config.timing.loadTimeout.toNat ≤ Millis.last.toNat) :
    c.control.kept? c.confirmed now = none := by
  cases hreq : c.control.request with
  | none =>
    rw [Selector.Control.kept?, hreq]
    exact ite_self none
  | some r =>
    have hdue := (h r hreq).deadline_le_of_timedOut hwired.quiet htimedOut
    have hexpired : c.control.expiry < Millis.since now r.start := by
      have hr := hroom r hreq
      rw [UInt64.le_iff_toNat_le, Millis.toNat_later] at hdue
      rw [Millis.toNat_last] at hr
      rw [hrest.expiry, UInt64.lt_iff_toNat_lt, Millis.toNat_since]
      rw [UInt64.lt_iff_toNat_lt] at hshorter
      omega
    exact Selector.Control.kept?_eq_none
      (Selector.Control.ending?_of_expired hreq (hrest.confirmed_ne hreq) hexpired)

/-! ## After a run -/

theorem inStep_after {config : Config} {start : Card} (hnew : Card.new config = .ok start)
    (ops : List Operation) : (start.after ops).InStep := by
  have hinv : (start.after ops).InStep ∧ (start.after ops).Rest ∧ (start.after ops).Wired := by
    apply after_induction (fun _ => True) (fun c => c.InStep ∧ c.Rest ∧ c.Wired)
    · intro c o _ hc
      exact ⟨hc.1.perform hc.2.1 hc.2.2 o, hc.2.1.perform o, hc.2.2.perform o⟩
    · refine ⟨?_, (rest_and_drawn_after hnew []).1, wired_after hnew []⟩
      rw [new_eq hnew]
      intro r hr
      cases hr
    · exact fun _ _ => trivial
  exact hinv.1

/-- After any run: with a request pending and few timers, what is loading has been asked for by the
request, and its timer is due when it has been asked for that long ago. An operation that reports a
confirmation leaves nothing loading. And where requests expire before their loads time out, a waking
that reports a load as timed out leaves no request pending, as long as the timer of the request is
not due after the end of time. -/
theorem load_in_step {config : Config} {start : Card} (hnew : Card.new config = .ok start)
    (ops : List Operation) :
    let c := start.after ops
    (c.timers.Few → ∀ r x, c.control.request = some r → c.busy.load = some x →
      x.target = r.value ∧
        c.timers.ofKind .loadSafety =
          [x.alarm (Millis.later r.start config.timing.loadTimeout)]) ∧
    (∀ o option, .event (.activityConfirmed option) ∈ (c.perform o).acts →
      (c.perform o).card.busy.load = none) ∧
    (config.timing.requestExpiry < config.timing.loadTimeout →
      (∀ r, c.control.request = some r →
        r.start.toNat + config.timing.loadTimeout.toNat ≤ Millis.last.toNat) →
      ∀ now target, .event (.loadTimedOut target) ∈ (c.perform (.wake now)).acts →
        (c.perform (.wake now)).card.control.phase = .idle) := by
  intro c
  have hrest : c.Rest := (rest_and_drawn_after hnew ops).1
  have hwired : c.Wired := wired_after hnew ops
  have hstep : c.InStep := inStep_after hnew ops
  have hconfig : c.config = config := config_after hnew ops
  rw [← hconfig]
  refine ⟨?_, ?_, ?_⟩
  · intro hfew r x hreq hload
    exact ⟨(hstep r hreq).target x hload, (hstep r hreq).alarm_eq (hwired.coupled hfew) hload⟩
  · intro o option hreported
    exact load_of_confirmed hrest (Act.confirmed_mem_endings hreported)
  · intro hshorter hroom now target hreported
    have hacts : (c.perform (.wake now)).acts = c.wakeActs now := by
      rw [perform, wake_eq]
      split <;> rfl
    rw [hacts] at hreported
    have hkept := kept?_of_timedOut hstep hrest hwired hshorter (timedOut_of_wakeActs hreported)
      hroom
    rw [phase_wake hrest, hkept]
    rfl

open Sample

-- The load of an activity that is picked, when the hub confirms it and when the card wakes too late.
theorem load_in_step_picked :
    (∃ x, ((card Sample.config).after picked).busy.load = some x ∧ x.target = "Movie" ∧
      ((card Sample.config).after picked).timers.ofKind .loadSafety = [x.alarm 61000]) ∧
    (((card Sample.config).after picked).perform
      (.updateFrom host (entities "on" "Movie" []) 2000)).card.busy.load = none ∧
    (((card Sample.config).after picked).perform (.wake 90000)).card.control.phase = .idle := by
  rcases load_in_step new_config picked with ⟨hload, hconfirmed, hidle⟩
  have hfew : ((card Sample.config).after picked).timers.Few := by
    unfold Timers.Few
    decide +kernel
  have hreq : ((card Sample.config).after picked).control.request = some ⟨"Movie", 1000⟩ := by
    decide +kernel
  have hloading : ((card Sample.config).after picked).busy.load = some ⟨"Movie", 1⟩ := by
    decide +kernel
  have hroom : ∀ r, ((card Sample.config).after picked).control.request = some r →
      r.start.toNat + Sample.config.timing.loadTimeout.toNat ≤ Millis.last.toNat := by
    intro r hr
    rw [hreq, Option.some.injEq] at hr
    rw [← hr]
    decide
  refine ⟨⟨_, hloading, hload hfew _ _ hreq hloading⟩, ?_, ?_⟩
  · exact hconfirmed (.updateFrom host (entities "on" "Movie" []) 2000) "Movie" (by decide +kernel)
  · exact hidle (by decide) hroom 90000 "Movie" (by decide +kernel)

end Card

end HubCard
