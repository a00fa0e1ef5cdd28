import HubCard.Proofs.Effects

/-!
What holds of a card between two operations, whatever it has been through: its selector is at rest,
its last view is up to date, its light is right until something falls due.
-/

namespace HubCard

namespace Lamp

namespace Order

/-- Whether an order tells the lamp something, and has neither its timers nor its light looked at. -/
def isNews : Order → Bool
  | .pulse _ | .load .. | .stop | .arrive _ | .hubBusy _ => true
  | .refresh _ | .fire _ | .takeTimedOut => false

end Order

variable {orders : List Order} (h : ∀ o ∈ orders, o.isNews = true)

include h

theorem fire_not_mem_news (t : Millis) : .fire t ∉ orders :=
  fun ht => Bool.false_ne_true (h _ ht)

theorem refresh_not_mem_news (t : Millis) : .refresh t ∉ orders :=
  fun ht => Bool.false_ne_true (h _ ht)

end Lamp

namespace Card

/-! ## The light -/

-- The selector has loads started and stopped, and gives the light no other orders.
theorem forall_mem_orders {P : Lamp.Order → Prop} {now : Millis}
    (hload : ∀ target, P (.load target now)) (hstop : P .stop) (actions : List Selector.Action) :
    ∀ o ∈ actions.flatMap (·.orders now), P o := by
  intro o ho
  rcases List.mem_flatMap.mp ho with ⟨a, -, ha⟩
  cases a with
  | selectOption option => cases ha
  | startLoading target =>
    rw [List.mem_singleton.mp ha]
    exact hload target
  | stopLoading =>
    rw [List.mem_singleton.mp ha]
    exact hstop

theorem isNews_orders (actions : List Selector.Action) (now : Millis) :
    ∀ o ∈ actions.flatMap (·.orders now), o.isNews = true :=
  forall_mem_orders (P := (·.isNews = true)) (fun _ => rfl) rfl actions

theorem isNews_updateOrders (c : Card) (hub : HubReport) (selector : SelectorReport)
    (now : Millis) : ∀ o ∈ c.updateOrders hub selector now, o.isNews = true := by
  intro o ho
  rcases List.mem_append.mp ho with ho | ho
  · exact isNews_orders _ now o ho
  · rw [List.mem_cons, List.mem_singleton] at ho
    rcases ho with rfl | rfl <;> rfl

theorem refresh_not_mem_wakeOrders (c : Card) (now t : Millis) :
    .refresh t ∉ c.wakeOrders now := by
  rw [wakeOrders, List.mem_append]
  rintro (ht | ht)
  · simp at ht
  · exact Lamp.refresh_not_mem_news (isNews_orders _ now) t ht

/-- What an operation does that gives the light orders: it brings the light up to date by them, and
reports it if it has changed. -/
structure Relit (c : Card) (o : Operation) (now : Millis) (orders : List Lamp.Order) : Prop where
  time : o.time? = some now
  lamp : (c.perform o).card.lamp = (c.lamp.obeyAll orders).obey (.refresh now)
  unlit : ∀ t, .refresh t ∉ orders
  quiet : c.lamp.busy.timedOut = none → (c.lamp.obeyAll orders).busy.timedOut = none
  lights : Act.lights (c.perform o).acts = ((c.lamp.obeyAll orders).busy.refresh now).2.toList

/-- An operation leaves the light alone, or gives it orders and then brings it up to date. -/
theorem lamp_perform (c : Card) (o : Operation) :
    (c.perform o).card.lamp = c.lamp ∧ Act.lights (c.perform o).acts = [] ∨
      ∃ now orders, c.Relit o now orders := by
  have hturn := c.turn o
  generalize hp : c.perform o = p at hturn ⊢
  cases hturn with
  | @updated _ host hub selector now hreports htime =>
    refine .inr ⟨now, c.updateOrders hub selector now, htime, ?_, ?_, ?_, ?_⟩
    · simp only [hp, lamp_updated]
    · exact Lamp.refresh_not_mem_news (c.isNews_updateOrders hub selector now)
    · exact Lamp.obeyAll_timedOut
        (Lamp.fire_not_mem_news (c.isNews_updateOrders hub selector now))
    · have hpainting : Act.lights (Act.ofPainting c.config.theme (c.painting host).2) = [] :=
        Act.lights_eq_nil (by simp)
      rw [hp, updateActs, Act.lights_append, hpainting, List.append_nil]
      exact Act.lights_ofLight_last (by simp) _
  | @stirred option now control actions hoffers hpick hstir answer =>
    refine .inr ⟨now, actions.flatMap (·.orders now), rfl, ?_, ?_, ?_, ?_⟩
    · simp only [hp, lamp_stirred, pickLamp]
    · exact Lamp.refresh_not_mem_news (isNews_orders actions now)
    · exact Lamp.obeyAll_timedOut (Lamp.fire_not_mem_news (isNews_orders actions now))
    · rw [hp]
      exact Act.lights_ofLight_last (by simp) _
  | pressed hpress answer now =>
    refine .inr ⟨now, [.pulse now], rfl, ?_, by simp, ?_, ?_⟩
    · simp only [hp, lamp_pulsed]
    · exact Lamp.obeyAll_timedOut (by simp)
    · rw [hp]
      exact Act.lights_ofLight_last (by simp) _
  | @woken now hstirs | @undisturbed now hstirs =>
    refine .inr ⟨now, c.wakeOrders now, rfl, ?_, c.refresh_not_mem_wakeOrders now, ?_, ?_⟩
    · simp [hp, roused]
    · -- what has timed out by now is taken as soon as the timers have fired
      intro _
      rw [wakeOrders, Lamp.obeyAll_append]
      exact Lamp.obeyAll_timedOut (Lamp.fire_not_mem_news (isNews_orders _ now)) rfl
    · rw [hp]
      exact Act.lights_ofLight_last (by simp) _
  | start | ignored | still | skipped | writeBack => exact .inl ⟨rfl, rfl⟩

/-- What holds of the light at any time: it is coupled to its timers as long as handles do not come
up twice, and has no load left to report. -/
structure Wired (c : Card) : Prop where
  coupled : c.timers.Few → c.lamp.Coupled
  quiet : c.busy.timedOut = none
  timing : c.busy.timing = c.config.timing

theorem config_perform (c : Card) (o : Operation) : (c.perform o).card.config = c.config := by
  have hturn := c.turn o
  generalize c.perform o = p at hturn ⊢
  cases hturn <;> simp

theorem Wired.perform {c : Card} (h : c.Wired) (o : Operation) : (c.perform o).card.Wired := by
  rcases c.lamp_perform o with ⟨hlamp, -⟩ | ⟨now, orders, -, hlamp, -, hquiet, -⟩
  · have hbusy : (c.perform o).card.busy = c.busy := congrArg Lamp.busy hlamp
    have htimers : (c.perform o).card.timers = c.timers := congrArg Lamp.timers hlamp
    constructor
    · rw [htimers, hlamp]
      exact h.coupled
    · rw [hbusy]
      exact h.quiet
    · rw [hbusy, config_perform]
      exact h.timing
  · have hbusy : (c.perform o).card.busy = ((c.lamp.obeyAll orders).obey (.refresh now)).busy :=
      congrArg Lamp.busy hlamp
    have htimers : (c.perform o).card.timers = (c.lamp.obeyAll orders).timers :=
      congrArg Lamp.timers hlamp
    constructor
    · intro hfew
      rw [htimers] at hfew
      -- timers are only ever added, so there were few of them before
      have hbefore : c.timers.Few :=
        Nat.lt_of_le_of_lt (Lamp.armed_obeyAll_le c.lamp orders) hfew
      rw [hlamp]
      exact ((h.coupled hbefore).obeyAll hfew).obey hfew
    · rw [hbusy]
      exact Lamp.obey_timedOut (by simp) (hquiet h.quiet)
    · rw [hbusy, config_perform, Lamp.obey_timing, Lamp.obeyAll_timing]
      exact h.timing

/-- The light at a time. -/
structure Sound (now : Millis) (c : Card) : Prop extends Wired c where
  accurate : c.lamp.Accurate now

theorem Sound.mono {s now : Millis} {c : Card} (h : c.Sound s) (hle : s ≤ now) : c.Sound now where
  toWired := h.toWired
  accurate := h.accurate.mono hle

-- A light that has never been used is as it should be.
theorem sound_of_new {c : Card} (h : c.lamp = .new c.config.timing) (now : Millis) :
    c.Sound now := by
  have hbusy : c.busy = .new c.config.timing := congrArg Lamp.busy h
  refine ⟨⟨fun _ => ?_, ?_, ?_⟩, ?_⟩
  · rw [h]
    exact Lamp.coupled_new _
  · rw [hbusy]
    rfl
  · rw [hbusy]
    rfl
  · rw [h]
    exact Lamp.accurate_new _ now

theorem Sound.perform {s : Millis} {c : Card} {o : Operation} (htime : ∀ t, o.time? = some t → s ≤ t)
    (h : c.Sound s) : (c.perform o).card.Sound (o.time?.getD s) where
  toWired := h.toWired.perform o
  accurate := by
    rcases c.lamp_perform o with ⟨hlamp, -⟩ | ⟨now, orders, hnow, hlamp, -, -, -⟩
    · have hle : s ≤ o.time?.getD s := by
        cases ht : o.time? with
        | none => exact UInt64.le_refl s
        | some t => exact htime t ht
      rw [hlamp]
      exact h.accurate.mono hle
    · rw [hnow, Option.getD_some, hlamp]
      exact Lamp.accurate_refresh (c.lamp.obeyAll orders) now

/-! ## The selector -/

/-- The selector is at rest, knows what the card knows, and has nothing left to report. -/
structure Rest (c : Card) : Prop where
  settled : c.control.Settled
  told : c.control.confirmed = c.confirmed
  expiry : c.control.expiry = c.config.timing.requestExpiry
  reported : c.control.outcome = none

theorem Rest.perform {c : Card} (h : c.Rest) (o : Operation) : (c.perform o).card.Rest := by
  have hturn := c.turn o
  generalize c.perform o = p at hturn ⊢
  cases hturn with
  | start | ignored | skipped => exact h
  | @updated _ host hub selector now =>
    have hframe := h.settled.settle_frame (c.received hub selector).confirmed now
    constructor
    · simpa [settling] using (h.settled.settle _ now).takeOutcome
    · simpa [settling] using hframe.1
    · simpa [settling] using hframe.2.trans h.expiry
    · simp
  | @still option now control hoffers hpick hphase =>
    have hsettled := h.settled.pick option c.confirmed now
    have hframe := h.settled.pick_frame option c.confirmed now
    rw [hpick] at hsettled hframe
    refine ⟨hsettled, hframe.1, hframe.2.trans h.expiry, ?_⟩
    -- the pick has ended nothing, so there is nothing new to report
    change control.outcome = none
    rw [(h.settled.pick_still hpick hphase).2]
    exact h.reported
  | @stirred option now control actions hoffers hpick =>
    have hsettled := h.settled.pick option c.confirmed now
    have hframe := h.settled.pick_frame option c.confirmed now
    rw [hpick] at hsettled hframe
    exact ⟨hsettled.takeOutcome, hframe.1, hframe.2.trans h.expiry, rfl⟩
  | pressed => exact ⟨h.settled, h.told, h.expiry, h.reported⟩
  | @woken now | @undisturbed now =>
    have hframe := h.settled.settle_frame c.confirmed now
    exact ⟨(h.settled.settle _ now).takeOutcome, hframe.1, hframe.2.trans h.expiry, rfl⟩
  | writeBack =>
    have hframe := c.control.writeBack_frame
    exact ⟨h.settled.writeBack, hframe.2.2.1.trans h.told, hframe.2.2.2.1.trans h.expiry,
      hframe.2.1.trans h.reported⟩

namespace Rest

variable {c : Card} (h : c.Rest)

include h

-- The hub has not confirmed the request, or the request would be over.
theorem confirmed_ne {r : Selector.Request} (hreq : c.control.request = some r) :
    c.confirmed ≠ r.value := by
  rw [← h.told]
  exact (h.settled.differs r hreq).symm

theorem ending?_eq (now : Millis) :
    c.control.ending? c.confirmed now = none ∨
      ∃ r, c.control.request = some r ∧ c.control.ending? c.confirmed now = some (.expired r.value) ∧
        c.config.timing.requestExpiry < Millis.since now r.start := by
  unfold Selector.Control.ending?
  cases hreq : c.control.request with
  | none => exact .inl rfl
  | some r =>
    have hdiffers := h.confirmed_ne hreq
    simp only [Option.bind_some, Selector.Request.ending?, if_neg hdiffers, h.expiry]
    split
    · rename_i hexpired
      exact .inr ⟨r, rfl, rfl, hexpired⟩
    · exact .inl rfl

theorem settle_actions (now : Millis) : (c.control.settle c.confirmed now).2 = [] := by
  rw [Selector.Control.settle_eq h.settled.toReady]
  rcases h.ending?_eq now with hends | ⟨r, -, hends, -⟩
  · rw [hends]
    rfl
  · rw [hends]
    rfl

-- A pick that changes nothing but the time shows nothing new.
theorem shown_still {option : String} {now : Millis} {control : Selector.Control}
    (hpick : c.control.pick option c.confirmed now = (control, []))
    (hphase : control.phase = c.control.phase) : control.shown = c.control.shown := by
  rcases h.settled.pick_still hpick hphase with ⟨-, hheld⟩
  have hsettled := h.settled.pick option c.confirmed now
  rw [hpick] at hsettled
  rw [hsettled.shown_eq, h.settled.shown_eq, hheld, h.told]
  rfl

end Rest

/-! ## The view -/

/-- The last view is up to date. Before the first one the card has not heard of its entities. -/
structure Drawn (c : Card) : Prop where
  last : ∀ v, c.lastView = some v → v = c.view
  first : c.lastView = none → c.hub = .missing ∧ c.selector = .missing ∧ c.gating = .initial

theorem drawn_withView (c : Card) : c.withView.Drawn where
  last := by
    intro v hv
    exact (Option.some.inj hv).symm
  first := by
    intro hnone
    cases hnone

theorem Drawn.congr {c d : Card} (h : c.Drawn) (hview : d.view = c.view)
    (hlast : d.lastView = c.lastView) (hhub : d.hub = c.hub) (hselector : d.selector = c.selector)
    (hgating : d.gating = c.gating) : d.Drawn where
  last := by
    rw [hlast, hview]
    exact h.last
  first := by
    rw [hlast, hhub, hselector, hgating]
    exact h.first

theorem Drawn.withControl {c : Card} (h : c.Drawn) {control : Selector.Control}
    (hshown : control.shown = c.control.shown) : (c.withControl control).Drawn := by
  refine h.congr ?_ rfl rfl rfl rfl
  simp [view, hshown]

-- A waking after which the view is not drawn again has not changed it.
theorem view_roused {c : Card} {now : Millis} (hstirs : c.stirs now = false) :
    (c.roused now).view = c.view := by
  rw [stirs, Bool.or_eq_false_iff, Bool.or_eq_false_iff] at hstirs
  rcases hstirs with ⟨⟨-, hlight⟩, hshown⟩
  have hbusy : (c.roused now).busy.light = c.busy.light := by
    have hkept : (c.lamp.obeyAll (c.wakeOrders now)).busy.light = c.busy.light :=
      Lamp.obeyAll_light (c.refresh_not_mem_wakeOrders now)
    have hroused : (c.roused now).busy =
        ((c.lamp.obeyAll (c.wakeOrders now)).busy.refresh now).1 := rfl
    rw [hroused, Lamp.refresh_of_none hlight, hkept]
  have hcontrol : (c.roused now).control.shown = c.control.shown := bne_eq_false_iff_eq.mp hshown
  rw [view, hbusy, hcontrol]
  rfl

theorem Drawn.perform {c : Card} (h : c.Drawn) (hrest : c.Rest) (o : Operation) :
    (c.perform o).card.Drawn := by
  have hturn := c.turn o
  generalize c.perform o = p at hturn ⊢
  cases hturn with
  | start | ignored | skipped => exact h
  | updated | stirred | pressed | woken => exact drawn_withView _
  | @still option now control hoffers hpick hphase =>
    exact h.withControl (hrest.shown_still hpick hphase)
  | undisturbed hstirs => exact h.congr (view_roused hstirs) rfl rfl rfl rfl
  | writeBack => exact h.withControl c.control.writeBack_frame.2.2.2.2

/-! ## The reports -/

/-- What an operation leaves alone or writes anew is, after a run, what was written last. -/
theorem after_overwriting {α : Type} (field : Card → α) (written? : Config → Operation → Option α)
    (hstep : ∀ c o, field (c.perform o).card = (written? c.config o).getD (field c)) (c : Card)
    (ops : List Operation) :
    field (c.after ops) = (ops.filterMap (written? c.config)).getLastD (field c) := by
  induction ops generalizing c with
  | nil => rfl
  | cons o ops ih =>
    rw [after_cons, ih, config_perform, hstep, List.filterMap_cons]
    cases written? c.config o with
    | none => rfl
    | some value => rw [List.getLastD_cons, Option.getD_some]

-- The reports that a card goes by are those of the last operation that brought any.
theorem reports_perform (c : Card) (o : Operation) :
    ((c.perform o).card.hub, (c.perform o).card.selector) =
      (o.reports? c.config).getD (c.hub, c.selector) := by
  have hturn := c.turn o
  generalize c.perform o = p at hturn ⊢
  cases hturn with
  | updated host hreports htime =>
    rw [hreports]
    rfl
  | start | ignored | still | stirred | skipped | pressed | woken | undisturbed | writeBack => rfl

-- The gating is computed anew whenever a hub can be reached, and only then.
theorem gating_perform (c : Card) (o : Operation) :
    (c.perform o).card.gating =
      match (o.reports? c.config).filter (·.1.availability = .available) with
      | some (hub, selector) => Gating.ofReports c.config hub selector
      | none => c.gating := by
  have hturn := c.turn o
  generalize c.perform o = p at hturn ⊢
  cases hturn with
  | @updated _ host hub selector now hreports =>
    rw [hreports, Option.filter_some]
    by_cases havailable : hub.availability = .available <;> simp [received, havailable]
  | start | ignored | still | stirred | skipped | pressed | woken | undisturbed | writeBack => rfl

-- What is confirmed stays until reports confirm something else.
theorem confirmed_perform (c : Card) (o : Operation) :
    (c.perform o).card.confirmed =
      ((o.reports? c.config).bind fun reports => confirmedBy? reports.1 reports.2).getD
        c.confirmed := by
  have hturn := c.turn o
  generalize c.perform o = p at hturn ⊢
  cases hturn with
  | updated host hreports htime =>
    rw [hreports, Option.bind_some]
    simp only [updated_frame, confirmed_received]
  | start | ignored | still | stirred | skipped | pressed | woken | undisturbed | writeBack => rfl

/-- The last reports that a run has brought. -/
def latest (config : Config) (ops : List Operation) : HubReport × SelectorReport :=
  (ops.filterMap (·.reports? config)).getLastD (.missing, .missing)

theorem reports_after (c : Card) (ops : List Operation) :
    ((c.after ops).hub, (c.after ops).selector) =
      (ops.filterMap (·.reports? c.config)).getLastD (c.hub, c.selector) :=
  after_overwriting (fun c => (c.hub, c.selector)) (fun config o => o.reports? config)
    reports_perform c ops

/-! ## From the start -/

theorem new_eq {config : Config} {start : Card} (h : Card.new config = .ok start) :
    start =
      ⟨config, .new config.timing.requestExpiry, .new config.timing, .empty, .new, .missing,
        .missing, .initial, "", none⟩ := by
  unfold new at h
  cases hvalid : config.validate with
  | error e =>
    rw [hvalid] at h
    cases h
  | ok =>
    rw [hvalid] at h
    exact (Except.ok.inj h).symm

section Runs

variable {config : Config} {start : Card} (hnew : Card.new config = .ok start)

include hnew

theorem config_after (ops : List Operation) : (start.after ops).config = config := by
  have hstart : start.config = config := by rw [new_eq hnew]
  apply after_induction (fun _ => True) (fun c => c.config = config)
  · intro c o _ hc
    rw [config_perform, hc]
  · exact hstart
  · exact fun _ _ => trivial

theorem rest_and_drawn_after (ops : List Operation) :
    (start.after ops).Rest ∧ (start.after ops).Drawn := by
  apply after_induction (fun _ => True) (fun c => c.Rest ∧ c.Drawn)
  · intro c o _ hc
    exact ⟨hc.1.perform o, hc.2.perform hc.1 o⟩
  · rw [new_eq hnew]
    constructor
    · exact ⟨Selector.Control.settled_new _, rfl, rfl, rfl⟩
    · refine ⟨?_, fun _ => ⟨rfl, rfl, rfl⟩⟩
      intro v hv
      cases hv
  · exact fun _ _ => trivial

theorem wired_after (ops : List Operation) : (start.after ops).Wired := by
  apply after_induction (fun _ => True) Wired
  · exact fun c o _ hc => hc.perform o
  · exact (sound_of_new (by rw [new_eq hnew]; rfl) 0).toWired
  · exact fun _ _ => trivial

theorem sound_after {ops : List Operation} (horder : InOrder ops) {now : Millis}
    (hlast : ∀ t ∈ times ops, t ≤ now) : (start.after ops).Sound now := by
  have hzero : ∀ t : Millis, 0 ≤ t := fun _ => UInt64.zero_le
  have hstart : start.Sound 0 := by
    exact ⟨wired_after hnew [], by rw [new_eq hnew]; exact Lamp.accurate_new _ 0⟩
  exact after_induction_timed Sound (fun _ _ _ hle hc => hc.mono hle)
    (fun _ _ _ htime hc => hc.perform htime) hstart horder (fun t _ => hzero t) (hzero now) hlast

theorem reports_eq_latest (ops : List Operation) :
    (start.after ops).hub = (latest config ops).1 ∧
      (start.after ops).selector = (latest config ops).2 := by
  have hreports := reports_after start ops
  rw [new_eq hnew] at hreports ⊢
  exact Prod.mk.injEq .. ▸ hreports

end Runs

end Card

end HubCard
