import HubCard.Proofs.Deadlines
import HubCard.Proofs.History

/-!
To wake a card until a time drains it of all that is due by then. Every waking gets a timer or the
request out of the way, so there are no more of them than the card waits for things. What can be left
behind at the end of time is a request that outlasts it, and no timer.
-/

namespace HubCard

/-! ## The hub's own word -/

namespace Lamp

theorem obeyAll_hubBusy {l : Lamp} {orders : List Order} (h : ∀ o ∈ orders, o.isHubBusy = false) :
    (l.obeyAll orders).busy.hubBusy = l.busy.hubBusy := by
  induction orders generalizing l with
  | nil => rfl
  | cons o orders ih =>
    rw [List.forall_mem_cons] at h
    rw [obeyAll_cons, ih h.2, Bool.eq_iff_iff, hubBusy_obey]
    constructor
    · rintro (rfl | ⟨hbusy, -⟩)
      · cases h.1
      · exact hbusy
    · exact fun hbusy => .inr ⟨hbusy, h.1⟩

end Lamp

namespace Card

theorem isHubBusy_orders (actions : List Selector.Action) (now : Millis) :
    ∀ o ∈ actions.flatMap (·.orders now), o.isHubBusy = false :=
  forall_mem_orders (P := (·.isHubBusy = false)) (fun _ => rfl) rfl actions

/-- The light is what it should have been at some time, and knows what the hub has said last. -/
structure Lit (c : Card) : Prop where
  light : ∃ t, c.busy.light = c.busy.isActive t
  hubBusy : c.busy.hubBusy = c.hub.saysBusy

theorem hubBusy_perform {c : Card} (h : c.busy.hubBusy = c.hub.saysBusy) (o : Operation) :
    (c.perform o).card.busy.hubBusy = (c.perform o).card.hub.saysBusy := by
  have hlit : ∀ {d : Card} {orders : List Lamp.Order} {now : Millis},
      d.lamp = (c.lamp.obeyAll orders).obey (.refresh now) →
      (∀ o ∈ orders, o.isHubBusy = false) → d.hub = c.hub → d.busy.hubBusy = d.hub.saysBusy := by
    intro d orders now hlamp horders hhub
    have hbusy : d.busy = ((c.lamp.obeyAll orders).obey (.refresh now)).busy :=
      congrArg Lamp.busy hlamp
    rw [hbusy, hhub, Lamp.obey_refresh_hubBusy, Lamp.obeyAll_hubBusy horders]
    exact h
  have hturn := c.turn o
  generalize c.perform o = p at hturn ⊢
  cases hturn with
  | start | ignored | still | skipped | writeBack => exact h
  | @updated _ host hub selector now =>
    have hbusy : (c.updated host hub selector now).busy =
        ((c.lamp.obeyAll (c.updateOrders hub selector now)).obey (.refresh now)).busy :=
      congrArg Lamp.busy (c.lamp_updated host hub selector now)
    have harrive : ∀ label, ∀ o ∈ [Lamp.Order.arrive label], o.isHubBusy = false := by
      simp [Lamp.Order.isHubBusy]
    -- the last but one of the orders of an update is the word of the hub
    rw [hbusy, Lamp.obey_refresh_hubBusy, updateOrders, Lamp.obeyAll_append, Lamp.obeyAll_cons,
      Lamp.obeyAll_hubBusy (harrive _)]
    simp [Lamp.obey]
  | @stirred option now control actions =>
    exact hlit (lamp_stirred ..) (isHubBusy_orders actions now) (by simp)
  | pressed hpress answer now =>
    exact hlit (lamp_pulsed ..) (by simp [Lamp.Order.isHubBusy]) (by simp)
  | @woken now | @undisturbed now =>
    have horders : ∀ o ∈ c.wakeOrders now, o.isHubBusy = false := by
      rw [wakeOrders, List.forall_mem_append]
      exact ⟨by simp [Lamp.Order.isHubBusy], isHubBusy_orders _ now⟩
    have hroused : (c.roused now).busy.hubBusy = (c.roused now).hub.saysBusy :=
      hlit (c.lamp_roused now) horders (by simp)
    exact hroused

theorem Lit.perform {c : Card} (h : c.Lit) (o : Operation) : (c.perform o).card.Lit where
  light := by
    rcases c.lamp_perform o with ⟨hlamp, -⟩ | ⟨now, orders, hrelit⟩
    · rw [busy_of_lamp hlamp]
      exact h.light
    · have hbusy : (c.perform o).card.busy =
          ((c.lamp.obeyAll orders).obey (.refresh now)).busy := congrArg Lamp.busy hrelit.lamp
      refine ⟨now, ?_⟩
      rw [hbusy, Lamp.obey_refresh_light, Lamp.obey_refresh_isActive]
  hubBusy := hubBusy_perform h.hubBusy o

theorem Lit.after {c : Card} (h : c.Lit) (ops : List Operation) : (c.after ops).Lit := by
  apply after_induction (fun _ => True) Lit
  · exact fun c o _ hc => hc.perform o
  · exact h
  · exact fun _ _ => trivial

-- With no timer left, nothing but the hub's own word keeps the light on.
theorem Lit.light_eq {c : Card} (h : c.Lit) (hcoupled : c.lamp.Coupled) (hnone : c.timers.live = []) :
    c.busy.light = c.hub.saysBusy := by
  have hpulse : c.busy.pulse = none := by
    rw [Option.eq_none_iff_forall_ne_some]
    intro p hp
    have hlive : p.alarm ∈ c.timers.live := hcoupled.pulse_alarm_live hp
    rw [hnone] at hlive
    cases hlive
  have hload : c.busy.load = none := by
    rw [Option.eq_none_iff_forall_ne_some]
    intro x hx
    rcases hcoupled.load_timer hx with ⟨deadline, halarm⟩
    have hkind : c.timers.ofKind .loadSafety = [] := by rw [Timers.ofKind, hnone, List.filter_nil]
    rw [show c.timers.ofKind .loadSafety = _ from halarm] at hkind
    cases hkind
  rcases h.light with ⟨t, hlight⟩
  rw [hlight, Busy.isActive_eq, hpulse, hload, h.hubBusy]
  rfl

/-! ## One waking -/

/-- How many things the card waits for: the live timers, and the request if there is one. -/
def awaited (c : Card) : Nat :=
  c.timers.live.length + c.control.request.toList.length

theorem awaited_pos {c : Card} {d : Millis} (hnext : c.nextDeadline? = some d) : 0 < c.awaited := by
  rw [awaited]
  rcases nextDeadline?_eq_some hnext with ⟨x, hx, -⟩ | ⟨r, hr, -⟩
  · exact Nat.add_pos_left (List.length_pos_of_mem hx) _
  · rw [hr]
    exact Nat.succ_pos _

theorem live_wake {c : Card} (h : c.Rest) (now : Millis) :
    (c.wake now).1.card.timers.live = c.timers.live.filter fun x => !decide (x.deadline ≤ now) := by
  rw [(woken_frame h now).2.2.2]
  exact Timers.fireAll_left c.timers.live now

theorem length_request_wake_le {c : Card} (h : c.Rest) (now : Millis) :
    (c.wake now).1.card.control.request.toList.length ≤ c.control.request.toList.length := by
  cases hr : (c.wake now).1.card.control.request with
  | none => exact Nat.zero_le _
  | some r => exact Nat.le_of_eq (by rw [((request_wake_eq_some_iff h).mp hr).2])

-- A request is over once the card has been woken at its deadline, if that is not the end of time.
theorem request_wake_of_due {c : Card} (h : c.Rest) {r : Selector.Request} {d : Millis}
    (hr : c.control.request = some r) (hdue : r.deadline c.config.timing.requestExpiry = d)
    (hend : d ≠ Millis.last) : (c.wake d).1.card.control.request = none := by
  have hconfig : (c.wake d).1.card.config = c.config := config_perform c (.wake d)
  have hlater := (lt_nextDeadline?_iff.mp ((past_wake h d).lt_nextDeadline? hend)).2
  rw [Option.eq_none_iff_forall_ne_some]
  intro q hq
  obtain rfl : r = q := by
    rw [← Option.some.injEq, ← hr]
    exact ((request_wake_eq_some_iff h).mp hq).2
  have hpast := hlater r hq
  rw [hconfig, hdue] at hpast
  exact UInt64.lt_irrefl d hpast

-- Each waking at the next deadline gets something out of the way, if it is not the end of time.
theorem awaited_wake_lt {c : Card} (h : c.Rest) {d : Millis} (hnext : c.nextDeadline? = some d)
    (hend : d ≠ Millis.last) : (c.wake d).1.card.awaited < c.awaited := by
  rw [awaited, awaited, live_wake h]
  rcases nextDeadline?_eq_some hnext with ⟨x, hx, hdeadline⟩ | ⟨r, hr, hdeadline⟩
  · have hfired : (c.timers.live.filter fun x => !decide (x.deadline ≤ d)).length <
        c.timers.live.length := by
      rw [List.length_filter_lt_length_iff_exists]
      exact ⟨x, hx, by simp [hdeadline]⟩
    exact Nat.add_lt_add_of_lt_of_le hfired (length_request_wake_le h d)
  · rw [request_wake_of_due h hr hdeadline hend, hr]
    exact Nat.add_lt_add_of_le_of_lt (List.length_filter_le _ _) (Nat.succ_pos _)

/-- What a waking leaves alone, whenever it comes. -/
structure Unmoved (c d : Card) : Prop where
  config : d.config = c.config
  hub : d.hub = c.hub
  confirmed : d.confirmed = c.confirmed
  armed : d.timers.armed = c.timers.armed
  request : ∀ r : Selector.Request, r.Outlasts c.config.timing.requestExpiry →
    (d.control.request = some r ↔ c.control.request = some r)

theorem Unmoved.refl (c : Card) : Unmoved c c :=
  ⟨rfl, rfl, rfl, rfl, fun _ _ => Iff.rfl⟩

theorem Unmoved.trans {c d e : Card} (h : Unmoved c d) (h' : Unmoved d e) : Unmoved c e where
  config := h'.config.trans h.config
  hub := h'.hub.trans h.hub
  confirmed := h'.confirmed.trans h.confirmed
  armed := h'.armed.trans h.armed
  request := by
    intro r hr
    rw [← h.request r hr]
    rw [← h.config] at hr
    exact h'.request r hr

theorem unmoved_wake {c : Card} (h : c.Rest) (now : Millis) : Unmoved c (c.wake now).1.card := by
  rcases woken_frame h now with ⟨hconfirmed, -, -, htimers⟩
  have hconfig : (c.perform (.wake now)).card.config = c.config := config_perform c (.wake now)
  have hhub : (c.perform (.wake now)).card.hub = c.hub :=
    congrArg Prod.fst (reports_perform c (.wake now))
  refine ⟨hconfig, hhub, hconfirmed, ?_, ?_⟩
  · rw [htimers, Timers.armed_fireDue]
  · intro r hr
    rw [request_wake_eq_some_iff h]
    refine ⟨And.right, fun hreq => ⟨?_, hreq⟩⟩
    rcases h.ending?_eq now with hnone | ⟨q, hq, -, hexpired⟩
    · exact hnone
    · -- it would have expired
      obtain rfl : r = q := Option.some.inj (hreq.symm.trans hq)
      exact absurd hexpired (Selector.Request.not_expired_of_outlasts hr now)

/-! ## All wakings until a time -/

section WakeUntil

variable {c : Card} {limit : Millis} {last : Option Millis}

theorem length_wakeUntil_le (h : c.Rest) : (c.wakeUntil limit last).2.length ≤ c.awaited := by
  induction c, last using wakeUntil_induction limit with
  | not_due c last hnone =>
    rw [wakeUntil_of_not_due hnone]
    exact Nat.zero_le _
  | due c last d hnext hdue ih =>
    rw [wakeUntil_of_due hnext hdue, List.length_cons]
    by_cases hend : d = Millis.last
    · -- whatever is left then is due at the same time, and is not tried again
      have hstop : (c.wake d).1.card.wakeUntil limit (some d) = ((c.wake d).1.card, []) := by
        apply wakeUntil_of_not_due
        rintro d' hd' ⟨-, hne⟩
        have hle := le_nextDeadline?_wake hnext hd'
        have hlast := Millis.le_last d'
        rw [← hend] at hlast
        exact hne (congrArg some (UInt64.le_antisymm hle hlast))
      rw [hstop]
      exact awaited_pos hnext
    · exact Nat.lt_of_le_of_lt (ih (h.perform (.wake d))) (awaited_wake_lt h hnext hend)

theorem unmoved_wakeUntil (h : c.Rest) : Unmoved c (c.wakeUntil limit last).1 := by
  induction c, last using wakeUntil_induction limit with
  | not_due c last hnone =>
    rw [wakeUntil_of_not_due hnone]
    exact .refl c
  | due c last d hnext hdue ih =>
    rw [wakeUntil_of_due hnext hdue]
    exact (unmoved_wake h d).trans (ih (h.perform (.wake d)))

-- A deadline that is still due is one that the last of the wakings has taken in.
theorem past_wakeUntil (h : c.Rest) (hlast : ∀ d, last = some d → c.Past d) {d : Millis}
    (hnext : (c.wakeUntil limit last).1.nextDeadline? = some d) (hle : d ≤ limit) :
    (c.wakeUntil limit last).1.Past d := by
  induction c, last using wakeUntil_induction limit with
  | not_due c last hnone =>
    rw [wakeUntil_of_not_due hnone] at hnext ⊢
    exact hlast d (Decidable.not_not.mp fun hne => hnone d hnext ⟨hle, hne⟩)
  | due c last now hnow hdue ih =>
    rw [wakeUntil_of_due hnow hdue] at hnext ⊢
    refine ih (h.perform (.wake now)) ?_ hnext
    rintro _ ⟨rfl⟩
    exact past_wake h now

theorem exists_wakes (c : Card) (limit : Millis) (last : Option Millis) :
    ∃ wakes : List Millis, (c.wakeUntil limit last).1 = c.after (wakes.map .wake) := by
  have hprompt := prompt_wakeUntil (c := c) (s := 0) (fun _ _ => UInt64.zero_le) limit last
  refine ⟨(c.wakeUntil limit last).2.map (·.time), ?_⟩
  rw [List.map_map]
  exact hprompt.eq_after

end WakeUntil

/-! ## What is left -/

theorem Unmoved.outlasting_iff {c d : Card} (h : Unmoved c d) : d.Outlasting ↔ c.Outlasting := by
  rw [Outlasting, h.config]
  apply exists_congr
  intro r
  rw [and_congr_left_iff]
  exact h.request r

section Left

variable {c : Card} (h : c.Rest) {limit : Millis}

include h

theorem outlasting_of_due {d : Millis} (hnext : (c.wakeUntil limit none).1.nextDeadline? = some d)
    (hle : d ≤ limit) :
    d = Millis.last ∧ (c.wakeUntil limit none).1.Past d ∧ (c.wakeUntil limit none).1.Outlasting := by
  have hpast : (c.wakeUntil limit none).1.Past d :=
    past_wakeUntil h (fun _ hnone => by cases hnone) hnext hle
  exact ⟨(hpast.outlasting hnext).1, hpast, (hpast.outlasting hnext).2⟩

theorem timers_wakeUntil : ∀ x ∈ (c.wakeUntil limit none).1.timers.live, limit < x.deadline := by
  intro x hx
  by_cases hlater : ∀ d, (c.wakeUntil limit none).1.nextDeadline? = some d → limit < d
  · exact (lt_nextDeadline?_iff.mp hlater).1 x hx
  · -- what is still due is so at the end of time, and that has been taken in
    simp only [Classical.not_forall, UInt64.not_lt] at hlater
    rcases hlater with ⟨d, hd, hle⟩
    rcases outlasting_of_due h hd hle with ⟨rfl, hpast, -⟩
    exact UInt64.lt_of_le_of_lt (Millis.le_last limit) (hpast.timers x hx)

theorem lt_nextDeadline?_wakeUntil_iff :
    (∀ d, (c.wakeUntil limit none).1.nextDeadline? = some d → limit < d) ↔
      ¬ (limit = Millis.last ∧ c.Outlasting) := by
  have hsame : (c.wakeUntil limit none).1.Outlasting ↔ c.Outlasting :=
    (unmoved_wakeUntil h).outlasting_iff
  constructor
  · rintro hlater ⟨hlimit, hout⟩
    rcases hsame.mpr hout with ⟨r, hr, -⟩
    have hend := (lt_nextDeadline?_iff.mp hlater).2 r hr
    rw [hlimit] at hend
    exact UInt64.not_lt.mpr (Millis.le_last _) hend
  · intro hnot d hd
    rw [← UInt64.not_le]
    intro hle
    rcases outlasting_of_due h hd hle with ⟨rfl, -, hout⟩
    exact hnot ⟨UInt64.le_antisymm (Millis.le_last limit) hle, hsame.mp hout⟩

end Left

-- A card for which nothing is ever due is idle.
theorem Rest.idle {c : Card} (h : c.Rest)
    (hnever : ∀ d, c.nextDeadline? = some d → Millis.last < d) :
    c.control.phase = .idle ∧ c.control.shown = c.confirmed ∧ c.timers.live = [] := by
  rw [lt_nextDeadline?_iff] at hnever
  have hend : ∀ d : Millis, ¬ Millis.last < d := fun d => UInt64.not_lt.mpr (Millis.le_last d)
  have hrequest : c.control.request = none := by
    rw [Option.eq_none_iff_forall_ne_some]
    exact fun r hr => hend _ (hnever.2 r hr)
  refine ⟨?_, ?_, ?_⟩
  · rw [h.settled.phase, hrequest]
    rfl
  · rw [h.settled.shown_eq, hrequest]
    exact h.told
  · rw [List.eq_nil_iff_forall_not_mem]
    exact fun x hx => hend _ (hnever.1 x hx)

/-! ## After a run -/

theorem lit_after {config : Config} {start : Card} (hnew : Card.new config = .ok start)
    (ops : List Operation) : (start.after ops).Lit := by
  have hstart : start.Lit := by
    rw [new_eq hnew]
    exact ⟨⟨0, rfl⟩, rfl⟩
  exact hstart.after ops

/-- After any run, to wake the card until a time takes no more wakings than there are live timers and
requests. It leaves no timer that is due by then, and nothing else that is, unless the time is the end
of time and the request outlasts it. With no such request the card is idle at the end of time: it shows
what is confirmed, no timer is live and, with fewer timers armed than there are handles, its light is
what the hub last said of itself. -/
theorem wakeUntil_exact {config : Config} {start : Card} (hnew : Card.new config = .ok start)
    (ops : List Operation) (limit : Millis) :
    let c := start.after ops
    let left := (c.wakeUntil limit none).1
    (c.wakeUntil limit none).2.length ≤ c.timers.live.length + c.control.request.toList.length ∧
    (∀ x ∈ left.timers.live, limit < x.deadline) ∧
    ((∀ d, left.nextDeadline? = some d → limit < d) ↔ ¬ (limit = Millis.last ∧ c.Outlasting)) ∧
    (limit = Millis.last → ¬ c.Outlasting →
      left.control.phase = .idle ∧ left.control.shown = c.confirmed ∧ left.timers.live = [] ∧
        (c.timers.Few → left.busy.light = (latest config ops).1.saysBusy)) := by
  intro c left
  have hrest : c.Rest := (rest_and_drawn_after hnew ops).1
  have hunmoved : Unmoved c left := unmoved_wakeUntil hrest
  refine ⟨length_wakeUntil_le hrest, timers_wakeUntil hrest, lt_nextDeadline?_wakeUntil_iff hrest, ?_⟩
  intro hlimit hnot
  have hnever : ∀ d, left.nextDeadline? = some d → Millis.last < d := by
    rw [← hlimit]
    exact (lt_nextDeadline?_wakeUntil_iff hrest).mpr fun hboth => hnot hboth.2
  -- the card that is left has been through a run itself
  rcases exists_wakes c limit none with ⟨wakes, hwakes⟩
  have hrun : left = start.after (ops ++ wakes.map .wake) := by
    rw [after_append]
    exact hwakes
  have hleft : left.Rest := hrun ▸ (rest_and_drawn_after hnew _).1
  have hwired : left.Wired := hrun ▸ wired_after hnew _
  have hlit : left.Lit := hrun ▸ lit_after hnew _
  rcases hleft.idle hnever with ⟨hphase, hshown, hlive⟩
  refine ⟨hphase, hshown.trans hunmoved.confirmed, hlive, ?_⟩
  intro hfew
  have hcoupled : left.lamp.Coupled := by
    apply hwired.coupled
    rw [Timers.Few, hunmoved.armed]
    exact hfew
  rw [hlit.light_eq hcoupled hlive, hunmoved.hub, (reports_eq_latest hnew ops).1]

open Sample

-- The user has picked an activity, and the hub never confirms it.
theorem wakeUntil_exact_picked :
    let c := (card Sample.config).after picked
    let left := (c.wakeUntil Millis.last none).1
    left.control.phase = .idle ∧ left.control.shown = "TV" ∧ left.timers.live = [] ∧
      left.busy.light = false := by
  intro c left
  have hrequest : c.control.request = some ⟨"Movie", 1000⟩ := by decide +kernel
  have hnot : ¬ c.Outlasting := by
    rintro ⟨r, hr, houtlasts⟩
    rw [hrequest] at hr
    cases hr
    have hexpiry : c.config.timing.requestExpiry = 15000 := by decide +kernel
    rw [hexpiry] at houtlasts
    revert houtlasts
    unfold Selector.Request.Outlasts
    decide
  have hfew : c.timers.Few := by
    unfold Timers.Few
    decide +kernel
  have hconfirmed : c.confirmed = "TV" := by decide +kernel
  have hquiet : (latest Sample.config picked).1.saysBusy = false := by decide +kernel
  rcases wakeUntil_exact new_config picked Millis.last with ⟨-, -, -, hend⟩
  rcases hend rfl hnot with ⟨hphase, hshown, hlive, hlight⟩
  exact ⟨hphase, hshown.trans hconfirmed, hlive, (hlight hfew).trans hquiet⟩

end Card

end HubCard
