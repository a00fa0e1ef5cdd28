import HubCard.Proofs.Confirmation
import HubCard.Proofs.Painting
import HubCard.Proofs.Selection
import HubCard.Proofs.Waking

/-!
An update that brings nothing new does nothing. Each part of it has then been done before: the gating
has been computed, the request has been looked at, the hub has been heard, the light is as it should be
and the theme is on.
-/

namespace HubCard

namespace Lamp

theorem obey_hubBusy_of_eq {l : Lamp} {on : Bool} (h : l.busy.hubBusy = on) :
    l.obey (.hubBusy on) = l := by
  rcases l with ⟨⟨⟨timing, state, hubBusy, light, timedOut⟩, paired⟩, timers⟩
  change hubBusy = on at h
  subst h
  rfl

theorem obey_arrive_of_not {l : Lamp} {label : String} (h : l.busy.loadsTowards label = false) :
    l.obey (.arrive label) = l := by
  rw [obey_arrive, h]
  rfl

theorem loadsTowards_congr {b b' : Busy} (h : b.load = b'.load) (label : String) :
    b.loadsTowards label = b'.loadsTowards label := by
  rw [Busy.loadsTowards_eq, Busy.loadsTowards_eq, h]

-- A load that has arrived is over.
theorem not_loadsTowards_arrive (l : Lamp) (label : String) :
    (l.obey (.arrive label)).busy.loadsTowards label = false := by
  rw [obey_arrive]
  cases htowards : l.busy.loadsTowards label with
  | true => rw [if_pos rfl, Busy.loadsTowards_eq, obey_stop_load, Option.any_none]
  | false => exact htowards

-- To hear the same from the hub again changes nothing.
theorem hear_again (l : Lamp) (on : Bool) (label : String) (now : Millis) :
    let heard := (l.obeyAll [.hubBusy on, .arrive label]).obey (.refresh now)
    heard.obeyAll [.hubBusy on, .arrive label] = heard := by
  intro heard
  have hhub : heard.busy.hubBusy = on := by
    show (((l.obey (.hubBusy on)).obey (.arrive label)).obey (.refresh now)).busy.hubBusy = on
    rw [obey_refresh_hubBusy, obey_arrive, obey_stop_eq]
    split <;> rfl
  have hload : heard.busy.loadsTowards label = false := by
    have hkept : heard.busy.load = ((l.obey (.hubBusy on)).obey (.arrive label)).busy.load :=
      obey_refresh_load _ now
    rw [loadsTowards_congr hkept]
    exact not_loadsTowards_arrive _ label
  rw [obeyAll_cons, obeyAll_cons, obeyAll_nil, obey_hubBusy_of_eq hhub, obey_arrive_of_not hload]

-- To bring the light up to date again at the same time changes nothing.
theorem refresh_again (l : Lamp) (now : Millis) :
    (l.obey (.refresh now)).busy.refresh now = ((l.obey (.refresh now)).busy, none) := by
  have hlight : (l.obey (.refresh now)).busy.isActive now = (l.obey (.refresh now)).busy.light := by
    rw [obey_refresh_light, obey_refresh_isActive]
  rw [Busy.refresh_eq, if_pos hlight]

end Lamp

namespace Card

/-! ## Nothing to do -/

/-- Every part of an update finds its work done. -/
structure UpToDate (c : Card) (host : Host) (hub : HubReport) (selector : SelectorReport)
    (now : Millis) : Prop where
  /-- The reports have been taken in, and what is malformed has been reported. -/
  received : c.received hub selector = c
  unheard : (c.receive hub selector).acts = []
  /-- The request has not ended. -/
  waiting : c.control.ending? c.confirmed now = none
  /-- The light has heard what the selector and the hub have to say, and has been reported. -/
  heard : c.lamp.obeyAll (c.updateOrders hub selector now) = c.lamp
  lit : c.lamp.busy.refresh now = (c.lamp.busy, none)
  /-- The theme is on. -/
  painted : c.painting host = (c.painter, [], 0)

namespace UpToDate

variable {c : Card} {host : Host} {hub : HubReport} {selector : SelectorReport} {now : Millis}
  (h : c.UpToDate host hub selector now) (hrest : c.Rest)

include h

theorem lamp_updated : (c.updated host hub selector now).lamp = c.lamp := by
  rw [Card.lamp_updated, h.heard, Lamp.obey, h.lit]

include hrest

-- The selector is told the time, and that is all.
theorem settling_eq : c.settling hub selector now =
    (c.control.holding c.confirmed now c.control.request none, []) := by
  rw [settling, h.received, Selector.Control.settle_eq hrest.settled.toReady,
    Selector.Control.kept?, h.waiting, hrest.reported]
  rfl

theorem updateActs_eq_nil : c.updateActs host hub selector now = [] := by
  rw [updateActs, h.unheard, h.settling_eq hrest, h.heard, h.lit, h.painted]
  rfl

theorem view_updated : (c.updated host hub selector now).view = c.view := by
  have hshown : (c.updated host hub selector now).control.shown = c.control.shown := by
    have hwaiting := h.waiting
    rw [← shown_view, shown_updated hrest, h.received]
    rw [← hrest.told] at hwaiting ⊢
    exact hrest.settled.shownAt_eq hwaiting
  obtain ⟨hconfig, -, hhub, hselector, hgating, -⟩ := c.updated_frame host hub selector now
  have hheard : (c.received hub selector).hub = hub ∧ (c.received hub selector).selector = selector :=
    ⟨rfl, rfl⟩
  rw [h.received] at hgating hheard
  simp only [view, hconfig, hhub, hselector, hgating, hshown, busy_of_lamp h.lamp_updated, hheard]

end UpToDate

/-! ## The parts of an update, done again -/

section Again

variable {c : Card} (h : c.Rest) (host : Host) (hub : HubReport) (selector : SelectorReport)
  (now : Millis)

theorem received_updated :
    (c.updated host hub selector now).received hub selector = c.updated host hub selector now := by
  have hframe := c.updated_frame host hub selector now
  generalize c.updated host hub selector now = d at hframe
  obtain ⟨hconfig, -, hhub, hselector, hgating, hconfirmed⟩ := hframe
  have hgating' : (d.received hub selector).gating = d.gating := by
    simp only [received, hgating, hconfig]
    split <;> simp_all
  have hconfirmed' : (d.received hub selector).confirmed = d.confirmed := by
    rw [confirmed_received, hconfirmed, confirmed_received]
    cases confirmedBy? hub selector <;> rfl
  simp only [received] at hgating' hconfirmed' ⊢
  rw [hgating', hconfirmed', ← hhub, ← hselector]

-- A list that is still malformed is not reported again.
theorem receive_updated :
    ((c.updated host hub selector now).receive hub selector).acts = [] := by
  have hgating := (c.updated_frame host hub selector now).2.2.2.2.1
  rw [receive_eq]
  dsimp only
  split
  · rename_i havailable
    rw [hgating]
    simp [received, havailable, Gating.ofReports, Act.ofCommands]
  · rfl

theorem painting_updated {host' : Host} (hdark : host'.dark = host.dark) :
    (c.updated host hub selector now).painting host' =
      ((c.updated host hub selector now).painter, [], 0) := by
  have hconfig : (c.updated host hub selector now).config = c.config :=
    (c.updated_frame host hub selector now).1
  rw [painting, hconfig, hdark]
  exact Painter.paint_of_eq (Painter.lastKey_paint ..) host'.themes

include h

theorem Rest.updated : (c.updated host hub selector now).Rest := by
  have hafter := h.perform (.update host hub selector now)
  rwa [Card.perform, update_eq] at hafter

-- An update arms no timer.
theorem armed_updated : (c.updated host hub selector now).timers.armed = c.timers.armed := by
  have hnone : (c.updateOrders hub selector now).countP (·.arms) = 0 := by
    rw [updateOrders, settling, Selector.Control.settle_eq h.settled.toReady]
    rcases c.control.ending? (c.received hub selector).confirmed now with _ | ⟨_⟩ | ⟨_⟩ <;> rfl
  show (c.updated host hub selector now).lamp.timers.armed = c.lamp.timers.armed
  rw [lamp_updated, Lamp.armed_obey, Lamp.armed_obeyAll, hnone]
  rfl

-- The request has been looked at, and a look before its deadline ends nothing.
theorem ending?_updated {later : Millis}
    (hlater : later = now ∨
      ∀ d, (c.updated host hub selector now).nextDeadline? = some d → later < d) :
    (c.updated host hub selector now).control.ending?
      (c.updated host hub selector now).confirmed later = none := by
  have hrest := h.updated host hub selector now
  rcases hrest.ending?_eq later with hnone | ⟨r, hreq, -, hexpired⟩
  · exact hnone
  · rcases hlater with rfl | hearly
    · have htold : (c.updated host hub selector later).control.machine.memory.now = later := by
        simp [settling, Selector.Control.settle_eq h.settled.toReady, Selector.Control.takeOutcome,
          Selector.Control.holding]
      have hlive := hrest.settled.live r hreq
      rw [htold, hrest.expiry] at hlive
      exact absurd hexpired hlive
    · have hdeadline := (lt_nextDeadline?_iff.mp hearly).2 r hreq
      exact absurd hexpired (Selector.Request.not_expired_of_lt_deadline hdeadline)

-- The request asks for nothing any more, and the hub says what it has said before.
theorem heard_updated (later : Millis) :
    (c.updated host hub selector now).lamp.obeyAll
        ((c.updated host hub selector now).updateOrders hub selector later) =
      (c.updated host hub selector now).lamp := by
  have hrest := h.updated host hub selector now
  have hlabel : (c.updated host hub selector now).currentLabel =
      (c.received hub selector).currentLabel := by
    simp [currentLabel]
  have hlamp := c.lamp_updated host hub selector now
  rw [updateOrders, Lamp.obeyAll_append] at hlamp
  rw [updateOrders, settling, received_updated, hrest.settle_actions, hlabel, hlamp]
  exact Lamp.hear_again _ hub.saysBusy _ now

variable (hwired : c.Wired) (hfew : c.timers.Few)

include hwired hfew

-- The light is as it should be, and it stays so until the next deadline.
theorem refresh_updated {later : Millis}
    (hlater : later = now ∨ now ≤ later ∧
      ∀ d, (c.updated host hub selector now).nextDeadline? = some d → later < d) :
    (c.updated host hub selector now).lamp.busy.refresh later =
      ((c.updated host hub selector now).lamp.busy, none) := by
  rcases hlater with rfl | ⟨hle, hearly⟩
  · rw [lamp_updated]
    exact Lamp.refresh_again _ later
  · have hafter := hwired.perform (.update host hub selector now)
    rw [Card.perform, update_eq] at hafter
    have hcoupled : (c.updated host hub selector now).lamp.Coupled := by
      apply hafter.coupled
      rw [Timers.Few, armed_updated h]
      exact hfew
    have haccurate : (c.updated host hub selector now).lamp.Accurate later := by
      rw [lamp_updated]
      exact (Lamp.accurate_refresh _ now).mono hle
    exact haccurate.refresh_eq (hcoupled.pulse_running (lt_nextDeadline?_iff.mp hearly).1)

/-- An update leaves nothing to do to another one that brings the same. -/
theorem upToDate_updated {host' : Host} (hdark : host'.dark = host.dark) {later : Millis}
    (hlater : later = now ∨ now ≤ later ∧
      ∀ d, (c.updated host hub selector now).nextDeadline? = some d → later < d) :
    (c.updated host hub selector now).UpToDate host' hub selector later where
  received := received_updated host hub selector now
  unheard := receive_updated host hub selector now
  waiting := ending?_updated h host hub selector now (hlater.imp_right And.right)
  heard := heard_updated h host hub selector now later
  lit := refresh_updated h host hub selector now hwired hfew hlater
  painted := painting_updated host hub selector now hdark

end Again

/-! ## After a run -/

/-- After any run, an update that brings the same reports as the one right before it does nothing:
it gives the same view, and there is no event, no call, no change of the style and no order to the
timers. It may come at the same time, or at any later one that is before the next deadline, with the
dashboard in the same mode. -/
theorem repeated_update_silent {config : Config} {start : Card} (hnew : Card.new config = .ok start)
    {ops : List Operation} (hfew : (start.after ops).timers.Few) {host host' : Host}
    (hdark : host'.dark = host.dark) (hub : HubReport) (selector : SelectorReport)
    {now later : Millis} :
    let first := (start.after ops).update host hub selector now
    let again := first.1.card.update host' hub selector later
    (later = now ∨ now ≤ later ∧ ∀ d, first.1.card.nextDeadline? = some d → later < d) →
      again.1.acts = [] ∧ again.1.card.timers = first.1.card.timers ∧ again.2 = first.2 := by
  intro first again hlater
  have hrest : (start.after ops).Rest := (rest_and_drawn_after hnew ops).1
  have hfirst : first = _ := update_eq ..
  have hagain : again = _ := update_eq ..
  rw [hfirst] at hagain hlater
  have hdone := upToDate_updated hrest host hub selector now (wired_after hnew ops) hfew hdark hlater
  have hrest' := hrest.updated host hub selector now
  rw [hagain, hfirst]
  exact ⟨hdone.updateActs_eq_nil hrest', timers_of_lamp hdone.lamp_updated,
    hdone.view_updated hrest'⟩

end Card

namespace Sample

/-- The attributes of a hub that lists a command nobody can use. -/
def garbled : List (String × Json) :=
  [("enabled_buttons", .arr [.null])]

/-- What the card reads off such a hub while the first activity is on. -/
def garbledReports : HubReport × SelectorReport :=
  readReports (entities "on" "TV" garbled) "remote.hub"

end Sample

namespace Card

open Sample

-- A malformed list is reported once. Until the request of the user expires, the second update may
-- take its time.
theorem repeated_update_silent_garbled :
    let first := ((card Sample.config).after picked).update host garbledReports.1 garbledReports.2
      2000
    let again := first.1.card.update host garbledReports.1 garbledReports.2 16000
    first.1.acts = [.event (.capabilitiesMalformed 1)] ∧ again.1.acts = [] ∧
      again.1.card.timers = first.1.card.timers ∧ again.2 = first.2 := by
  intro first again
  have hfew : ((card Sample.config).after picked).timers.Few := by
    unfold Timers.Few
    decide +kernel
  have hnext : first.1.card.nextDeadline? = some 16001 := by decide +kernel
  have hacts : first.1.acts = [.event (.capabilitiesMalformed 1)] := by decide +kernel
  have hearly : ∀ d, first.1.card.nextDeadline? = some d → (16000 : Millis) < d := by
    intro d hd
    rw [hnext] at hd
    cases hd
    decide
  exact ⟨hacts, repeated_update_silent new_config hfew rfl garbledReports.1 garbledReports.2
    (.inr ⟨by decide, hearly⟩)⟩

end Card

end HubCard
