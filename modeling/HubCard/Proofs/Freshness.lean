import HubCard.Proofs.Confirmation
import HubCard.Proofs.Selection
import HubCard.Proofs.Shortcuts

/-!
How old what an update shows can be. Each part of the view goes by the reports of the update itself,
or by the last ones before it that had something to say about the part, and by nothing older.
-/

namespace HubCard

namespace Act

/-- The numbers of commands in the malformed lists that a list of acts reports. -/
def malformed (acts : List Act) : List Nat :=
  acts.filterMap fun
    | .event (.capabilitiesMalformed count) => some count
    | _ => none

@[simp] theorem malformed_append (acts more : List Act) :
    malformed (acts ++ more) = malformed acts ++ malformed more :=
  List.filterMap_append

theorem malformed_eq_nil {acts : List Act} (h : Spare .capabilities acts) : malformed acts = [] := by
  apply h.filterMap_eq_nil
  intro a htopic
  split
  · exact absurd rfl htopic
  · rfl

theorem malformed_ofCommands (before after : Capabilities) (count : Nat) :
    malformed (ofCommands before after count) =
      if after.malformed && !before.malformed then [count] else [] := by
  unfold ofCommands
  split <;> rfl

end Act

/-- A view whose buttons and shortcuts go by a pair of reports. Without any they are those of a card
that has not been told anything: no shortcuts, and the buttons of the first generation, all of which
can be pressed. -/
def View.GoesBy (config : Config) (v : View) : Option (HubReport × SelectorReport) → Prop
  | some (hub, selector) =>
    v.poweredOff = Gate.isPoweredOff hub.activityLabel selector.value ∧
      v.buttons = Gate.buttons hub.model.isSecondGeneration v.poweredOff (.ofList hub.commands) ∧
      v.shortcuts = Gate.shortcuts hub.shortcuts v.poweredOff config.showsShortcut
  | none =>
    v.poweredOff = false ∧
      v.buttons = Button.all.map (fun b => ⟨b.key, b.group, !b.secondGeneration, true⟩) ∧
      v.shortcuts = []

namespace Card

/-! ## What an update comes to -/

-- Whichever way the reports have come in, the update is the same.
theorem perform_of_reports {c : Card} {o : Operation} {hub : HubReport} {selector : SelectorReport}
    {now : Millis} (hreports : o.reports? c.config = some (hub, selector))
    (htime : o.time? = some now) :
    ∃ host, c.perform o = ⟨c.updated host hub selector now, c.updateActs host hub selector now⟩ ∧
      c.given? o = some (c.updated host hub selector now).view := by
  cases o with
  | update host hub' selector' now' =>
    rw [Operation.reports?, Option.some.injEq, Prod.mk.injEq] at hreports
    rw [Operation.time?, Option.some.injEq] at htime
    rcases hreports with ⟨rfl, rfl⟩
    subst htime
    exact ⟨host, by rw [perform, update_eq], by rw [given?, update_eq]⟩
  | updateFrom host entities now' =>
    rw [Operation.reports?, Option.some.injEq, Prod.ext_iff] at hreports
    rw [Operation.time?, Option.some.injEq] at htime
    rcases hreports with ⟨rfl, rfl⟩
    subst htime
    exact ⟨host, perform_updateFrom .., by simp only [given?, updateFrom, update_eq]⟩
  | start | handle | wake | writeBack => cases hreports

theorem malformed_updateActs {c : Card} (h : c.Rest) (host : Host) (hub : HubReport)
    (selector : SelectorReport) (now : Millis) :
    Act.malformed (c.updateActs host hub selector now) =
      if hub.availability = .available ∧ (Capabilities.ofList hub.commands).malformed = true ∧
          c.gating.capabilities.malformed = false then [hub.commands.length]
      else [] := by
  have hrest : Act.malformed (Act.ofOutcome (c.settling hub selector now).1 ++
      Act.ofLight ((c.lamp.obeyAll (c.updateOrders hub selector now)).busy.refresh now).2 ++
      Act.ofPainting c.config.theme (c.painting host).2) = [] :=
    Act.malformed_eq_nil (by simp)
  have hreceive : Act.malformed (c.receive hub selector).acts =
      if hub.availability = .available ∧ (Capabilities.ofList hub.commands).malformed = true ∧
          c.gating.capabilities.malformed = false then [hub.commands.length]
      else [] := by
    rw [receive_eq]
    by_cases havailable : hub.availability = .available
    · simp [havailable, Act.malformed_ofCommands]
    · simp [havailable, Act.malformed]
  rw [updateActs, settling_acts h, List.append_nil, List.append_assoc, List.append_assoc,
    Act.malformed_append, ← List.append_assoc, hrest, hreceive, List.append_nil]

/-! ## What has been confirmed -/

/-- The values that the reports of a run confirm: of each pair of reports the value of the selector
or, where it is blank, the label of the activity, without the blanks around it. -/
def confirmations (config : Config) (ops : List Operation) : List String :=
  ops.filterMap fun o => (o.reports? config).bind fun (hub, selector) =>
    [Text.trim selector.value, Text.trim hub.activityLabel].find? (· ≠ "")

theorem confirmedBy?_eq (hub : HubReport) (selector : SelectorReport) :
    confirmedBy? hub selector =
      [Text.trim selector.value, Text.trim hub.activityLabel].find? (· ≠ "") := by
  have hfull : ∀ s : String, s.isEmpty = decide (s = "") := by
    intro s
    rw [Bool.eq_iff_iff, String.isEmpty_iff, decide_eq_true_iff]
  simp only [confirmedBy?, List.findSome?_cons, List.findSome?_nil, List.find?_cons, List.find?_nil,
    hfull, decide_eq_true_eq, ne_eq, decide_not]
  by_cases hvalue : Text.trim selector.value = "" <;>
    by_cases hlabel : Text.trim hub.activityLabel = "" <;> simp [hvalue, hlabel]

/-! ## After a run -/

section Runs

variable {config : Config} {start : Card} (hnew : Card.new config = .ok start)

include hnew

theorem confirmed_after (ops : List Operation) :
    (start.after ops).confirmed = (confirmations config ops).getLastD "" := by
  have hlast := after_overwriting Card.confirmed
    (fun config o => (o.reports? config).bind fun reports => confirmedBy? reports.1 reports.2)
    confirmed_perform start ops
  rw [new_eq hnew] at hlast ⊢
  simp only [confirmedBy?_eq] at hlast
  exact hlast

theorem goesBy_reached (ops : List Operation) :
    (start.after ops).view.GoesBy config (reached config ops).getLast? := by
  have hgating := gating_eq_latestReached hnew ops
  rw [latestReached, List.getLastD_eq_getLast?] at hgating
  cases hlast : (reached config ops).getLast? with
  | none =>
    rw [hlast, Option.getD_none, gatingOf_missing] at hgating
    simp only [View.GoesBy, view, View.compose, hgating]
    decide +kernel
  | some reports =>
    rw [hlast, Option.getD_some] at hgating
    simp only [View.GoesBy, view, View.compose, hgating]
    exact ⟨rfl, rfl, rfl⟩

-- At the next update a list counts as malformed if the last hub within reach had one.
theorem malformed_gating (ops : List Operation) :
    (start.after ops).gating.capabilities.malformed = false ↔
      (reached config ops).getLast?.all
        (fun reports => !(Capabilities.ofList reports.1.commands).malformed) = true := by
  rw [gating_eq_latestReached hnew ops, latestReached, List.getLastD_eq_getLast?]
  cases (reached config ops).getLast? with
  | none => exact iff_of_true rfl rfl
  | some reports => simp [gatingOf, Gating.ofReports]

end Runs

theorem after_concat (c : Card) (ops : List Operation) (o : Operation) :
    c.after (ops ++ [o]) = ((c.after ops).perform o).card := by
  simp [after]

/-- After any run, the view that an update gives is no older than it has to be. Its buttons and
shortcuts go by the reports of the last update, this one included, whose hub was within reach. It
shows the value of the request that is still pending and, without one, the last value that the reports
of any update have confirmed. The options, whether one can be picked and the warnings go by the reports
of this update alone. The update reports a malformed list of commands exactly when its hub is within
reach and has one, while the last one within reach before it, if any, had not. -/
theorem update_fresh {config : Config} {start : Card} (hnew : Card.new config = .ok start)
    (ops : List Operation) {o : Operation} {hub : HubReport} {selector : SelectorReport}
    {now : Millis} (hreports : o.reports? config = some (hub, selector))
    (htime : o.time? = some now) :
    let c := start.after ops
    let p := c.perform o
    let confirmed := (confirmations config (ops ++ [o])).getLastD ""
    (∃ v, c.given? o = some v ∧
      v.GoesBy config (reached config (ops ++ [o])).getLast? ∧
      v.selector.shown = (p.card.control.request.map (·.value)).getD confirmed ∧
      v.selector.options = selector.options ∧
      v.selector.enabled = (selector.availability == .available && !hub.appConnected) ∧
      v.warnings = View.warningsOf config hub selector) ∧
    (∀ r, p.card.control.request = some r ↔
      c.control.request = some r ∧ r.value ≠ confirmed ∧
        Millis.since now r.start ≤ config.timing.requestExpiry) ∧
    Act.malformed p.acts =
      if hub.availability = .available ∧ (Capabilities.ofList hub.commands).malformed = true ∧
          (reached config ops).getLast?.all
            (fun reports => !(Capabilities.ofList reports.1.commands).malformed) = true
      then [hub.commands.length] else [] := by
  intro c p confirmed
  have hrest : c.Rest := (rest_and_drawn_after hnew ops).1
  have hconfig : c.config = config := config_after hnew ops
  have hafter : start.after (ops ++ [o]) = p.card := start.after_concat ops o
  have hconfirmed : p.card.confirmed = confirmed := by
    rw [← hafter]
    exact confirmed_after hnew (ops ++ [o])
  have hsettled : p.card.Rest := hrest.perform o
  have hgoes : p.card.view.GoesBy config (reached config (ops ++ [o])).getLast? := by
    rw [← hafter]
    exact goesBy_reached hnew (ops ++ [o])
  rw [← hconfig] at hreports
  obtain ⟨host, hp, hgiven⟩ := perform_of_reports hreports htime
  have hcard : p.card = c.updated host hub selector now := congrArg Pass.card hp
  have hacts : p.acts = c.updateActs host hub selector now := congrArg Pass.acts hp
  refine ⟨⟨p.card.view, ?_, hgoes, ?_, ?_, ?_, ?_⟩, ?_, ?_⟩
  · rw [hgiven, hcard]
  · rw [shown_view, hsettled.settled.shown_eq, hsettled.told, hconfirmed]
    cases p.card.control.request <;> rfl
  · simp [hcard, view, View.compose]
  · simp [hcard, view, View.compose, View.selectorUsable]
  · simp [hcard, view, View.compose, hconfig]
  · intro r
    have hreceived : (c.received hub selector).confirmed = confirmed := by
      rw [← hconfirmed, hcard]
      simp
    rw [hcard, request_updated hrest, hreceived, Selector.Control.kept?_eq_some_iff, and_comm]
    apply and_congr_right
    intro hreq
    rw [Selector.Control.ending?_eq_none_iff, hrest.expiry, hconfig, hreq]
    simp only [Option.some.injEq, forall_eq', UInt64.not_lt]
  · have hbefore := malformed_gating hnew ops
    change c.gating.capabilities.malformed = false ↔ _ at hbefore
    rw [hacts, malformed_updateActs hrest]
    simp only [hbefore]

open Sample

-- A hub that is out of reach switches off while a pick is pending. What is shown is still the pick,
-- and the buttons are still those of the hub that is on.
theorem update_fresh_outOfReach :
    let off : Operation := .updateFrom host (entities "unavailable" "off" []) 2000
    ∃ v, ((card Sample.config).after picked).given? off = some v ∧ v.selector.shown = "Movie" ∧
      v.poweredOff = false ∧ v.warnings = [.hubUnavailable] := by
  intro off
  have hreports : off.reports? Sample.config =
      some (readReports (entities "unavailable" "off" []) Sample.config.entity) := rfl
  obtain ⟨⟨v, hv, hgoes, hshown, -, -, hwarnings⟩, hpending, -⟩ :=
    update_fresh new_config picked hreports rfl
  have hrequest := (hpending ⟨"Movie", 1000⟩).mpr (by decide +kernel)
  have hon : (readReports (entities "on" "TV" []) Sample.config.entity).1.availability =
      .available := by decide +kernel
  have hoff : (readReports (entities "unavailable" "off" []) Sample.config.entity).1.availability ≠
      .available := by decide +kernel
  have hreached : (reached Sample.config (picked ++ [off])).getLast? =
      some (readReports (entities "on" "TV" []) Sample.config.entity) := by
    simp [reached, picked, heard, off, Operation.reports?, hon, hoff]
  refine ⟨v, hv, ?_, ?_, ?_⟩
  · rw [hshown, hrequest]
    rfl
  · rw [hreached] at hgoes
    rw [hgoes.1]
    decide +kernel
  · rw [hwarnings]
    decide +kernel

end Card

end HubCard
