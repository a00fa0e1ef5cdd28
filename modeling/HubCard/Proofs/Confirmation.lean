import HubCard.Proofs.Resolution

/-!
When a request is confirmed. The card compares what was asked for, as the user picked it, with what
the reports confirm, which is trimmed. So an activity whose name begins or ends with a blank is asked
for like any other, and is never confirmed.
-/

namespace HubCard

namespace Card

/-! ## What is confirmed -/

theorem trim_of_confirmedBy? {hub : HubReport} {selector : SelectorReport} {value : String}
    (h : confirmedBy? hub selector = some value) : Text.trim value = value := by
  rcases List.exists_of_findSome?_eq_some h with ⟨s, -, hs⟩
  dsimp only at hs
  split at hs
  · cases hs
  · rw [← Option.some.inj hs]
    exact Text.trim_trim s

-- The value of the selector goes before the label of the activity.
theorem confirmedBy?_of_value {hub : HubReport} {selector : SelectorReport}
    (htrim : Text.trim selector.value = selector.value) (hne : selector.value ≠ "") :
    confirmedBy? hub selector = some selector.value := by
  have hfull : selector.value.isEmpty = false := by simpa using hne
  rw [confirmedBy?, List.findSome?_cons]
  simp only [htrim, hfull, Bool.false_eq_true, if_false]

theorem trim_received {c : Card} (h : Text.trim c.confirmed = c.confirmed) (hub : HubReport)
    (selector : SelectorReport) :
    Text.trim (c.received hub selector).confirmed = (c.received hub selector).confirmed := by
  rw [confirmed_received]
  cases hby : confirmedBy? hub selector with
  | none => exact h
  | some value => exact trim_of_confirmedBy? hby

theorem trim_perform {c : Card} (h : Text.trim c.confirmed = c.confirmed) (o : Operation) :
    Text.trim (c.perform o).card.confirmed = (c.perform o).card.confirmed := by
  rw [confirmed_perform]
  cases hby : (o.reports? c.config).bind fun reports => confirmedBy? reports.1 reports.2 with
  | none => exact h
  | some value =>
    rcases Option.bind_eq_some_iff.mp hby with ⟨reports, -, hvalue⟩
    exact trim_of_confirmedBy? hvalue

-- Whatever has been confirmed has no blanks around it.
theorem trim_confirmed_after {config : Config} {start : Card} (hnew : Card.new config = .ok start)
    (ops : List Operation) :
    Text.trim (start.after ops).confirmed = (start.after ops).confirmed := by
  apply after_induction (fun _ => True) (fun c => Text.trim c.confirmed = c.confirmed)
  · exact fun c o _ hc => trim_perform hc o
  · rw [new_eq hnew]
    rfl
  · exact fun _ _ => trivial

/-! ## An update while a request is pending -/

section Update

variable {c : Card} (h : c.Rest) (host : Host) (hub : HubReport) (selector : SelectorReport)
  (now : Millis)

include h

theorem shown_updated :
    (c.updated host hub selector now).view.selector.shown =
      c.control.shownAt (c.received hub selector).confirmed now := by
  rw [← Selector.Control.settle_shown h.settled.toReady, shown_view]
  simp [settling]

theorem request_updated :
    (c.updated host hub selector now).control.request =
      c.control.kept? (c.received hub selector).confirmed now := by
  simp [settling, Selector.Control.settle_eq h.settled.toReady]

theorem phase_updated :
    (c.updated host hub selector now).control.phase =
      .of (c.control.kept? (c.received hub selector).confirmed now) := by
  simp [settling, Selector.Control.settle_eq h.settled.toReady]

variable {r : Selector.Request} (hreq : c.control.request = some r)

include hreq

-- The end of the request ends its loading, and nothing that the hub says starts another one.
theorem load_updated (hvalue : (c.received hub selector).confirmed = r.value) :
    (c.updated host hub selector now).busy.load = none := by
  have hends : (c.settling hub selector now).2 = [.stopLoading] := by
    rw [settling, hvalue, Selector.Control.settle_eq h.settled.toReady,
      Selector.Control.ending?_of_confirmed hreq]
    rfl
  have hbusy : (c.updated host hub selector now).busy =
      ((c.lamp.obeyAll (c.updateOrders hub selector now)).obey (.refresh now)).busy :=
    congrArg Lamp.busy (c.lamp_updated host hub selector now)
  have horders : c.updateOrders hub selector now =
      [.stop, .hubBusy hub.saysBusy, .arrive (c.received hub selector).currentLabel] := by
    rw [updateOrders, hends]
    rfl
  rw [hbusy, Lamp.obey_refresh_load, horders, Lamp.obeyAll_cons, Lamp.obeyAll_cons,
    Lamp.obeyAll_cons, Lamp.obeyAll_nil, Lamp.obey_arrive]
  split
  · exact Lamp.obey_stop_load _
  · exact c.lamp.obey_stop_load

theorem updated_of_confirmed (hvalue : (c.received hub selector).confirmed = r.value) :
    (c.updated host hub selector now).control.phase = .idle ∧
      Act.endings (c.updateActs host hub selector now) = [.confirmed r.value] ∧
      (c.updated host hub selector now).busy.load = none ∧
      (c.updated host hub selector now).view.selector.shown = r.value := by
  have hends := Selector.Control.ending?_of_confirmed hreq now
  refine ⟨?_, ?_, load_updated h host hub selector now hreq hvalue, ?_⟩
  · rw [phase_updated h, hvalue, Selector.Control.kept?_eq_none hends]
    rfl
  · rw [endings_updateActs h, hvalue, hends]
    rfl
  · rw [shown_updated h, hvalue, Selector.Control.shownAt, hreq]
    exact ite_self r.value

theorem updated_of_expired (hvalue : (c.received hub selector).confirmed ≠ r.value)
    (hexpired : c.control.expiry < Millis.since now r.start) :
    (c.updated host hub selector now).control.phase = .idle ∧
      Act.endings (c.updateActs host hub selector now) = [.expired r.value] ∧
      (c.updated host hub selector now).view.selector.shown =
        (c.received hub selector).confirmed := by
  have hends := Selector.Control.ending?_of_expired hreq hvalue hexpired
  refine ⟨?_, ?_, ?_⟩
  · rw [phase_updated h, Selector.Control.kept?_eq_none hends]
    rfl
  · rw [endings_updateActs h, hends]
    rfl
  · rw [shown_updated h, Selector.Control.shownAt, hreq]
    exact if_pos hexpired

theorem updated_of_waiting (hvalue : (c.received hub selector).confirmed ≠ r.value)
    (hlive : ¬ c.control.expiry < Millis.since now r.start) :
    (c.updated host hub selector now).control.request = some r ∧
      Act.endings (c.updateActs host hub selector now) = [] ∧
      (c.updated host hub selector now).view.selector.shown = r.value := by
  have hends : c.control.ending? (c.received hub selector).confirmed now = none := by
    rw [Selector.Control.ending?_eq_none_iff]
    intro r' hr'
    rw [hreq, Option.some.injEq] at hr'
    rw [← hr']
    exact ⟨hvalue.symm, hlive⟩
  refine ⟨?_, ?_, ?_⟩
  · rw [request_updated h, Selector.Control.kept?_eq_some_iff]
    exact ⟨hends, hreq⟩
  · rw [endings_updateActs h, hends]
    rfl
  · rw [shown_updated h, Selector.Control.shownAt, hreq]
    exact if_neg hlive

end Update

/-! ## The selector that the hub names -/

theorem value_of_available {e : Entity} (h : Entity.availability (some e) = .available) :
    (SelectorReport.ofEntity e).value = e.state := by
  simp only [SelectorReport.ofEntity, h, if_true]

theorem selector_readReports {entities : Dict Entity} {hubId id : String} {e : Entity}
    (hid : (readReports entities hubId).1.selectorId = some id) (he : entities.get? id = some e) :
    (readReports entities hubId).2 = SelectorReport.ofEntity e := by
  have hnamed : (HubReport.ofEntity? (entities.get? hubId)).selectorId = some id := hid
  simp only [readReports, hnamed, Option.bind_some, he]
  rfl

/-! ## After a run -/

/-- After any run with a request pending, an update whose selector is available with exactly the
requested value as its state. If the value has no blanks around it the update confirms the request:
the selector is idle, this is reported once, no activity is loading any more and the value is shown.
With a blank around it the request is not confirmed: the update reports it as expired once it is, and
else leaves it as it was. -/
theorem confirmation_exact {config : Config} {start : Card} (hnew : Card.new config = .ok start)
    (ops : List Operation) {r : Selector.Request}
    (hreq : (start.after ops).control.request = some r) (hne : r.value ≠ "") (host : Host)
    {entities : Dict Entity} {id : String} {e : Entity} (now : Millis)
    (hid : (readReports entities config.entity).1.selectorId = some id)
    (he : entities.get? id = some e) (havailable : Entity.availability (some e) = .available)
    (hstate : e.state = r.value) :
    let p := (start.after ops).perform (.updateFrom host entities now)
    (Text.trim r.value = r.value →
      p.card.control.phase = .idle ∧ Act.endings p.acts = [.confirmed r.value] ∧
        p.card.busy.load = none ∧ ∃ v, p.card.lastView = some v ∧ v.selector.shown = r.value) ∧
    (Text.trim r.value ≠ r.value →
      p.card.confirmed ≠ r.value ∧
      (config.timing.requestExpiry < Millis.since now r.start →
        p.card.control.phase = .idle ∧ Act.endings p.acts = [.expired r.value] ∧
          ∃ v, p.card.lastView = some v ∧ v.selector.shown = p.card.confirmed) ∧
      (Millis.since now r.start ≤ config.timing.requestExpiry →
        p.card.control.request = some r ∧ Act.endings p.acts = [] ∧
          ∃ v, p.card.lastView = some v ∧ v.selector.shown = r.value)) := by
  intro p
  have hrest : (start.after ops).Rest := (rest_and_drawn_after hnew ops).1
  have hconfig : (start.after ops).config = config := config_after hnew ops
  have hselector : (readReports entities config.entity).2.value = r.value := by
    rw [selector_readReports hid he, value_of_available havailable, hstate]
  have hp : p = _ := perform_updateFrom (start.after ops) host entities now
  rw [hconfig] at hp
  -- from here on only the value of the selector matters
  generalize (readReports entities config.entity).1 = hub at hp
  generalize (readReports entities config.entity).2 = selector at hp hselector
  have hlast := (start.after ops).lastView_updated host hub selector now
  have hconfirmed : p.card.confirmed = ((start.after ops).received hub selector).confirmed := by
    simp only [hp, updated_frame]
  constructor
  · intro htrim
    have hvalue : ((start.after ops).received hub selector).confirmed = r.value := by
      rw [← hselector] at htrim hne
      rw [confirmed_received, confirmedBy?_of_value htrim hne, Option.getD_some, hselector]
    obtain ⟨hphase, hends, hload, hshown⟩ :=
      updated_of_confirmed hrest host hub selector now hreq hvalue
    rw [hp]
    exact ⟨hphase, hends, hload, _, hlast, hshown⟩
  · intro htrim
    have hvalue : ((start.after ops).received hub selector).confirmed ≠ r.value := by
      -- whatever is confirmed has been trimmed
      intro hvalue
      have hbare := trim_received (trim_confirmed_after hnew ops) hub selector
      rw [hvalue] at hbare
      exact htrim hbare
    have hexpiry : (start.after ops).control.expiry = config.timing.requestExpiry := by
      rw [hrest.expiry, hconfig]
    rw [← hexpiry, hconfirmed]
    refine ⟨hvalue, ?_, ?_⟩
    · intro hexpired
      obtain ⟨hphase, hends, hshown⟩ :=
        updated_of_expired hrest host hub selector now hreq hvalue hexpired
      rw [hp]
      exact ⟨hphase, hends, _, hlast, hshown⟩
    · intro hlive
      obtain ⟨hrequest, hends, hshown⟩ :=
        updated_of_waiting hrest host hub selector now hreq hvalue (UInt64.not_lt.mpr hlive)
      rw [hp]
      exact ⟨hrequest, hends, _, hlast, hshown⟩

open Sample

-- The hub moves to the activity that has been picked.
theorem confirmation_exact_picked :
    Act.endings (((card Sample.config).after picked).perform
      (.updateFrom host (entities "on" "Movie" []) 2000)).acts = [.confirmed "Movie"] := by
  have hrequest : ((card Sample.config).after picked).control.request = some ⟨"Movie", 1000⟩ := by
    decide +kernel
  have hid : (readReports (entities "on" "Movie" []) Sample.config.entity).1.selectorId =
      some "select.hub" := by decide +kernel
  have htrim : Text.trim "Movie" = "Movie" := by decide +kernel
  exact ((confirmation_exact new_config picked hrequest (by decide) host 2000 hid rfl
    (by decide +kernel) rfl).1 htrim).2.1

end Card

namespace Sample

/-- A hub with an activity whose name ends in a blank. -/
def padded (value : String) : Dict Entity :=
  .ofList
    [("remote.hub",
        ⟨"remote.hub", "on", .ofList [("activity_select_entity_id", .str "select.hub")]⟩),
      ("select.hub", ⟨"select.hub", value, .ofList [("options", .texts ["TV", "Movie "])]⟩)]

/-- The user picks that activity. -/
def pickedPadded : List Operation :=
  [.updateFrom host (padded "TV") 0, .handle accepting (.selectActivity "Movie ") 1000]

end Sample

namespace Card

open Sample

/-- The hub moves to the activity that has been picked, and the request for it stays open. -/
theorem padded_unconfirmed :
    ((card Sample.config).after pickedPadded).selector.options = ["TV", "Movie "] ∧
      ((card Sample.config).after pickedPadded).control.request = some ⟨"Movie ", 1000⟩ ∧
      let p := ((card Sample.config).after pickedPadded).perform
        (.updateFrom host (padded "Movie ") 2000)
      p.card.selector = ⟨["TV", "Movie "], "Movie ", .available⟩ ∧
        p.card.control.request = some ⟨"Movie ", 1000⟩ ∧ Act.endings p.acts = [] ∧
        p.card.busy.load.isSome = true := by
  refine ⟨?_, ?_, ?_, ?_, ?_, ?_⟩ <;> decide +kernel

end Card

end HubCard
