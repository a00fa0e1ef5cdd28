import HubCard.Proofs.Loading

/-!
When the hub reaches the activity that is loading. An update ends the load when it confirms the
request for it, or when the label that the hub gives is the target to the letter. Everywhere else
the blanks around a label do not count and a blank label is none, but not here: the load for an
activity that the hub gives with blanks around it goes on once the request for it is over.
-/

namespace HubCard

namespace Lamp

/-! ## The timer of a load -/

/-- A timer that gives up on a load is that of the load that is running, and there is one at most.
For this it does not matter whether handles have come up twice. -/
structure Owned (l : Lamp) : Prop where
  owner : ∀ y ∈ l.timers.ofKind .loadSafety, l.busy.load.map (·.timer) = some y.handle
  single : ∀ y ∈ l.timers.ofKind .loadSafety, ∀ z ∈ l.timers.ofKind .loadSafety, y = z

theorem owned_new (timing : Timing) : (new timing).Owned where
  owner := fun _ hy => by cases hy
  single := fun _ hy => by cases hy

namespace Owned

variable {l : Lamp} (h : l.Owned)

include h

theorem unarmed (hload : l.busy.load = none) : l.timers.ofKind .loadSafety = [] := by
  apply List.eq_nil_iff_forall_not_mem.mpr
  intro y hy
  have howner := h.owner y hy
  rw [hload] at howner
  cases howner

-- Cancelling the timer of the load leaves none of its kind.
theorem not_mem_stop (y : Timer) : y ∉ (l.obey .stop).timers.ofKind .loadSafety := by
  intro hy
  have hkept : y ∈ (l.timers.cancel? (l.busy.load.map (·.timer))).ofKind .loadSafety := by
    rw [obey_stop_eq] at hy
    exact hy
  rw [h.owner y (Timers.mem_ofKind_of_cancel? hkept), Timers.cancel?, Timers.ofKind_cancel,
    List.mem_filter] at hkept
  simpa using hkept.2

theorem obey_stop : (l.obey .stop).Owned :=
  ⟨fun y hy => absurd hy (h.not_mem_stop y), fun y hy => absurd hy (h.not_mem_stop y)⟩

theorem obey_pulse (now : Millis) : (l.obey (.pulse now)).Owned := by
  have hold : ∀ y ∈ (l.obey (.pulse now)).timers.ofKind .loadSafety,
      y ∈ l.timers.ofKind .loadSafety := by
    intro y hy
    rw [obey_pulse_eq, Timers.ofKind_rearm_of_ne (by decide)] at hy
    exact Timers.mem_ofKind_of_cancel? hy
  exact ⟨fun y hy => h.owner y (hold y hy), fun y hy z hz => h.single y (hold y hy) z (hold z hz)⟩

-- The timers that have not been due are still those of the load, so the load has not been given up.
theorem obey_fire (now : Millis) : (l.obey (.fire now)).Owned := by
  have hold : ∀ y ∈ (l.obey (.fire now)).timers.ofKind .loadSafety,
      y ∈ l.timers.ofKind .loadSafety ∧ ¬ y.deadline ≤ now := by
    intro y hy
    simp only [Lamp.obey, Busy.fireTimers, Timers.ofKind_fireDue] at hy
    simpa using List.mem_filter.mp hy
  constructor
  · intro y hy
    rcases hold y hy with ⟨hlive, hlater⟩
    rcases Option.map_eq_some_iff.mp (h.owner y hlive) with ⟨x, hx, htimer⟩
    have hnone : ((l.timers.fireDue now).1.any fun t =>
        t.kind = .loadSafety ∧ x.timer = t.handle) = false := by
      rw [List.any_eq_false]
      intro t ht hsame
      rw [decide_eq_true_iff] at hsame
      rcases Timers.mem_fireAll.mp ht with ⟨hmem, hdue⟩
      rw [Timers.mem_live_iff, hsame.1] at hmem
      rw [h.single y hlive t hmem] at hlater
      exact hlater hdue
    simp only [Lamp.obey, Busy.fireTimers, foldl_timerFired_load]
    rw [hx, Option.filter_some, hnone]
    exact congrArg some htimer
  · exact fun y hy z hz => h.single y (hold y hy).1 z (hold z hz).1

theorem obey (o : Order) : (l.obey o).Owned := by
  cases o with
  | pulse now => exact h.obey_pulse now
  | load target now =>
    rw [obey_load_eq]
    constructor
    · intro y hy
      rw [Timers.eq_of_mem_ofKind_arm hy, Timers.nextHandle_cancel?]
      rfl
    · intro y hy z hz
      rw [Timers.eq_of_mem_ofKind_arm hy, Timers.eq_of_mem_ofKind_arm hz]
  | stop => exact h.obey_stop
  | arrive label =>
    rw [obey_arrive]
    split
    · exact h.obey_stop
    · exact h
  | fire now => exact h.obey_fire now
  | refresh now =>
    constructor
    · rw [obey_refresh_load]
      exact h.owner
    · exact h.single
  | hubBusy _ | takeTimedOut => exact ⟨h.owner, h.single⟩

theorem obeyAll (orders : List Order) : (l.obeyAll orders).Owned := by
  induction orders generalizing l with
  | nil => exact h
  | cons o orders ih => exact ih (h.obey o)

end Owned

end Lamp

namespace Card

theorem owned_perform {c : Card} (h : c.lamp.Owned) (o : Operation) :
    (c.perform o).card.lamp.Owned := by
  rcases c.lamp_perform o with ⟨hlamp, -⟩ | ⟨now, orders, hrelit⟩
  · rw [hlamp]
    exact h
  · rw [hrelit.lamp]
    exact (h.obeyAll orders).obey _

theorem owned_after {config : Config} {start : Card} (hnew : Card.new config = .ok start)
    (ops : List Operation) : (start.after ops).lamp.Owned := by
  apply after_induction (fun _ => True) (·.lamp.Owned)
  · exact fun c o _ hc => owned_perform hc o
  · rw [new_eq hnew]
    exact Lamp.owned_new config.timing
  · exact fun _ _ => trivial

/-! ## What an update does to a load -/

/-- The activity that the hub is at, going by its reports: the label without the blanks around it
or, where nothing is left of that, what is confirmed. -/
def currentActivity (c : Card) : String :=
  let label := Text.trim c.hub.activityLabel
  if label.isEmpty then c.confirmed else label

theorem currentLabel_of_trim {c : Card}
    (htrim : Text.trim c.hub.activityLabel = c.hub.activityLabel) :
    c.currentLabel = c.currentActivity := by
  unfold currentLabel currentActivity
  rw [htrim]

-- A label with blanks around it is not empty, so it is taken as it is.
theorem trim_currentLabel_ne {c : Card}
    (htrim : Text.trim c.hub.activityLabel ≠ c.hub.activityLabel) :
    Text.trim c.currentLabel ≠ c.currentLabel := by
  have hfull : c.hub.activityLabel.isEmpty = false := by
    rw [← Bool.not_eq_true, String.isEmpty_iff]
    intro hempty
    rw [hempty] at htrim
    exact htrim rfl
  rw [currentLabel, hfull]
  exact htrim

/-- Whether an update that leads from one card to another takes note that a load is over: the
request that was there is confirmed, or the label is the target. -/
def Notices (c d : Card) (x : Load) : Prop :=
  (∃ r, c.control.request = some r ∧ d.confirmed = r.value) ∨ d.currentLabel = x.target

section Update

variable {c : Card} (h : c.Rest) (host : Host) (hub : HubReport) (selector : SelectorReport)
  (now : Millis)

include h

theorem updateOrders_of_unconfirmed
    (hno : ∀ r, c.control.request = some r → (c.received hub selector).confirmed ≠ r.value) :
    c.updateOrders hub selector now =
      [.hubBusy hub.saysBusy, .arrive (c.received hub selector).currentLabel] := by
  have hactions : (c.settling hub selector now).2 = [] := by
    rw [settling, Selector.Control.settle_eq h.settled.toReady, Selector.Control.ending?]
    cases hreq : c.control.request with
    | none => rfl
    | some r =>
      simp only [Option.bind_some, Selector.Request.ending?, if_neg (hno r hreq)]
      split <;> rfl
  rw [updateOrders, hactions]
  rfl

-- Without a confirmation an update looks at the label, and leaves every other load alone.
theorem lamp_updated_of_unconfirmed {x : Load} (hload : c.busy.load = some x)
    (hno : ∀ r, c.control.request = some r → (c.received hub selector).confirmed ≠ r.value) :
    (c.updated host hub selector now).lamp =
      ((if x.target = (c.received hub selector).currentLabel then
          (c.lamp.obey (.hubBusy hub.saysBusy)).obey .stop
        else c.lamp.obey (.hubBusy hub.saysBusy)).obey (.refresh now)) := by
  have htowards : (c.lamp.obey (.hubBusy hub.saysBusy)).busy.loadsTowards
      (c.received hub selector).currentLabel =
        (x.target == (c.received hub selector).currentLabel) := by
    show c.busy.loadsTowards _ = _
    rw [Busy.loadsTowards_eq, hload, Option.any_some]
  rw [lamp_updated, updateOrders_of_unconfirmed h hub selector now hno, Lamp.obeyAll_cons,
    Lamp.obeyAll_cons, Lamp.obeyAll_nil, Lamp.obey_arrive, htowards]
  simp only [beq_iff_eq]

-- An update ends a load, or leaves it alone with its timer.
theorem load_updated_cases {x : Load} (hload : c.busy.load = some x) :
    let d := c.updated host hub selector now
    c.Notices d x ∧ d.busy.load = none ∨
      ¬ c.Notices d x ∧ d.busy.load = some x ∧ d.timers = c.timers := by
  intro d
  have hconfirmed : d.confirmed = (c.received hub selector).confirmed := by
    simp only [d, updated_frame]
  have hlabel : d.currentLabel = (c.received hub selector).currentLabel := by
    rw [currentLabel, hconfirmed]
    simp only [d, updated_frame, currentLabel, received_frame]
  rw [Notices, hconfirmed, hlabel]
  by_cases hyes : ∃ r, c.control.request = some r ∧ (c.received hub selector).confirmed = r.value
  · obtain ⟨r, hreq, hvalue⟩ := hyes
    exact .inl ⟨.inl ⟨r, hreq, hvalue⟩, load_updated h host hub selector now hreq hvalue⟩
  · have hlamp : d.lamp = _ := lamp_updated_of_unconfirmed h host hub selector now hload
      fun r hreq hvalue => hyes ⟨r, hreq, hvalue⟩
    by_cases hreached : x.target = (c.received hub selector).currentLabel
    · rw [if_pos hreached] at hlamp
      refine .inl ⟨.inr hreached.symm, ?_⟩
      rw [show d.busy = _ from congrArg Lamp.busy hlamp, Lamp.obey_refresh_load,
        Lamp.obey_stop_load]
    · rw [if_neg hreached] at hlamp
      have hnot : ¬ (c.received hub selector).currentLabel = x.target := Ne.symm hreached
      refine .inr ⟨fun hnotices => hnotices.elim hyes hnot, ?_, congrArg Lamp.timers hlamp⟩
      rw [show d.busy = _ from congrArg Lamp.busy hlamp, Lamp.obey_refresh_load]
      exact hload

theorem load_cases_of_isUpdate {x : Load} (hload : c.busy.load = some x) {o : Operation}
    (ho : o.isUpdate = true) :
    let d := (c.perform o).card
    c.Notices d x ∧ d.busy.load = none ∨
      ¬ c.Notices d x ∧ d.busy.load = some x ∧ d.timers = c.timers := by
  have hturn := c.turn o
  generalize c.perform o = p at hturn ⊢
  cases hturn with
  | updated host => exact load_updated_cases h host _ _ _ hload
  | start | ignored | still | stirred | skipped | pressed | woken | undisturbed | writeBack =>
    cases ho

end Update

-- Where the hub is at the target, the label is the target when it is given without blanks.
theorem notices_iff {c d : Card} {x : Load} (htrim : Text.trim x.target = x.target)
    (hstep : ∀ r, c.control.request = some r → x.target = r.value)
    (hactivity : d.currentActivity = x.target) :
    c.Notices d x ↔
      Text.trim d.hub.activityLabel = d.hub.activityLabel ∨
        c.control.request.isSome = true ∧ d.confirmed = x.target := by
  have hlabel : d.currentLabel = x.target ↔
      Text.trim d.hub.activityLabel = d.hub.activityLabel := by
    constructor
    · intro hsame
      by_contra hblanks
      have hne := trim_currentLabel_ne hblanks
      rw [hsame] at hne
      exact hne htrim
    · intro hbare
      rw [currentLabel_of_trim hbare, hactivity]
  have hpending : (∃ r, c.control.request = some r ∧ d.confirmed = r.value) ↔
      c.control.request.isSome = true ∧ d.confirmed = x.target := by
    rw [Option.isSome_iff_exists]
    constructor
    · rintro ⟨r, hreq, hvalue⟩
      exact ⟨⟨r, hreq⟩, by rw [hvalue, hstep r hreq]⟩
    · rintro ⟨⟨r, hreq⟩, hvalue⟩
      exact ⟨r, hreq, by rw [hvalue, hstep r hreq]⟩
  rw [Notices, hlabel, hpending]
  exact or_comm

/-! ## After a run -/

/-- After any run with an activity loading whose name has no blanks around it, an update after which
the hub is at that activity. The update ends the load, with its timer, if the hub gives its label
without blanks around it, or if the request for the activity is still there and is confirmed. Else
the load goes on, and its timer with it. -/
theorem arrival_exact {config : Config} {start : Card} (hnew : Card.new config = .ok start)
    (ops : List Operation) {x : Load} (hload : (start.after ops).busy.load = some x)
    (htrim : Text.trim x.target = x.target) {o : Operation} (ho : o.isUpdate = true) :
    let c := start.after ops
    let d := (c.perform o).card
    d.currentActivity = x.target →
      (d.busy.load = none ↔
        Text.trim d.hub.activityLabel = d.hub.activityLabel ∨
          c.control.request.isSome = true ∧ d.confirmed = x.target) ∧
      (d.busy.load = none → d.timers.ofKind .loadSafety = []) ∧
      (d.busy.load ≠ none → d.busy.load = some x ∧ d.timers = c.timers) := by
  intro c d hactivity
  have hrest : c.Rest := (rest_and_drawn_after hnew ops).1
  have howned : d.lamp.Owned := owned_perform (owned_after hnew ops) o
  have hstep : ∀ r, c.control.request = some r → x.target = r.value :=
    fun r hreq => (inStep_after hnew ops r hreq).target x hload
  rw [← notices_iff htrim hstep hactivity]
  rcases load_cases_of_isUpdate hrest hload ho with ⟨hnotices, hnone⟩ | ⟨hnot, hkept, htimers⟩
  · refine ⟨⟨fun _ => hnotices, fun _ => hnone⟩, fun _ => howned.unarmed hnone, ?_⟩
    exact fun hsome => absurd hnone hsome
  · have hsome : d.busy.load ≠ none := by
      rw [show d.busy.load = some x from hkept]
      exact Option.some_ne_none x
    refine ⟨⟨fun hnone => absurd hnone hsome, fun hnotices => absurd hnotices hnot⟩, ?_, ?_⟩
    · exact fun hnone => absurd hnone hsome
    · exact fun _ => ⟨hkept, htimers⟩

end Card

namespace Sample

/-- The user picks an activity, and the request for it expires. -/
def expired : List Operation :=
  picked ++ [.wake 20000]

end Sample

namespace Card

open Sample

-- The hub reaches the activity after the request for it has expired, and gives no label of its own.
theorem arrival_exact_expired :
    let d := (((card Sample.config).after expired).perform
      (.updateFrom host (entities "on" "Movie" []) 21000)).card
    d.busy.load = none ∧ d.timers.ofKind .loadSafety = [] := by
  intro d
  have hload : ((card Sample.config).after expired).busy.load = some ⟨"Movie", 1⟩ := by
    decide +kernel
  have htrim : Text.trim "Movie" = "Movie" := by decide +kernel
  have hactivity : d.currentActivity = "Movie" := by decide +kernel
  rcases arrival_exact new_config expired hload htrim (o := .updateFrom host _ 21000) rfl hactivity
    with ⟨hends, hunarmed, -⟩
  have hnone : d.busy.load = none := hends.mpr (.inl (by decide +kernel))
  exact ⟨hnone, hunarmed hnone⟩

/-- The hub reaches the activity after the request for it has expired, and gives a blank label. The
card knows that this is what the hub is at, and the load goes on. -/
theorem blank_label_unreached :
    ((card Sample.config).after expired).busy.load = some ⟨"Movie", 1⟩ ∧
      let d := (((card Sample.config).after expired).perform
        (.updateFrom host (entities "on" "Movie" [("current_activity", .str " ")]) 21000)).card
      d.currentActivity = "Movie" ∧ d.control.shown = "Movie" ∧
        d.busy.load = some ⟨"Movie", 1⟩ ∧
        d.timers.ofKind .loadSafety = [⟨1, .loadSafety, 61000⟩] := by
  refine ⟨?_, ?_, ?_, ?_, ?_⟩ <;> decide +kernel

end Card

end HubCard
