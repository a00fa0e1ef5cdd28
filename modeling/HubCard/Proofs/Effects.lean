import HubCard.Proofs.Acts
import HubCard.Proofs.Lamp
import HubCard.Proofs.Run

/-!
What the operations of a card do: the card that each leaves behind and the acts that it performs, as
functions of the card before it. Nothing after this module looks into the passes.
-/

namespace HubCard

/-- What an action of the selector means for the busy light. -/
def Selector.Action.orders (now : Millis) : Selector.Action → List Lamp.Order
  | .startLoading target => [.load target now]
  | .stopLoading => [.stop]
  | .selectOption _ => []

namespace Card

/-- The busy light of a card and the timers behind it. -/
def lamp (c : Card) : Lamp :=
  ⟨c.busy, c.timers⟩

theorem busy_of_lamp {c d : Card} (h : c.lamp = d.lamp) : c.busy = d.busy :=
  congrArg Lamp.busy h

theorem timers_of_lamp {c d : Card} (h : c.lamp = d.lamp) : c.timers = d.timers :=
  congrArg Lamp.timers h

def withLamp (c : Card) (l : Lamp) : Card :=
  { c with busy := l.busy, timers := l.timers }

def withControl (c : Card) (control : Selector.Control) : Card :=
  { c with control }

def withPainter (c : Card) (painter : Painter) : Card :=
  { c with painter }

/-- The card once it has kept its view. -/
def withView (c : Card) : Card :=
  { c with lastView := some c.view }

@[simp] theorem lamp_withLamp (c : Card) (l : Lamp) : (c.withLamp l).lamp = l := rfl

@[simp] theorem busy_withLamp (c : Card) (l : Lamp) : (c.withLamp l).busy = l.busy := rfl

@[simp] theorem withLamp_withLamp (c : Card) (l m : Lamp) :
    (c.withLamp l).withLamp m = c.withLamp m := rfl

@[simp] theorem withLamp_frame (c : Card) (l : Lamp) :
    (c.withLamp l).config = c.config ∧ (c.withLamp l).control = c.control ∧
      (c.withLamp l).painter = c.painter ∧ (c.withLamp l).hub = c.hub ∧
      (c.withLamp l).selector = c.selector ∧ (c.withLamp l).gating = c.gating ∧
      (c.withLamp l).confirmed = c.confirmed ∧ (c.withLamp l).lastView = c.lastView ∧
      (c.withLamp l).currentLabel = c.currentLabel :=
  ⟨rfl, rfl, rfl, rfl, rfl, rfl, rfl, rfl, rfl⟩

@[simp] theorem control_withControl (c : Card) (k : Selector.Control) :
    (c.withControl k).control = k := rfl

@[simp] theorem busy_withControl (c : Card) (k : Selector.Control) :
    (c.withControl k).busy = c.busy := rfl

@[simp] theorem withControl_withControl (c : Card) (k k' : Selector.Control) :
    (c.withControl k).withControl k' = c.withControl k' := rfl

-- The light and the selector of a card can be replaced in any order.
@[simp] theorem withControl_withLamp (c : Card) (k : Selector.Control) (l : Lamp) :
    (c.withLamp l).withControl k = (c.withControl k).withLamp l := rfl

@[simp] theorem withControl_frame (c : Card) (k : Selector.Control) :
    (c.withControl k).config = c.config ∧ (c.withControl k).lamp = c.lamp ∧
      (c.withControl k).painter = c.painter ∧ (c.withControl k).hub = c.hub ∧
      (c.withControl k).selector = c.selector ∧ (c.withControl k).gating = c.gating ∧
      (c.withControl k).confirmed = c.confirmed ∧ (c.withControl k).lastView = c.lastView ∧
      (c.withControl k).currentLabel = c.currentLabel :=
  ⟨rfl, rfl, rfl, rfl, rfl, rfl, rfl, rfl, rfl⟩

@[simp] theorem withPainter_frame (c : Card) (p : Painter) :
    (c.withPainter p).config = c.config ∧ (c.withPainter p).control = c.control ∧
      (c.withPainter p).lamp = c.lamp ∧ (c.withPainter p).hub = c.hub ∧
      (c.withPainter p).selector = c.selector ∧ (c.withPainter p).gating = c.gating ∧
      (c.withPainter p).confirmed = c.confirmed :=
  ⟨rfl, rfl, rfl, rfl, rfl, rfl, rfl⟩

@[simp] theorem withView_frame (c : Card) :
    c.withView.config = c.config ∧ c.withView.control = c.control ∧ c.withView.lamp = c.lamp ∧
      c.withView.hub = c.hub ∧ c.withView.selector = c.selector ∧
      c.withView.gating = c.gating ∧ c.withView.confirmed = c.confirmed :=
  ⟨rfl, rfl, rfl, rfl, rfl, rfl, rfl⟩

theorem lastView_withView (c : Card) : c.withView.lastView = some c.withView.view := rfl

theorem shown_view (c : Card) : c.view.selector.shown = c.control.shown := rfl

end Card

namespace Pass

theorem call_eq (p : Pass) (answer : Answer) (c : Call) :
    p.call answer c = (⟨p.card, p.acts ++ Act.ofCall answer c⟩, (answer c).isNone) := by
  unfold call Act.ofCall
  cases answer c <;> rfl

theorem applyLoading_eq (p : Pass) (now : Millis) (a : Selector.Action) :
    p.applyLoading now a =
      ⟨p.card.withLamp (p.card.lamp.obeyAll (a.orders now)), p.acts⟩ := by
  cases a <;> rfl

theorem foldl_applyLoading_eq (now : Millis) (actions : List Selector.Action) (p : Pass) :
    actions.foldl (Pass.applyLoading · now) p =
      ⟨p.card.withLamp (p.card.lamp.obeyAll (actions.flatMap (·.orders now))), p.acts⟩ := by
  induction actions generalizing p with
  | nil => rfl
  | cons a actions ih =>
    rw [List.foldl_cons, ih, applyLoading_eq]
    simp only [Card.lamp_withLamp, Card.withLamp_withLamp, List.flatMap_cons, Lamp.obeyAll_append]

theorem apply_eq (answer : Answer) (now : Millis) (p : Pass) (a : Selector.Action) :
    apply answer now p a =
      ⟨p.card.withLamp (p.card.lamp.obeyAll (a.orders now)),
        p.acts ++ Act.ofAction answer p.card.hub.selectorId a⟩ := by
  cases a with
  | selectOption option =>
    simp only [apply, requestOption, call_eq, Act.ofAction]
    cases p.card.hub.selectorId with
    | none => rfl
    | some id =>
      simp only [emit, tell, List.append_assoc]
      rfl
  | startLoading target =>
    simp only [Act.ofAction, List.append_nil]
    exact applyLoading_eq p now (.startLoading target)
  | stopLoading =>
    simp only [Act.ofAction, List.append_nil]
    exact applyLoading_eq p now .stopLoading

theorem applyAll_eq (answer : Answer) (now : Millis) (actions : List Selector.Action) (p : Pass) :
    p.applyAll answer now actions =
      ⟨p.card.withLamp (p.card.lamp.obeyAll (actions.flatMap (·.orders now))),
        p.acts ++ actions.flatMap (Act.ofAction answer p.card.hub.selectorId)⟩ := by
  unfold applyAll
  induction actions generalizing p with
  | nil => simp [Card.withLamp, Card.lamp]
  | cons a actions ih =>
    rw [List.foldl_cons, ih, apply_eq]
    simp only [Card.lamp_withLamp, Card.withLamp_withLamp, List.flatMap_cons, Lamp.obeyAll_append,
      List.append_assoc]
    rfl

theorem reportOutcome_eq (p : Pass) :
    p.reportOutcome =
      ⟨p.card.withControl p.card.control.takeOutcome.1,
        p.acts ++ Act.ofOutcome p.card.control⟩ := by
  unfold reportOutcome Act.ofOutcome Selector.Control.takeOutcome Selector.Control.outcome
  dsimp only
  rcases p.card.control.machine.memory.outcome with _ | ⟨_⟩ | ⟨_⟩
  · simp [Card.withControl]
  · rfl
  · rfl

theorem reportLight_eq (p : Pass) (now : Millis) :
    p.reportLight now =
      (⟨p.card.withLamp (p.card.lamp.obey (.refresh now)),
        p.acts ++ Act.ofLight (p.card.busy.refresh now).2⟩,
        (p.card.busy.refresh now).2.isSome) := by
  unfold reportLight
  simp only [Card.withLamp, Card.lamp, Lamp.obey]
  rcases p.card.busy.refresh now with ⟨busy, _ | light⟩
  · simp [Act.ofLight]
  · rfl

theorem follow_eq (p : Pass) (answer : Answer) (now : Millis) :
    p.follow answer now =
      let settled := p.card.control.settle p.card.confirmed now
      ⟨(p.card.withControl settled.1.takeOutcome.1).withLamp
          (p.card.lamp.obeyAll (settled.2.flatMap (·.orders now))),
        p.acts ++ settled.2.flatMap (Act.ofAction answer p.card.hub.selectorId) ++
          Act.ofOutcome settled.1⟩ := by
  unfold follow settle
  simp only [applyAll_eq, reportOutcome_eq]
  rfl

theorem hear_eq (p : Pass) :
    p.hear =
      ⟨p.card.withLamp (p.card.lamp.obeyAll
        [.hubBusy p.card.hub.saysBusy, .arrive p.card.currentLabel]), p.acts⟩ := rfl

theorem refreshGating_eq (p : Pass) :
    p.refreshGating =
      let gating := Gating.ofReports p.card.config p.card.hub p.card.selector
      ⟨{ p.card with gating },
        p.acts ++ Act.ofCommands p.card.gating.capabilities gating.capabilities
          p.card.hub.commands.length⟩ := by
  unfold refreshGating Act.ofCommands
  dsimp only
  split
  · rfl
  · rw [List.append_nil]

theorem paint_eq (p : Pass) (host : Host) :
    p.paint host =
      let painted := p.card.painter.paint host.themes
        ⟨p.card.config.theme, p.card.config.backgroundCss, host.dark⟩
      ⟨p.card.withPainter painted.1,
        p.acts ++ Act.ofPainting p.card.config.theme painted.2⟩ := by
  unfold paint Act.ofPainting
  simp only [tell, emit]
  split
  · simp [Card.withPainter]
  · simp [Card.withPainter]

theorem send_eq (p : Pass) (answer : Answer) (key : String) (commandId device : Id)
    (now : Millis) :
    p.send answer key commandId device now =
      let lamp := p.card.lamp.obey (.pulse now)
      ⟨p.card.withLamp (lamp.obey (.refresh now)),
        p.acts ++ Act.ofSend answer p.card.config.entity key commandId device ++
          Act.ofLight (lamp.busy.refresh now).2⟩ := by
  unfold send Act.ofSend
  simp only [call_eq, reportLight_eq]
  cases answer (.sendCommand p.card.config.entity commandId device) with
  | none => simp [emit, tell, Card.withLamp, Card.lamp, Lamp.obey]
  | some e => simp [Card.withLamp, Card.lamp, Lamp.obey]

end Pass

namespace Card

/-! ## Updates -/

/-- The card once it has taken in the reports of an update. -/
def received (c : Card) (hub : HubReport) (selector : SelectorReport) : Card :=
  { c with
    hub
    selector
    gating :=
      if hub.availability = .available then Gating.ofReports c.config hub selector else c.gating
    confirmed := (confirmedBy? hub selector).getD c.confirmed }

@[simp] theorem received_frame (c : Card) (hub : HubReport) (selector : SelectorReport) :
    (c.received hub selector).config = c.config ∧ (c.received hub selector).control = c.control ∧
      (c.received hub selector).lamp = c.lamp ∧ (c.received hub selector).painter = c.painter ∧
      (c.received hub selector).hub = hub ∧ (c.received hub selector).selector = selector ∧
      (c.received hub selector).lastView = c.lastView :=
  ⟨rfl, rfl, rfl, rfl, rfl, rfl, rfl⟩

theorem confirmed_received (c : Card) (hub : HubReport) (selector : SelectorReport) :
    (c.received hub selector).confirmed = (confirmedBy? hub selector).getD c.confirmed := by
  simp only [received]

theorem receive_eq (c : Card) (hub : HubReport) (selector : SelectorReport) :
    c.receive hub selector =
      ⟨c.received hub selector,
        if hub.availability = .available then
          Act.ofCommands c.gating.capabilities (Capabilities.ofList hub.commands) hub.commands.length
        else []⟩ := by
  unfold receive received
  split
  · simp only [Pass.refreshGating_eq]
    rfl
  · rfl

@[simp] theorem spare_receive {t : Act.Topic} (ht : t ≠ .capabilities) (c : Card)
    (hub : HubReport) (selector : SelectorReport) :
    Act.Spare t (c.receive hub selector).acts := by
  rw [receive_eq]
  dsimp only
  split <;> simp [ht]

/-- What the selector makes of an update: it settles on what the reports confirm. -/
def settling (c : Card) (hub : HubReport) (selector : SelectorReport) (now : Millis) :
    Selector.Control × List Selector.Action :=
  c.control.settle (c.received hub selector).confirmed now

/-- What an update does with the busy light, up to the report of the light. -/
def updateOrders (c : Card) (hub : HubReport) (selector : SelectorReport) (now : Millis) :
    List Lamp.Order :=
  (c.settling hub selector now).2.flatMap (·.orders now) ++
    [.hubBusy hub.saysBusy, .arrive (c.received hub selector).currentLabel]

def painting (c : Card) (host : Host) : Painter × List Mutation × Nat :=
  c.painter.paint host.themes ⟨c.config.theme, c.config.backgroundCss, host.dark⟩

/-- The card that an update leaves. -/
def updated (c : Card) (host : Host) (hub : HubReport) (selector : SelectorReport)
    (now : Millis) : Card :=
  (((c.received hub selector).withControl (c.settling hub selector now).1.takeOutcome.1).withLamp
    ((c.lamp.obeyAll (c.updateOrders hub selector now)).obey (.refresh now))).withPainter
      (c.painting host).1 |>.withView

@[simp] theorem updated_frame (c : Card) (host : Host) (hub : HubReport)
    (selector : SelectorReport) (now : Millis) :
    (c.updated host hub selector now).config = c.config ∧
      (c.updated host hub selector now).control =
        (c.settling hub selector now).1.takeOutcome.1 ∧
      (c.updated host hub selector now).hub = hub ∧
      (c.updated host hub selector now).selector = selector ∧
      (c.updated host hub selector now).gating = (c.received hub selector).gating ∧
      (c.updated host hub selector now).confirmed = (c.received hub selector).confirmed := by
  simp [updated]

@[simp] theorem lamp_updated (c : Card) (host : Host) (hub : HubReport)
    (selector : SelectorReport) (now : Millis) :
    (c.updated host hub selector now).lamp =
      (c.lamp.obeyAll (c.updateOrders hub selector now)).obey (.refresh now) := by
  simp [updated]

def updateActs (c : Card) (host : Host) (hub : HubReport) (selector : SelectorReport)
    (now : Millis) : List Act :=
  (c.receive hub selector).acts ++
    (c.settling hub selector now).2.flatMap (Act.ofAction host.answer hub.selectorId) ++
    Act.ofOutcome (c.settling hub selector now).1 ++
    Act.ofLight ((c.lamp.obeyAll (c.updateOrders hub selector now)).busy.refresh now).2 ++
    Act.ofPainting c.config.theme (c.painting host).2

theorem update_eq (c : Card) (host : Host) (hub : HubReport) (selector : SelectorReport)
    (now : Millis) :
    c.update host hub selector now =
      (⟨c.updated host hub selector now, c.updateActs host hub selector now⟩,
        (c.updated host hub selector now).view) := by
  simp [update, updated, updateActs, updateOrders, settling, painting, receive_eq, Pass.follow_eq,
    Pass.hear_eq, Pass.reportLight_eq, Pass.paint_eq, Lamp.obeyAll_append, Pass.finish, withView,
    view]

theorem perform_updateFrom (c : Card) (host : Host) (entities : Dict Entity) (now : Millis) :
    c.perform (.updateFrom host entities now) =
      ⟨c.updated host (readReports entities c.config.entity).1
          (readReports entities c.config.entity).2 now,
        c.updateActs host (readReports entities c.config.entity).1
          (readReports entities c.config.entity).2 now⟩ := by
  simp only [perform, updateFrom, update_eq]

theorem lastView_updated (c : Card) (host : Host) (hub : HubReport) (selector : SelectorReport)
    (now : Millis) :
    (c.updated host hub selector now).lastView = some (c.updated host hub selector now).view := by
  rw [updated]
  exact lastView_withView _

/-! ## Commands -/

/-- Whether a pick of an option is listened to. -/
def offers (c : Card) (option : String) : Bool :=
  c.selectorEnabled && (c.selector.options.isEmpty || c.selector.options.contains option)

theorem selectActivity_of_not_offers {c : Card} {option : String} (h : c.offers option = false)
    (answer : Answer) (now : Millis) :
    c.selectActivity answer option now = (⟨c, []⟩, none) := by
  unfold selectActivity
  rw [offers, Bool.and_eq_false_iff, Bool.or_eq_false_iff] at h
  rcases h with hoff | ⟨hempty, hcontains⟩
  · simp only [hoff, Bool.not_false, if_true]
    rfl
  · simp only [hempty, hcontains, Bool.not_false, Bool.and_self, if_true, ite_self]
    rfl

/-- The light after what a pick asks for. -/
def pickLamp (c : Card) (actions : List Selector.Action) (now : Millis) : Lamp :=
  c.lamp.obeyAll (actions.flatMap (·.orders now))

/-- The card that a pick leaves which changes something. -/
def stirred (c : Card) (control : Selector.Control) (actions : List Selector.Action)
    (now : Millis) : Card :=
  (c.withControl control.takeOutcome.1).withLamp ((c.pickLamp actions now).obey (.refresh now))
    |>.withView

@[simp] theorem stirred_frame (c : Card) (control : Selector.Control)
    (actions : List Selector.Action) (now : Millis) :
    (c.stirred control actions now).config = c.config ∧
      (c.stirred control actions now).control = control.takeOutcome.1 ∧
      (c.stirred control actions now).hub = c.hub ∧
      (c.stirred control actions now).selector = c.selector ∧
      (c.stirred control actions now).gating = c.gating ∧
      (c.stirred control actions now).confirmed = c.confirmed := by
  simp [stirred]

@[simp] theorem lamp_stirred (c : Card) (control : Selector.Control)
    (actions : List Selector.Action) (now : Millis) :
    (c.stirred control actions now).lamp = (c.pickLamp actions now).obey (.refresh now) := by
  simp [stirred]

def pickActs (c : Card) (answer : Answer) (control : Selector.Control)
    (actions : List Selector.Action) (now : Millis) : List Act :=
  actions.flatMap (Act.ofAction answer c.hub.selectorId) ++ Act.ofOutcome control ++
    Act.ofLight ((c.pickLamp actions now).busy.refresh now).2

-- A pick that is listened to goes to the machine.
theorem selectActivity_of_offers {c : Card} {option : String} (h : c.offers option = true)
    {now : Millis} {control : Selector.Control} {actions : List Selector.Action}
    (hpick : c.control.pick option c.confirmed now = (control, actions)) (answer : Answer) :
    c.selectActivity answer option now =
      if actions.isEmpty && control.phase == c.control.phase then (⟨c.withControl control, []⟩, none)
      else
        (⟨c.stirred control actions now, c.pickActs answer control actions now⟩,
          some (c.stirred control actions now).view) := by
  rw [offers, Bool.and_eq_true] at h
  have hlisted : (!c.selector.options.isEmpty && !c.selector.options.contains option) = false := by
    rw [← Bool.not_or, h.2]
    rfl
  have hcard : ({ c with control } : Card) = c.withControl control := rfl
  unfold selectActivity
  simp only [Pass.start, hpick, h.1, hlisted, Bool.not_true, Bool.false_eq_true, if_false, hcard,
    Pass.applyAll_eq, Pass.reportOutcome_eq, Pass.reportLight_eq, List.nil_append]
  split
  · rfl
  · simp [Pass.withView, Pass.finish, stirred, pickActs, pickLamp, withView, view]

/-- What is left of a card that has sent a command. -/
def pulsed (c : Card) (now : Millis) : Card :=
  (c.withLamp (c.lamp.obeyAll [.pulse now, .refresh now])).withView

@[simp] theorem pulsed_frame (c : Card) (now : Millis) :
    (c.pulsed now).config = c.config ∧ (c.pulsed now).control = c.control ∧
      (c.pulsed now).hub = c.hub ∧ (c.pulsed now).selector = c.selector ∧
      (c.pulsed now).gating = c.gating ∧ (c.pulsed now).confirmed = c.confirmed := by
  simp [pulsed]

@[simp] theorem lamp_pulsed (c : Card) (now : Millis) :
    (c.pulsed now).lamp = (c.lamp.obeyAll [.pulse now]).obey (.refresh now) := by
  simp [pulsed]

def pressActs (c : Card) (answer : Answer) (key : String) (commandId device : Id) (now : Millis) :
    List Act :=
  Act.ofSend answer c.config.entity key commandId device ++
    Act.ofLight ((c.lamp.obey (.pulse now)).busy.refresh now).2

-- A press is skipped, or sends one command to the device that it is routed to. Which of the two it
-- is does not depend on how calls are answered.
theorem pressButton_cases (c : Card) (key : String) (now : Millis) :
    (∃ reason, ∀ answer,
        c.pressButton answer key now = (⟨c, [.event (.commandSkipped key reason)]⟩, none)) ∨
      ∃ commandId device,
        c.gating.capabilities.route? commandId c.hub.activityId = some device ∧
        ∀ answer, c.pressButton answer key now =
          (⟨c.pulsed now, c.pressActs answer key commandId device now⟩,
            some (c.pulsed now).view) := by
  unfold pressButton
  simp only [Pass.skip, Pass.start, Pass.send_eq, Pass.withView, Pass.finish]
  split
  · exact .inl ⟨_, fun _ => rfl⟩
  · split
    · exact .inl ⟨_, fun _ => rfl⟩
    · split
      · exact .inl ⟨_, fun _ => rfl⟩
      · split
        · exact .inl ⟨_, fun _ => rfl⟩
        · rename_i device hroute
          exact .inr ⟨_, device, hroute, fun _ => rfl⟩

-- A press of a shortcut is skipped, or sends the command of the shortcut in that place of the last
-- report. The gating that has been kept for the place must let it through.
theorem pressShortcut_cases (c : Card) (index : Nat) (now : Millis) :
    (∃ key reason, ∀ answer,
        c.pressShortcut answer index now = (⟨c, [.event (.commandSkipped key reason)]⟩, none)) ∨
      ∃ shortcut state device, c.hub.shortcuts[index]? = some shortcut ∧
        c.gating.shortcuts[index]? = some state ∧ state.visible = true ∧ state.enabled = true ∧
        Gate.shortcutRoute? shortcut c.hub.activityId = some device ∧
        ∀ answer, c.pressShortcut answer index now =
          (⟨c.pulsed now, c.pressActs answer shortcut.label shortcut.commandId device now⟩,
            some (c.pulsed now).view) := by
  unfold pressShortcut
  simp only [Pass.skip, Pass.start, Pass.send_eq, Pass.withView, Pass.finish]
  split
  · rename_i shortcut state hshortcut hstate
    by_cases hvisible : state.visible = true
    · by_cases henabled : state.enabled = true
      · simp only [hvisible, henabled, Bool.not_true, Bool.false_eq_true, if_false]
        split
        · exact .inl ⟨_, _, fun _ => rfl⟩
        · rename_i device hdevice
          exact .inr ⟨shortcut, state, device, hshortcut, hstate, hvisible, henabled, hdevice,
            fun _ => rfl⟩
      · left
        simp only [hvisible, henabled, Bool.not_true, Bool.not_false, Bool.false_eq_true, if_false,
          if_true]
        exact ⟨_, _, fun _ => rfl⟩
    · left
      simp only [hvisible, Bool.not_false, if_true]
      exact ⟨_, _, fun _ => rfl⟩
  · exact .inl ⟨_, _, fun _ => rfl⟩

/-! ## Waking -/

/-- What a waking does with the busy light, up to the report of the light. -/
def wakeOrders (c : Card) (now : Millis) : List Lamp.Order :=
  [.fire now, .takeTimedOut] ++ (c.control.settle c.confirmed now).2.flatMap (·.orders now)

/-- The card that a waking leaves, before it is drawn. -/
def roused (c : Card) (now : Millis) : Card :=
  (c.withControl (c.control.settle c.confirmed now).1.takeOutcome.1).withLamp
    ((c.lamp.obeyAll (c.wakeOrders now)).obey (.refresh now))

@[simp] theorem roused_frame (c : Card) (now : Millis) :
    (c.roused now).config = c.config ∧
      (c.roused now).control = (c.control.settle c.confirmed now).1.takeOutcome.1 ∧
      (c.roused now).hub = c.hub ∧ (c.roused now).selector = c.selector ∧
      (c.roused now).gating = c.gating ∧ (c.roused now).confirmed = c.confirmed ∧
      (c.roused now).lastView = c.lastView := by
  simp [roused]

@[simp] theorem lamp_roused (c : Card) (now : Millis) :
    (c.roused now).lamp = (c.lamp.obeyAll (c.wakeOrders now)).obey (.refresh now) := by
  simp [roused]

def wakeActs (c : Card) (now : Millis) : List Act :=
  Act.ofTimeout (c.lamp.obey (.fire now)).busy.timedOut ++
    Act.ofOutcome (c.control.settle c.confirmed now).1 ++
    Act.ofLight ((c.lamp.obeyAll (c.wakeOrders now)).busy.refresh now).2

/-- Whether a waking can change the view. -/
def stirs (c : Card) (now : Millis) : Bool :=
  (c.timers.fireDue now).1.length != 0 ||
    ((c.lamp.obeyAll (c.wakeOrders now)).busy.refresh now).2.isSome ||
    (c.control.settle c.confirmed now).1.shown != c.control.shown

theorem fireTimers_eq (c : Card) (now : Millis) :
    c.fireTimers now =
      (⟨c.withLamp (c.lamp.obeyAll [.fire now, .takeTimedOut]),
        Act.ofTimeout (c.lamp.obey (.fire now)).busy.timedOut⟩, (c.timers.fireDue now).1.length) := by
  unfold fireTimers
  simp only [Busy.fireTimers, Busy.takeTimedOut, withLamp, lamp, Lamp.obeyAll_cons,
    Lamp.obeyAll_nil, Lamp.obey, Pass.start]
  split <;> rename_i h <;> rw [h] <;> rfl

theorem rouse_eq (c : Card) (now : Millis) :
    c.rouse now = (⟨c.roused now, c.wakeActs now⟩, c.stirs now) := by
  have hcard : ∀ (d : Card) control, ({ d with control } : Card) = d.withControl control :=
    fun _ _ => rfl
  have hshown : ∀ k : Selector.Control, k.takeOutcome.1.shown = k.shown := fun _ => rfl
  unfold rouse Pass.settle roused wakeActs stirs wakeOrders
  simp only [fireTimers_eq, Pass.foldl_applyLoading_eq, Pass.reportOutcome_eq, Pass.reportLight_eq,
    hcard]
  simp [hshown]

theorem wake_eq (c : Card) (now : Millis) :
    c.wake now =
      if c.stirs now then
        (⟨(c.roused now).withView, c.wakeActs now⟩, some (c.roused now).view)
      else (⟨c.roused now, c.wakeActs now⟩, none) := by
  unfold wake Pass.withView Pass.finish
  simp only [rouse_eq]
  rfl

/-! ## All operations -/

/-- What an operation can come to: the card that it leaves, and its acts. -/
inductive Turn (c : Card) : Operation → Pass → Prop where
  | start : Turn c .start ⟨c, c.startEvents⟩
  | updated {o : Operation} (host : Host) {hub : HubReport} {selector : SelectorReport}
      {now : Millis} (hreports : o.reports? c.config = some (hub, selector))
      (htime : o.time? = some now) :
      Turn c o ⟨c.updated host hub selector now, c.updateActs host hub selector now⟩
  | ignored {option : String} (hoffers : c.offers option = false) (answer : Answer)
      (now : Millis) : Turn c (.handle answer (.selectActivity option) now) ⟨c, []⟩
  | still {option : String} {now : Millis} {control : Selector.Control}
      (hoffers : c.offers option = true)
      (hpick : c.control.pick option c.confirmed now = (control, []))
      (hphase : control.phase = c.control.phase) (answer : Answer) :
      Turn c (.handle answer (.selectActivity option) now) ⟨c.withControl control, []⟩
  | stirred {option : String} {now : Millis} {control : Selector.Control}
      {actions : List Selector.Action} (hoffers : c.offers option = true)
      (hpick : c.control.pick option c.confirmed now = (control, actions))
      (hstir : actions ≠ [] ∨ control.phase ≠ c.control.phase) (answer : Answer) :
      Turn c (.handle answer (.selectActivity option) now)
        ⟨c.stirred control actions now, c.pickActs answer control actions now⟩
  | skipped {command : Command} (hpress : ∀ option, command ≠ .selectActivity option)
      (answer : Answer) (now : Millis) (key : String) (reason : SkipReason) :
      Turn c (.handle answer command now) ⟨c, [.event (.commandSkipped key reason)]⟩
  | pressed {command : Command} (hpress : ∀ option, command ≠ .selectActivity option)
      (answer : Answer) (now : Millis) (key : String) (commandId device : Id) :
      Turn c (.handle answer command now)
        ⟨c.pulsed now, c.pressActs answer key commandId device now⟩
  | woken {now : Millis} (hstirs : c.stirs now = true) :
      Turn c (.wake now) ⟨(c.roused now).withView, c.wakeActs now⟩
  | undisturbed {now : Millis} (hstirs : c.stirs now = false) :
      Turn c (.wake now) ⟨c.roused now, c.wakeActs now⟩
  | writeBack : Turn c .writeBack ⟨c.withControl c.control.writeBack.1, []⟩

theorem turn (c : Card) (o : Operation) : c.Turn o (c.perform o) := by
  cases o with
  | start => exact .start
  | writeBack => exact .writeBack
  | update host hub selector now =>
    simp only [perform, update_eq]
    exact .updated host rfl rfl
  | updateFrom host entities now =>
    rw [perform_updateFrom]
    exact .updated host rfl rfl
  | wake now =>
    simp only [perform, wake_eq]
    cases hstirs : c.stirs now with
    | true => exact .woken hstirs
    | false => exact .undisturbed hstirs
  | handle answer command now =>
    cases command with
    | selectActivity option =>
      simp only [perform, handle]
      cases hoffers : c.offers option with
      | false =>
        rw [selectActivity_of_not_offers hoffers]
        exact .ignored hoffers answer now
      | true =>
        rcases hpick : c.control.pick option c.confirmed now with ⟨control, actions⟩
        rw [selectActivity_of_offers hoffers hpick]
        by_cases hstir : actions ≠ [] ∨ control.phase ≠ c.control.phase
        · have hgo : (actions.isEmpty && control.phase == c.control.phase) = false := by
            rcases hstir with h | h <;> simp [h]
          simp only [hgo, Bool.false_eq_true, if_false]
          exact .stirred hoffers hpick hstir answer
        · rw [not_or, Decidable.not_not, Decidable.not_not] at hstir
          rcases hstir with ⟨rfl, hphase⟩
          simp only [hphase, List.isEmpty_nil, beq_self_eq_true, Bool.and_self, if_true]
          exact .still hoffers hpick hphase answer
    | pressButton key =>
      have hpress : ∀ option, Command.pressButton key ≠ .selectActivity option := by simp
      simp only [perform, handle]
      rcases c.pressButton_cases key now with ⟨reason, h⟩ | ⟨commandId, device, -, h⟩
      · rw [h]
        exact .skipped hpress answer now key reason
      · rw [h]
        exact .pressed hpress answer now key commandId device
    | pressShortcut index =>
      have hpress : ∀ option, Command.pressShortcut index ≠ .selectActivity option := by simp
      simp only [perform, handle]
      rcases c.pressShortcut_cases index now with
        ⟨key, reason, h⟩ | ⟨shortcut, _, device, -, -, -, -, -, h⟩
      · rw [h]
        exact .skipped hpress answer now key reason
      · rw [h]
        exact .pressed hpress answer now shortcut.label shortcut.commandId device

end Card

end HubCard
