import HubCard.Proofs.Shortcuts

/-!
What a press of a button sends. A press is judged by the gating that the card keeps, which is the one
that its last view shows, so a button can be pressed exactly when it is seen to be so and leads
somewhere.
-/

namespace HubCard

/-! ## Reasons to skip a press -/

namespace SkipReason

/-- The reasons, in the order in which they are looked for. -/
def all : List SkipReason := [.unknownKey, .hidden, .disabled, .noRoute]

/-- Whether a reason applies to a press of a key, going by a view and by where each button leads. -/
def applies (v : View) (route? : Button → Option Id) (key : String) : SkipReason → Bool
  | .unknownKey => (Button.find? key).isNone
  | .hidden => !v.buttonShown key
  | .disabled => !(v.button? key).any (·.enabled)
  | .noRoute => ((Button.find? key).bind route?).isNone

/-- The first reason that applies. -/
def first? (v : View) (route? : Button → Option Id) (key : String) : Option SkipReason :=
  all.find? (applies v route? key)

theorem first?_eq_none_iff {v : View} {route? : Button → Option Id} {key : String} :
    first? v route? key = none ↔
      ∃ b s device, Button.find? key = some b ∧ v.buttonShown key = true ∧
        v.button? key = some s ∧ s.enabled = true ∧ route? b = some device := by
  simp only [first?, all, List.find?_eq_none, List.forall_mem_cons, applies]
  cases Button.find? key with
  | none => simp
  | some b =>
    cases v.button? key with
    | none => simp
    | some s => simp [Option.ne_none_iff_exists']

end SkipReason

/-! ## The buttons of a view -/

theorem Button.key_of_find? {key : String} {b : Button} (h : find? key = some b) : b.key = key := by
  have hkey := List.find?_some h
  simpa using hkey

theorem Gate.find?_buttons (secondGeneration poweredOff : Bool) (capabilities : Capabilities)
    (key : String) :
    (buttons secondGeneration poweredOff capabilities).find? (·.key == key) =
      (Button.find? key).map (buttonState secondGeneration poweredOff capabilities) := by
  rw [buttons, List.find?_map]
  rfl

namespace Card

theorem groupVisible_view (c : Card) (group : Group) :
    c.view.groupVisible group = c.config.shows group := by
  cases group <;> rfl

-- Every button of the catalog has its state in the view.
theorem button?_view {c : Card} {config : Config} {reports : HubReport × SelectorReport}
    (hgating : c.gating = gatingOf config reports) {key : String} {b : Button}
    (hfind : Button.find? key = some b) :
    ∃ s, c.view.button? key = some s ∧ c.gating.buttons.find? (·.key == b.key) = some s ∧
      c.view.buttonShown key = (c.config.shows b.group && s.visible) := by
  have hstate : c.view.button? key = some (Gate.buttonState reports.1.model.isSecondGeneration
      (Gate.isPoweredOff reports.1.activityLabel reports.2.value)
      (Capabilities.ofList reports.1.commands) b) := by
    have hbuttons : c.view.buttons = (gatingOf config reports).buttons :=
      congrArg Gating.buttons hgating
    rw [View.button?, hbuttons, gatingOf, Gating.ofReports, Gate.find?_buttons, hfind]
    rfl
  refine ⟨_, hstate, ?_, ?_⟩
  · rw [Button.key_of_find? hfind]
    exact hstate
  · rw [View.buttonShown, hstate]
    dsimp only
    rw [groupVisible_view, Bool.and_comm]
    rfl

/-! ## A press -/

/-- Where the card sends the command of a button. -/
def route? (c : Card) (b : Button) : Option Id :=
  c.gating.capabilities.route? b.commandId c.hub.activityId

/-- A press is skipped for the first reason that applies and, where none does, sends the command of
the button to where that leads. -/
theorem pressButton_first? {c : Card} {config : Config} {reports : HubReport × SelectorReport}
    (hgating : c.gating = gatingOf config reports) (answer : Answer) (key : String) (now : Millis) :
    (∃ reason, SkipReason.first? c.view c.route? key = some reason ∧
        (c.pressButton answer key now).1 = ⟨c, [.event (.commandSkipped key reason)]⟩) ∨
      (SkipReason.first? c.view c.route? key = none ∧
        ∃ b device, Button.find? key = some b ∧ c.route? b = some device ∧
          (c.pressButton answer key now).1 =
            ⟨c.pulsed now, c.pressActs answer key b.commandId device now⟩) := by
  unfold pressButton
  simp only [Pass.skip, Pass.start, Pass.send_eq, Pass.withView, Pass.finish, SkipReason.first?,
    SkipReason.all, SkipReason.applies, List.find?_cons]
  cases hfind : Button.find? key with
  | none => exact .inl ⟨_, rfl, rfl⟩
  | some b =>
    rcases button?_view hgating hfind with ⟨s, hview, hstate, hshown⟩
    have hhidden : (!c.config.shows b.group || !s.visible) = !c.view.buttonShown key := by
      rw [hshown, Bool.not_and]
    simp only [hstate, hview, Option.any_some, hhidden, Option.isNone_some, Option.bind_some]
    cases c.view.buttonShown key with
    | false => exact .inl ⟨_, rfl, rfl⟩
    | true =>
      cases s.enabled with
      | false => exact .inl ⟨_, rfl, rfl⟩
      | true =>
        cases hroute : c.route? b with
        | none =>
          rw [route?] at hroute
          rw [hroute]
          exact .inl ⟨_, rfl, rfl⟩
        | some device =>
          rw [route?] at hroute
          rw [hroute]
          exact .inr ⟨rfl, b, device, rfl, hroute, rfl⟩

theorem calls_pressActs (c : Card) (answer : Answer) (key : String) (commandId device : Id)
    (now : Millis) :
    (c.pressActs answer key commandId device now).filterMap Act.call? =
      [.sendCommand c.config.entity commandId device] := by
  have hlight : (Act.ofLight ((c.lamp.obey (.pulse now)).busy.refresh now).2).filterMap Act.call? =
      [] := by
    cases ((c.lamp.obey (.pulse now)).busy.refresh now).2 <;> rfl
  rw [pressActs, List.filterMap_append, hlight, List.append_nil, Act.ofSend, Act.ofCall]
  cases answer (.sendCommand c.config.entity commandId device) <;> rfl

namespace Drawn

variable {c : Card} (h : c.Drawn)

include h

theorem lastView_getD : c.lastView.getD c.view = c.view := by
  cases hlast : c.lastView with
  | none => rfl
  | some v => exact h.last v hlast

-- Before the first update no button leads anywhere.
theorem route?_of_blank (hblank : c.lastView = none) (b : Button) : c.route? b = none := by
  rcases h.first hblank with ⟨hhub, -, hgating⟩
  rw [route?, hhub, hgating]
  rfl

end Drawn

/-! ## After a run -/

/-- Where the reports of a run say that the command of a button goes: to the owner in the first entry
for it that the last hub within reach has listed and, where there is none, to the activity of the last
report. -/
def destination? (config : Config) (ops : List Operation) (b : Button) : Option Id :=
  match (Capabilities.ofList (latestReached config ops).1.commands).entries.find?
      (·.commandId == b.commandId) with
  | some ⟨_, some owner⟩ => some owner
  | _ => (latest config ops).1.activityId

theorem route?_eq_destination? {config : Config} {start : Card}
    (hnew : Card.new config = .ok start) (ops : List Operation) :
    (start.after ops).route? = destination? config ops := by
  funext b
  rw [route?, gating_eq_latestReached hnew ops, (reports_eq_latest hnew ops).1]
  simp only [gatingOf, Gating.ofReports, Capabilities.route?, Capabilities.entry?, destination?]
  generalize List.find? _ _ = entry
  rcases entry with _ | ⟨_, _ | _⟩ <;> rfl

/-- After any run, a press of a key makes a call exactly when its button is in the catalog, is drawn
and can be pressed in the last view, and leads somewhere. The call is the only one, and sends the
command of the button to where that leads. Any other press is skipped, for the first reason that
applies by the last view or, before there is one, by the view that the card would give. -/
theorem button_press_exact {config : Config} {start : Card} (hnew : Card.new config = .ok start)
    (ops : List Operation) (answer : Answer) (key : String) (now : Millis) :
    let c := start.after ops
    let acts := (c.perform (.handle answer (.pressButton key) now)).acts
    (acts.filterMap Act.call? ≠ [] ↔
      ∃ b v s device, Button.find? key = some b ∧ c.lastView = some v ∧ v.buttonShown key = true ∧
        v.button? key = some s ∧ s.enabled = true ∧ destination? config ops b = some device) ∧
    (acts.filterMap Act.call? ≠ [] →
      ∃ b device, Button.find? key = some b ∧ destination? config ops b = some device ∧
        acts.filterMap Act.call? = [.sendCommand config.entity b.commandId device]) ∧
    (acts.filterMap Act.call? = [] →
      ∃ reason, SkipReason.first? (c.lastView.getD c.view) (destination? config ops) key =
          some reason ∧ acts = [.event (.commandSkipped key reason)]) := by
  intro c acts
  have hdrawn : c.Drawn := (rest_and_drawn_after hnew ops).2
  have hconfig : c.config = config := config_after hnew ops
  have hroute : c.route? = destination? config ops := route?_eq_destination? hnew ops
  have hacts : acts = (c.pressButton answer key now).1.acts := rfl
  rw [hdrawn.lastView_getD, ← hroute]
  rcases pressButton_first? (gating_eq_latestReached hnew ops) answer key now with
    ⟨reason, hfirst, hpress⟩ | ⟨hfirst, b, device, hfind, hdevice, hpress⟩
  · rw [hacts, hpress]
    refine ⟨⟨fun hsent => absurd rfl hsent, ?_⟩, fun hsent => absurd rfl hsent,
      fun _ => ⟨reason, hfirst, rfl⟩⟩
    -- a button that can be seen and pressed and leads somewhere gives no reason
    rintro ⟨b, v, s, device, hfind, hlast, hshown, hstate, henabled, hdevice⟩
    rw [hdrawn.last v hlast] at hshown hstate
    have hnone := SkipReason.first?_eq_none_iff.mpr
      ⟨b, s, device, hfind, hshown, hstate, henabled, hdevice⟩
    rw [hfirst] at hnone
    cases hnone
  · have hcalls : acts.filterMap Act.call? = [.sendCommand config.entity b.commandId device] := by
      rw [hacts, hpress, ← hconfig]
      exact calls_pressActs c answer key b.commandId device now
    rw [hcalls]
    refine ⟨⟨fun _ => ?_, fun _ => List.cons_ne_nil _ _⟩, fun _ => ⟨b, device, hfind, hdevice, rfl⟩,
      fun hnone => absurd hnone (List.cons_ne_nil _ _)⟩
    rcases SkipReason.first?_eq_none_iff.mp hfirst with
      ⟨b', s, device', hfind', hshown, hstate, henabled, hdevice'⟩
    -- before the first update the button would lead nowhere
    cases hlast : c.lastView with
    | none =>
      rw [hdrawn.route?_of_blank hlast b] at hdevice
      cases hdevice
    | some v =>
      rw [← hdrawn.last v hlast] at hshown hstate
      exact ⟨b', v, s, device', hfind', rfl, hshown, hstate, henabled, hdevice'⟩

end Card

namespace Sample

/-- The attributes of a hub that takes one command, which belongs to a device. -/
def owned : List (String × Json) :=
  [("enabled_buttons", .arr [.object [("command_id", .int 174), ("device_id", .int 3)]])]

/-- The hub is within reach, and then no more, while another activity is on. -/
def outOfReach : List Operation :=
  [.updateFrom host (entities "on" "TV" owned) 0,
    .updateFrom host (entities "unavailable" "TV" [("current_activity_id", .int 101)]) 1000]

end Sample

namespace Card

open Sample

-- What the hub has listed while it was within reach still counts: `up` belongs to a device, and
-- `down` cannot be pressed.
theorem button_press_exact_outOfReach :
    let c := (card Sample.config).after outOfReach
    (c.perform (.handle accepting (.pressButton "up") 2000)).acts.filterMap Act.call? =
        [.sendCommand "remote.hub" 174 3] ∧
      (c.perform (.handle accepting (.pressButton "down") 2000)).acts =
        [.event (.commandSkipped "down" .disabled)] := by
  intro c
  rcases button_press_exact new_config outOfReach accepting "up" 2000 with ⟨-, hsent, -⟩
  rcases button_press_exact new_config outOfReach accepting "down" 2000 with ⟨-, -, hskipped⟩
  constructor
  · rcases hsent (by decide +kernel) with ⟨b, device, hfind, hdevice, hcalls⟩
    have hup : Button.find? "up" = some ⟨"up", 174, false, .dpad⟩ := by decide +kernel
    rw [hup, Option.some.injEq] at hfind
    subst hfind
    have howner : destination? Sample.config outOfReach ⟨"up", 174, false, .dpad⟩ = some 3 := by
      decide +kernel
    rw [howner, Option.some.injEq] at hdevice
    subst hdevice
    exact hcalls
  · rcases hskipped (by decide +kernel) with ⟨reason, hfirst, hacts⟩
    have hdisabled : SkipReason.first? (c.lastView.getD c.view)
        (destination? Sample.config outOfReach) "down" = some .disabled := by decide +kernel
    have hreason : some SkipReason.disabled = some reason := hdisabled.symm.trans hfirst
    cases hreason
    exact hacts

end Card

end HubCard
