import HubCard.Proofs.Pressing

/-!
A card whose last view says that the hub is switched off. Nothing in such a view can be pressed, and no
press sends anything. That stays so, whatever else happens, until the card hears of a hub within reach
that is switched on.
-/

namespace HubCard

namespace Operation

/-- Whether the operation brings the report of a hub that can be reached and is switched on. -/
def switchesOn (config : Config) (o : Operation) : Bool :=
  (o.reports? config).any fun (hub, selector) =>
    hub.availability = .available && !Gate.isPoweredOff hub.activityLabel selector.value

/-- Whether the operation is a press of a button or of a shortcut. -/
def isPress : Operation → Bool
  | .handle _ (.pressButton _) _ | .handle _ (.pressShortcut _) _ => true
  | _ => false

end Operation

namespace Card

/-! ## The power of the hub -/

theorem disabled_of_off {config : Config} {reports : HubReport × SelectorReport}
    (hoff : (gatingOf config reports).poweredOff = true) :
    (∀ b ∈ (gatingOf config reports).buttons, b.enabled = false) ∧
      ∀ s ∈ (gatingOf config reports).shortcuts, s.enabled = false := by
  simp only [gatingOf, Gating.ofReports] at hoff ⊢
  rw [hoff]
  constructor
  · intro b hb
    rcases List.mem_map.mp hb with ⟨button, -, rfl⟩
    rfl
  · intro s hs
    rcases List.mem_map.mp hs with ⟨shortcut, -, rfl⟩
    rfl

-- Only the report of a hub within reach changes what the card takes the power to be.
theorem poweredOff_perform (c : Card) (o : Operation) :
    (c.perform o).card.gating.poweredOff =
      match (o.reports? c.config).filter (·.1.availability = .available) with
      | some (hub, selector) => Gate.isPoweredOff hub.activityLabel selector.value
      | none => c.gating.poweredOff := by
  rw [gating_perform]
  cases (o.reports? c.config).filter (·.1.availability = .available) <;> rfl

theorem poweredOff_of_not_switchesOn {c : Card} {o : Operation} (hoff : c.gating.poweredOff = true)
    (hon : o.switchesOn c.config = false) : (c.perform o).card.gating.poweredOff = true := by
  rw [poweredOff_perform]
  split
  · rename_i hub selector hreports
    rcases Option.filter_eq_some_iff.mp hreports with ⟨hsome, havailable⟩
    simpa [Operation.switchesOn, hsome, havailable] using hon
  · exact hoff

theorem reports_of_switchesOn {config : Config} {o : Operation} (hon : o.switchesOn config = true) :
    ∃ hub selector, o.reports? config = some (hub, selector) ∧ hub.availability = .available ∧
      Gate.isPoweredOff hub.activityLabel selector.value = false := by
  rw [Operation.switchesOn] at hon
  cases hreports : o.reports? config with
  | none =>
    rw [hreports] at hon
    cases hon
  | some reports =>
    rw [hreports, Option.any_some, Bool.and_eq_true, decide_eq_true_eq, Bool.not_eq_true'] at hon
    exact ⟨reports.1, reports.2, rfl, hon.1, hon.2⟩

-- An update always ends with a view, and the view shows the power that the card now goes by.
theorem lastView_of_reports {c : Card} {o : Operation} {reports : HubReport × SelectorReport}
    (hreports : o.reports? c.config = some reports) :
    ∃ v, (c.perform o).card.lastView = some v ∧
      v.poweredOff = (c.perform o).card.gating.poweredOff := by
  have hturn := c.turn o
  generalize c.perform o = p at hturn ⊢
  cases hturn with
  | updated host => exact ⟨_, lastView_updated c host _ _ _, rfl⟩
  | start | ignored | still | stirred | skipped | pressed | woken | undisturbed | writeBack =>
    cases hreports

theorem lastView_of_switchesOn {c : Card} {o : Operation} (hon : o.switchesOn c.config = true) :
    ∃ v, (c.perform o).card.lastView = some v ∧ v.poweredOff = false := by
  rcases reports_of_switchesOn hon with ⟨hub, selector, hreports, havailable, hpower⟩
  rcases lastView_of_reports hreports with ⟨v, hlast, hview⟩
  refine ⟨v, hlast, ?_⟩
  rw [hview, poweredOff_perform, hreports, Option.filter_some_pos (by simpa using havailable)]
  exact hpower

-- Before the first view the card takes the hub to be on.
theorem Drawn.lastView_of_off {c : Card} (h : c.Drawn) (hoff : c.gating.poweredOff = true) :
    c.lastView = some c.view := by
  cases hlast : c.lastView with
  | none =>
    rw [(h.first hlast).2.2] at hoff
    cases hoff
  | some v => rw [h.last v hlast]

/-! ## Presses while the hub is off -/

section Off

variable {c : Card} {config : Config} {reports : HubReport × SelectorReport}
  (hgating : c.gating = gatingOf config reports) (hoff : c.gating.poweredOff = true)

include hgating hoff

theorem pressButton_of_off (answer : Answer) (key : String) (now : Millis) :
    ∃ reason, (c.pressButton answer key now).1 = ⟨c, [.event (.commandSkipped key reason)]⟩ := by
  rcases pressButton_first? hgating answer key now with ⟨reason, -, hpress⟩ | ⟨hfirst, -⟩
  · exact ⟨reason, hpress⟩
  · -- a press that is not skipped finds its button enabled in the view
    rcases SkipReason.first?_eq_none_iff.mp hfirst with ⟨_, s, _, -, -, hstate, henabled, -⟩
    have hs : s ∈ (gatingOf config reports).buttons := by
      rw [← hgating]
      exact List.mem_of_find?_eq_some hstate
    rw [hgating] at hoff
    rw [(disabled_of_off hoff).1 s hs] at henabled
    cases henabled

theorem pressShortcut_of_off (answer : Answer) (index : Nat) (now : Millis) :
    ∃ key reason,
      (c.pressShortcut answer index now).1 = ⟨c, [.event (.commandSkipped key reason)]⟩ := by
  rcases c.pressShortcut_cases index now with
    ⟨key, reason, hpress⟩ | ⟨_, state, _, -, hstate, -, henabled, -⟩
  · exact ⟨key, reason, by rw [hpress]⟩
  · have hs : state ∈ (gatingOf config reports).shortcuts := by
      rw [← hgating]
      exact List.mem_of_getElem? hstate
    rw [hgating] at hoff
    rw [(disabled_of_off hoff).2 state hs] at henabled
    cases henabled

theorem press_of_off {o : Operation} (hpress : o.isPress = true) :
    ∃ key reason, c.perform o = ⟨c, [.event (.commandSkipped key reason)]⟩ := by
  cases o with
  | handle answer command now =>
    cases command with
    | pressButton key => exact ⟨key, pressButton_of_off hgating hoff answer key now⟩
    | pressShortcut index => exact pressShortcut_of_off hgating hoff answer index now
    | selectActivity option => cases hpress
  | start | update | updateFrom | wake | writeBack => cases hpress

end Off

-- Nothing but a press sends a command.
theorem spare_command_perform (c : Card) {o : Operation} (hpress : o.isPress = false) :
    Act.Spare .command (c.perform o).acts := by
  have hturn := c.turn o
  generalize c.perform o = p at hturn ⊢
  cases hturn with
  | start => simp [startEvents, Act.topic]
  | updated => simp [updateActs]
  | ignored | still | writeBack => exact Act.spare_nil _
  | stirred => simp [pickActs]
  | @skipped command hcommand | @pressed command hcommand =>
    cases command with
    | selectActivity option => exact absurd rfl (hcommand option)
    | pressButton | pressShortcut => cases hpress
  | woken | undisturbed => simp [wakeActs]

theorem commands_of_off {c : Card} {config : Config} {reports : HubReport × SelectorReport}
    (hgating : c.gating = gatingOf config reports) (hoff : c.gating.poweredOff = true)
    (o : Operation) : Act.commands (c.perform o).acts = [] := by
  cases hpress : o.isPress with
  | true =>
    rcases press_of_off hgating hoff hpress with ⟨key, reason, hskip⟩
    rw [hskip]
    rfl
  | false => exact Act.commands_eq_nil (c.spare_command_perform hpress)

/-! ## After a run -/

section Runs

variable {config : Config} {start : Card} (hnew : Card.new config = .ok start)
  {ops : List Operation} (hoff : (start.after ops).gating.poweredOff = true)
  {more : List Operation} (hmore : ∀ o ∈ more, o.switchesOn config = false)

include hnew hoff hmore

theorem poweredOff_after : (start.after (ops ++ more)).gating.poweredOff = true := by
  have hafter : ((start.after ops).after more).gating.poweredOff = true ∧
      ((start.after ops).after more).config = config := by
    apply after_induction (fun o => o.switchesOn config = false)
      (fun c => c.gating.poweredOff = true ∧ c.config = config)
    · intro c o hon hc
      rw [← hc.2] at hon
      exact ⟨poweredOff_of_not_switchesOn hc.1 hon, (config_perform c o).trans hc.2⟩
    · exact ⟨hoff, config_after hnew ops⟩
    · exact hmore
  rw [after_append]
  exact hafter.1

theorem commands_actsOver_of_off : Act.commands ((start.after ops).actsOver more) = [] := by
  induction more generalizing ops with
  | nil => rfl
  | cons o more ih =>
    have hone : start.after (ops ++ [o]) = ((start.after ops).perform o).card := after_append ..
    have hnext : (start.after (ops ++ [o])).gating.poweredOff = true := by
      apply poweredOff_after hnew hoff
      intro o' ho'
      rw [List.mem_singleton.mp ho']
      exact hmore o List.mem_cons_self
    have hrest := ih hnext fun o' ho' => hmore o' (List.mem_cons_of_mem o ho')
    rw [hone] at hrest
    have hfirst := commands_of_off (gating_eq_latestReached hnew ops) hoff o
    rw [Act.commands] at hfirst hrest ⊢
    rw [actsOver, List.filterMap_append, hfirst, hrest, List.append_nil]

end Runs

/-- Once the last view says that the hub is off, and for as long as no hub within reach is reported to
be on, every view has all its buttons and shortcuts disabled, no press makes a call, and no command is
sent on the way. The first report of a hub that is on ends that. -/
theorem silent_while_off {config : Config} {start : Card} (hnew : Card.new config = .ok start)
    {ops : List Operation} {v : View} (hlast : (start.after ops).lastView = some v)
    (hoff : v.poweredOff = true) {more : List Operation}
    (hmore : ∀ o ∈ more, o.switchesOn config = false) :
    let c := start.after (ops ++ more)
    (∃ w, c.lastView = some w ∧ w.poweredOff = true ∧ (∀ b ∈ w.buttons, b.enabled = false) ∧
      ∀ s ∈ w.shortcuts, s.enabled = false) ∧
    (∀ o, o.isPress = true → (c.perform o).acts.filterMap Act.call? = []) ∧
    Act.commands ((start.after ops).actsOver more) = [] ∧
    ∀ o, o.switchesOn config = true →
      ∃ w, (c.perform o).card.lastView = some w ∧ w.poweredOff = false := by
  intro c
  have hbefore : (start.after ops).gating.poweredOff = true := by
    rw [(rest_and_drawn_after hnew ops).2.last v hlast] at hoff
    exact hoff
  have hpower : c.gating.poweredOff = true := poweredOff_after hnew hbefore hmore
  have hgating : c.gating = gatingOf config (latestReached config (ops ++ more)) :=
    gating_eq_latestReached hnew (ops ++ more)
  refine ⟨⟨c.view, ?_, hpower, ?_⟩, ?_, commands_actsOver_of_off hnew hbefore hmore, ?_⟩
  · exact (rest_and_drawn_after hnew (ops ++ more)).2.lastView_of_off hpower
  · have hdisabled := disabled_of_off (hgating ▸ hpower)
    rw [← hgating] at hdisabled
    exact hdisabled
  · intro o hpress
    rcases press_of_off hgating hpower hpress with ⟨key, reason, hskip⟩
    rw [hskip]
    rfl
  · intro o hon
    have hconfig : c.config = config := config_after hnew (ops ++ more)
    rw [← hconfig] at hon
    exact lastView_of_switchesOn hon

end Card

namespace Sample

/-- The hub is switched off, with a favourite. -/
def switchedOff : List Operation :=
  [.updateFrom host (entities "on" "TV" (("current_activity", .str "Powered off") :: favorites)) 0]

/-- Then it is out of reach with a macro, and the user tries the card. -/
def outage : List Operation :=
  [.updateFrom host (entities "unavailable" "TV" macros) 1000,
    .handle accepting (.pressShortcut 0) 2000, .handle accepting (.pressButton "up") 3000,
    .wake 20000]

end Sample

namespace Card

open Sample

theorem silent_while_off_outage :
    let c := (card Sample.config).after (switchedOff ++ outage)
    (∃ w, c.lastView = some w ∧ w.poweredOff = true) ∧
      (c.perform (.handle accepting (.pressButton "up") 21000)).acts.filterMap Act.call? = [] ∧
      ∃ w, (c.perform (.updateFrom host (entities "on" "TV" favorites) 22000)).card.lastView =
        some w ∧ w.poweredOff = false := by
  have hview : (((card Sample.config).after switchedOff).lastView.map (·.poweredOff)) = some true := by
    decide +kernel
  rcases Option.map_eq_some_iff.mp hview with ⟨v, hlast, hoff⟩
  have houtage : ∀ o ∈ outage, o.switchesOn Sample.config = false := by decide +kernel
  rcases silent_while_off new_config hlast hoff houtage with
    ⟨⟨w, hw, hpower, -⟩, hsilent, -, hagain⟩
  exact ⟨⟨w, hw, hpower⟩, hsilent _ rfl, hagain _ (by decide +kernel)⟩

end Card

end HubCard
