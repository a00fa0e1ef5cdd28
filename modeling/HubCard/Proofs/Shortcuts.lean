import HubCard.Proofs.Invariants

/-!
What a press of a shortcut sends. The card shows the shortcuts of the last hub that could be reached,
and sends those of the last report, so the two need not be the same.
-/

namespace HubCard

namespace Act

/-- The commands among a list of acts: the hub, the command and the device it is for. -/
def commands (acts : List Act) : List (String × Id × Id) :=
  acts.filterMap fun
    | .call (.sendCommand entity commandId device) _ => some (entity, commandId, device)
    | _ => none

theorem commands_eq_nil {acts : List Act} (h : Spare .command acts) : commands acts = [] := by
  apply h.filterMap_eq_nil
  intro a htopic
  split
  · exact absurd rfl htopic
  · rfl

theorem commands_ofSend (answer : Answer) (entity key : String) (commandId device : Id) :
    commands (ofSend answer entity key commandId device) = [(entity, commandId, device)] := by
  unfold ofSend ofCall
  cases answer (.sendCommand entity commandId device) <;> rfl

end Act

namespace Card

theorem commands_pressActs (c : Card) (answer : Answer) (key : String) (commandId device : Id)
    (now : Millis) :
    Act.commands (c.pressActs answer key commandId device now) =
      [(c.config.entity, commandId, device)] := by
  have hlight : Act.commands (Act.ofLight ((c.lamp.obey (.pulse now)).busy.refresh now).2) = [] :=
    Act.commands_eq_nil (by simp)
  rw [Act.commands] at hlight
  rw [pressActs, Act.commands, List.filterMap_append, hlight, List.append_nil]
  exact Act.commands_ofSend answer c.config.entity key commandId device

/-! ## The shortcuts that are shown -/

/-- The reports that a run has brought of a hub that could be reached. -/
def reached (config : Config) (ops : List Operation) : List (HubReport × SelectorReport) :=
  ops.filterMap fun o => (o.reports? config).filter (·.1.availability = .available)

/-- The gating that goes with a pair of reports. -/
def gatingOf (config : Config) (reports : HubReport × SelectorReport) : Gating :=
  .ofReports config reports.1 reports.2

-- The gating before the first update is what comes of no reports.
theorem gatingOf_missing (config : Config) : gatingOf config (.missing, .missing) = .initial := by
  have hon : Gate.isPoweredOff HubReport.missing.activityLabel SelectorReport.missing.value =
      false := by decide +kernel
  rw [gatingOf, Gating.ofReports, hon]
  rfl

theorem gating_after (c : Card) (reports : HubReport × SelectorReport)
    (h : c.gating = gatingOf c.config reports) (ops : List Operation) :
    (c.after ops).gating = gatingOf c.config ((reached c.config ops).getLastD reports) := by
  have hstep : ∀ (c : Card) (o : Operation), (c.perform o).card.gating =
      (((o.reports? c.config).filter (·.1.availability = .available)).map (gatingOf c.config)).getD
        c.gating := by
    intro c o
    rw [gating_perform]
    cases (o.reports? c.config).filter (·.1.availability = .available) <;> rfl
  have hlast := after_overwriting Card.gating (fun config o =>
    ((o.reports? config).filter (·.1.availability = .available)).map (gatingOf config)) hstep c ops
  rw [hlast, h, ← List.map_filterMap, List.getLastD_eq_getLast?, List.getLast?_map,
    List.getLastD_eq_getLast?]
  exact Option.getD_map ..

/-- The reports that the gating of the card goes by. -/
def latestReached (config : Config) (ops : List Operation) : HubReport × SelectorReport :=
  (reached config ops).getLastD (.missing, .missing)

theorem shortcut_shown {config : Config} {reports : HubReport × SelectorReport} {index : Nat}
    {state : ShortcutState} (h : (gatingOf config reports).shortcuts[index]? = some state) :
    ∃ shown, reports.1.shortcuts[index]? = some shown ∧ state.kind = shown.kind ∧
      state.label = shown.label ∧ state.visible = config.showsShortcut shown.kind := by
  simp only [gatingOf, Gating.ofReports, Gate.shortcuts, List.getElem?_map,
    Option.map_eq_some_iff] at h
  rcases h with ⟨shown, hshown, rfl⟩
  exact ⟨shown, hshown, rfl, rfl, rfl⟩

-- Where the last reports are of a hub that could be reached, they are the ones that are shown.
theorem latestReached_eq {config : Config} {ops : List Operation}
    (h : (latest config ops).1.availability = .available) :
    latestReached config ops = latest config ops := by
  unfold latest at h ⊢
  have hreached : reached config ops =
      (ops.filterMap (·.reports? config)).filter (·.1.availability = .available) :=
    List.filter_filterMap.symm
  rw [latestReached, hreached]
  cases hlast : (ops.filterMap (·.reports? config)).getLast? with
  | none =>
    rw [List.getLast?_eq_none_iff] at hlast
    rw [hlast] at h
    cases h
  | some reports =>
    rcases List.getLast?_eq_some_iff.mp hlast with ⟨before, hbefore⟩
    rw [hbefore, List.getLastD_concat] at h ⊢
    have hfilter : [reports].filter (·.1.availability = .available) = [reports] := by simp [h]
    rw [List.filter_append, hfilter, List.getLastD_concat]

-- A shortcut is only kept for pressing once it has been shown.
theorem Drawn.shows_shortcut {c : Card} (h : c.Drawn) {index : Nat} {state : ShortcutState}
    (hstate : c.gating.shortcuts[index]? = some state) :
    ∃ v, c.lastView = some v ∧ v.shortcuts[index]? = some state := by
  cases hlast : c.lastView with
  | none =>
    rw [(h.first hlast).2.2] at hstate
    cases hstate
  | some v =>
    refine ⟨v, rfl, ?_⟩
    rw [h.last v hlast]
    exact hstate

/-! ## After a run -/

theorem gating_eq_latestReached {config : Config} {start : Card}
    (hnew : Card.new config = .ok start) (ops : List Operation) :
    (start.after ops).gating = gatingOf config (latestReached config ops) := by
  have hstart : start.gating = gatingOf start.config (.missing, .missing) := by
    rw [gatingOf_missing, new_eq hnew]
  have hconfig : start.config = config := config_after hnew []
  rw [← hconfig]
  exact gating_after start (.missing, .missing) hstart ops

theorem shortcuts_eq_latestReached {config : Config} {start : Card}
    (hnew : Card.new config = .ok start) (ops : List Operation) :
    (start.after ops).gating.shortcuts =
      (gatingOf config (latestReached config ops)).shortcuts := by
  rw [gating_eq_latestReached hnew]

/-- After any run, a press of a shortcut that makes a call finds in its place of the last view a
shortcut that can be seen and pressed, and sends the one in that place of the last report. The view
has it from the last report of a hub that could be reached, so what is sent has the kind and the
label that are shown exactly when those two shortcuts agree on them. They are the same one when the
last report is of a hub that can be reached. -/
theorem shortcut_press_exact {config : Config} {start : Card} (hnew : Card.new config = .ok start)
    (ops : List Operation) (answer : Answer) (index : Nat) (now : Millis) :
    let acts := ((start.after ops).perform (.handle answer (.pressShortcut index) now)).acts
    Act.commands acts ≠ [] →
      ∃ v state listed shown device, (start.after ops).lastView = some v ∧
        v.shortcuts[index]? = some state ∧ state.visible = true ∧ state.enabled = true ∧
        (latest config ops).1.shortcuts[index]? = some listed ∧
        Gate.shortcutRoute? listed (latest config ops).1.activityId = some device ∧
        Act.commands acts = [(config.entity, listed.commandId, device)] ∧
        (latestReached config ops).1.shortcuts[index]? = some shown ∧
        config.showsShortcut shown.kind = true ∧
        (listed.kind = state.kind ∧ listed.label = state.label ↔
          listed.kind = shown.kind ∧ listed.label = shown.label) ∧
        ((latest config ops).1.availability = .available → listed = shown) := by
  intro acts hsent
  have hdrawn : (start.after ops).Drawn := (rest_and_drawn_after hnew ops).2
  have hconfig : (start.after ops).config = config := config_after hnew ops
  have hhub : (start.after ops).hub = (latest config ops).1 := (reports_eq_latest hnew ops).1
  have hacts : acts = ((start.after ops).pressShortcut answer index now).1.acts := rfl
  rcases (start.after ops).pressShortcut_cases index now with
    ⟨key, reason, hpress⟩ |
      ⟨listed, state, device, hlisted, hstate, hvisible, henabled, hroute, hpress⟩
  · -- a press that is skipped makes no call
    rw [hacts, hpress] at hsent
    exact absurd rfl hsent
  · rcases hdrawn.shows_shortcut hstate with ⟨v, hlast, hview⟩
    rw [shortcuts_eq_latestReached hnew ops] at hstate
    rcases shortcut_shown hstate with ⟨shown, hshown, hkind, hlabel, hshows⟩
    rw [hhub] at hlisted hroute
    refine ⟨v, state, listed, shown, device, hlast, hview, hvisible, henabled, hlisted, hroute, ?_,
      hshown, ?_, ?_, ?_⟩
    · rw [hacts, hpress, ← hconfig]
      exact commands_pressActs _ answer listed.label listed.commandId device now
    · rw [← hshows, hvisible]
    · rw [hkind, hlabel]
    · intro havailable
      rw [latestReached_eq havailable, hlisted] at hshown
      exact Option.some.inj hshown

end Card

namespace Sample

/-- The attributes of a hub whose current activity has one favourite. -/
def favorites : List (String × Json) :=
  [("current_activity_id", .int 101),
    ("favorite_keys", .object [("101", .arr [.object
      [("id", .int 5), ("name", .str "BBC One"), ("device_id", .int 3)]])])]

/-- The attributes of a hub whose current activity has one macro. -/
def macros : List (String × Json) :=
  [("current_activity_id", .int 101),
    ("macro_keys", .object [("101", .arr [.object [("id", .int 7), ("name", .str "All off")]])])]

/-- The hub has a favourite, and is then out of reach with a macro in its place. -/
def replaced : List Operation :=
  [.updateFrom host (entities "on" "TV" favorites) 0,
    .updateFrom host (entities "unavailable" "TV" macros) 1000]

def withoutMacros : Config := { config with showMacros := false }

end Sample

namespace Card

open Sample

theorem shortcut_press_exact_replaced :
    ∃ state, (((card Sample.config).after replaced).lastView.bind (·.shortcuts[0]?)) = some state ∧
      state.visible = true ∧ state.enabled = true := by
  have hsent : Act.commands (((card Sample.config).after replaced).perform
      (.handle accepting (.pressShortcut 0) 2000)).acts ≠ [] := by decide +kernel
  obtain ⟨v, state, _, _, _, hlast, hstate, hvisible, henabled, -⟩ :=
    shortcut_press_exact new_config replaced accepting 0 2000 hsent
  refine ⟨state, ?_, hvisible, henabled⟩
  rw [hlast]
  exact hstate

/-- What is sent need not be what is shown: here it is a macro, which the card is told not to show. -/
theorem hidden_macro_sent :
    Card.new withoutMacros = .ok (card withoutMacros) ∧
      (((card withoutMacros).after replaced).lastView.bind (·.shortcuts[0]?)) =
        some ⟨.favorite, "BBC One", true, true⟩ ∧
      ((card withoutMacros).after replaced).hub.shortcuts[0]? =
        some ⟨.activityMacro, "All off", 7, none⟩ ∧
      Act.commands (((card withoutMacros).after replaced).perform
        (.handle accepting (.pressShortcut 0) 2000)).acts = [("remote.hub", 7, 101)] := by
  refine ⟨rfl, ?_, ?_, ?_⟩ <;> decide +kernel

end Card

end HubCard
