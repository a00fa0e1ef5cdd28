import HubCard.Proofs.Display

/-!
Commands that are ignored. A pick that is not on offer or that shows nothing new, and a press that
is skipped, give no view and change nothing: the selector of the card may have been told the time,
and that is all. What is told of a command is enough to see whether it was ignored.
-/

namespace HubCard

namespace Act

/-- What is told of a command that is ignored: nothing of a pick, and of a press that it is
skipped. -/
def Dismissal (acts : List Act) : Command → Prop
  | .selectActivity _ => acts = []
  | .pressButton key => ∃ reason, acts = [.event (.commandSkipped key reason)]
  | .pressShortcut _ => ∃ key reason, acts = [.event (.commandSkipped key reason)]

-- The hub is asked for an option, or it is told that there is no one to ask.
theorem ofAction_selectOption_ne_nil (answer : Answer) (selectorId : Option String)
    (option : String) : ofAction answer selectorId (.selectOption option) ≠ [] := by
  cases selectorId with
  | none => exact List.cons_ne_nil _ _
  | some id => simp [ofAction]

-- A command that is sent begins with a call.
theorem ofSend_eq_cons (answer : Answer) (entity key : String) (commandId device : Id) :
    ∃ refusal more, ofSend answer entity key commandId device =
      .call (.sendCommand entity commandId device) refusal :: more := by
  unfold ofSend ofCall
  cases answer (.sendCommand entity commandId device) with
  | none => exact ⟨_, _, rfl⟩
  | some e => exact ⟨_, _, rfl⟩

end Act

namespace Card

/-! ## What an ignored command leaves -/

/-- Nothing of a card is different from another but the time that its selector has been told. -/
structure Untouched (c d : Card) : Prop where
  rest : d = c.withControl d.control
  timers : d.timers = c.timers
  request : d.control.request = c.control.request
  phase : d.control.phase = c.control.phase
  shown : d.control.shown = c.control.shown
  outcome : d.control.outcome = c.control.outcome
  written : d.control.written = c.control.written
  busy : d.busy = c.busy
  gating : d.gating = c.gating
  view : d.view = c.view
  lastView : d.lastView = c.lastView
  deadline : d.nextDeadline? = c.nextDeadline?

theorem untouched_self (c : Card) : c.Untouched c :=
  ⟨rfl, rfl, rfl, rfl, rfl, rfl, rfl, rfl, rfl, rfl, rfl, rfl⟩

-- A pick that shows nothing new only tells the selector the time.
theorem untouched_still {c : Card} (h : c.Rest) {option : String} {now : Millis}
    {control : Selector.Control} (hpick : c.control.pick option c.confirmed now = (control, []))
    (hphase : control.phase = c.control.phase) : c.Untouched (c.withControl control) := by
  have hshown : control.shown = c.control.shown := h.shown_still hpick hphase
  obtain ⟨-, hheld⟩ := h.settled.pick_still hpick hphase
  have hrequest : control.request = c.control.request := by
    rw [hheld]
    rfl
  constructor
  case view => simp [view, hshown]
  case deadline =>
    show Timers.earlier? c.timers.nextDeadline? (control.request.map _) = _
    rw [hrequest]
    rfl
  case outcome =>
    show control.outcome = _
    rw [hheld]
    rfl
  case written =>
    show control.written = _
    rw [hheld]
    rfl
  case request => exact hrequest
  case phase => exact hphase
  case shown => exact hshown
  all_goals rfl

/-! ## Which commands are ignored -/

-- A pick that changes something is heard of: the hub is asked for an option, or a request is over.
theorem pickActs_ne_nil {c : Card} (h : c.Rest) {option : String} {now : Millis}
    {control : Selector.Control} {actions : List Selector.Action}
    (hpick : c.control.pick option c.confirmed now = (control, actions))
    (hstir : actions ≠ [] ∨ control.phase ≠ c.control.phase) (answer : Answer) :
    c.pickActs answer control actions now ≠ [] := by
  have hasks : ∀ o, .selectOption o ∈ actions → c.pickActs answer control actions now ≠ [] := by
    intro o ho hnil
    rw [pickActs, List.append_eq_nil_iff, List.append_eq_nil_iff, List.flatMap_eq_nil_iff] at hnil
    exact Act.ofAction_selectOption_ne_nil answer _ o (hnil.1.1 _ ho)
  rcases Selector.Control.pick_cases h.settled.toReady option c.confirmed now with
    ⟨-, heq⟩ | ⟨-, -, heq⟩ | ⟨-, -, heq⟩
  · rw [heq, Selector.Control.settle_eq h.settled.toReady, Prod.mk.injEq] at hpick
    obtain ⟨hcontrol, hactions⟩ := hpick
    rcases h.ending?_eq now with hends | ⟨r, -, hends, -⟩
    · -- nothing has ended, so nothing is different
      exfalso
      rw [hends] at hactions
      rcases hstir with hstir | hstir
      · exact hstir hactions.symm
      · apply hstir
        rw [← hcontrol, Selector.Control.holding_phase, Selector.Control.kept?, hends,
          h.settled.phase]
        rfl
    · intro hnil
      rw [pickActs, List.append_eq_nil_iff, List.append_eq_nil_iff] at hnil
      have houtcome : control.outcome = some (.expired r.value) := by
        rw [← hcontrol, hends]
        rfl
      have hreport := hnil.1.2
      rw [Act.ofOutcome, houtcome] at hreport
      cases hreport
  · rw [heq, Prod.mk.injEq] at hpick
    exact hasks option (by simp [← hpick.2])
  · rw [heq, Prod.mk.injEq] at hpick
    exact hasks option (by simp [← hpick.2])

theorem pressActs_ne_skip (c : Card) (answer : Answer) (key : String) (commandId device : Id)
    (now : Millis) (key' : String) (reason : SkipReason) :
    c.pressActs answer key commandId device now ≠ [.event (.commandSkipped key' reason)] := by
  obtain ⟨refusal, more, hsend⟩ := Act.ofSend_eq_cons answer c.config.entity key commandId device
  rw [pressActs, hsend]
  intro hskip
  cases (List.cons.inj hskip).1

/-- A command is ignored, and then nothing is different, or gives a view; which of the two it is can
be told from the acts. -/
inductive Handled (c : Card) (command : Command) : Pass × Option View → Prop where
  | ignored {p : Pass} (huntouched : c.Untouched p.card) (hacts : Act.Dismissal p.acts command) :
      Handled c command (p, none)
  | taken {p : Pass} {v : View} (hlast : p.card.lastView = some v)
      (hacts : ¬ Act.Dismissal p.acts command) : Handled c command (p, some v)

theorem handled_selectActivity {c : Card} (h : c.Rest) (answer : Answer) (option : String)
    (now : Millis) : c.Handled (.selectActivity option) (c.selectActivity answer option now) := by
  cases hoffers : c.offers option with
  | false =>
    rw [selectActivity_of_not_offers hoffers]
    exact .ignored c.untouched_self rfl
  | true =>
    rcases hpick : c.control.pick option c.confirmed now with ⟨control, actions⟩
    rw [selectActivity_of_offers hoffers hpick]
    by_cases hstill : actions = [] ∧ control.phase = c.control.phase
    · obtain ⟨rfl, hphase⟩ := hstill
      rw [if_pos (by simp [hphase])]
      exact .ignored (untouched_still h hpick hphase) rfl
    · rw [if_neg (by simpa using hstill)]
      rw [not_and_or] at hstill
      exact .taken (lastView_withView _) (pickActs_ne_nil h hpick hstill answer)

theorem handled_pressButton (c : Card) (answer : Answer) (key : String) (now : Millis) :
    c.Handled (.pressButton key) (c.pressButton answer key now) := by
  rcases c.pressButton_cases key now with ⟨reason, h⟩ | ⟨commandId, device, -, h⟩
  · rw [h]
    exact .ignored c.untouched_self ⟨reason, rfl⟩
  · rw [h]
    refine .taken (lastView_withView _) ?_
    rintro ⟨reason, hskip⟩
    exact c.pressActs_ne_skip answer key commandId device now key reason hskip

theorem handled_pressShortcut (c : Card) (answer : Answer) (index : Nat) (now : Millis) :
    c.Handled (.pressShortcut index) (c.pressShortcut answer index now) := by
  rcases c.pressShortcut_cases index now with
    ⟨key, reason, h⟩ | ⟨shortcut, state, device, -, -, -, -, -, h⟩
  · rw [h]
    exact .ignored c.untouched_self ⟨key, reason, rfl⟩
  · rw [h]
    refine .taken (lastView_withView _) ?_
    rintro ⟨key, reason, hskip⟩
    exact c.pressActs_ne_skip answer _ shortcut.commandId device now key reason hskip

theorem handled {c : Card} (h : c.Rest) (answer : Answer) (command : Command) (now : Millis) :
    c.Handled command (c.handle answer command now) := by
  cases command with
  | selectActivity option => exact handled_selectActivity h answer option now
  | pressButton key => exact c.handled_pressButton answer key now
  | pressShortcut index => exact c.handled_pressShortcut answer index now

end Card

-- Skipping a press is no call.
theorem Act.Dismissal.calls {acts : List Act} {command : Command} (h : Act.Dismissal acts command) :
    acts.filterMap Act.call? = [] := by
  cases command with
  | selectActivity option =>
    rw [show acts = [] from h]
    rfl
  | pressButton key =>
    obtain ⟨reason, hskip⟩ := h
    rw [hskip]
    rfl
  | pressShortcut index =>
    obtain ⟨key, reason, hskip⟩ := h
    rw [hskip]
    rfl

namespace Card

/-! ## After a run -/

/-- After any run, a command gives no view exactly when nothing is told of it, if it is a pick, and
only that it is skipped, if it is a press. Then there is no call, and nothing of the card is
different but the time that the selector has been told. The view that a command gives is the last
view. -/
theorem ignored_exact {config : Config} {start : Card} (hnew : Card.new config = .ok start)
    (ops : List Operation) (answer : Answer) (command : Command) (now : Millis) :
    let c := start.after ops
    let result := c.handle answer command now
    (result.2 = none ↔ Act.Dismissal result.1.acts command) ∧
      (result.2 = none →
        result.1.acts.filterMap Act.call? = [] ∧ c.Untouched result.1.card) ∧
      ∀ v, result.2 = some v → result.1.card.lastView = some v := by
  intro c result
  have hrest : c.Rest := (rest_and_drawn_after hnew ops).1
  have hhandled : c.Handled command result := handled hrest answer command now
  generalize result = r at hhandled
  cases hhandled with
  | ignored huntouched hacts =>
    refine ⟨⟨fun _ => hacts, fun _ => rfl⟩, fun _ => ⟨hacts.calls, huntouched⟩, ?_⟩
    intro v hv
    cases hv
  | taken hlast hacts =>
    refine ⟨⟨fun hnone => (by cases hnone), fun hdismissal => absurd hdismissal hacts⟩, ?_, ?_⟩
    · intro hnone
      cases hnone
    · intro v hv
      rw [← Option.some.inj hv]
      exact hlast

open Sample

-- The last moment at which a pick of what has been picked already is ignored, and the one after it.
theorem ignored_exact_again :
    let c := (card Sample.config).after picked
    let again := fun now => c.handle accepting (.selectActivity "Movie") now
    (again 16000).2 = none ∧ c.Untouched (again 16000).1.card ∧
      (again 16001).2.isSome = true ∧ (again 16001).1.card.lastView = (again 16001).2 := by
  intro c again
  obtain ⟨-, hignored, -⟩ :=
    ignored_exact new_config picked accepting (.selectActivity "Movie") 16000
  obtain ⟨-, -, htaken⟩ :=
    ignored_exact new_config picked accepting (.selectActivity "Movie") 16001
  have hnone : (again 16000).2 = none := by decide +kernel
  have hsome : (again 16001).2.isSome = true := by decide +kernel
  obtain ⟨v, hv⟩ := Option.isSome_iff_exists.mp hsome
  refine ⟨hnone, (hignored hnone).2, hsome, ?_⟩
  rw [hv]
  exact htaken v hv

end Card

end HubCard
