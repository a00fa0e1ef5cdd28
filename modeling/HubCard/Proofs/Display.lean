import HubCard.Proofs.Selection
import HubCard.Proofs.Waking
import Mathlib.Data.List.Chain

/-!
The view that was given last is the view of the card as it stands. An operation that gives no view
has changed nothing that can be seen, and the changes of the light that are reported take turns, so
the last of them tells what the view shows.
-/

namespace HubCard

namespace Card

/-! ## The view that is given -/

/-- A view that is given is kept, and without one nothing that can be seen has changed. -/
def KeepsView (c : Card) (result : Pass × Option View) : Prop :=
  result.1.card.lastView = result.2.or c.lastView ∧
    (result.2 = none → result.1.card.view = c.view)

theorem keepsView_skipped (c : Card) (acts : List Act) : c.KeepsView (⟨c, acts⟩, none) :=
  ⟨rfl, fun _ => rfl⟩

theorem keepsView_pulsed (c : Card) (acts : List Act) (now : Millis) :
    c.KeepsView (⟨c.pulsed now, acts⟩, some (c.pulsed now).view) :=
  ⟨lastView_withView _, fun hnone => by cases hnone⟩

theorem keepsView_pressButton (c : Card) (answer : Answer) (key : String) (now : Millis) :
    c.KeepsView (c.pressButton answer key now) := by
  rcases c.pressButton_cases key now with ⟨reason, h⟩ | ⟨commandId, device, -, h⟩
  · rw [h]
    exact c.keepsView_skipped _
  · rw [h]
    exact c.keepsView_pulsed _ now

theorem keepsView_pressShortcut (c : Card) (answer : Answer) (index : Nat) (now : Millis) :
    c.KeepsView (c.pressShortcut answer index now) := by
  rcases c.pressShortcut_cases index now with
    ⟨key, reason, h⟩ | ⟨shortcut, state, device, -, -, -, -, -, h⟩
  · rw [h]
    exact c.keepsView_skipped _
  · rw [h]
    exact c.keepsView_pulsed _ now

theorem keepsView_selectActivity {c : Card} (h : c.Rest) (answer : Answer) (option : String)
    (now : Millis) : c.KeepsView (c.selectActivity answer option now) := by
  cases hoffers : c.offers option with
  | false =>
    rw [selectActivity_of_not_offers hoffers]
    exact c.keepsView_skipped []
  | true =>
    rcases hpick : c.control.pick option c.confirmed now with ⟨control, actions⟩
    rw [selectActivity_of_offers hoffers hpick]
    split
    · rename_i hstill
      rw [Bool.and_eq_true, List.isEmpty_iff, beq_iff_eq] at hstill
      rcases hstill with ⟨rfl, hphase⟩
      refine ⟨rfl, fun _ => ?_⟩
      simp [view, h.shown_still hpick hphase]
    · exact ⟨rfl, fun hnone => by cases hnone⟩

theorem keepsView_wake (c : Card) (now : Millis) : c.KeepsView (c.wake now) := by
  rw [wake_eq]
  cases hstirs : c.stirs now with
  | true => exact ⟨rfl, fun hnone => by cases hnone⟩
  | false => exact ⟨rfl, fun _ => view_roused hstirs⟩

theorem keepsView_perform {c : Card} (h : c.Rest) (o : Operation) :
    c.KeepsView (c.perform o, c.given? o) := by
  cases o with
  | start => exact ⟨rfl, fun _ => rfl⟩
  | writeBack =>
    refine ⟨rfl, fun _ => ?_⟩
    have hshown : c.control.writeBack.1.shown = c.control.shown :=
      c.control.writeBack_frame.2.2.2.2
    change (c.withControl c.control.writeBack.1).view = c.view
    simp [view, hshown]
  | update host hub selector now => exact ⟨rfl, fun hnone => by cases hnone⟩
  | updateFrom host entities now => exact ⟨rfl, fun hnone => by cases hnone⟩
  | wake now => exact keepsView_wake c now
  | handle answer command now =>
    cases command with
    | selectActivity option => exact keepsView_selectActivity h answer option now
    | pressButton key => exact keepsView_pressButton c answer key now
    | pressShortcut index => exact keepsView_pressShortcut c answer index now

/-! ## Before the first update -/

/-- A card that has given no view yet, with nothing to wait for. -/
structure Fresh (c : Card) : Prop where
  blank : c.lastView = none
  idle : c.control.request = none
  dark : c.lamp = .new c.config.timing

theorem Drawn.offers_of_blank {c : Card} (h : c.Drawn) (hblank : c.lastView = none)
    (option : String) : c.offers option = false := by
  rw [← Bool.not_eq_true, offers_iff h, hblank]
  rintro ⟨v, hv, -⟩
  cases hv

-- Before the first update there is nothing to press: no button has a route, no shortcut is known.
theorem Drawn.handle_of_blank {c : Card} (h : c.Drawn) (hblank : c.lastView = none)
    (answer : Answer) (command : Command) (now : Millis) :
    (c.handle answer command now).1.card = c := by
  rcases h.first hblank with ⟨hhub, -, hgating⟩
  cases command with
  | selectActivity option =>
    rw [handle, selectActivity_of_not_offers (h.offers_of_blank hblank option)]
  | pressButton key =>
    rcases c.pressButton_cases key now with ⟨reason, hpress⟩ | ⟨commandId, device, hroute, -⟩
    · rw [handle, hpress]
    · rw [hhub, hgating] at hroute
      cases hroute
  | pressShortcut index =>
    rcases c.pressShortcut_cases index now with
      ⟨key, reason, hpress⟩ | ⟨shortcut, state, device, hshortcut, -⟩
    · rw [handle, hpress]
    · rw [hhub] at hshortcut
      cases hshortcut

theorem Fresh.wake {c : Card} (h : c.Fresh) (hrest : c.Rest) (now : Millis) :
    (c.wake now).1.card.Fresh := by
  have htimers : c.timers = .empty := congrArg Lamp.timers h.dark
  have hfew : c.timers.Few := by
    rw [htimers, Timers.Few]
    decide
  have hnever : c.nextDeadline? = none := by
    rw [nextDeadline?, htimers, h.idle]
    rfl
  obtain ⟨hgiven, -, hrequest, -, hlamp⟩ :=
    wake_early hrest (sound_of_new h.dark now) hfew (by simp [hnever])
  have hconfig : (c.wake now).1.card.config = c.config := config_perform c (.wake now)
  refine ⟨?_, hrequest.trans h.idle, ?_⟩
  · rw [(keepsView_wake c now).1, hgiven]
    exact h.blank
  · rw [hlamp, hconfig]
    exact h.dark

theorem Fresh.perform {c : Card} (h : c.Fresh) (hrest : c.Rest) (hdrawn : c.Drawn) {o : Operation}
    (ho : o.isUpdate = false) : (c.perform o).card.Fresh := by
  cases o with
  | start => exact h
  | writeBack => exact ⟨h.blank, c.control.writeBack_frame.1.trans h.idle, h.dark⟩
  | wake now => exact h.wake hrest now
  | handle answer command now =>
    rw [Card.perform, hdrawn.handle_of_blank h.blank]
    exact h
  | update | updateFrom => cases ho

theorem given?_isSome_of_isUpdate (c : Card) {o : Operation} (ho : o.isUpdate = true) :
    (c.given? o).isSome = true := by
  cases o with
  | update | updateFrom => rfl
  | start | handle | wake | writeBack => cases ho

theorem lastView_isSome_after {c : Card} (h : c.Rest) {ops : List Operation}
    (hsome : c.lastView.isSome = true ∨ ∃ o ∈ ops, o.isUpdate = true) :
    (c.after ops).lastView.isSome = true := by
  induction ops generalizing c with
  | nil =>
    rcases hsome with hsome | ⟨o, ho, -⟩
    · exact hsome
    · cases ho
  | cons o ops ih =>
    rw [after_cons]
    apply ih (h.perform o)
    have hlast : (c.perform o).card.lastView = (c.given? o).or c.lastView :=
      (keepsView_perform h o).1
    rw [hlast]
    rcases hsome with hsome | ⟨o', ho', hupdate⟩
    · left
      cases c.given? o with
      | none => exact hsome
      | some v => rfl
    · rcases List.mem_cons.mp ho' with rfl | ho'
      · left
        rw [Option.isSome_or, c.given?_isSome_of_isUpdate hupdate, Bool.true_or]
      · exact .inr ⟨o', ho', hupdate⟩

section Runs

variable {config : Config} {start : Card} (hnew : Card.new config = .ok start)

include hnew

theorem fresh_after {ops : List Operation} (hnever : ∀ o ∈ ops, o.isUpdate = false) :
    (start.after ops).Fresh := by
  have hinv : (start.after ops).Fresh ∧ (start.after ops).Rest ∧ (start.after ops).Drawn := by
    apply after_induction (·.isUpdate = false) (fun c => c.Fresh ∧ c.Rest ∧ c.Drawn)
    · intro c o ho hc
      exact ⟨hc.1.perform hc.2.1 hc.2.2 ho, hc.2.1.perform o, hc.2.2.perform hc.2.1 o⟩
    · refine ⟨?_, rest_and_drawn_after hnew []⟩
      rw [new_eq hnew]
      exact ⟨rfl, rfl, rfl⟩
    · exact hnever
  exact hinv.1

end Runs

/-! ## The light -/

-- An operation reports the light exactly when it has changed it.
theorem lights_perform (c : Card) (o : Operation) :
    Act.lights (c.perform o).acts =
      if (c.perform o).card.busy.light = c.busy.light then []
      else [(c.perform o).card.busy.light] := by
  rcases c.lamp_perform o with hsame | ⟨now, orders, h⟩
  · have hbusy : (c.perform o).card.busy = c.busy := congrArg Lamp.busy hsame.1
    rw [hbusy, if_pos rfl]
    exact hsame.2
  · have hbusy : (c.perform o).card.busy = ((c.lamp.obeyAll orders).obey (.refresh now)).busy :=
      congrArg Lamp.busy h.lamp
    have hlight : c.lamp.busy.light = c.busy.light := rfl
    rw [h.lights, c.lamp.change_obeyAll h.unlit now, hbusy, hlight]
    split <;> rfl

-- The reports of the light take turns, and the last of them is right.
theorem lights_actsOver (c : Card) (ops : List Operation) :
    (c.busy.light :: Act.lights (c.actsOver ops)).IsChain (· ≠ ·) ∧
      (c.after ops).busy.light = (Act.lights (c.actsOver ops)).getLastD c.busy.light := by
  induction ops generalizing c with
  | nil => exact ⟨List.isChain_singleton _, rfl⟩
  | cons o ops ih =>
    rcases ih (c.perform o).card with ⟨hchain, hlast⟩
    rw [actsOver, Act.lights_append, lights_perform, after_cons, hlast]
    split
    · rename_i hsame
      rw [hsame] at hchain ⊢
      exact ⟨hchain, rfl⟩
    · rename_i hchanged
      rw [List.singleton_append, List.getLastD_cons]
      exact ⟨List.isChain_cons_cons.mpr ⟨Ne.symm hchanged, hchain⟩, rfl⟩

end Card

-- Values that take turns are on at every other place.
theorem isChain_ne_getElem? {before : Bool} {lights : List Bool}
    (h : (before :: lights).IsChain (· ≠ ·)) {i : Nat} {light : Bool}
    (hlight : lights[i]? = some light) : light = if i % 2 = 0 then !before else before := by
  induction lights generalizing before i with
  | nil => cases hlight
  | cons first lights ih =>
    rcases List.isChain_cons_cons.mp h with ⟨hne, hrest⟩
    have hfirst : first = !before := Bool.eq_not.mpr hne.symm
    cases i with
    | zero =>
      rw [List.getElem?_cons_zero, Option.some.injEq] at hlight
      rw [← hlight, hfirst]
      rfl
    | succ i =>
      rw [ih hrest hlight, hfirst, Bool.not_not]
      rcases Nat.mod_two_eq_zero_or_one i with heven | hodd
      · have hnext : (i + 1) % 2 = 1 := by omega
        rw [if_pos heven, hnext, if_neg (by decide)]
      · have hnext : (i + 1) % 2 = 0 := by omega
        rw [hodd, if_neg (by decide), if_pos hnext]

namespace Card

/-! ## After a run -/

/-- After any run: there is a last view once there has been an update, and it is that of the card as
it stands. An operation that gives no view changes nothing that can be seen, and the view that one
gives is the last view from then on. The reports of the light in the run are on and off by turns,
first on, and the last view shows the last of them. -/
theorem last_view_exact {config : Config} {start : Card} (hnew : Card.new config = .ok start)
    (ops : List Operation) :
    let c := start.after ops
    let lights := Act.lights (start.actsOver ops)
    (c.lastView = none ↔ ∀ o ∈ ops, o.isUpdate = false) ∧
      (∀ v, c.lastView = some v →
        v = View.compose config c.hub c.selector c.gating.buttons c.gating.shortcuts
            c.control.shown c.busy.light c.gating.poweredOff ∧
          v.busy = lights.getLastD false) ∧
      (∀ o, c.given? o = none →
        (c.perform o).card.view = c.view ∧ (c.perform o).card.lastView = c.lastView) ∧
      (∀ o v, c.given? o = some v → (c.perform o).card.lastView = some v) ∧
      ∀ i light, lights[i]? = some light → (light = true ↔ i % 2 = 0) := by
  intro c lights
  rcases rest_and_drawn_after hnew ops with ⟨hrest, hdrawn⟩
  have hconfig : c.config = config := config_after hnew ops
  have hdark : start.busy.light = false := by rw [new_eq hnew]; rfl
  rcases start.lights_actsOver ops with ⟨hchain, hlast⟩
  rw [hdark] at hchain hlast
  refine ⟨⟨?_, ?_⟩, ?_, ?_, ?_, ?_⟩
  · -- an update gives a view, and no view is ever taken back
    intro hnone o ho
    rw [← Bool.not_eq_true]
    intro hupdate
    have hstart : start.Rest := (rest_and_drawn_after hnew []).1
    have hsome := lastView_isSome_after hstart (.inr ⟨o, ho, hupdate⟩)
    rw [hnone] at hsome
    cases hsome
  · intro hnever
    exact (fresh_after hnew hnever).blank
  · intro v hv
    have hview : v = c.view := hdrawn.last v hv
    rw [hview, ← hconfig]
    exact ⟨rfl, hlast⟩
  · intro o hnone
    have hkept := keepsView_perform hrest o
    refine ⟨hkept.2 hnone, ?_⟩
    rw [hkept.1, hnone]
    rfl
  · intro o v hv
    rw [(keepsView_perform hrest o).1, hv]
    rfl
  · intro i light hlight
    rw [isChain_ne_getElem? hchain hlight]
    split <;> simp [*]

open Sample

-- A pick turns the light on, and the view that it gives shows that.
theorem last_view_exact_picked :
    ∃ v, ((card Sample.config).after picked).lastView = some v ∧ v.busy = true := by
  have hlights : Act.lights ((card Sample.config).actsOver picked) = [true] := by decide +kernel
  obtain ⟨hfirst, hlast, -⟩ := last_view_exact new_config picked
  cases hview : ((card Sample.config).after picked).lastView with
  | none =>
    have hnever := hfirst.mp hview _ List.mem_cons_self
    cases hnever
  | some v =>
    refine ⟨v, rfl, ?_⟩
    rw [(hlast v hview).2, hlights]
    rfl

end Card

end HubCard
