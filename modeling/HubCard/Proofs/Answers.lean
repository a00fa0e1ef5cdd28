import HubCard.Proofs.Selection
import Mathlib.Data.List.Forall2

/-!
What the dashboard answers to a call is reported, and goes no further. A card that is refused all its
calls makes the same calls at the same times as one that is refused none, and nobody who looks at the
card can tell the two apart.
-/

namespace HubCard

namespace Act

/-- Whether an act is a call, or reports how one was answered. -/
def aboutCall : Act → Bool
  | .call .. | .event (.commandSent ..) | .event (.callFailed ..) => true
  | _ => false

/-- The calls among a list of acts, and the reports of how they were answered. -/
def callLog (acts : List Act) : List Act :=
  acts.filter aboutCall

/-- An event, unless it reports how a call was answered. -/
def report? : Act → Option Event
  | .event (.commandSent ..) | .event (.callFailed ..) => none
  | act => act.event?

/-- What is left of an act when nothing is said of how calls were answered. -/
def unanswered? : Act → Option Act
  | .call c _ => some (.call c none)
  | .event (.commandSent ..) | .event (.callFailed ..) => none
  | act => some act

def unanswered (acts : List Act) : List Act :=
  acts.filterMap unanswered?

@[simp] theorem callLog_append (acts more : List Act) :
    callLog (acts ++ more) = callLog acts ++ callLog more :=
  List.filter_append ..

@[simp] theorem unanswered_append (acts more : List Act) :
    unanswered (acts ++ more) = unanswered acts ++ unanswered more :=
  List.filterMap_append

theorem callLog_eq_nil {acts : List Act} (hselection : Spare .selection acts)
    (hcommand : Spare .command acts) : callLog acts = [] := by
  apply List.filter_eq_nil_iff.mpr
  intro a ha habout
  have hne := hselection a ha
  have hne' := hcommand a ha
  cases a with
  | call c refusal => cases c <;> simp [topic] at hne hne'
  | style m => simp [aboutCall] at habout
  | event e =>
    cases e with
    | callFailed service message =>
      simp only [topic] at hne hne'
      split at hne <;> simp_all
    | commandSent => simp [topic] at hne'
    | _ => simp [aboutCall] at habout

theorem mem_callLog {acts : List Act} {a : Act} (h : a.aboutCall = true) :
    a ∈ callLog acts ↔ a ∈ acts := by
  simp [callLog, h]

theorem calls_callLog (acts : List Act) :
    (callLog acts).filterMap call? = acts.filterMap call? := by
  rw [callLog, List.filterMap_filter]
  apply List.filterMap_congr
  intro a _
  cases a with
  | call c refusal => rfl
  | style m => rfl
  | event e => exact ite_self none

theorem callLog_ofCall (answer : Answer) (c : Call) :
    callLog (ofCall answer c) = ofCall answer c := by
  unfold ofCall
  cases answer c <;> rfl

-- A reading that does not look at the answers can be taken without them.
theorem filterMap_unanswered {α : Type} {read : Act → Option α}
    (hread : ∀ a : Act, a.unanswered?.bind read = read a) (acts : List Act) :
    (unanswered acts).filterMap read = acts.filterMap read := by
  rw [unanswered, List.filterMap_filterMap]
  exact List.filterMap_congr fun a _ => hread a

section SameButForAnswers

variable {acts acts' : List Act} (h : unanswered acts = unanswered acts')

include h

theorem filterMap_of_unanswered {α : Type} {read : Act → Option α}
    (hread : ∀ a : Act, a.unanswered?.bind read = read a) :
    acts.filterMap read = acts'.filterMap read := by
  rw [← filterMap_unanswered hread acts, h, filterMap_unanswered hread]

theorem calls_of_unanswered : acts.filterMap call? = acts'.filterMap call? := by
  apply filterMap_of_unanswered h
  intro a
  cases a with
  | event e => cases e <;> rfl
  | _ => rfl

theorem reports_of_unanswered : acts.filterMap report? = acts'.filterMap report? := by
  apply filterMap_of_unanswered h
  intro a
  cases a with
  | event e => cases e <;> rfl
  | _ => rfl

theorem mutations_of_unanswered : acts.filterMap mutation? = acts'.filterMap mutation? := by
  apply filterMap_of_unanswered h
  intro a
  cases a with
  | event e => cases e <;> rfl
  | _ => rfl

end SameButForAnswers

theorem unanswered_ofCall (answer : Answer) (c : Call) :
    unanswered (ofCall answer c) = [.call c none] := by
  unfold ofCall
  cases answer c <;> rfl

theorem unanswered_ofSend (answer : Answer) (entity key : String) (commandId device : Id) :
    unanswered (ofSend answer entity key commandId device) =
      [.call (.sendCommand entity commandId device) none] := by
  rw [ofSend, unanswered_append, unanswered_ofCall]
  split <;> rfl

theorem unanswered_ofAction (answer answer' : Answer) (selectorId : Option String)
    (actions : List Selector.Action) :
    unanswered (actions.flatMap (ofAction answer selectorId)) =
      unanswered (actions.flatMap (ofAction answer' selectorId)) := by
  induction actions with
  | nil => rfl
  | cons a actions ih =>
    have hfirst : unanswered (ofAction answer selectorId a) =
        unanswered (ofAction answer' selectorId a) := by
      cases a with
      | selectOption option =>
        cases selectorId with
        | none => rfl
        | some id => simp only [ofAction, unanswered_append, unanswered_ofCall]
      | startLoading target => rfl
      | stopLoading => rfl
    rw [List.flatMap_cons, List.flatMap_cons, unanswered_append, unanswered_append, hfirst, ih]

end Act

namespace Operation

/-- Two operations that differ in nothing but how the dashboard answers calls. -/
inductive Alike : Operation → Operation → Prop where
  | start : Alike .start .start
  | update (themes : Dict Theme) (dark : Bool) (answer answer' : Answer) (hub : HubReport)
      (selector : SelectorReport) (now : Millis) :
      Alike (.update ⟨themes, dark, answer⟩ hub selector now)
        (.update ⟨themes, dark, answer'⟩ hub selector now)
  | updateFrom (themes : Dict Theme) (dark : Bool) (answer answer' : Answer)
      (entities : Dict Entity) (now : Millis) :
      Alike (.updateFrom ⟨themes, dark, answer⟩ entities now)
        (.updateFrom ⟨themes, dark, answer'⟩ entities now)
  | handle (answer answer' : Answer) (command : Command) (now : Millis) :
      Alike (.handle answer command now) (.handle answer' command now)
  | wake (now : Millis) : Alike (.wake now) (.wake now)
  | writeBack : Alike .writeBack .writeBack

/-- How calls are answered in the course of the operation. -/
def answer : Operation → Answer
  | .update host _ _ _ | .updateFrom host _ _ => host.answer
  | .handle answer _ _ => answer
  | .start | .wake _ | .writeBack => fun _ => none

end Operation

/-- What there is to be seen of an operation, but for how its calls were answered. -/
structure Observation where
  calls : List Call
  /-- The events, without those that report how a call was answered. -/
  events : List Event
  mutations : List Mutation
  view : Option View
  /-- What is written to the selector control. -/
  written : Option String
  deadline : Option Millis
  control : Selector.Control
  busy : Busy
  deriving Repr, DecidableEq

namespace Card

/-- The value that an operation writes to the selector control, if it writes one. -/
def written? (c : Card) : Operation → Option String
  | .writeBack => c.writeBack.2
  | _ => none

def observe (c : Card) (o : Operation) : Observation where
  calls := (c.perform o).acts.filterMap Act.call?
  events := (c.perform o).acts.filterMap Act.report?
  mutations := (c.perform o).acts.filterMap Act.mutation?
  view := c.given? o
  written := c.written? o
  deadline := (c.perform o).card.nextDeadline?
  control := (c.perform o).card.control
  busy := (c.perform o).card.busy

/-- What there is to be seen of a run, operation by operation. -/
def observations (c : Card) : List Operation → List Observation
  | [] => []
  | o :: ops => c.observe o :: (c.perform o).card.observations ops

/-! ## Two dashboards -/

/-- Two results of an operation that differ in nothing but how its calls were answered. -/
structure SameResult (result result' : Pass × Option View) : Prop where
  card : result.1.card = result'.1.card
  view : result.2 = result'.2
  acts : Act.unanswered result.1.acts = Act.unanswered result'.1.acts

theorem SameResult.refl (result : Pass × Option View) : SameResult result result :=
  ⟨rfl, rfl, rfl⟩

variable {c : Card}

theorem update_alike (c : Card) (themes : Dict Theme) (dark : Bool) (answer answer' : Answer)
    (hub : HubReport) (selector : SelectorReport) (now : Millis) :
    let o : Operation := .update ⟨themes, dark, answer⟩ hub selector now
    let o' : Operation := .update ⟨themes, dark, answer'⟩ hub selector now
    SameResult (c.perform o, c.given? o) (c.perform o', c.given? o') := by
  have hacts := Act.unanswered_ofAction answer answer' hub.selectorId
    (c.settling hub selector now).2
  refine ⟨?_, ?_, ?_⟩
  · simp only [perform, update_eq]
    rfl
  · simp only [given?, update_eq]
    rfl
  · simp only [perform, update_eq, updateActs, Act.unanswered_append, hacts]
    rfl

theorem pressActs_alike (c : Card) (answer answer' : Answer) (key : String) (commandId device : Id)
    (now : Millis) :
    SameResult
      (⟨c.pulsed now, c.pressActs answer key commandId device now⟩, some (c.pulsed now).view)
      (⟨c.pulsed now, c.pressActs answer' key commandId device now⟩, some (c.pulsed now).view) :=
  ⟨rfl, rfl, by simp only [pressActs, Act.unanswered_append, Act.unanswered_ofSend]⟩

theorem handle_alike (c : Card) (answer answer' : Answer) (command : Command) (now : Millis) :
    SameResult (c.handle answer command now) (c.handle answer' command now) := by
  cases command with
  | selectActivity option =>
    simp only [handle]
    cases hoffers : c.offers option with
    | false =>
      simp only [selectActivity_of_not_offers hoffers]
      exact .refl _
    | true =>
      rcases hpick : c.control.pick option c.confirmed now with ⟨control, actions⟩
      simp only [selectActivity_of_offers hoffers hpick]
      split
      · exact .refl _
      · refine ⟨rfl, rfl, ?_⟩
        simp only [pickActs, Act.unanswered_append, Act.unanswered_ofAction answer answer']
  | pressButton key =>
    simp only [handle]
    rcases c.pressButton_cases key now with ⟨reason, h⟩ | ⟨commandId, device, -, h⟩
    · simp only [h]
      exact .refl _
    · simp only [h]
      exact c.pressActs_alike answer answer' key commandId device now
  | pressShortcut index =>
    simp only [handle]
    rcases c.pressShortcut_cases index now with
      ⟨key, reason, h⟩ | ⟨shortcut, state, device, -, -, -, -, -, h⟩
    · simp only [h]
      exact .refl _
    · simp only [h]
      exact c.pressActs_alike answer answer' shortcut.label shortcut.commandId device now

-- One step of the two runs: they stay at the same card, and show the same.
theorem perform_alike (c : Card) {o o' : Operation} (h : o.Alike o') :
    (c.perform o).card = (c.perform o').card ∧ c.observe o = c.observe o' := by
  have hresult : SameResult (c.perform o, c.given? o) (c.perform o', c.given? o') := by
    cases h with
    | start => exact .refl _
    | wake now => exact .refl _
    | writeBack => exact .refl _
    | update themes dark answer answer' hub selector now =>
      exact c.update_alike themes dark answer answer' hub selector now
    | updateFrom themes dark answer answer' entities now =>
      exact c.update_alike themes dark answer answer' _ _ now
    | handle answer answer' command now => exact c.handle_alike answer answer' command now
  have hwritten : c.written? o = c.written? o' := by
    cases h <;> rfl
  have hview : c.given? o = c.given? o' := hresult.view
  refine ⟨hresult.card, ?_⟩
  simp only [observe, hwritten, hview, show (c.perform o).card = (c.perform o').card from hresult.card,
    Act.calls_of_unanswered hresult.acts, Act.reports_of_unanswered hresult.acts,
    Act.mutations_of_unanswered hresult.acts]

theorem after_alike (c : Card) {ops ops' : List Operation}
    (h : List.Forall₂ Operation.Alike ops ops') :
    c.after ops = c.after ops' ∧ c.observations ops = c.observations ops' := by
  induction h generalizing c with
  | nil => exact ⟨rfl, rfl⟩
  | @cons o o' ops ops' hfirst hrest ih =>
    rcases c.perform_alike hfirst with ⟨hcard, hobserve⟩
    rcases ih (c.perform o).card with ⟨hafter, hobservations⟩
    rw [after_cons, after_cons, observations, observations, hobserve, hafter, hobservations, hcard]
    exact ⟨rfl, rfl⟩

/-! ## One call, one answer -/

/-- What the calls of an operation come to: it makes one call at most, which is reported by the answer
that it gets. -/
inductive Called (answer : Answer) : List Act → Prop where
  | silent : Called answer []
  | unaddressed : Called answer [Act.unaddressed]
  | refused {c : Call} {e : CallError} (h : answer c = some e) :
      Called answer [.call c (some e), .event (.callFailed c.name e.message)]
  | selected {id option : String} (h : answer (.selectOption id option) = none) :
      Called answer [.call (.selectOption id option) none]
  | sent {entity : String} {commandId device : Id}
      (h : answer (.sendCommand entity commandId device) = none) (key : String) :
      Called answer
        [.call (.sendCommand entity commandId device) none,
          .event (.commandSent key commandId device)]

theorem called_ofSelection (answer : Answer) (selectorId : Option String) (option : String) :
    Called answer (Act.callLog (Act.ofAction answer selectorId (.selectOption option))) := by
  cases selectorId with
  | none => exact .unaddressed
  | some id =>
    have hrequested : Act.callLog [.event (.activityRequested option)] = [] := rfl
    rw [Act.ofAction, Act.callLog_append, hrequested, List.append_nil, Act.callLog_ofCall, Act.ofCall]
    cases hanswer : answer (.selectOption id option) with
    | none => exact .selected hanswer
    | some e => exact .refused hanswer

theorem called_ofSend (answer : Answer) (entity key : String) (commandId device : Id) :
    Called answer (Act.callLog (Act.ofSend answer entity key commandId device)) := by
  rw [Act.ofSend, Act.callLog_append, Act.callLog_ofCall, Act.ofCall]
  cases hanswer : answer (.sendCommand entity commandId device) with
  | none => exact .sent hanswer key
  | some e => exact .refused hanswer

theorem called_perform (h : c.Rest) (o : Operation) :
    Called o.answer (Act.callLog (c.perform o).acts) := by
  have hturn := c.turn o
  generalize c.perform o = p at hturn ⊢
  cases hturn with
  | start | ignored | still | skipped | writeBack => exact .silent
  | updated host =>
    rw [Act.callLog_eq_nil (by simp [updateActs, settling_acts h])
      (by simp [updateActs, settling_acts h])]
    exact .silent
  | woken | undisturbed =>
    rw [Act.callLog_eq_nil (by simp [wakeActs]) (by simp [wakeActs])]
    exact .silent
  | pressed hpress answer now key commandId device =>
    have hlight : Act.callLog (Act.ofLight ((c.lamp.obey (.pulse now)).busy.refresh now).2) = [] :=
      Act.callLog_eq_nil (by simp) (by simp)
    rw [pressActs, Act.callLog_append, hlight, List.append_nil]
    exact called_ofSend answer c.config.entity key commandId device
  | @stirred option now control actions hoffers hpick hstir answer =>
    have hreports : Act.callLog (Act.ofOutcome control ++
        Act.ofLight ((c.pickLamp actions now).busy.refresh now).2) = [] :=
      Act.callLog_eq_nil (by simp) (by simp)
    have hasked := pick_acts h answer c.hub.selectorId option now
    rw [hpick] at hasked
    rw [pickActs, List.append_assoc, Act.callLog_append, hreports, List.append_nil, hasked]
    split
    · exact .silent
    · exact called_ofSelection answer c.hub.selectorId option

namespace Called

variable {answer : Answer} {acts : List Act} (h : Called answer (Act.callLog acts))

include h

theorem answered {call : Call} {refusal : Option CallError} (hcall : .call call refusal ∈ acts) :
    refusal = answer call ∧ acts.filterMap Act.call? = [call] ∧
      (∀ e, refusal = some e →
        Act.callLog acts = [.call call (some e), .event (.callFailed call.name e.message)]) ∧
      (refusal = none → ∀ service message, .event (.callFailed service message) ∉ acts) := by
  have hfailed : ∀ service message, Act.event (.callFailed service message) ∈ acts ↔
      .event (.callFailed service message) ∈ Act.callLog acts :=
    fun service message => (Act.mem_callLog rfl).symm
  rw [← Act.mem_callLog (by rfl)] at hcall
  simp only [hfailed, ← Act.calls_callLog acts]
  generalize Act.callLog acts = log at h hcall ⊢
  cases h with
  | silent => cases hcall
  | unaddressed => simp [Act.unaddressed] at hcall
  | @refused c e hanswer =>
    simp only [List.mem_cons, Act.call.injEq, reduceCtorEq, List.not_mem_nil, or_false] at hcall
    rcases hcall with ⟨rfl, rfl⟩
    refine ⟨hanswer.symm, rfl, ?_, fun hnone => by cases hnone⟩
    intro e' he
    rw [Option.some.inj he]
  | selected hanswer | sent hanswer =>
    simp only [List.mem_cons, Act.call.injEq, reduceCtorEq, List.not_mem_nil, or_false] at hcall
    rcases hcall with ⟨rfl, rfl⟩
    refine ⟨hanswer.symm, rfl, ?_, by simp⟩
    intro e he
    cases he

theorem accepted_of_sent {key : String} {commandId device : Id}
    (hsent : .event (.commandSent key commandId device) ∈ acts) :
    ∃ entity, .call (.sendCommand entity commandId device) none ∈ acts := by
  rw [← Act.mem_callLog (by rfl)] at hsent
  have hcall : ∀ entity, Act.call (.sendCommand entity commandId device) none ∈ acts ↔
      .call (.sendCommand entity commandId device) none ∈ Act.callLog acts :=
    fun entity => (Act.mem_callLog rfl).symm
  simp only [hcall]
  generalize Act.callLog acts = log at h hsent ⊢
  cases h with
  | sent hanswer => simp_all
  | silent | unaddressed | refused | selected => simp [Act.unaddressed] at hsent

end Called

/-! ## Two runs -/

/-- Two runs that differ in nothing but how the dashboards answer the calls, freely at every operation:
they come to the same card, and whatever can be seen on the way is the same after every operation, the
calls included. In either of them an operation makes one call at most. One that is refused is reported
as failed, once, and not as sent; what is reported as sent has been accepted. -/
theorem answers_unheard {config : Config} {start : Card} (hnew : Card.new config = .ok start)
    {ops ops' : List Operation} (hsame : List.Forall₂ Operation.Alike ops ops') :
    start.after ops = start.after ops' ∧ start.observations ops = start.observations ops' ∧
      ∀ o, let acts := ((start.after ops).perform o).acts
        (∀ call refusal, .call call refusal ∈ acts →
          refusal = o.answer call ∧ acts.filterMap Act.call? = [call] ∧
            (∀ e, refusal = some e → Act.callLog acts =
              [.call call (some e), .event (.callFailed call.name e.message)]) ∧
            (refusal = none → ∀ service message, .event (.callFailed service message) ∉ acts)) ∧
        ∀ key commandId device, .event (.commandSent key commandId device) ∈ acts →
          ∃ entity, .call (.sendCommand entity commandId device) none ∈ acts := by
  have hrest : (start.after ops).Rest := (rest_and_drawn_after hnew ops).1
  rcases start.after_alike hsame with ⟨hafter, hobservations⟩
  refine ⟨hafter, hobservations, ?_⟩
  intro o acts
  have hcalled : Called o.answer (Act.callLog acts) := called_perform hrest o
  exact ⟨fun _ _ hcall => hcalled.answered hcall, fun _ _ _ hsent => hcalled.accepted_of_sent hsent⟩

end Card

namespace Sample

def refusing : Answer := fun c => some (.rejected c.name "no")

/-- The same as `picked`, over a dashboard that refuses every call. -/
def turnedDown : List Operation :=
  [.updateFrom ⟨.empty, false, refusing⟩ (entities "on" "TV" []) 0,
    .handle refusing (.selectActivity "Movie") 1000]

theorem picked_alike_turnedDown : List.Forall₂ Operation.Alike picked turnedDown :=
  .cons (.updateFrom .empty false accepting refusing (entities "on" "TV" []) 0)
    (.cons (.handle accepting refusing (.selectActivity "Movie") 1000) .nil)

end Sample

namespace Card

open Sample

-- A pick that is turned down shows like one that is taken, and is reported as failed.
theorem answers_unheard_turnedDown :
    let c := (card Sample.config).after heard
    let pick : Operation := .handle refusing (.selectActivity "Movie") 1000
    (card Sample.config).observations picked = (card Sample.config).observations turnedDown ∧
      Act.callLog (c.perform pick).acts =
        [.call (.selectOption "select.hub" "Movie") (some (.rejected "select.select_option" "no")),
          .event (.callFailed "select.select_option" "select.select_option rejected: no")] := by
  intro c pick
  have hsame : List.Forall₂ Operation.Alike heard heard :=
    .cons (.updateFrom .empty false accepting accepting (entities "on" "TV" []) 0) .nil
  rcases answers_unheard new_config picked_alike_turnedDown with ⟨-, hobservations, -⟩
  rcases answers_unheard new_config hsame with ⟨-, -, hanswered⟩
  have hcall : .call (.selectOption "select.hub" "Movie")
      (some (.rejected "select.select_option" "no")) ∈ (c.perform pick).acts := by decide +kernel
  exact ⟨hobservations, ((hanswered pick).1 _ _ hcall).2.2.1 _ rfl⟩

end Card

end HubCard
