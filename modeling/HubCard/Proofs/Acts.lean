import HubCard.Card.Wake
import HubCard.Proofs.Selector

/-!
The acts that the parts of an operation come to, each a function of what it depends on, and what each
of them is about.
-/

namespace HubCard

namespace Act

def ofCall (answer : Answer) (c : Call) : List Act :=
  match answer c with
  | none => [.call c none]
  | some e => [.call c (some e), .event (.callFailed c.name e.message)]

/-- What comes of an action of the selector when the hub has named the selector `selectorId`. -/
def ofAction (answer : Answer) (selectorId : Option String) : Selector.Action → List Act
  | .selectOption option =>
    match selectorId with
    | some id => ofCall answer (.selectOption id option) ++ [.event (.activityRequested option)]
    | none => [.event (.callFailed "select.select_option" "no activity selector entity")]
  | _ => []

/-- The report of how the last request of a selector ended. -/
def ofOutcome (c : Selector.Control) : List Act :=
  match c.outcome with
  | some (.confirmed option) => [.event (.activityConfirmed option)]
  | some (.expired option) => [.event (.requestExpired option c.shown)]
  | none => []

theorem ofOutcome_of_none {c : Selector.Control} (h : c.outcome = none) : ofOutcome c = [] := by
  rw [ofOutcome, h]

def ofLight : Option Bool → List Act
  | some light => [.event (.busyChanged light)]
  | none => []

def ofTimeout : Option String → List Act
  | some target => [.event (.loadTimedOut target)]
  | none => []

/-- The report of a list of commands that has become malformed. -/
def ofCommands (before after : Capabilities) (count : Nat) : List Act :=
  if after.malformed && !before.malformed then [.event (.capabilitiesMalformed count)] else []

def ofPainting (theme : Option String) (painted : List Mutation × Nat) : List Act :=
  painted.1.map .style ++
    if 0 < painted.2 then [.event (.themeApplied theme painted.2)] else []

/-- The acts of sending a command for a key. -/
def ofSend (answer : Answer) (entity key : String) (commandId device : Id) : List Act :=
  ofCall answer (.sendCommand entity commandId device) ++
    if (answer (.sendCommand entity commandId device)).isNone then
      [.event (.commandSent key commandId device)]
    else []

/-! ### What an act is about -/

inductive Topic where
  | start
  | selection
  | command
  | outcome
  | light
  | timeout
  | capabilities
  | painting
  deriving Repr, DecidableEq

def topic : Act → Topic
  | .call (.selectOption ..) _ | .event (.activityRequested _) => .selection
  | .call (.sendCommand ..) _ | .event (.commandSent ..) | .event (.commandSkipped ..) => .command
  | .event (.callFailed service _) =>
    if service = "select.select_option" then .selection else .command
  | .event (.activityConfirmed _) | .event (.requestExpired ..) => .outcome
  | .event (.busyChanged _) => .light
  | .event (.loadTimedOut _) => .timeout
  | .event (.capabilitiesMalformed _) => .capabilities
  | .event (.themeApplied ..) | .style _ => .painting
  | .event (.started _) => .start

/-- None of the acts is about a topic. -/
def Spare (t : Topic) (acts : List Act) : Prop :=
  ∀ a ∈ acts, a.topic ≠ t

@[simp] theorem spare_nil (t : Topic) : Spare t [] := by
  simp [Spare]

@[simp] theorem spare_cons {t : Topic} {a : Act} {acts : List Act} :
    Spare t (a :: acts) ↔ a.topic ≠ t ∧ Spare t acts := by
  simp [Spare]

@[simp] theorem spare_append {t : Topic} {acts more : List Act} :
    Spare t (acts ++ more) ↔ Spare t acts ∧ Spare t more := by
  simp [Spare, or_imp, forall_and]

-- What is read off the acts of a topic is not there without them.
theorem Spare.filterMap_eq_nil {α : Type} {t : Topic} {acts : List Act} (h : Spare t acts)
    {read : Act → Option α} (hread : ∀ a, a.topic ≠ t → read a = none) :
    acts.filterMap read = [] :=
  List.filterMap_eq_nil_iff.mpr fun a ha => hread a (h a ha)

@[simp] theorem spare_ofSend {t : Topic} (ht : t ≠ .command) (answer : Answer)
    (entity key : String) (commandId device : Id) :
    Spare t (ofSend answer entity key commandId device) := by
  unfold ofSend ofCall
  cases answer (.sendCommand entity commandId device) with
  | none => simp [topic, ht.symm]
  | some e =>
    simp [topic, ht.symm, Call.name, Call.domain, Call.service]

@[simp] theorem spare_ofAction {t : Topic} (ht : t ≠ .selection) (answer : Answer)
    (selectorId : Option String) (actions : List Selector.Action) :
    Spare t (actions.flatMap (ofAction answer selectorId)) := by
  induction actions with
  | nil => simp
  | cons a actions ih =>
    rw [List.flatMap_cons, spare_append]
    refine ⟨?_, ih⟩
    cases a with
    | startLoading target => exact spare_nil t
    | stopLoading => exact spare_nil t
    | selectOption option =>
      cases selectorId with
      | none => simp [ofAction, topic, ht.symm]
      | some id =>
        cases hanswer : answer (.selectOption id option) <;>
          simp [ofAction, ofCall, hanswer, topic, ht.symm, Call.name, Call.domain, Call.service]

@[simp] theorem spare_ofOutcome {t : Topic} (ht : t ≠ .outcome) (c : Selector.Control) :
    Spare t (ofOutcome c) := by
  unfold ofOutcome
  split <;> simp [topic, ht.symm]

@[simp] theorem spare_ofLight {t : Topic} (ht : t ≠ .light) (light : Option Bool) :
    Spare t (ofLight light) := by
  cases light <;> simp [ofLight, topic, ht.symm]

@[simp] theorem spare_ofTimeout {t : Topic} (ht : t ≠ .timeout) (target : Option String) :
    Spare t (ofTimeout target) := by
  cases target <;> simp [ofTimeout, topic, ht.symm]

@[simp] theorem spare_ofCommands {t : Topic} (ht : t ≠ .capabilities)
    (before after : Capabilities) (count : Nat) : Spare t (ofCommands before after count) := by
  unfold ofCommands
  split <;> simp [topic, ht.symm]

@[simp] theorem spare_ofPainting {t : Topic} (ht : t ≠ .painting) (theme : Option String)
    (painted : List Mutation × Nat) : Spare t (ofPainting theme painted) := by
  have hstyles : Spare t (painted.1.map .style) := by
    simp [Spare, topic, ht.symm]
  unfold ofPainting
  split <;> simp [topic, ht.symm, hstyles]

/-! ### The light -/

/-- The values of the light that a list of acts reports. -/
def lights (acts : List Act) : List Bool :=
  acts.filterMap fun
    | .event (.busyChanged light) => some light
    | _ => none

@[simp] theorem lights_append (acts more : List Act) :
    lights (acts ++ more) = lights acts ++ lights more :=
  List.filterMap_append

@[simp] theorem lights_ofLight (change : Option Bool) :
    lights (ofLight change) = change.toList := by
  cases change <;> rfl

theorem lights_eq_nil {acts : List Act} (h : Spare .light acts) : lights acts = [] := by
  apply h.filterMap_eq_nil
  intro a htopic
  split
  · exact absurd rfl htopic
  · rfl

-- Of two lists of acts only the second one reports the light.
theorem lights_ofLight_last {before : List Act} (hbefore : Spare .light before)
    (change : Option Bool) : lights (before ++ ofLight change) = change.toList := by
  rw [lights_append, lights_eq_nil hbefore, lights_ofLight, List.nil_append]

end Act

end HubCard
