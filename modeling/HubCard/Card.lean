import HubCard.Busy
import HubCard.Call
import HubCard.Command
import HubCard.Event
import HubCard.Selector.Control
import HubCard.Theme.Painter
import HubCard.View

/-!
The card: it takes in updates of its entities, commands of the user and the passing of time, and
answers with a view. What it does on the way (events, calls, changes of the style) comes out as a
list of acts, in order.
-/

namespace HubCard

/-- What the card keeps of the last update with a hub that could be reached. -/
structure Gating where
  capabilities : Capabilities
  buttons : List ButtonState
  shortcuts : List ShortcutState
  poweredOff : Bool
  deriving Repr, DecidableEq

namespace Gating

/-- Before the first update every button of the first generation can be pressed. -/
def initial : Gating :=
  ⟨.empty, Gate.buttons false false .empty, [], false⟩

def ofReports (config : Config) (hub : HubReport) (selector : SelectorReport) : Gating :=
  let capabilities := Capabilities.ofList hub.commands
  let poweredOff := Gate.isPoweredOff hub.activityLabel selector.value
  { capabilities
    buttons := Gate.buttons hub.model.isSecondGeneration poweredOff capabilities
    shortcuts := Gate.shortcuts hub.shortcuts poweredOff config.showsShortcut
    poweredOff }

end Gating

structure Card where
  config : Config
  control : Selector.Control
  busy : Busy
  timers : Timers
  painter : Painter
  hub : HubReport
  selector : SelectorReport
  gating : Gating
  /-- The value that the hub last confirmed. -/
  confirmed : String
  lastView : Option View
  deriving Repr

/-- One thing that a card does to the world around it. -/
inductive Act where
  | event (e : Event)
  /-- A call, and why it was refused, if it was. -/
  | call (c : Call) (refusal : Option CallError)
  | style (m : Mutation)
  deriving Repr, DecidableEq

namespace Act

def event? : Act → Option Event
  | .event e => some e
  | _ => none

def call? : Act → Option Call
  | .call c _ => some c
  | _ => none

/-- A call that was not refused. -/
def accepted? : Act → Option Call
  | .call c none => some c
  | _ => none

def mutation? : Act → Option Mutation
  | .style m => some m
  | _ => none

end Act

/-- How the dashboard answers a call: with a reason when it refuses it. -/
abbrev Answer := Call → Option CallError

/-- The dashboard, as far as an update depends on it. -/
structure Host where
  themes : Dict Theme
  dark : Bool
  answer : Answer

/-- A card in the middle of an operation, and its acts so far. -/
structure Pass where
  card : Card
  acts : List Act

namespace Pass

def start (c : Card) : Pass := ⟨c, []⟩

def tell (p : Pass) (acts : List Act) : Pass :=
  { p with acts := p.acts ++ acts }

def emit (p : Pass) (e : Event) : Pass :=
  p.tell [.event e]

/-- Makes a call once, and tells whether it was accepted. -/
def call (p : Pass) (answer : Answer) (c : Call) : Pass × Bool :=
  match answer c with
  | none => (p.tell [.call c none], true)
  | some e => (p.tell [.call c (some e), .event (.callFailed c.name e.message)], false)

/-- Does what the selector asks for, as far as it only concerns the busy light. -/
def applyLoading (p : Pass) (now : Millis) : Selector.Action → Pass
  | .startLoading target =>
    let (busy, timers) := p.card.busy.startLoad p.card.timers target now
    { p with card := { p.card with busy, timers } }
  | .stopLoading =>
    let (busy, timers, _) := p.card.busy.stopLoad p.card.timers
    { p with card := { p.card with busy, timers } }
  | .selectOption _ => p

/-- Asks the hub for an activity, through the selector it has named. -/
def requestOption (p : Pass) (answer : Answer) (option : String) : Pass :=
  match p.card.hub.selectorId with
  | some id => (p.call answer (.selectOption id option)).1.emit (.activityRequested option)
  | none => p.emit (.callFailed "select.select_option" "no activity selector entity")

def apply (answer : Answer) (now : Millis) (p : Pass) : Selector.Action → Pass
  | .selectOption option => p.requestOption answer option
  | action => p.applyLoading now action

def applyAll (p : Pass) (answer : Answer) (now : Millis) (actions : List Selector.Action) : Pass :=
  actions.foldl (apply answer now) p

/-- Reports how a request ended, if one has ended since the last report. -/
def reportOutcome (p : Pass) : Pass :=
  let (control, outcome) := p.card.control.takeOutcome
  let p := { p with card := { p.card with control } }
  match outcome with
  | some (.confirmed option) => p.emit (.activityConfirmed option)
  | some (.expired option) => p.emit (.requestExpired option control.shown)
  | none => p

/-- Brings the busy light up to date, and tells whether it has changed. -/
def reportLight (p : Pass) (now : Millis) : Pass × Bool :=
  let (busy, change) := p.card.busy.refresh now
  let p := { p with card := { p.card with busy } }
  match change with
  | some light => (p.emit (.busyChanged light), true)
  | none => (p, false)

/-- Lets the selector take in the confirmed value and the time. -/
def settle (p : Pass) (now : Millis) : Pass × List Selector.Action :=
  let (control, actions) := p.card.control.settle p.card.confirmed now
  ({ p with card := { p.card with control } }, actions)

/-- Settles the selector, does what it asks for and reports how a request has ended. -/
def follow (p : Pass) (answer : Answer) (now : Millis) : Pass :=
  let (p, actions) := p.settle now
  (p.applyAll answer now actions).reportOutcome

/-- Computes the gating anew. A list of capabilities that has become malformed is reported. -/
def refreshGating (p : Pass) : Pass :=
  let gating := Gating.ofReports p.card.config p.card.hub p.card.selector
  let worse := gating.capabilities.malformed && !p.card.gating.capabilities.malformed
  let p := if worse then p.emit (.capabilitiesMalformed p.card.hub.commands.length) else p
  { p with card := { p.card with gating } }

/-- Paints the configured theme. -/
def paint (p : Pass) (host : Host) : Pass :=
  let config := p.card.config
  let (painter, mutations, count) :=
    p.card.painter.paint host.themes ⟨config.theme, config.backgroundCss, host.dark⟩
  let p := { p with card := { p.card with painter } }.tell (mutations.map .style)
  if 0 < count then p.emit (.themeApplied config.theme count) else p

/-- Sends a command, and shows the card as busy for a moment whatever comes of it. -/
def send (p : Pass) (answer : Answer) (key : String) (commandId device : Id) (now : Millis) :
    Pass :=
  let (p, accepted) := p.call answer (.sendCommand p.card.config.entity commandId device)
  let p := if accepted then p.emit (.commandSent key commandId device) else p
  let (busy, timers) := p.card.busy.startPulse p.card.timers now
  let p := { p with card := { p.card with busy, timers } }
  (p.reportLight now).1

end Pass

namespace Card

def new (config : Config) : Except ConfigError Card := do
  config.validate
  .ok
    { config
      control := .new config.timing.requestExpiry
      busy := .new config.timing
      timers := .empty
      painter := .new
      hub := .missing
      selector := .missing
      gating := .initial
      confirmed := ""
      lastView := none }

/-- What the card reports when it is put to work. -/
def startEvents (c : Card) : List Act :=
  [.event (.started c.config.entity)]

/-- The view of the card as it stands. -/
def view (c : Card) : View :=
  View.compose c.config c.hub c.selector c.gating.buttons c.gating.shortcuts c.control.shown
    c.busy.light c.gating.poweredOff

/-- The value that the reports confirm: that of the selector or, where it is blank, the label of the
activity. -/
def confirmedBy? (hub : HubReport) (selector : SelectorReport) : Option String :=
  [selector.value, hub.activityLabel].findSome? fun s =>
    let value := Text.trim s
    if value.isEmpty then none else some value

/-- The label of the current activity, as far as it is known. -/
def currentLabel (c : Card) : String :=
  if c.hub.activityLabel.isEmpty then c.confirmed else c.hub.activityLabel

/-- Whether the user can pick an activity. -/
def selectorEnabled (c : Card) : Bool :=
  c.config.showActivity && View.selectorUsable c.hub c.selector

/-- The next time at which `wake` has something to do: the deadline of a timer, or the first moment
at which the request has expired. -/
def nextDeadline? (c : Card) : Option Millis :=
  let expiry := c.control.request.map fun r =>
    Millis.later (Millis.later r.start c.config.timing.requestExpiry) 1
  Timers.earlier? c.timers.nextDeadline? expiry

end Card

namespace Pass

/-- Tells the busy light what the hub says of itself and of its activity. -/
def hear (p : Pass) : Pass :=
  let busy := p.card.busy.setHubBusy p.card.hub.saysBusy
  let (busy, timers, _) := busy.arrive p.card.timers p.card.currentLabel
  { p with card := { p.card with busy, timers } }

/-- Ends an operation with the view of the card, which is kept. -/
def finish (p : Pass) : Pass × View :=
  let view := p.card.view
  ({ p with card := { p.card with lastView := some view } }, view)

/-- Ends an operation with its view. -/
def withView (p : Pass) : Pass × Option View :=
  let (p, view) := p.finish
  (p, some view)

/-- Ends a press that leads to no call. -/
def skip (p : Pass) (key : String) (reason : SkipReason) : Pass × Option View :=
  (p.emit (.commandSkipped key reason), none)

end Pass

namespace Card

/-- Takes in new reports of both entities. Where the hub cannot be reached the gating stays. -/
def receive (c : Card) (hub : HubReport) (selector : SelectorReport) : Pass :=
  let p := Pass.start { c with hub, selector }
  let p := if hub.availability = .available then p.refreshGating else p
  { p with card := { p.card with confirmed := (confirmedBy? hub selector).getD c.confirmed } }

/-- An update: new reports of both entities. -/
def update (c : Card) (host : Host) (hub : HubReport) (selector : SelectorReport) (now : Millis) :
    Pass × View :=
  let p := ((c.receive hub selector).follow host.answer now).hear
  let (p, _) := p.reportLight now
  (p.paint host).finish

/-- Takes in the state of all entities. -/
def updateFrom (c : Card) (host : Host) (entities : Dict Entity) (now : Millis) : Pass × View :=
  let (hub, selector) := readReports entities c.config.entity
  c.update host hub selector now

/-- A pick in the activity selector. One that is not on offer, or is shown already, is ignored. -/
def selectActivity (c : Card) (answer : Answer) (option : String) (now : Millis) :
    Pass × Option View :=
  let p := Pass.start c
  if !c.selectorEnabled then (p, none)
  else if !c.selector.options.isEmpty && !c.selector.options.contains option then (p, none)
  else
    let (control, actions) := c.control.pick option c.confirmed now
    let p := { p with card := { c with control } }
    if actions.isEmpty && control.phase == c.control.phase then (p, none)
    else
      let p := (p.applyAll answer now actions).reportOutcome
      (p.reportLight now).1.withView

def pressButton (c : Card) (answer : Answer) (key : String) (now : Millis) : Pass × Option View :=
  let p := Pass.start c
  match Button.find? key with
  | none => p.skip key .unknownKey
  | some button =>
    let state := c.gating.buttons.find? (·.key == button.key)
    if !c.config.shows button.group || !state.any (·.visible) then p.skip key .hidden
    else if !state.any (·.enabled) then p.skip key .disabled
    else
      match c.gating.capabilities.route? button.commandId c.hub.activityId with
      | none => p.skip key .noRoute
      | some device => (p.send answer key button.commandId device now).withView

/-- A press of a shortcut: the one in that place of the last report, under the gating that has been
kept for the place. -/
def pressShortcut (c : Card) (answer : Answer) (index : Nat) (now : Millis) : Pass × Option View :=
  let p := Pass.start c
  match c.hub.shortcuts[index]?, c.gating.shortcuts[index]? with
  | some shortcut, some state =>
    if !state.visible then p.skip shortcut.label .hidden
    else if !state.enabled then p.skip shortcut.label .disabled
    else
      match Gate.shortcutRoute? shortcut c.hub.activityId with
      | none => p.skip shortcut.label .noRoute
      | some device => (p.send answer shortcut.label shortcut.commandId device now).withView
  | _, _ => p.skip ("shortcut#" ++ Numeral.natText index) .unknownKey

/-- Takes in a command of the user, and gives the new view unless the command was ignored. -/
def handle (c : Card) (answer : Answer) (command : Command) (now : Millis) : Pass × Option View :=
  match command with
  | .selectActivity option => c.selectActivity answer option now
  | .pressButton key => c.pressButton answer key now
  | .pressShortcut index => c.pressShortcut answer index now

/-- Fires the timers that are due, and reports a load that has timed out. Gives the number of timers
fired. -/
def fireTimers (c : Card) (now : Millis) : Pass × Nat :=
  let (busy, timers, fired) := c.busy.fireTimers c.timers now
  let (busy, timedOut) := busy.takeTimedOut
  let p := Pass.start { c with busy, timers }
  match timedOut with
  | some target => (p.emit (.loadTimedOut target), fired)
  | none => (p, fired)

/-- Takes in the time: fires the timers that are due and ends a request that has expired. Tells
whether the view can have changed. -/
def rouse (c : Card) (now : Millis) : Pass × Bool :=
  let (p, fired) := c.fireTimers now
  let (p, actions) := p.settle now
  let p := (actions.foldl (Pass.applyLoading · now) p).reportOutcome
  let (p, lightChanged) := p.reportLight now
  (p, fired != 0 || lightChanged || p.card.control.shown != c.control.shown)

/-- Takes in the time, and gives the new view if it can have changed. -/
def wake (c : Card) (now : Millis) : Pass × Option View :=
  let (p, changed) := c.rouse now
  if changed then p.withView else (p, none)

/-- The value to write to the selector control, if it is not the one written last. -/
def writeBack (c : Card) : Card × Option String :=
  let (control, value) := c.control.writeBack
  ({ c with control }, value)

end Card

end HubCard
