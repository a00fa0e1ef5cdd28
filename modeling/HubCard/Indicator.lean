import HubCard.Config
import HubCard.Timers

/-!
The busy light of the card. Three things keep it on: a pulse after every press, an activity that is
loading, and the hub's own word that it is busy. A pulse and a load each end with a timer, whose
handle is kept so that it can be cancelled and told from one that it has replaced.
-/

namespace HubCard

/-- What is known of a load and of a pulse. The fields are written one by one. -/
structure LoadingState where
  /-- Whether an activity is loading. -/
  isLoading : Bool
  /-- The activity that is loading. -/
  target : Option String
  /-- The timer that gives up on the load. -/
  loadTimer : Option Handle
  /-- When the pulse ends. -/
  pulseEnds : Option Millis
  /-- The timer that ends the pulse. -/
  pulseTimer : Option Handle
  deriving Repr, DecidableEq

def LoadingState.rest : LoadingState :=
  ⟨false, none, none, none, none⟩

structure Indicator where
  timing : Timing
  state : LoadingState
  hubBusy : Bool
  /-- The light as it was last reported. -/
  light : Bool
  /-- The target of a load that timed out and has not been reported yet. -/
  timedOut : Option String
  deriving Repr, DecidableEq

namespace Indicator

def new (timing : Timing) : Indicator :=
  ⟨timing, .rest, false, false, none⟩

/-- Whether anything keeps the light on at a time. -/
def isActive (i : Indicator) (now : Millis) : Bool :=
  i.state.isLoading || i.state.pulseEnds.any (now < ·) || i.hubBusy

/-- Starts a pulse; it replaces the one that is still running. -/
def startPulse (i : Indicator) (timers : Timers) (now : Millis) : Indicator × Timers :=
  let timers := timers.cancel? i.state.pulseTimer
  let ends := Millis.later now i.timing.pulseLength
  let (timers, timer) := timers.arm .commandPulse ends
  ({ i with state := { i.state with pulseEnds := some ends, pulseTimer := some timer } }, timers)

/-- Starts the loading of an activity; it replaces the one before. -/
def startLoad (i : Indicator) (timers : Timers) (target : String) (now : Millis) :
    Indicator × Timers :=
  let timers := timers.cancel? i.state.loadTimer
  let (timers, timer) := timers.arm .loadSafety (Millis.later now i.timing.loadTimeout)
  ({ i with
      state := { i.state with isLoading := true, target := some target, loadTimer := some timer } },
    timers)

/-- Ends the loading of an activity, and tells whether one was loading. -/
def stopLoad (i : Indicator) (timers : Timers) : Indicator × Timers × Bool :=
  let timers := timers.cancel? i.state.loadTimer
  let state := { i.state with loadTimer := none }
  if !state.isLoading then ({ i with state }, timers, false)
  else ({ i with state := { state with isLoading := false, target := none } }, timers, true)

/-- Whether an activity is loading towards the given label. -/
def loadsTowards (i : Indicator) (label : String) : Bool :=
  i.state.isLoading && i.state.target.any (· == label)

/-- Ends the loading of an activity that has become current, and tells whether it was loading. -/
def arrive (i : Indicator) (timers : Timers) (label : String) : Indicator × Timers × Bool :=
  if i.loadsTowards label then i.stopLoad timers else (i, timers, false)

def setHubBusy (i : Indicator) (hubBusy : Bool) : Indicator :=
  { i with hubBusy }

/-- Takes note of a timer that fired. One that has been replaced since means nothing. -/
def timerFired (i : Indicator) (handle : Handle) (kind : TimerKind) : Indicator :=
  match kind with
  | .commandPulse =>
    if i.state.pulseTimer ≠ some handle then i
    else { i with state := { i.state with pulseTimer := none, pulseEnds := none } }
  | .loadSafety =>
    if i.state.loadTimer ≠ some handle then i
    else
      { i with
        state := { i.state with loadTimer := none, isLoading := false, target := none }
        timedOut := some (i.state.target.getD "") }

/-- Brings the light up to date and gives its new value if that has changed. -/
def refresh (i : Indicator) (now : Millis) : Indicator × Option Bool :=
  let active := i.isActive now
  if active = i.light then (i, none) else ({ i with light := active }, some active)

/-- The target of a load that timed out, given out once. -/
def takeTimedOut (i : Indicator) : Indicator × Option String :=
  ({ i with timedOut := none }, i.timedOut)

/-- Fires the timers due at a time, and gives their number. -/
def fireTimers (i : Indicator) (timers : Timers) (now : Millis) : Indicator × Timers × Nat :=
  let (fired, timers) := timers.fireDue now
  (fired.foldl (fun i t => i.timerFired t.handle t.kind) i, timers, fired.length)

end Indicator

end HubCard
