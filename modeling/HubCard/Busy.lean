import HubCard.Indicator

/-!
The busy light as the card has it. What is known of a pulse is known all at once, and so is what is
known of a load: every operation of the indicator keeps it that way, from the light of a new card on.
-/

namespace HubCard

/-- The fields of a load go together, and so do those of a pulse. -/
structure LoadingState.Paired (s : LoadingState) : Prop where
  pulse : s.pulseTimer.isSome = s.pulseEnds.isSome
  target : s.target.isSome = s.isLoading
  load : s.loadTimer.isSome = s.isLoading

namespace Indicator

variable {i : Indicator} (h : i.state.Paired)

theorem paired_new (timing : Timing) : (new timing).state.Paired :=
  ⟨rfl, rfl, rfl⟩

@[simp] theorem refresh_state (i : Indicator) (now : Millis) :
    (i.refresh now).1.state = i.state := by
  unfold refresh
  dsimp only
  split <;> rfl

-- The timer is cancelled whether or not an activity is loading.
theorem stopLoad_timers (i : Indicator) (timers : Timers) :
    (i.stopLoad timers).2.1 = timers.cancel? i.state.loadTimer := by
  unfold stopLoad
  dsimp only
  split <;> rfl

include h

theorem paired_startPulse (timers : Timers) (now : Millis) :
    (i.startPulse timers now).1.state.Paired :=
  ⟨rfl, h.target, h.load⟩

theorem paired_startLoad (timers : Timers) (target : String) (now : Millis) :
    (i.startLoad timers target now).1.state.Paired :=
  ⟨h.pulse, rfl, rfl⟩

-- Where no activity is loading there is no target to clear.
theorem paired_stopLoad (timers : Timers) : (i.stopLoad timers).1.state.Paired := by
  cases hloading : i.state.isLoading with
  | true =>
    simp only [stopLoad, hloading]
    exact ⟨h.pulse, rfl, rfl⟩
  | false =>
    simp only [stopLoad, hloading]
    exact ⟨h.pulse, h.target.trans hloading, rfl⟩

theorem paired_arrive (timers : Timers) (label : String) :
    (i.arrive timers label).1.state.Paired := by
  unfold arrive
  split
  · exact paired_stopLoad h timers
  · exact h

theorem paired_timerFired (handle : Handle) (kind : TimerKind) :
    (i.timerFired handle kind).state.Paired := by
  cases kind with
  | commandPulse =>
    simp only [timerFired]
    split
    · exact h
    · exact ⟨rfl, h.target, h.load⟩
  | loadSafety =>
    simp only [timerFired]
    split
    · exact h
    · exact ⟨h.pulse, rfl, rfl⟩

theorem paired_refresh (now : Millis) : (i.refresh now).1.state.Paired := by
  rw [refresh_state]
  exact h

end Indicator

/-- An indicator in which the fields go together. It does everything as the indicator does. -/
structure Busy extends Indicator where
  paired : state.Paired
  deriving Repr, DecidableEq

namespace Busy

open Indicator

def new (timing : Timing) : Busy :=
  ⟨.new timing, paired_new timing⟩

def startPulse (b : Busy) (timers : Timers) (now : Millis) : Busy × Timers :=
  let started := b.toIndicator.startPulse timers now
  (⟨started.1, paired_startPulse b.paired timers now⟩, started.2)

def startLoad (b : Busy) (timers : Timers) (target : String) (now : Millis) : Busy × Timers :=
  let started := b.toIndicator.startLoad timers target now
  (⟨started.1, paired_startLoad b.paired timers target now⟩, started.2)

def stopLoad (b : Busy) (timers : Timers) : Busy × Timers × Bool :=
  let stopped := b.toIndicator.stopLoad timers
  (⟨stopped.1, paired_stopLoad b.paired timers⟩, stopped.2)

theorem stopLoad_timers (b : Busy) (timers : Timers) :
    (b.stopLoad timers).2.1 = timers.cancel? b.state.loadTimer :=
  b.toIndicator.stopLoad_timers timers

def arrive (b : Busy) (timers : Timers) (label : String) : Busy × Timers × Bool :=
  let arrived := b.toIndicator.arrive timers label
  (⟨arrived.1, paired_arrive b.paired timers label⟩, arrived.2)

def setHubBusy (b : Busy) (hubBusy : Bool) : Busy :=
  ⟨b.toIndicator.setHubBusy hubBusy, b.paired⟩

def timerFired (b : Busy) (handle : Handle) (kind : TimerKind) : Busy :=
  ⟨b.toIndicator.timerFired handle kind, paired_timerFired b.paired handle kind⟩

def refresh (b : Busy) (now : Millis) : Busy × Option Bool :=
  let refreshed := b.toIndicator.refresh now
  (⟨refreshed.1, paired_refresh b.paired now⟩, refreshed.2)

def takeTimedOut (b : Busy) : Busy × Option String :=
  (⟨b.toIndicator.takeTimedOut.1, b.paired⟩, b.timedOut)

/-- Fires the timers due at a time, and gives their number. -/
def fireTimers (b : Busy) (timers : Timers) (now : Millis) : Busy × Timers × Nat :=
  let (fired, timers) := timers.fireDue now
  (fired.foldl (fun b t => b.timerFired t.handle t.kind) b, timers, fired.length)

end Busy

end HubCard
