import HubCard.Proofs.Timers

/-!
The busy light seen as a pulse and a load, each of which is there as a whole or not at all. What an
operation writes to the fields one by one comes to a pulse or a load that begins, that is replaced or
that ends.
-/

namespace HubCard

/-- A pulse, and the timer that ends it. -/
structure Pulse where
  ends : Millis
  timer : Handle
  deriving Repr, DecidableEq

/-- An activity that is loading, and the timer that gives up on it. -/
structure Load where
  target : String
  timer : Handle
  deriving Repr, DecidableEq

namespace Busy

/-- The pulse that is running. -/
def pulse (b : Busy) : Option Pulse :=
  match b.state.pulseEnds, b.state.pulseTimer with
  | some ends, some timer => some ⟨ends, timer⟩
  | _, _ => none

/-- The load that is running. -/
def load (b : Busy) : Option Load :=
  match b.state.target, b.state.loadTimer with
  | some target, some timer => some ⟨target, timer⟩
  | _, _ => none

/-- The same light with another pulse. -/
def withPulse (b : Busy) (pulse : Option Pulse) : Busy where
  toIndicator :=
    { b.toIndicator with
      state :=
        { b.state with pulseEnds := pulse.map (·.ends), pulseTimer := pulse.map (·.timer) } }
  paired :=
    { b.paired with pulse := by cases pulse <;> rfl }

/-- The same light with another load. -/
def withLoad (b : Busy) (load : Option Load) : Busy where
  toIndicator :=
    { b.toIndicator with
      state :=
        { b.state with
          isLoading := load.isSome
          target := load.map (·.target)
          loadTimer := load.map (·.timer) } }
  paired :=
    { b.paired with
      target := by cases load <;> rfl
      load := by cases load <;> rfl }

/-- The same light with another value as the one reported last. -/
def withLight (b : Busy) (light : Bool) : Busy :=
  ⟨{ b.toIndicator with light }, b.paired⟩

/-- The same light with a load that timed out and has not been reported yet. -/
def givenUp (b : Busy) (target : String) : Busy :=
  ⟨{ b.toIndicator with timedOut := some target }, b.paired⟩

theorem eq_of_toIndicator {b b' : Busy} (h : b.toIndicator = b'.toIndicator) : b = b' := by
  cases b
  cases b'
  cases h
  rfl

variable (b : Busy)

/-! ## The fields -/

theorem pulse_fields :
    b.state.pulseEnds = b.pulse.map (·.ends) ∧ b.state.pulseTimer = b.pulse.map (·.timer) := by
  have hsame := b.paired.pulse
  unfold pulse
  cases hends : b.state.pulseEnds <;> cases htimer : b.state.pulseTimer <;>
    simp [hends, htimer] at hsame ⊢

theorem load_fields :
    b.state.isLoading = b.load.isSome ∧ b.state.target = b.load.map (·.target) ∧
      b.state.loadTimer = b.load.map (·.timer) := by
  have hsame := b.paired.load.trans b.paired.target.symm
  rw [← b.paired.target]
  unfold load
  cases htarget : b.state.target <;> cases htimer : b.state.loadTimer <;>
    simp [htarget, htimer] at hsame ⊢

theorem state_eq_rest (hpulse : b.pulse = none) (hload : b.load = none) : b.state = .rest := by
  have hp := b.pulse_fields
  have hl := b.load_fields
  rw [hpulse] at hp
  rw [hload] at hl
  generalize b.state = s at hp hl
  cases s
  rcases hp with ⟨rfl, rfl⟩
  rcases hl with ⟨rfl, rfl, rfl⟩
  rfl

@[simp] theorem pulse_withPulse (pulse : Option Pulse) : (b.withPulse pulse).pulse = pulse := by
  cases pulse <;> rfl

@[simp] theorem load_withPulse (pulse : Option Pulse) : (b.withPulse pulse).load = b.load := rfl

@[simp] theorem pulse_withLoad (load : Option Load) : (b.withLoad load).pulse = b.pulse := rfl

@[simp] theorem load_withLoad (load : Option Load) : (b.withLoad load).load = load := by
  cases load <;> rfl

@[simp] theorem load_givenUp (target : String) : (b.givenUp target).load = b.load := rfl

@[simp] theorem timedOut_givenUp (target : String) : (b.givenUp target).timedOut = some target := rfl

@[simp] theorem hubBusy_setHubBusy (on : Bool) : (b.setHubBusy on).hubBusy = on := rfl

@[simp] theorem pulse_new (timing : Timing) : (new timing).pulse = none := rfl

@[simp] theorem load_new (timing : Timing) : (new timing).load = none := rfl

@[simp] theorem withPulse_frame (pulse : Option Pulse) :
    (b.withPulse pulse).hubBusy = b.hubBusy ∧ (b.withPulse pulse).timedOut = b.timedOut :=
  ⟨rfl, rfl⟩

@[simp] theorem withLoad_frame (load : Option Load) :
    (b.withLoad load).hubBusy = b.hubBusy ∧ (b.withLoad load).timedOut = b.timedOut :=
  ⟨rfl, rfl⟩

/-! ## The operations -/

theorem isActive_eq (now : Millis) :
    b.isActive now = (b.load.isSome || b.pulse.any (now < ·.ends) || b.hubBusy) := by
  rw [Indicator.isActive, b.load_fields.1, b.pulse_fields.1, Option.any_map]

theorem loadsTowards_eq (label : String) :
    b.loadsTowards label = b.load.any (·.target == label) := by
  rw [Indicator.loadsTowards, b.load_fields.1, b.load_fields.2.1, Option.any_map]
  cases b.load <;> rfl

theorem refresh_eq (now : Millis) :
    b.refresh now =
      if b.isActive now = b.light then (b, none)
      else (b.withLight (b.isActive now), some (b.isActive now)) := by
  simp only [refresh, Indicator.refresh]
  split <;> rfl

variable (timers : Timers)

/-- A pulse begins, and the timer of the one before is cancelled. -/
theorem startPulse_eq (now : Millis) :
    b.startPulse timers now =
      let ends := Millis.later now b.timing.pulseLength
      (b.withPulse (some ⟨ends, timers.nextHandle⟩),
        timers.rearm (b.pulse.map (·.timer)) .commandPulse ends) := by
  rw [← b.pulse_fields.2, ← Timers.nextHandle_cancel? timers b.state.pulseTimer]
  rfl

/-- A load begins, and the timer of the one before is cancelled. -/
theorem startLoad_eq (target : String) (now : Millis) :
    b.startLoad timers target now =
      (b.withLoad (some ⟨target, timers.nextHandle⟩),
        timers.rearm (b.load.map (·.timer)) .loadSafety
          (Millis.later now b.timing.loadTimeout)) := by
  rw [← b.load_fields.2.2, ← Timers.nextHandle_cancel? timers b.state.loadTimer]
  rfl

/-- The load ends, if there is one, and its timer is cancelled. -/
theorem stopLoad_eq :
    b.stopLoad timers =
      (b.withLoad none, timers.cancel? (b.load.map (·.timer)), b.load.isSome) := by
  rw [← b.load_fields.1, ← b.load_fields.2.2]
  cases hloading : b.state.isLoading with
  | true => simp [stopLoad, Indicator.stopLoad, withLoad, hloading]
  | false =>
    have htarget : b.state.target = none := by
      simpa [hloading] using b.paired.target
    simp [stopLoad, Indicator.stopLoad, withLoad, hloading, htarget]

theorem arrive_eq (label : String) :
    b.arrive timers label =
      if b.loadsTowards label then b.stopLoad timers else (b, timers, false) := by
  simp only [arrive, Indicator.arrive]
  split <;> rfl

-- A timer that fires ends the pulse when it is the timer of the pulse.
theorem timerFired_pulse (handle : Handle) :
    b.timerFired handle .commandPulse =
      if b.pulse.any (·.timer == handle) then b.withPulse none else b := by
  apply eq_of_toIndicator
  show b.toIndicator.timerFired handle .commandPulse = _
  simp only [Indicator.timerFired, b.pulse_fields.2]
  cases b.pulse with
  | none => simp
  | some p => by_cases hp : p.timer = handle <;> simp [hp, withPulse]

-- A timer that fires ends the load when it is the timer of the load, and the load has timed out.
theorem timerFired_load (handle : Handle) :
    b.timerFired handle .loadSafety =
      match b.load with
      | some x => if x.timer = handle then (b.withLoad none).givenUp x.target else b
      | none => b := by
  apply eq_of_toIndicator
  show b.toIndicator.timerFired handle .loadSafety = _
  simp only [Indicator.timerFired, b.load_fields.2]
  cases b.load with
  | none => simp
  | some x => by_cases hx : x.timer = handle <;> simp [hx, withLoad, givenUp]

@[simp] theorem pulse_timerFired_load (handle : Handle) :
    (b.timerFired handle .loadSafety).pulse = b.pulse := by
  rw [timerFired_load]
  split
  · split <;> rfl
  · rfl

@[simp] theorem load_timerFired_pulse (handle : Handle) :
    (b.timerFired handle .commandPulse).load = b.load := by
  rw [timerFired_pulse]
  split <;> rfl

theorem timerFired_frame (handle : Handle) (kind : TimerKind) :
    (b.timerFired handle kind).light = b.light ∧ (b.timerFired handle kind).timing = b.timing ∧
      (b.timerFired handle kind).hubBusy = b.hubBusy := by
  simp only [timerFired, Indicator.timerFired]
  cases kind with
  | commandPulse =>
    dsimp only
    split <;> exact ⟨rfl, rfl, rfl⟩
  | loadSafety =>
    dsimp only
    split <;> exact ⟨rfl, rfl, rfl⟩

end Busy

end HubCard
