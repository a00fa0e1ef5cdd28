import HubCard.Proofs.Lamp

/-!
The light is never left on without the timer that turns it off. The indicator writes its fields one by
one and the timers know nothing of them; yet after any orders the fields of a pulse and of a load go
together, each of the two has its timer, and no other timer is live.
-/

namespace HubCard

namespace Lamp

/-- So few orders that arm a timer that no handle comes up twice. -/
def FewArmed (orders : List Order) : Prop :=
  orders.countP (·.arms) < UInt32.size - 1

theorem coupled_obeyAll {timing : Timing} {orders : List Order} (hfew : FewArmed orders) :
    ((new timing).obeyAll orders).Coupled := by
  have hnone : (new timing).timers.armed = 0 := rfl
  apply (coupled_new timing).obeyAll
  rw [Timers.Few, armed_obeyAll, hnone, Nat.zero_add]
  exact hfew

/-! ## The timer of each kind -/

namespace Coupled

variable {l : Lamp} (h : l.Coupled)

include h

-- A load has one timer, whatever its deadline.
theorem load_timer {x : Load} (hload : l.busy.load = some x) :
    ∃ deadline, l.timers.ofKind .loadSafety = [x.alarm deadline] := by
  rcases h.load with ⟨deadline, halarm⟩
  rw [hload] at halarm
  exact ⟨deadline, halarm⟩

theorem alarm_of_live {x : Timer} (hx : x ∈ l.timers.live) :
    (∃ p, l.busy.pulse = some p ∧ x = p.alarm) ∨
      ∃ y deadline, l.busy.load = some y ∧ x = y.alarm deadline := by
  rw [Timers.mem_live_iff] at hx
  cases hkind : x.kind with
  | commandPulse =>
    rw [hkind, h.pulse, List.mem_map] at hx
    rcases hx with ⟨p, hp, rfl⟩
    exact .inl ⟨p, Option.mem_toList.mp hp, rfl⟩
  | loadSafety =>
    rcases h.load with ⟨deadline, halarm⟩
    rw [hkind, halarm, List.mem_map] at hx
    rcases hx with ⟨y, hy, rfl⟩
    exact .inr ⟨y, deadline, Option.mem_toList.mp hy, rfl⟩

-- The fields of a pulse go with its timer.
theorem pulseEnds_iff {ends : Millis} :
    l.busy.state.pulseEnds = some ends ↔
      ∃ handle, l.busy.state.pulseTimer = some handle ∧
        l.timers.ofKind .commandPulse = [⟨handle, .commandPulse, ends⟩] := by
  rw [l.busy.pulse_fields.1, l.busy.pulse_fields.2, h.pulse]
  cases l.busy.pulse with
  | none => simp
  | some p => simp [Pulse.alarm]

-- The fields of a load go with its timer.
theorem isLoading_iff :
    l.busy.state.isLoading = true ↔
      ∃ handle, l.busy.state.loadTimer = some handle ∧
        ∃ deadline, l.timers.ofKind .loadSafety = [⟨handle, .loadSafety, deadline⟩] := by
  rcases h.load with ⟨due, halarm⟩
  rw [l.busy.load_fields.1, l.busy.load_fields.2.2, halarm]
  cases l.busy.load with
  | none => simp
  | some x => simp [Load.alarm]

theorem fields_of_live {x : Timer} (hx : x ∈ l.timers.live) :
    x.kind = .commandPulse ∧ l.busy.state.pulseTimer = some x.handle ∧
        l.busy.state.pulseEnds = some x.deadline ∨
      x.kind = .loadSafety ∧ l.busy.state.loadTimer = some x.handle ∧
        l.busy.state.isLoading = true := by
  rw [l.busy.pulse_fields.1, l.busy.pulse_fields.2, l.busy.load_fields.1, l.busy.load_fields.2.2]
  rcases h.alarm_of_live hx with ⟨p, hp, rfl⟩ | ⟨y, deadline, hy, rfl⟩
  · rw [hp]
    exact .inl ⟨rfl, rfl, rfl⟩
  · rw [hy]
    exact .inr ⟨rfl, rfl, rfl⟩

-- Once every timer has fired neither a pulse nor a load is left.
theorem fire_all {now : Millis} (hdue : ∀ x ∈ l.timers.live, x.deadline ≤ now) :
    (l.obey (.fire now)).busy.state = .rest := by
  apply Busy.state_eq_rest
  · rw [h.fire_pulse]
    cases hp : l.busy.pulse with
    | none => rfl
    | some p =>
      have hends : p.ends ≤ now := hdue p.alarm (h.pulse_alarm_live hp)
      simp [Option.filter, hends]
  · rcases h.load with ⟨deadline, halarm⟩
    rw [fire_load halarm]
    cases hl : l.busy.load with
    | none => rfl
    | some y =>
      have hlive : y.alarm deadline ∈ l.timers.live := by
        rw [Timers.mem_live_iff]
        change y.alarm deadline ∈ l.timers.ofKind .loadSafety
        rw [halarm, hl]
        exact List.mem_singleton_self _
      have hends : deadline ≤ now := hdue _ hlive
      simp [Option.filter, hends]

end Coupled

end Lamp

/-! ## Field by field -/

/-- The indicator and its timers, with nothing said of how the fields of the indicator go together. -/
structure Circuit where
  indicator : Indicator
  timers : Timers

namespace Circuit

open Lamp (Order FewArmed)

def new (timing : Timing) : Circuit :=
  ⟨.new timing, .empty⟩

def obey (c : Circuit) : Order → Circuit
  | .pulse now =>
    ⟨(c.indicator.startPulse c.timers now).1, (c.indicator.startPulse c.timers now).2⟩
  | .load target now =>
    ⟨(c.indicator.startLoad c.timers target now).1, (c.indicator.startLoad c.timers target now).2⟩
  | .stop => ⟨(c.indicator.stopLoad c.timers).1, (c.indicator.stopLoad c.timers).2.1⟩
  | .arrive label =>
    ⟨(c.indicator.arrive c.timers label).1, (c.indicator.arrive c.timers label).2.1⟩
  | .hubBusy on => ⟨c.indicator.setHubBusy on, c.timers⟩
  | .refresh now => ⟨(c.indicator.refresh now).1, c.timers⟩
  | .fire now =>
    ⟨(c.indicator.fireTimers c.timers now).1, (c.indicator.fireTimers c.timers now).2.1⟩
  | .takeTimedOut => ⟨c.indicator.takeTimedOut.1, c.timers⟩

def obeyAll (c : Circuit) (orders : List Order) : Circuit :=
  orders.foldl obey c

end Circuit

namespace Lamp

/-- The lamp field by field. -/
def circuit (l : Lamp) : Circuit :=
  ⟨l.busy.toIndicator, l.timers⟩

-- The lamp does as the circuit does, with the proof that the fields go together carried along.
theorem circuit_obey (l : Lamp) (o : Order) : (l.obey o).circuit = l.circuit.obey o := by
  cases o with
  | fire now =>
    have hfired : ∀ (fired : List Timer) (b : Busy),
        (fired.foldl (fun b t => b.timerFired t.handle t.kind) b).toIndicator =
          fired.foldl (fun i t => i.timerFired t.handle t.kind) b.toIndicator := by
      intro fired
      induction fired with
      | nil => exact fun _ => rfl
      | cons t fired ih => exact fun b => ih (b.timerFired t.handle t.kind)
    exact congrArg (Circuit.mk · _) (hfired _ l.busy)
  | _ => rfl

theorem circuit_obeyAll (l : Lamp) (orders : List Order) :
    (l.obeyAll orders).circuit = l.circuit.obeyAll orders := by
  induction orders generalizing l with
  | nil => rfl
  | cons o orders ih =>
    rw [obeyAll_cons, ih, circuit_obey]
    rfl

end Lamp

namespace Circuit

open Lamp (Order FewArmed)

/-- After any orders, at any times, that arm fewer timers than there are handles. A pulse ends at a
time exactly when the handle kept for it is that of the one timer of its kind, which is due then. An
activity is loading exactly when there is a target, and exactly when the handle kept for the load is
that of the one timer of its kind. No other timer is live. The next timer that is armed finds a slot,
and once all timers have fired nothing is left of a pulse or of a load. -/
theorem alarms_exact (timing : Timing) {orders : List Order} (hfew : FewArmed orders) :
    let c := (new timing).obeyAll orders
    let s := c.indicator.state
    (∀ ends, s.pulseEnds = some ends ↔
      ∃ handle, s.pulseTimer = some handle ∧
        c.timers.ofKind .commandPulse = [⟨handle, .commandPulse, ends⟩]) ∧
    s.pulseTimer.isSome = s.pulseEnds.isSome ∧
    (s.isLoading = true ↔ ∃ target, s.target = some target) ∧
    (s.isLoading = true ↔
      ∃ handle, s.loadTimer = some handle ∧
        ∃ deadline, c.timers.ofKind .loadSafety = [⟨handle, .loadSafety, deadline⟩]) ∧
    s.loadTimer.isSome = s.isLoading ∧
    (∀ x ∈ c.timers.live,
      x.kind = .commandPulse ∧ s.pulseTimer = some x.handle ∧ s.pulseEnds = some x.deadline ∨
        x.kind = .loadSafety ∧ s.loadTimer = some x.handle ∧ s.isLoading = true) ∧
    (∀ now, (c.obey (.pulse now)).timers.ofKind .commandPulse =
      [⟨c.timers.nextHandle, .commandPulse, Millis.later now timing.pulseLength⟩]) ∧
    (∀ target now, (c.obey (.load target now)).timers.ofKind .loadSafety =
      [⟨c.timers.nextHandle, .loadSafety, Millis.later now timing.loadTimeout⟩]) ∧
    ∀ now, (∀ x ∈ c.timers.live, x.deadline ≤ now) →
      (c.obey (.fire now)).indicator.state = .rest := by
  have hcircuit : (new timing).obeyAll orders = ((Lamp.new timing).obeyAll orders).circuit :=
    (Lamp.circuit_obeyAll (.new timing) orders).symm
  have h : ((Lamp.new timing).obeyAll orders).Coupled := Lamp.coupled_obeyAll hfew
  have htiming : ((Lamp.new timing).obeyAll orders).busy.timing = timing :=
    Lamp.obeyAll_timing (.new timing) orders
  rw [hcircuit]
  generalize (Lamp.new timing).obeyAll orders = l at h htiming
  intro c s
  have hobey : ∀ o, c.obey o = (l.obey o).circuit := fun o => (l.circuit_obey o).symm
  have hpaired : s.Paired := l.busy.paired
  refine ⟨fun ends => h.pulseEnds_iff, hpaired.pulse, ?_, h.isLoading_iff, hpaired.load,
    fun x hx => h.fields_of_live hx, ?_, ?_, ?_⟩
  · rw [← hpaired.target]
    exact Option.isSome_iff_exists
  · intro now
    rw [hobey, ← htiming]
    exact h.armed_pulse now
  · intro target now
    rw [hobey, ← htiming]
    exact h.armed_load target now
  · intro now hdue
    rw [hobey]
    exact h.fire_all hdue

-- A pulse that replaces another one, beside a load.
theorem alarms_exact_replaced :
    let c := (new .standard).obeyAll [.pulse 0, .load "Movie" 5, .pulse 7]
    c.indicator.state.pulseTimer = some 3 ∧
      c.timers.ofKind .commandPulse = [⟨3, .commandPulse, 1007⟩] := by
  intro c
  have hfew : FewArmed [.pulse 0, .load "Movie" 5, .pulse 7] := by
    unfold FewArmed
    decide
  have hthird : c.indicator.state.pulseTimer = some 3 := by decide
  rcases ((alarms_exact .standard hfew).1 1007).mp (by decide) with ⟨handle, hhandle, halarm⟩
  have hsame : some handle = some 3 := hhandle.symm.trans hthird
  rw [Option.some.inj hsame] at halarm
  exact ⟨hthird, halarm⟩

end Circuit

end HubCard
