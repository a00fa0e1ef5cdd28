import HubCard.Proofs.Busy

/-!
The busy light together with the timers behind it. Each order that the light can be given keeps the
two coupled: a pulse or a load that is running has its timer, and no other timer is live.
-/

namespace HubCard

namespace Pulse

/-- The timer that ends a pulse. -/
def alarm (p : Pulse) : Timer :=
  ⟨p.timer, .commandPulse, p.ends⟩

end Pulse

namespace Load

/-- The timer that gives up on a load at a time. -/
def alarm (l : Load) (deadline : Millis) : Timer :=
  ⟨l.timer, .loadSafety, deadline⟩

end Load

structure Lamp where
  busy : Busy
  timers : Timers

namespace Lamp

def new (timing : Timing) : Lamp :=
  ⟨.new timing, .empty⟩

/-- One thing that is done with the light or with its timers. -/
inductive Order where
  | pulse (now : Millis)
  | load (target : String) (now : Millis)
  | stop
  | arrive (label : String)
  | hubBusy (on : Bool)
  | refresh (now : Millis)
  | fire (now : Millis)
  | takeTimedOut
  deriving Repr, DecidableEq

def obey (l : Lamp) : Order → Lamp
  | .pulse now => ⟨(l.busy.startPulse l.timers now).1, (l.busy.startPulse l.timers now).2⟩
  | .load target now =>
    ⟨(l.busy.startLoad l.timers target now).1, (l.busy.startLoad l.timers target now).2⟩
  | .stop => ⟨(l.busy.stopLoad l.timers).1, (l.busy.stopLoad l.timers).2.1⟩
  | .arrive label => ⟨(l.busy.arrive l.timers label).1, (l.busy.arrive l.timers label).2.1⟩
  | .hubBusy on => ⟨l.busy.setHubBusy on, l.timers⟩
  | .refresh now => ⟨(l.busy.refresh now).1, l.timers⟩
  | .fire now => ⟨(l.busy.fireTimers l.timers now).1, (l.busy.fireTimers l.timers now).2.1⟩
  | .takeTimedOut => ⟨l.busy.takeTimedOut.1, l.timers⟩

def obeyAll (l : Lamp) (orders : List Order) : Lamp :=
  orders.foldl obey l

@[simp] theorem obeyAll_nil (l : Lamp) : l.obeyAll [] = l := rfl

@[simp] theorem obeyAll_cons (l : Lamp) (o : Order) (orders : List Order) :
    l.obeyAll (o :: orders) = (l.obey o).obeyAll orders := rfl

theorem obeyAll_append (l : Lamp) (orders more : List Order) :
    l.obeyAll (orders ++ more) = (l.obeyAll orders).obeyAll more :=
  List.foldl_append

theorem obey_pulse_eq (l : Lamp) (now : Millis) :
    l.obey (.pulse now) =
      let ends := Millis.later now l.busy.timing.pulseLength
      ⟨l.busy.withPulse (some ⟨ends, l.timers.nextHandle⟩),
        l.timers.rearm (l.busy.pulse.map (·.timer)) .commandPulse ends⟩ := by
  rw [obey, Busy.startPulse_eq]

theorem obey_load_eq (l : Lamp) (target : String) (now : Millis) :
    l.obey (.load target now) =
      ⟨l.busy.withLoad (some ⟨target, l.timers.nextHandle⟩),
        l.timers.rearm (l.busy.load.map (·.timer)) .loadSafety
          (Millis.later now l.busy.timing.loadTimeout)⟩ := by
  rw [obey, Busy.startLoad_eq]

theorem obey_stop_eq (l : Lamp) :
    l.obey .stop = ⟨l.busy.withLoad none, l.timers.cancel? (l.busy.load.map (·.timer))⟩ := by
  rw [obey, Busy.stopLoad_eq]

@[simp] theorem obey_stop_load (l : Lamp) : (l.obey .stop).busy.load = none := by
  rw [obey_stop_eq]
  rfl

theorem obey_arrive (l : Lamp) (label : String) :
    l.obey (.arrive label) = if l.busy.loadsTowards label then l.obey .stop else l := by
  simp only [obey, Busy.arrive_eq]
  split <;> rfl

@[simp] theorem obey_refresh_state (l : Lamp) (now : Millis) :
    (l.obey (.refresh now)).busy.state = l.busy.state :=
  l.busy.refresh_state now

@[simp] theorem obey_refresh_pulse (l : Lamp) (now : Millis) :
    (l.obey (.refresh now)).busy.pulse = l.busy.pulse := by
  rw [Busy.pulse, Busy.pulse, obey_refresh_state]

@[simp] theorem obey_refresh_load (l : Lamp) (now : Millis) :
    (l.obey (.refresh now)).busy.load = l.busy.load := by
  rw [Busy.load, Busy.load, obey_refresh_state]

@[simp] theorem obey_refresh_hubBusy (l : Lamp) (now : Millis) :
    (l.obey (.refresh now)).busy.hubBusy = l.busy.hubBusy := by
  simp only [obey, Busy.refresh_eq]
  split <;> rfl

/-- Whether an order arms a timer. -/
def Order.arms : Order → Bool
  | .pulse _ | .load .. => true
  | _ => false

theorem armed_obey (l : Lamp) (o : Order) :
    (l.obey o).timers.armed = l.timers.armed + if o.arms then 1 else 0 := by
  cases o with
  | pulse now => simp [obey_pulse_eq, Order.arms]
  | load target now => simp [obey_load_eq, Order.arms]
  | stop => simp [obey_stop_eq, Order.arms]
  | arrive label =>
    rw [obey_arrive]
    split <;> simp [obey_stop_eq, Order.arms]
  | hubBusy _ | refresh _ | fire _ | takeTimedOut => rfl

theorem armed_obeyAll (l : Lamp) (orders : List Order) :
    (l.obeyAll orders).timers.armed = l.timers.armed + orders.countP (·.arms) := by
  induction orders generalizing l with
  | nil => rfl
  | cons o orders ih =>
    rw [obeyAll_cons, ih, armed_obey, List.countP_cons]
    omega

theorem armed_obeyAll_le (l : Lamp) (orders : List Order) :
    l.timers.armed ≤ (l.obeyAll orders).timers.armed := by
  rw [armed_obeyAll]
  exact Nat.le_add_right _ _

/-! ## What fires -/

-- The pulse goes on unless its timer is among those that fire.
theorem foldl_timerFired_pulse (fired : List Timer) (b : Busy) :
    (fired.foldl (fun b t => b.timerFired t.handle t.kind) b).pulse =
      b.pulse.filter fun p =>
        !fired.any fun t => t.kind = .commandPulse ∧ p.timer = t.handle := by
  induction fired generalizing b with
  | nil => cases hp : b.pulse <;> simp [hp, Option.filter]
  | cons t fired ih =>
    rw [List.foldl_cons, ih]
    cases hk : t.kind with
    | commandPulse =>
      rw [Busy.timerFired_pulse]
      cases hp : b.pulse with
      | none => simp [hp]
      | some p => by_cases hh : p.timer = t.handle <;> simp [hp, hk, hh, Option.filter]
    | loadSafety =>
      rw [Busy.pulse_timerFired_load]
      simp [hk]

-- The load goes on unless its timer is among those that fire.
theorem foldl_timerFired_load (fired : List Timer) (b : Busy) :
    (fired.foldl (fun b t => b.timerFired t.handle t.kind) b).load =
      b.load.filter fun l =>
        !fired.any fun t => t.kind = .loadSafety ∧ l.timer = t.handle := by
  induction fired generalizing b with
  | nil => cases hl : b.load <;> simp [hl, Option.filter]
  | cons t fired ih =>
    rw [List.foldl_cons, ih]
    cases hk : t.kind with
    | loadSafety =>
      rw [Busy.timerFired_load]
      cases hl : b.load with
      | none => simp [hl]
      | some l => by_cases hh : l.timer = t.handle <;> simp [hl, hk, hh, Option.filter]
    | commandPulse =>
      rw [Busy.load_timerFired_pulse]
      simp [hk]

theorem foldl_timerFired_frame (fired : List Timer) (b : Busy) :
    (fired.foldl (fun b t => b.timerFired t.handle t.kind) b).light = b.light ∧
      (fired.foldl (fun b t => b.timerFired t.handle t.kind) b).timing = b.timing ∧
      (fired.foldl (fun b t => b.timerFired t.handle t.kind) b).hubBusy = b.hubBusy := by
  induction fired generalizing b with
  | nil => exact ⟨rfl, rfl, rfl⟩
  | cons t fired ih =>
    rcases b.timerFired_frame t.handle t.kind with ⟨hlight, htiming, hhub⟩
    rw [List.foldl_cons, ← hlight, ← htiming, ← hhub]
    exact ih (b.timerFired t.handle t.kind)

@[simp] theorem obey_timing (l : Lamp) (o : Order) : (l.obey o).busy.timing = l.busy.timing := by
  cases o with
  | stop => rw [obey_stop_eq]; rfl
  | arrive label =>
    rw [obey_arrive, obey_stop_eq]
    split <;> rfl
  | refresh now =>
    simp only [obey, Busy.refresh_eq]
    split <;> rfl
  | fire now => exact (foldl_timerFired_frame _ l.busy).2.1
  | pulse _ | load _ _ | hubBusy _ | takeTimedOut => rfl

theorem obeyAll_timing (l : Lamp) (orders : List Order) :
    (l.obeyAll orders).busy.timing = l.busy.timing := by
  induction orders generalizing l with
  | nil => rfl
  | cons o orders ih => rw [obeyAll_cons, ih, obey_timing]

/-! ## The coupling -/

/-- The live timers are those of the pulse and of the load, under handles that tell them apart. -/
structure Coupled (l : Lamp) : Prop where
  pulse : l.timers.ofKind .commandPulse = l.busy.pulse.toList.map Pulse.alarm
  load : ∃ deadline, l.timers.ofKind .loadSafety = l.busy.load.toList.map (·.alarm deadline)
  next : l.timers.nextHandle.toNat = l.timers.armed + 1
  pulseOld : ∀ p, l.busy.pulse = some p → p.timer.toNat ≤ l.timers.armed
  loadOld : ∀ x, l.busy.load = some x → x.timer.toNat ≤ l.timers.armed
  apart : ∀ p x, l.busy.pulse = some p → l.busy.load = some x → p.timer ≠ x.timer

-- A load goes on when the timers fire unless its own timer is due.
theorem fire_load {l : Lamp} {deadline : Millis}
    (hload : l.timers.ofKind .loadSafety = l.busy.load.toList.map (·.alarm deadline))
    (now : Millis) :
    (l.obey (.fire now)).busy.load = l.busy.load.filter fun _ => !decide (deadline ≤ now) := by
  simp only [obey, Busy.fireTimers, foldl_timerFired_load]
  cases hl : l.busy.load with
  | none => rfl
  | some x =>
    have hone : l.timers.ofKind (x.alarm deadline).kind = [x.alarm deadline] := by
      rw [hl] at hload
      exact hload
    have hany : ((l.timers.fireDue now).1.any fun t => t.kind = .loadSafety ∧ x.timer = t.handle) =
        decide (deadline ≤ now) := Timers.any_fireDue hone now
    rw [Option.filter_some, Option.filter_some, hany]

-- A load that goes on keeps its timer.
theorem fire_alarm {l : Lamp} {deadline : Millis}
    (hload : l.timers.ofKind .loadSafety = l.busy.load.toList.map (·.alarm deadline))
    (now : Millis) :
    (l.obey (.fire now)).timers.ofKind .loadSafety =
      (l.obey (.fire now)).busy.load.toList.map (·.alarm deadline) := by
  rw [fire_load hload]
  simp only [obey, Busy.fireTimers, Timers.ofKind_fireDue, hload]
  cases l.busy.load with
  | none => rfl
  | some x => by_cases hdue : deadline ≤ now <;> simp [Load.alarm, hdue, Option.filter]

theorem coupled_new (timing : Timing) : (new timing).Coupled where
  pulse := rfl
  load := ⟨0, rfl⟩
  next := rfl
  pulseOld := fun _ h => by cases h
  loadOld := fun _ h => by cases h
  apart := fun _ _ h => by cases h

namespace Coupled

variable {l l' : Lamp}

-- The coupling does not depend on anything but the pulse, the load and the timers.
theorem congr (h : l.Coupled) (hp : l'.busy.pulse = l.busy.pulse) (hl : l'.busy.load = l.busy.load)
    (ht : l'.timers = l.timers) : l'.Coupled where
  pulse := by rw [ht, hp]; exact h.pulse
  load := by rw [ht, hl]; exact h.load
  next := by rw [ht]; exact h.next
  pulseOld := by rw [ht, hp]; exact h.pulseOld
  loadOld := by rw [ht, hl]; exact h.loadOld
  apart := by rw [hp, hl]; exact h.apart

theorem length_pulse_le (h : l.Coupled) : (l.timers.ofKind .commandPulse).length ≤ 1 := by
  rw [h.pulse, List.length_map]
  cases l.busy.pulse <;> simp

theorem length_load_le (h : l.Coupled) : (l.timers.ofKind .loadSafety).length ≤ 1 := by
  rcases h.load with ⟨deadline, hload⟩
  rw [hload, List.length_map]
  cases l.busy.load <;> simp

-- Cancelling the timer of the pulse leaves that of the load.
theorem load_cancel_pulse (h : l.Coupled) :
    (l.timers.cancel? (l.busy.pulse.map (·.timer))).ofKind .loadSafety =
      l.timers.ofKind .loadSafety := by
  rcases h.load with ⟨deadline, hload⟩
  apply Timers.ofKind_cancel?_of_ne
  intro x hx hhandle
  rw [hload, List.mem_map] at hx
  rcases hx with ⟨y, hy, rfl⟩
  rcases Option.map_eq_some_iff.mp hhandle with ⟨p, hp, hsame⟩
  exact h.apart p y hp (Option.mem_toList.mp hy) hsame

-- Cancelling the timer of the load leaves that of the pulse.
theorem pulse_cancel_load (h : l.Coupled) :
    (l.timers.cancel? (l.busy.load.map (·.timer))).ofKind .commandPulse =
      l.timers.ofKind .commandPulse := by
  apply Timers.ofKind_cancel?_of_ne
  intro x hx hhandle
  rw [h.pulse, List.mem_map] at hx
  rcases hx with ⟨p, hp, rfl⟩
  rcases Option.map_eq_some_iff.mp hhandle with ⟨y, hy, hsame⟩
  exact h.apart p y (Option.mem_toList.mp hp) hy hsame.symm

theorem load_cancel_load (h : l.Coupled) :
    (l.timers.cancel? (l.busy.load.map (·.timer))).ofKind .loadSafety = [] := by
  rcases h.load with ⟨deadline, hload⟩
  cases hl : l.busy.load with
  | none =>
    rw [hl] at hload
    exact hload
  | some x =>
    rw [hl] at hload
    rw [Option.map_some, Timers.cancel?, Timers.ofKind_cancel, hload]
    simp [Load.alarm]

-- Handles count up, so the next one is new.
theorem next_after (h : l.Coupled) (hfew : l.timers.armed + 1 < UInt32.size - 1) :
    (Timers.handleAfter l.timers.nextHandle).toNat = l.timers.armed + 2 := by
  have hnext := h.next
  rw [Timers.toNat_handleAfter (by omega), hnext]

theorem ne_nextHandle (h : l.Coupled) {handle : Handle} (hold : handle.toNat ≤ l.timers.armed) :
    handle ≠ l.timers.nextHandle := by
  intro he
  have hnext := h.next
  rw [he] at hold
  omega

-- A slot is free whenever a timer is armed, so the new timer is live.
theorem armed_pulse (h : l.Coupled) (now : Millis) :
    (l.obey (.pulse now)).timers.ofKind .commandPulse =
      [⟨l.timers.nextHandle, .commandPulse, Millis.later now l.busy.timing.pulseLength⟩] := by
  have hone : ((l.timers.cancel? (l.busy.pulse.map (·.timer))).ofKind .loadSafety).length ≤ 1 := by
    rw [h.load_cancel_pulse]
    exact h.length_load_le
  rw [obey_pulse_eq]
  exact Timers.ofKind_rearm_self (by decide) hone

theorem armed_load (h : l.Coupled) (target : String) (now : Millis) :
    (l.obey (.load target now)).timers.ofKind .loadSafety =
      [⟨l.timers.nextHandle, .loadSafety, Millis.later now l.busy.timing.loadTimeout⟩] := by
  have hone : ((l.timers.cancel? (l.busy.load.map (·.timer))).ofKind .commandPulse).length ≤ 1 := by
    rw [h.pulse_cancel_load]
    exact h.length_pulse_le
  rw [obey_load_eq]
  exact Timers.ofKind_rearm_self (by decide) hone

-- Arming one kind leaves the timer of the other.
theorem load_of_pulse (h : l.Coupled) (now : Millis) :
    (l.obey (.pulse now)).timers.ofKind .loadSafety = l.timers.ofKind .loadSafety := by
  rw [obey_pulse_eq, Timers.ofKind_rearm_of_ne (by decide), h.load_cancel_pulse]

theorem pulse_of_load (h : l.Coupled) (target : String) (now : Millis) :
    (l.obey (.load target now)).timers.ofKind .commandPulse =
      l.timers.ofKind .commandPulse := by
  rw [obey_load_eq, Timers.ofKind_rearm_of_ne (by decide), h.pulse_cancel_load]

theorem obey_pulse (h : l.Coupled) {now : Millis} (hfew : (l.obey (.pulse now)).timers.Few) :
    (l.obey (.pulse now)).Coupled := by
  have hpulse := h.armed_pulse now
  have hload := h.load_of_pulse now
  rw [obey_pulse_eq] at hfew hpulse hload ⊢
  rw [Timers.Few, Timers.armed_rearm] at hfew
  constructor
  · exact hpulse
  · rcases h.load with ⟨deadline, halarm⟩
    exact ⟨deadline, hload.trans halarm⟩
  · rw [Timers.nextHandle_rearm, Timers.armed_rearm]
    exact h.next_after hfew
  · intro p hp
    rw [← Option.some.inj hp, Timers.armed_rearm]
    exact Nat.le_of_eq h.next
  · intro x hx
    rw [Timers.armed_rearm]
    exact Nat.le_succ_of_le (h.loadOld x hx)
  · -- the handle of the new pulse is newer than that of the load
    intro p x hp hx
    rw [← Option.some.inj hp]
    exact (h.ne_nextHandle (h.loadOld x hx)).symm

theorem obey_load (h : l.Coupled) {target : String} {now : Millis}
    (hfew : (l.obey (.load target now)).timers.Few) : (l.obey (.load target now)).Coupled := by
  have hload := h.armed_load target now
  have hpulse := h.pulse_of_load target now
  rw [obey_load_eq] at hfew hload hpulse ⊢
  rw [Timers.Few, Timers.armed_rearm] at hfew
  constructor
  · exact hpulse.trans h.pulse
  · exact ⟨_, hload⟩
  · rw [Timers.nextHandle_rearm, Timers.armed_rearm]
    exact h.next_after hfew
  · intro p hp
    rw [Timers.armed_rearm]
    exact Nat.le_succ_of_le (h.pulseOld p hp)
  · intro x hx
    rw [← Option.some.inj hx, Timers.armed_rearm]
    exact Nat.le_of_eq h.next
  · -- the handle of the new load is newer than that of the pulse
    intro p x hp hx
    rw [← Option.some.inj hx]
    exact h.ne_nextHandle (h.pulseOld p hp)

theorem obey_stop (h : l.Coupled) : (l.obey .stop).Coupled := by
  rw [obey_stop_eq]
  constructor
  · exact h.pulse_cancel_load.trans h.pulse
  · exact ⟨0, h.load_cancel_load⟩
  · rw [Timers.armed_cancel?, Timers.nextHandle_cancel?]
    exact h.next
  · rw [Timers.armed_cancel?]
    exact h.pulseOld
  · intro x hx
    cases hx
  · intro p x hp hx
    cases hx

theorem pulse_alarm_live (h : l.Coupled) {p : Pulse} (hp : l.busy.pulse = some p) :
    p.alarm ∈ l.timers.live := by
  rw [Timers.mem_live_iff]
  change p.alarm ∈ l.timers.ofKind .commandPulse
  rw [h.pulse, hp]
  exact List.mem_singleton_self p.alarm

-- A pulse goes on when the timers fire unless it has run out.
theorem fire_pulse (h : l.Coupled) (now : Millis) :
    (l.obey (.fire now)).busy.pulse = l.busy.pulse.filter fun p => !decide (p.ends ≤ now) := by
  simp only [obey, Busy.fireTimers, foldl_timerFired_pulse]
  cases hp : l.busy.pulse with
  | none => rfl
  | some p =>
    have hone : l.timers.ofKind p.alarm.kind = [p.alarm] := by
      have hpulse := h.pulse
      rw [hp] at hpulse
      exact hpulse
    have hany : ((l.timers.fireDue now).1.any fun t => t.kind = .commandPulse ∧ p.timer = t.handle) =
        decide (p.ends ≤ now) := Timers.any_fireDue hone now
    rw [Option.filter_some, Option.filter_some, hany]

theorem obey_fire (h : l.Coupled) (now : Millis) : (l.obey (.fire now)).Coupled := by
  rcases h.load with ⟨deadline, hload⟩
  have hp := h.fire_pulse now
  have hl := fire_load hload now
  constructor
  · rw [hp]
    simp only [obey, Busy.fireTimers, Timers.ofKind_fireDue, h.pulse]
    cases l.busy.pulse with
    | none => rfl
    | some p => by_cases hdue : p.ends ≤ now <;> simp [Pulse.alarm, hdue, Option.filter]
  · exact ⟨deadline, fire_alarm hload now⟩
  · exact h.next
  · intro p hpulse
    rw [hp] at hpulse
    exact h.pulseOld p (Option.eq_some_of_filter_eq_some hpulse)
  · intro x hx
    rw [hl] at hx
    exact h.loadOld x (Option.eq_some_of_filter_eq_some hx)
  · intro p x hpulse hx
    rw [hp] at hpulse
    rw [hl] at hx
    exact h.apart p x (Option.eq_some_of_filter_eq_some hpulse)
      (Option.eq_some_of_filter_eq_some hx)

-- Every order keeps the coupling, as long as handles do not come up twice.
theorem obey (h : l.Coupled) {o : Order} (hfew : (l.obey o).timers.Few) : (l.obey o).Coupled := by
  cases o with
  | pulse now => exact h.obey_pulse hfew
  | load target now => exact h.obey_load hfew
  | stop => exact h.obey_stop
  | arrive label =>
    rw [obey_arrive]
    split
    · exact h.obey_stop
    · exact h
  | hubBusy on => exact h.congr rfl rfl rfl
  | refresh now => exact h.congr (obey_refresh_pulse l now) (obey_refresh_load l now) rfl
  | fire now => exact h.obey_fire now
  | takeTimedOut => exact h.congr rfl rfl rfl

theorem obeyAll (h : l.Coupled) {orders : List Order} (hfew : (l.obeyAll orders).timers.Few) :
    (l.obeyAll orders).Coupled := by
  induction orders generalizing l with
  | nil => exact h
  | cons o orders ih =>
    have hone : (l.obey o).timers.Few :=
      Nat.lt_of_le_of_lt (armed_obeyAll_le (l.obey o) orders) hfew
    exact ih (h.obey hone) hfew

end Coupled

/-! ## The light -/

theorem refresh_of_none {b : Busy} {now : Millis} (h : (b.refresh now).2.isSome = false) :
    (b.refresh now).1 = b := by
  rw [Busy.refresh_eq] at h ⊢
  split
  · rfl
  · rename_i hchanged
    rw [if_neg hchanged] at h
    cases h

/-- From a time on, the light is as it should be until the pulse runs out. -/
def Accurate (now : Millis) (l : Lamp) : Prop :=
  ∀ t, now ≤ t → (∀ p, l.busy.pulse = some p → t < p.ends) → l.busy.light = l.busy.isActive t

theorem accurate_new (timing : Timing) (now : Millis) : (new timing).Accurate now :=
  fun _ _ _ => rfl

theorem Accurate.mono {s now : Millis} {l : Lamp} (h : l.Accurate s) (hle : s ≤ now) :
    l.Accurate now :=
  fun t ht hpulse => h t (UInt64.le_trans hle ht) hpulse

theorem isActive_of_lt {b : Busy} {t : Millis} (h : ∀ p, b.pulse = some p → t < p.ends) :
    b.isActive t = (b.load.isSome || b.pulse.isSome || b.hubBusy) := by
  rw [Busy.isActive_eq]
  cases hp : b.pulse with
  | none => rfl
  | some p => simp [h p hp]

theorem obey_refresh_light (l : Lamp) (now : Millis) :
    (l.obey (.refresh now)).busy.light = l.busy.isActive now := by
  simp only [obey, Busy.refresh_eq]
  split
  · rename_i h
    exact h.symm
  · rfl

@[simp] theorem obey_refresh_isActive (l : Lamp) (now t : Millis) :
    (l.obey (.refresh now)).busy.isActive t = l.busy.isActive t := by
  simp only [obey, Busy.refresh_eq]
  split <;> rfl

theorem accurate_refresh (l : Lamp) (now : Millis) : (l.obey (.refresh now)).Accurate now := by
  intro t ht hpulse
  rw [obey_refresh_pulse] at hpulse
  have hnow : ∀ p, l.busy.pulse = some p → now < p.ends :=
    fun p hp => UInt64.lt_of_le_of_lt ht (hpulse p hp)
  rw [obey_refresh_light, obey_refresh_isActive, isActive_of_lt hnow, isActive_of_lt hpulse]

-- The light stays as it was last reported until it is brought up to date.
theorem obey_light {l : Lamp} {o : Order} (h : ∀ now, o ≠ .refresh now) :
    (l.obey o).busy.light = l.busy.light := by
  cases o with
  | stop => rw [obey_stop_eq]; rfl
  | arrive label =>
    rw [obey_arrive, obey_stop_eq]
    split <;> rfl
  | fire now => exact (foldl_timerFired_frame _ l.busy).1
  | refresh now => exact absurd rfl (h now)
  | pulse _ | load _ _ | hubBusy _ | takeTimedOut => rfl

theorem obeyAll_light {l : Lamp} {orders : List Order} (h : ∀ now, .refresh now ∉ orders) :
    (l.obeyAll orders).busy.light = l.busy.light := by
  induction orders generalizing l with
  | nil => rfl
  | cons o orders ih =>
    rw [obeyAll_cons, ih]
    · exact obey_light fun now he => h now (by rw [he]; exact List.mem_cons_self)
    · exact fun now hmem => h now (List.mem_cons_of_mem o hmem)

-- After some orders the light is reported when it has another value than before them.
theorem change_obeyAll (l : Lamp) {orders : List Order} (h : ∀ t, .refresh t ∉ orders)
    (now : Millis) :
    let after := (l.obeyAll orders).obey (.refresh now)
    ((l.obeyAll orders).busy.refresh now).2 =
      if after.busy.light = l.busy.light then none else some after.busy.light := by
  intro after
  have hafter : after.busy.light = (l.obeyAll orders).busy.isActive now :=
    obey_refresh_light (l.obeyAll orders) now
  rw [hafter, Busy.refresh_eq, obeyAll_light h]
  split <;> rfl

-- Nothing but the safety timer makes a load time out.
theorem obey_timedOut {l : Lamp} {o : Order} (h : ∀ now, o ≠ .fire now)
    (hnone : l.busy.timedOut = none) : (l.obey o).busy.timedOut = none := by
  cases o with
  | stop =>
    rw [obey_stop_eq]
    exact hnone
  | arrive label =>
    rw [obey_arrive, obey_stop_eq]
    split <;> exact hnone
  | refresh now =>
    simp only [obey, Busy.refresh_eq]
    split <;> exact hnone
  | fire now => exact absurd rfl (h now)
  | takeTimedOut => rfl
  | pulse _ | load _ _ | hubBusy _ => exact hnone

theorem obeyAll_timedOut {l : Lamp} {orders : List Order} (h : ∀ now, .fire now ∉ orders)
    (hnone : l.busy.timedOut = none) : (l.obeyAll orders).busy.timedOut = none := by
  induction orders generalizing l with
  | nil => exact hnone
  | cons o orders ih =>
    apply ih
    · exact fun now hmem => h now (List.mem_cons_of_mem o hmem)
    · refine obey_timedOut (fun now he => h now ?_) hnone
      rw [he]
      exact List.mem_cons_self

end Lamp

end HubCard
