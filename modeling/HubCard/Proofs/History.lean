import HubCard.Proofs.Alarms
import Mathlib.Data.List.Induction

/-!
The light by its history. The lamp keeps no more than flags and timers; here the light is said in
terms of all the orders that were given, and the two agree at every time. The same goes for the loads
that are given up: each is given out once, after the first firing that comes too late for it.
-/

namespace HubCard

namespace Lamp

/-! ## Since an order -/

/-- An order that starts something has been given, and since then only orders that keep it. -/
def Since (starts keeps : Order → Prop) (history : List Order) : Prop :=
  ∃ before o after, history = before ++ o :: after ∧ starts o ∧ ∀ x ∈ after, keeps x

variable {starts keeps : Order → Prop}

theorem not_since_nil : ¬ Since starts keeps [] := by
  rintro ⟨before, o, after, hhistory, -⟩
  simp at hhistory

theorem since_concat {history : List Order} {o : Order} :
    Since starts keeps (history ++ [o]) ↔ starts o ∨ Since starts keeps history ∧ keeps o := by
  constructor
  · rintro ⟨before, x, after, hhistory, hx, hafter⟩
    rcases List.eq_nil_or_concat after with rfl | ⟨middle, y, rfl⟩
    · rw [List.append_singleton_inj] at hhistory
      rw [hhistory.2]
      exact .inl hx
    · rw [List.concat_eq_append, ← List.cons_append, ← List.append_assoc,
        List.append_singleton_inj] at hhistory
      right
      rw [hhistory.2]
      exact ⟨⟨before, x, middle, hhistory.1, hx, fun z hz => hafter z (by simp [hz])⟩,
        hafter y (by simp)⟩
  · rintro (ho | ⟨⟨before, x, after, rfl, hx, hafter⟩, ho⟩)
    · exact ⟨history, o, [], rfl, ho, by simp⟩
    · refine ⟨before, x, after ++ [o], by simp, hx, ?_⟩
      intro z hz
      rcases List.mem_append.mp hz with hz | hz
      · exact hafter z hz
      · rw [List.mem_singleton.mp hz]
        exact ho

-- What more the orders must keep may be said of the history as a whole.
theorem since_and_iff {more : Order → Prop} {history : List Order}
    (hmore : ∀ o ∈ history, more o) :
    Since starts (fun o => keeps o ∧ more o) history ↔ Since starts keeps history := by
  constructor
  · rintro ⟨before, o, after, hhistory, ho, hafter⟩
    exact ⟨before, o, after, hhistory, ho, fun x hx => (hafter x hx).1⟩
  · rintro ⟨before, o, after, rfl, ho, hafter⟩
    exact ⟨before, o, after, rfl, ho, fun x hx => ⟨hafter x hx, hmore x (by simp [hx])⟩⟩

-- It makes no difference where it is said which order it was.
theorem since_exists {α : Type} {order : α → Order} {holds : α → Prop} {history : List Order} :
    Since (fun o => ∃ a, o = order a ∧ holds a) keeps history ↔
      ∃ a, holds a ∧ Since (· = order a) keeps history := by
  constructor
  · rintro ⟨before, o, after, hhistory, ⟨a, ho, ha⟩, hafter⟩
    exact ⟨a, ha, before, o, after, hhistory, ho, hafter⟩
  · rintro ⟨a, ha, before, o, after, hhistory, ho, hafter⟩
    exact ⟨before, o, after, hhistory, ⟨a, ho, ha⟩, hafter⟩

/-- A property of the lamp that an order starts, keeps or ends holds after a history exactly when it
has been started and kept since. -/
theorem obeyAll_iff_since {timing : Timing} {P : Lamp → Prop} (hnew : ¬ P (new timing))
    (hstep : ∀ l o, l.Coupled → l.busy.timing = timing →
      (P (l.obey o) ↔ starts o ∨ P l ∧ keeps o))
    {history : List Order} (hfew : FewArmed history) :
    P ((new timing).obeyAll history) ↔ Since starts keeps history := by
  -- the last order is the one that counts, so the history is taken from its end
  induction history using List.reverseRecOn with
  | nil => exact iff_of_false hnew not_since_nil
  | append_singleton history o ih =>
    have hbefore : FewArmed history := by
      unfold FewArmed at hfew ⊢
      rw [List.countP_append] at hfew
      omega
    have htiming : ((new timing).obeyAll history).busy.timing = timing := obeyAll_timing _ _
    rw [obeyAll_append, obeyAll_cons, obeyAll_nil, since_concat, ← ih hbefore]
    exact hstep _ o (coupled_obeyAll hbefore) htiming

/-! ## What an order starts and ends -/

namespace Order

def isPulse : Order → Bool
  | .pulse _ => true
  | _ => false

def isHubBusy : Order → Bool
  | .hubBusy _ => true
  | _ => false

/-- Whether an order ends the loading of an activity: another load, a stop, or the news that the
activity has become current. -/
def endsLoad (target : String) : Order → Bool
  | .load .. | .stop => true
  | .arrive label => label == target
  | _ => false

/-- Whether an order fires what is due at a deadline. -/
def reaches (deadline : Millis) : Order → Bool
  | .fire now => deadline ≤ now
  | _ => false

theorem reaches_fire {deadline now : Millis} :
    (fire now).reaches deadline = false ↔ now < deadline := by
  simp [reaches]

end Order

theorem hubBusy_obey (l : Lamp) (o : Order) :
    (l.obey o).busy.hubBusy = true ↔
      o = .hubBusy true ∨ l.busy.hubBusy = true ∧ o.isHubBusy = false := by
  cases o with
  | hubBusy on => simp [obey, Order.isHubBusy]
  | arrive label =>
    rw [obey_arrive]
    split <;> simp [obey_stop_eq, Order.isHubBusy]
  | refresh now =>
    rw [obey_refresh_hubBusy]
    simp [Order.isHubBusy]
  | fire now =>
    have hsame : (l.obey (.fire now)).busy.hubBusy = l.busy.hubBusy :=
      (foldl_timerFired_frame _ l.busy).2.2
    simp [hsame, Order.isHubBusy]
  | pulse _ | load _ _ | stop => simp [obey_pulse_eq, obey_load_eq, obey_stop_eq, Order.isHubBusy]
  | takeTimedOut =>
    show l.busy.hubBusy = true ↔ _
    simp [Order.isHubBusy]

/-- Whether a pulse runs until a time. -/
def PulsesUntil (l : Lamp) (ends : Millis) : Prop :=
  l.busy.pulse.map (·.ends) = some ends

/-- Whether an activity is loading and will be given up at a time. -/
def LoadsUntil (l : Lamp) (target : String) (deadline : Millis) : Prop :=
  ∃ handle, l.busy.load = some ⟨target, handle⟩ ∧
    l.timers.ofKind .loadSafety = [⟨handle, .loadSafety, deadline⟩]

-- Only a pulse and a firing touch the pulse.
theorem pulse_obey (l : Lamp) {o : Order} (hpulse : o.isPulse = false)
    (hfire : ∀ now, o ≠ .fire now) : (l.obey o).busy.pulse = l.busy.pulse := by
  cases o with
  | pulse now => cases hpulse
  | fire now => exact absurd rfl (hfire now)
  | stop => rw [obey_stop_eq, Busy.pulse_withLoad]
  | arrive label =>
    rw [obey_arrive, obey_stop_eq]
    split <;> rfl
  | refresh now => exact obey_refresh_pulse l now
  | hubBusy _ | load _ _ | takeTimedOut => rfl

theorem loadsUntil_congr {l l' : Lamp} {target : String} {deadline : Millis}
    (hload : l'.busy.load = l.busy.load)
    (htimers : l'.timers.ofKind .loadSafety = l.timers.ofKind .loadSafety) :
    l'.LoadsUntil target deadline ↔ l.LoadsUntil target deadline := by
  unfold LoadsUntil
  rw [hload, htimers]

-- The deadline of a load is that of its timer.
theorem loadsUntil_iff {l : Lamp} {due : Millis}
    (halarm : l.timers.ofKind .loadSafety = l.busy.load.toList.map (·.alarm due))
    {target : String} {deadline : Millis} :
    l.LoadsUntil target deadline ↔
      l.busy.load.map (·.target) = some target ∧ due = deadline := by
  unfold LoadsUntil
  rw [halarm]
  cases l.busy.load with
  | none => simp
  | some x =>
    rcases x with ⟨target', handle⟩
    simp [Load.alarm]

theorem LoadsUntil.loadsTowards {l : Lamp} {target : String} {deadline : Millis}
    (h : l.LoadsUntil target deadline) (label : String) :
    l.busy.loadsTowards label = (target == label) := by
  rcases h with ⟨handle, hload, -⟩
  rw [Busy.loadsTowards_eq, hload, Option.any_some]

theorem not_loadsUntil_stop (l : Lamp) (target : String) (deadline : Millis) :
    ¬ (l.obey .stop).LoadsUntil target deadline := by
  rintro ⟨handle, hload, -⟩
  rw [obey_stop_load] at hload
  cases hload

namespace Coupled

variable {l : Lamp} (h : l.Coupled)

include h

theorem pulsesUntil_obey (o : Order) {ends : Millis} :
    (l.obey o).PulsesUntil ends ↔
      (∃ start, o = .pulse start ∧ Millis.later start l.busy.timing.pulseLength = ends) ∨
        l.PulsesUntil ends ∧ (o.isPulse = false ∧ o.reaches ends = false) := by
  unfold PulsesUntil
  cases o with
  | pulse now => simp [obey_pulse_eq, Order.isPulse]
  | fire now =>
    rw [h.fire_pulse, Order.reaches_fire]
    cases l.busy.pulse with
    | none => simp
    | some p =>
      by_cases hends : p.ends = ends
      · subst hends
        simp [Option.filter, Order.isPulse]
      · simp [Option.filter, hends]
  | hubBusy _ | load _ _ | stop | takeTimedOut | arrive _ | refresh _ =>
    rw [pulse_obey l rfl (by simp)]
    simp [Order.isPulse, Order.reaches]

theorem loadsUntil_obey (o : Order) {target : String} {deadline : Millis} :
    (l.obey o).LoadsUntil target deadline ↔
      (∃ start, o = .load target start ∧
          Millis.later start l.busy.timing.loadTimeout = deadline) ∨
        l.LoadsUntil target deadline ∧ (o.endsLoad target = false ∧ o.reaches deadline = false) := by
  cases o with
  | load other now =>
    have halarm := h.armed_load other now
    rw [obey_load_eq] at halarm ⊢
    simp [LoadsUntil, halarm, Order.endsLoad]
  | stop => simp [not_loadsUntil_stop, Order.endsLoad]
  | arrive label =>
    rw [obey_arrive]
    by_cases hloads : l.LoadsUntil target deadline
    · rw [hloads.loadsTowards label]
      by_cases hlabel : target = label
      · simp [hlabel, not_loadsUntil_stop, Order.endsLoad]
      · simp [hlabel, Ne.symm hlabel, hloads, Order.endsLoad, Order.reaches]
    · split <;> simp [hloads, not_loadsUntil_stop]
  | fire now =>
    rcases h.load with ⟨due, halarm⟩
    rw [loadsUntil_iff (fire_alarm halarm now), loadsUntil_iff halarm, fire_load halarm,
      Order.reaches_fire]
    cases l.busy.load with
    | none => simp
    | some x =>
      by_cases hdue : due = deadline
      · subst hdue
        simp [Option.filter, Order.endsLoad, and_comm]
      · simp [hdue]
  | pulse now =>
    rw [loadsUntil_congr (by rw [obey_pulse_eq, Busy.load_withPulse]) (h.load_of_pulse now)]
    simp [Order.endsLoad, Order.reaches]
  | refresh now =>
    rw [loadsUntil_congr (obey_refresh_load l now) rfl]
    simp [Order.endsLoad, Order.reaches]
  | hubBusy _ | takeTimedOut =>
    change l.LoadsUntil target deadline ↔ _
    simp [Order.endsLoad, Order.reaches]

end Coupled

/-! ## The state of the lamp by its history -/

section History

variable {timing : Timing} {history : List Order} (hfew : FewArmed history)

include hfew

theorem hubBusy_iff_since :
    ((new timing).obeyAll history).busy.hubBusy = true ↔
      Since (· = .hubBusy true) (·.isHubBusy = false) history := by
  apply obeyAll_iff_since (P := fun l => l.busy.hubBusy = true)
  · exact Bool.false_ne_true
  · exact fun l o _ _ => hubBusy_obey l o
  · exact hfew

theorem pulsesUntil_iff_since {ends : Millis} :
    ((new timing).obeyAll history).PulsesUntil ends ↔
      Since (fun o => ∃ start, o = .pulse start ∧ Millis.later start timing.pulseLength = ends)
        (fun o => o.isPulse = false ∧ o.reaches ends = false) history := by
  apply obeyAll_iff_since (P := fun l => l.PulsesUntil ends)
  · simp [PulsesUntil, new]
  · intro l o h htiming
    rw [h.pulsesUntil_obey, htiming]
  · exact hfew

theorem loadsUntil_iff_since {target : String} {deadline : Millis} :
    ((new timing).obeyAll history).LoadsUntil target deadline ↔
      Since
        (fun o => ∃ start, o = .load target start ∧
          Millis.later start timing.loadTimeout = deadline)
        (fun o => o.endsLoad target = false ∧ o.reaches deadline = false) history := by
  apply obeyAll_iff_since (P := fun l => l.LoadsUntil target deadline)
  · simp [LoadsUntil, new]
  · intro l o h htiming
    rw [h.loadsUntil_obey, htiming]
  · exact hfew

end History

/-! ## The light -/

/-- What keeps the light on at a time, by the history: the hub has said last that it is busy; or the
last pulse has not ended; or the last load is not too late, and since it was started it has not been
stopped and its target has not become current. -/
def Lit (timing : Timing) (history : List Order) (now : Millis) : Prop :=
  Since (· = .hubBusy true) (·.isHubBusy = false) history ∨
    (∃ start, now < Millis.later start timing.pulseLength ∧
      Since (· = .pulse start) (·.isPulse = false) history) ∨
    ∃ target start, now < Millis.later start timing.loadTimeout ∧
      Since (· = .load target start) (·.endsLoad target = false) history

theorem isActive_iff (b : Busy) (now : Millis) :
    b.isActive now = true ↔
      b.hubBusy = true ∨ (∃ ends, b.pulse.map (·.ends) = some ends ∧ now < ends) ∨
        b.load.isSome = true := by
  rw [Busy.isActive_eq]
  cases b.pulse with
  | none => simp [or_comm]
  | some p =>
    simp only [Bool.or_eq_true, decide_eq_true_iff, Option.map_some, Option.some.injEq,
      Option.any_some, exists_eq_left']
    tauto

theorem Coupled.isSome_load_iff {l : Lamp} (h : l.Coupled) :
    l.busy.load.isSome = true ↔ ∃ target deadline, l.LoadsUntil target deadline := by
  constructor
  · intro hsome
    rcases Option.isSome_iff_exists.mp hsome with ⟨⟨target, handle⟩, hload⟩
    rcases h.load_timer hload with ⟨deadline, halarm⟩
    exact ⟨target, deadline, handle, hload, halarm⟩
  · rintro ⟨target, deadline, handle, hload, -⟩
    rw [hload]
    rfl

-- Whatever has fired by a time has fired before any deadline that is still to come.
theorem reaches_of_lt {history : List Order} {now deadline : Millis}
    (hfired : ∀ t, .fire t ∈ history → t ≤ now) (hlt : now < deadline) :
    ∀ o ∈ history, o.reaches deadline = false := by
  intro o ho
  cases o with
  | fire t => exact Order.reaches_fire.mpr (UInt64.lt_of_le_of_lt (hfired t ho) hlt)
  | _ => rfl

section Light

variable {timing : Timing} {history : List Order} (hfew : FewArmed history) {now : Millis}
  (hfired : ∀ t, .fire t ∈ history → t ≤ now)

include hfew hfired

theorem pulse_running_iff :
    (∃ ends, (((new timing).obeyAll history).obey (.fire now)).PulsesUntil ends ∧ now < ends) ↔
      ∃ start, now < Millis.later start timing.pulseLength ∧
        Since (· = .pulse start) (·.isPulse = false) history := by
  simp only [(coupled_obeyAll hfew).pulsesUntil_obey, pulsesUntil_iff_since hfew, since_exists]
  constructor
  · rintro ⟨ends, ⟨_, ho, -⟩ | ⟨⟨start, rfl, hsince⟩, -⟩, hlt⟩
    · cases ho
    · exact ⟨start, hlt, (since_and_iff (reaches_of_lt hfired hlt)).mp hsince⟩
  · rintro ⟨start, hlt, hsince⟩
    have hkept := (since_and_iff (reaches_of_lt hfired hlt)).mpr hsince
    exact ⟨_, .inr ⟨⟨start, rfl, hkept⟩, rfl, Order.reaches_fire.mpr hlt⟩, hlt⟩

theorem load_running_iff :
    (∃ target deadline,
        (((new timing).obeyAll history).obey (.fire now)).LoadsUntil target deadline) ↔
      ∃ target start, now < Millis.later start timing.loadTimeout ∧
        Since (· = .load target start) (·.endsLoad target = false) history := by
  simp only [(coupled_obeyAll hfew).loadsUntil_obey, loadsUntil_iff_since hfew, since_exists,
    Order.reaches_fire]
  constructor
  · rintro ⟨target, deadline, ⟨_, ho, -⟩ | ⟨⟨start, rfl, hsince⟩, -, hlt⟩⟩
    · cases ho
    · exact ⟨target, start, hlt, (since_and_iff (reaches_of_lt hfired hlt)).mp hsince⟩
  · rintro ⟨target, start, hlt, hsince⟩
    have hkept := (since_and_iff (reaches_of_lt hfired hlt)).mpr hsince
    exact ⟨target, _, .inr ⟨⟨start, rfl, hkept⟩, rfl, hlt⟩⟩

theorem light_iff_lit :
    ((new timing).obeyAll (history ++ [.fire now, .refresh now])).busy.light = true ↔
      Lit timing history now := by
  have hcoupled : (((new timing).obeyAll history).obey (.fire now)).Coupled :=
    (coupled_obeyAll hfew).obey_fire now
  have hhub : (((new timing).obeyAll history).obey (.fire now)).busy.hubBusy = true ↔
      Since (· = .hubBusy true) (·.isHubBusy = false) history := by
    rw [hubBusy_obey, hubBusy_iff_since hfew]
    simp [Order.isHubBusy]
  rw [obeyAll_append, obeyAll_cons, obeyAll_cons, obeyAll_nil, obey_refresh_light, isActive_iff,
    hcoupled.isSome_load_iff, hhub, load_running_iff hfew hfired]
  exact or_congr_right (or_congr_left (pulse_running_iff hfew hfired))

end Light

/-! ## Loads that are given up -/

/-- A load towards `target` is given up at a time: it is too late, no firing has found it so before,
and since it was started it has not been stopped, its target has not become current and no other load
has been started. -/
def GivenUp (timing : Timing) (history : List Order) (now : Millis) (target : String) : Prop :=
  ∃ start, Millis.later start timing.loadTimeout ≤ now ∧
    Since (· = .load target start)
      (fun o => o.endsLoad target = false ∧
        o.reaches (Millis.later start timing.loadTimeout) = false) history

-- What fires the timer of the load gives its target out.
theorem foldl_timerFired_timedOut (fired : List Timer) (b : Busy) :
    (fired.foldl (fun b t => b.timerFired t.handle t.kind) b).timedOut =
      match b.load with
      | some x =>
        if fired.any fun t => t.kind = .loadSafety ∧ x.timer = t.handle then some x.target
        else b.timedOut
      | none => b.timedOut := by
  induction fired generalizing b with
  | nil => cases b.load <;> rfl
  | cons t fired ih =>
    rw [List.foldl_cons, ih]
    cases hk : t.kind with
    | loadSafety =>
      rw [Busy.timerFired_load]
      cases hl : b.load with
      | none => simp [hl]
      | some x => by_cases hh : x.timer = t.handle <;> simp [hl, hk, hh]
    | commandPulse =>
      rw [Busy.load_timerFired_pulse, Busy.timerFired_pulse]
      by_cases hp : b.pulse.any (·.timer == t.handle) <;> simp [hp, hk]

theorem Coupled.timedOut_fire {l : Lamp} (h : l.Coupled) (hquiet : l.busy.timedOut = none)
    (now : Millis) (target : String) :
    (l.obey (.fire now)).busy.timedOut = some target ↔
      ∃ deadline, l.LoadsUntil target deadline ∧ deadline ≤ now := by
  rcases h.load with ⟨due, halarm⟩
  simp only [loadsUntil_iff halarm]
  simp only [Lamp.obey, Busy.fireTimers, foldl_timerFired_timedOut, hquiet]
  cases hload : l.busy.load with
  | none => simp
  | some x =>
    have hone : l.timers.ofKind (x.alarm due).kind = [x.alarm due] := by
      rw [hload] at halarm
      exact halarm
    have hany : ((l.timers.fireDue now).1.any fun t => t.kind = .loadSafety ∧ x.timer = t.handle) =
        decide (due ≤ now) := Timers.any_fireDue hone now
    simp only [hany]
    by_cases hdue : due ≤ now <;> simp [hdue]

/-- An order, and after a firing also the taking of what has timed out. -/
def Order.attended : Order → List Order
  | .fire now => [.fire now, .takeTimedOut]
  | o => [o]

theorem Order.attended_of_ne {o : Order} (h : ∀ now, o ≠ .fire now) : o.attended = [o] := by
  cases o with
  | fire now => exact absurd rfl (h now)
  | _ => rfl

/-- The orders with what has timed out taken after every firing. -/
def attended (history : List Order) : List Order :=
  history.flatMap Order.attended

theorem few_attended {history : List Order} (hfew : FewArmed history) :
    FewArmed (attended history) := by
  have hone : ∀ o : Order, o.attended.countP (·.arms) = [o].countP (·.arms) := by
    intro o
    cases o <;> rfl
  have hsame : (attended history).countP (·.arms) = history.countP (·.arms) := by
    unfold attended
    clear hfew
    induction history with
    | nil => rfl
    | cons o history ih =>
      rw [List.flatMap_cons, List.countP_append, hone, ih, ← List.countP_append]
      rfl
  unfold FewArmed
  rw [hsame]
  exact hfew

-- The taking starts nothing and ends nothing.
theorem since_attended {starts keeps : Order → Prop} (hstarts : ¬ starts .takeTimedOut)
    (hkeeps : keeps .takeTimedOut) {history : List Order} :
    Since starts keeps (attended history) ↔ Since starts keeps history := by
  induction history using List.reverseRecOn with
  | nil => rfl
  | append_singleton history o ih =>
    have hsplit : attended (history ++ [o]) = attended history ++ o.attended := by
      simp [attended]
    rw [hsplit, since_concat, ← ih]
    by_cases hfire : ∃ now, o = .fire now
    · rcases hfire with ⟨now, rfl⟩
      have hpair : attended history ++ (Order.fire now).attended =
          (attended history ++ [.fire now]) ++ [.takeTimedOut] := by
        simp [Order.attended]
      rw [hpair, since_concat, since_concat]
      simp only [hstarts, hkeeps, false_or, and_true]
    · rw [Order.attended_of_ne (not_exists.mp hfire), since_concat]

theorem quiet_attended {l : Lamp} (hquiet : l.busy.timedOut = none) (history : List Order) :
    (l.obeyAll (attended history)).busy.timedOut = none := by
  induction history generalizing l with
  | nil => exact hquiet
  | cons o history ih =>
    have hsplit : attended (o :: history) = o.attended ++ attended history := rfl
    rw [hsplit, obeyAll_append]
    apply ih
    by_cases hfire : ∃ now, o = .fire now
    · rcases hfire with ⟨now, rfl⟩
      rfl
    · rw [Order.attended_of_ne (not_exists.mp hfire)]
      exact obey_timedOut (not_exists.mp hfire) hquiet

theorem taken_iff_givenUp {timing : Timing} {history : List Order} (hfew : FewArmed history)
    (now : Millis) (target : String) :
    ((new timing).obeyAll (attended history ++ [.fire now])).busy.takeTimedOut.2 = some target ↔
      GivenUp timing history now target := by
  have hcoupled : ((new timing).obeyAll (attended history)).Coupled :=
    coupled_obeyAll (few_attended hfew)
  have hquiet : ((new timing).obeyAll (attended history)).busy.timedOut = none :=
    quiet_attended rfl history
  rw [obeyAll_append, obeyAll_cons, obeyAll_nil]
  refine (hcoupled.timedOut_fire hquiet now target).trans ?_
  simp only [loadsUntil_iff_since (few_attended hfew), since_exists]
  constructor
  · rintro ⟨_, ⟨start, rfl, hsince⟩, hlate⟩
    exact ⟨start, hlate, (since_attended (by simp) ⟨rfl, rfl⟩).mp hsince⟩
  · rintro ⟨start, hlate, hsince⟩
    exact ⟨_, ⟨start, rfl, (since_attended (by simp) ⟨rfl, rfl⟩).mpr hsince⟩, hlate⟩

/-! ## After any orders -/

/-- After any orders that arm fewer timers than there are handles and fire nothing later than `now`:
the light is on, once it has been brought up to date, exactly when its history keeps it on. Where what
has timed out is taken after every firing, a firing gives out the target of a load exactly when the
load is given up then, and nothing else. -/
theorem history_exact (timing : Timing) {history : List Order} (hfew : FewArmed history)
    {now : Millis} (hfired : ∀ t, .fire t ∈ history → t ≤ now) :
    (((new timing).obeyAll (history ++ [.fire now, .refresh now])).busy.light = true ↔
      Lit timing history now) ∧
    ∀ target,
      ((new timing).obeyAll (attended history ++ [.fire now])).busy.takeTimedOut.2 = some target ↔
        GivenUp timing history now target :=
  ⟨light_iff_lit hfew hfired, taken_iff_givenUp hfew now⟩

/-- A load that is stopped by nothing: a pulse beside it ends, and another activity becomes
current. -/
def unconfirmed : List Order :=
  [.load "Movie" 0, .pulse 500, .fire 1500, .arrive "TV"]

-- A load that is never confirmed keeps the light on up to its deadline, and is given up there.
theorem history_exact_load :
    ((new .standard).obeyAll (unconfirmed ++ [.fire 59999, .refresh 59999])).busy.light = true ∧
      ((new .standard).obeyAll (attended unconfirmed ++ [.fire 60000])).busy.takeTimedOut.2 =
        some "Movie" := by
  have hfew : FewArmed unconfirmed := by
    unfold FewArmed
    decide
  have hfired : ∀ t, .fire t ∈ unconfirmed → t = 1500 := by
    simp [unconfirmed]
  have hlit : Lit .standard unconfirmed 59999 :=
    .inr (.inr ⟨"Movie", 0, by decide, [], _, _, rfl, rfl, by decide⟩)
  have hlate : GivenUp .standard unconfirmed 60000 "Movie" :=
    ⟨0, by decide, [], _, _, rfl, rfl, by decide⟩
  have hlitBy : ∀ t, .fire t ∈ unconfirmed → t ≤ 59999 := by
    intro t ht
    rw [hfired t ht]
    decide
  have hlateBy : ∀ t, .fire t ∈ unconfirmed → t ≤ 60000 := by
    intro t ht
    rw [hfired t ht]
    decide
  exact ⟨(history_exact .standard hfew hlitBy).1.mpr hlit,
    ((history_exact .standard hfew hlateBy).2 "Movie").mpr hlate⟩

end Lamp

end HubCard
