import HubCard.Card.Wake

/-!
The timers seen as a map from kinds to timers, how many of them have been armed, and what exactly
fires at a time.
-/

namespace HubCard

def TimerOrder.isArm : TimerOrder → Bool
  | .arm .. => true
  | .cancel _ => false

namespace Timers

/-- The live timers of a kind. -/
def ofKind (t : Timers) (kind : TimerKind) : List Timer :=
  t.live.filter (·.kind = kind)

/-- How many timers have been armed so far. -/
def armed (t : Timers) : Nat :=
  t.orders.countP (·.isArm)

/-- So few timers that no handle has come up twice. -/
def Few (t : Timers) : Prop :=
  t.armed < UInt32.size - 1

@[simp] theorem armed_arm (t : Timers) (kind : TimerKind) (deadline : Millis) :
    (t.arm kind deadline).1.armed = t.armed + 1 := by
  simp [armed, arm, TimerOrder.isArm]

@[simp] theorem armed_cancel? (t : Timers) (handle : Option Handle) :
    (t.cancel? handle).armed = t.armed := by
  cases handle <;> simp [armed, cancel?, cancel, TimerOrder.isArm]

@[simp] theorem armed_fireDue (t : Timers) (now : Millis) : (t.fireDue now).2.armed = t.armed :=
  rfl

@[simp] theorem nextHandle_cancel? (t : Timers) (handle : Option Handle) :
    (t.cancel? handle).nextHandle = t.nextHandle := by
  cases handle <;> rfl

theorem toNat_handleAfter_eq (h : Handle) :
    (handleAfter h).toNat = if h.toNat + 1 = UInt32.size then 1 else h.toNat + 1 := by
  have hsum : (h + 1).toNat = (h.toNat + 1) % UInt32.size := UInt32.toNat_add h 1
  have hlt : h.toNat < UInt32.size := h.toNat_lt
  have hzero : h + 1 = 0 ↔ h.toNat + 1 = UInt32.size := by
    rw [← UInt32.toNat_inj, hsum, UInt32.toNat_zero]
    simp only [UInt32.size] at hlt ⊢
    omega
  simp only [handleAfter, hzero]
  split
  · rfl
  · rw [hsum]
    apply Nat.mod_eq_of_lt
    omega

theorem toNat_handleAfter {h : Handle} (hlt : h.toNat + 1 < UInt32.size) :
    (handleAfter h).toNat = h.toNat + 1 := by
  rw [toNat_handleAfter_eq, if_neg (Nat.ne_of_lt hlt)]

/-! ## The timer of each kind -/

theorem mem_live_iff {t : Timers} {x : Timer} : x ∈ t.live ↔ x ∈ t.ofKind x.kind := by
  simp [ofKind]

theorem ofKind_cancel (t : Timers) (handle : Handle) (kind : TimerKind) :
    (t.cancel handle).ofKind kind = (t.ofKind kind).filter (·.handle ≠ handle) := by
  simp only [ofKind, cancel, List.filter_filter]
  congr 1
  funext x
  exact Bool.and_comm _ _

-- A timer that is cancelled leaves those of other handles alone.
theorem ofKind_cancel?_of_ne {t : Timers} {handle : Option Handle} {kind : TimerKind}
    (hne : ∀ x ∈ t.ofKind kind, handle ≠ some x.handle) :
    (t.cancel? handle).ofKind kind = t.ofKind kind := by
  cases handle with
  | none => rfl
  | some h =>
    rw [cancel?, ofKind_cancel, List.filter_eq_self.mpr]
    intro x hx
    simpa using fun he : x.handle = h => hne x hx (by rw [he])

theorem live_arm {t : Timers} {kind : TimerKind} {deadline : Millis}
    (hroom : (t.live.filter (·.kind ≠ kind)).length < capacity) :
    (t.arm kind deadline).1.live =
      t.live.filter (·.kind ≠ kind) ++ [⟨t.nextHandle, kind, deadline⟩] := by
  simp only [arm, if_pos hroom]

-- Whether or not there is a slot for it, no timer of the kind but the new one is live.
theorem mem_live_arm {t : Timers} {kind : TimerKind} {deadline : Millis} {x : Timer}
    (h : x ∈ (t.arm kind deadline).1.live) :
    x ∈ t.live ∧ x.kind ≠ kind ∨ x = ⟨t.nextHandle, kind, deadline⟩ := by
  have hkept : x ∈ t.live.filter (·.kind ≠ kind) → x ∈ t.live ∧ x.kind ≠ kind := by
    intro hx
    simpa using List.mem_filter.mp hx
  simp only [arm] at h
  split at h
  · rw [List.mem_append, List.mem_singleton] at h
    exact h.imp_left hkept
  · exact .inl (hkept h)

theorem ofKind_arm_self {t : Timers} {kind : TimerKind} {deadline : Millis}
    (hroom : (t.live.filter (·.kind ≠ kind)).length < capacity) :
    (t.arm kind deadline).1.ofKind kind = [⟨t.nextHandle, kind, deadline⟩] := by
  rw [ofKind, live_arm hroom, List.filter_append, List.filter_filter]
  have hnone : t.live.filter (fun x => decide (x.kind = kind) && decide (x.kind ≠ kind)) = [] := by
    simp
  rw [hnone]
  simp

theorem ofKind_arm_of_ne {t : Timers} {kind other : TimerKind} {deadline : Millis}
    (hne : other ≠ kind) : (t.arm kind deadline).1.ofKind other = t.ofKind other := by
  have hkept : (t.live.filter (·.kind ≠ kind)).filter (·.kind = other) =
      t.live.filter (·.kind = other) := by
    rw [List.filter_filter]
    congr 1
    funext x
    by_cases hx : x.kind = other
    · simp [hx, hne]
    · simp [hx]
  simp only [ofKind, arm]
  split
  · rw [List.filter_append, hkept]
    simp [Ne.symm hne]
  · exact hkept

/-- The timers once a kind has been armed anew and the timer before, if any, has been cancelled. -/
def rearm (t : Timers) (old : Option Handle) (kind : TimerKind) (deadline : Millis) : Timers :=
  ((t.cancel? old).arm kind deadline).1

@[simp] theorem armed_rearm (t : Timers) (old : Option Handle) (kind : TimerKind)
    (deadline : Millis) : (t.rearm old kind deadline).armed = t.armed + 1 := by
  simp [rearm]

@[simp] theorem nextHandle_rearm (t : Timers) (old : Option Handle) (kind : TimerKind)
    (deadline : Millis) : (t.rearm old kind deadline).nextHandle = handleAfter t.nextHandle := by
  simp [rearm, arm]

-- There are but two kinds, so one timer of the other kind leaves a slot free.
theorem ofKind_rearm_self {t : Timers} {old : Option Handle} {kind other : TimerKind}
    {deadline : Millis} (hne : other ≠ kind)
    (hone : ((t.cancel? old).ofKind other).length ≤ 1) :
    (t.rearm old kind deadline).ofKind kind = [⟨t.nextHandle, kind, deadline⟩] := by
  have hother : (t.cancel? old).live.filter (·.kind ≠ kind) = (t.cancel? old).ofKind other := by
    unfold ofKind
    congr 1
    funext x
    cases hx : x.kind <;> cases kind <;> cases other <;> simp at hne ⊢
  have hroom : ((t.cancel? old).live.filter (·.kind ≠ kind)).length < capacity := by
    rw [hother]
    exact Nat.lt_of_le_of_lt hone (by decide)
  rw [rearm, ofKind_arm_self hroom, nextHandle_cancel?]

theorem ofKind_rearm_of_ne {t : Timers} {old : Option Handle} {kind other : TimerKind}
    {deadline : Millis} (hne : other ≠ kind) :
    (t.rearm old kind deadline).ofKind other = (t.cancel? old).ofKind other :=
  ofKind_arm_of_ne hne

/-! ## What fires -/

theorem foldl_firstOf_due {now : Millis} {t : Timer} {due : List Timer} (ht : t.deadline ≤ now)
    (hdue : ∀ x ∈ due, x.deadline ≤ now) : (due.foldl firstOf t).deadline ≤ now := by
  have hmem := foldl_firstOf_mem t due
  rcases List.mem_cons.mp hmem with h | h
  · rw [h]
    exact ht
  · exact hdue _ h

theorem firstDue?_due {live : List Timer} {now : Millis} {t : Timer}
    (h : firstDue? live now = some t) : t.deadline ≤ now := by
  unfold firstDue? at h
  split at h
  · simp at h
  · rename_i first due hdue
    rw [Option.some.injEq] at h
    have hall : ∀ x ∈ first :: due, x.deadline ≤ now := by
      intro x hx
      rw [← hdue] at hx
      simpa using (List.mem_filter.mp hx).2
    rw [← h]
    exact foldl_firstOf_due (hall _ List.mem_cons_self)
      fun x hx => hall x (List.mem_cons_of_mem _ hx)

theorem firstDue?_eq_none {live : List Timer} {now : Millis} (h : firstDue? live now = none) :
    ∀ x ∈ live, ¬ x.deadline ≤ now := by
  unfold firstDue? at h
  split at h
  · rename_i hnil
    intro x hx hdue
    have hmem : x ∈ live.filter (·.deadline ≤ now) := List.mem_filter.mpr ⟨hx, by simpa using hdue⟩
    rw [hnil] at hmem
    cases hmem
  · simp at h

theorem mem_fireAll {live : List Timer} {now : Millis} {x : Timer} :
    x ∈ (fireAll live now).1 ↔ x ∈ live ∧ x.deadline ≤ now := by
  fun_induction fireAll live now with
  | case1 live h =>
    simp only [List.not_mem_nil, false_iff, not_and]
    exact firstDue?_eq_none h x
  | case2 live t h fired left hrec ih =>
    rw [hrec] at ih
    rw [List.mem_cons, ih]
    constructor
    · rintro (hx | ⟨hmem, hdue⟩)
      · rw [hx]
        exact ⟨firstDue?_mem h, firstDue?_due h⟩
      · exact ⟨List.mem_of_mem_erase hmem, hdue⟩
    · rintro ⟨hmem, hdue⟩
      by_cases hx : x = t
      · exact .inl hx
      · exact .inr ⟨(List.mem_erase_of_ne hx).mpr hmem, hdue⟩

-- The timers that are not due stay, in the order in which they were.
theorem fireAll_left (live : List Timer) (now : Millis) :
    (fireAll live now).2 = live.filter fun x => !decide (x.deadline ≤ now) := by
  fun_induction fireAll live now with
  | case1 live h =>
    rw [List.filter_eq_self.mpr]
    intro x hx
    simpa using firstDue?_eq_none h x hx
  | case2 live t h fired left hrec ih =>
    rw [hrec] at ih
    have hdue : t ∉ live.filter fun x => !decide (x.deadline ≤ now) := by
      simp [firstDue?_due h]
    rw [ih, ← List.erase_filter, List.erase_of_not_mem hdue]

theorem ofKind_fireDue (t : Timers) (now : Millis) (kind : TimerKind) :
    (t.fireDue now).2.ofKind kind =
      (t.ofKind kind).filter fun x => !decide (x.deadline ≤ now) := by
  simp only [ofKind, fireDue, fireAll_left, List.filter_filter]
  congr 1
  funext x
  exact Bool.and_comm _ _

-- A timer that is the only one of its kind is among the fired ones when it is due.
theorem any_fireDue {t : Timers} {x : Timer} (hone : t.ofKind x.kind = [x]) (now : Millis) :
    ((t.fireDue now).1.any fun y => y.kind = x.kind ∧ x.handle = y.handle) =
      decide (x.deadline ≤ now) := by
  rw [Bool.eq_iff_iff, List.any_eq_true, decide_eq_true_iff]
  constructor
  · rintro ⟨y, hy, hsame⟩
    rw [decide_eq_true_iff] at hsame
    rcases mem_fireAll.mp hy with ⟨hmem, hdue⟩
    rw [mem_live_iff, hsame.1, hone, List.mem_singleton] at hmem
    rw [← hmem]
    exact hdue
  · intro hdue
    have hmem : x ∈ t.live := by
      rw [mem_live_iff, hone]
      exact List.mem_singleton_self x
    exact ⟨x, mem_fireAll.mpr ⟨hmem, hdue⟩, by simp⟩

end Timers

end HubCard
