import HubCard.Proofs.Timers
import Mathlib.Data.List.Perm.Subperm

/-!
The timers against a register that has one entry at most for each kind. Whatever is armed, cancelled
and fired, and however often the handles have come round, the live timers are the entries of the
register: none is lost, none fires twice, and those that fire do so in order. As no kind comes up
twice, it makes no difference whether a timer that fires is erased or the last one takes its place.
-/

namespace HubCard

namespace TimerKind

def all : List TimerKind := [.commandPulse, .loadSafety]

end TimerKind

/-- One thing that the timers are told to do. -/
inductive TimerCall where
  | arm (kind : TimerKind) (deadline : Millis)
  | cancel (handle : Handle)
  | fire (now : Millis)
  deriving Repr, DecidableEq

/-! ## The register -/

/-- What is entered of a timer under its kind. -/
structure Alarm where
  handle : Handle
  deadline : Millis
  deriving Repr, DecidableEq

def Alarm.timer (a : Alarm) (kind : TimerKind) : Timer :=
  ⟨a.handle, kind, a.deadline⟩

structure Register where
  entry? : TimerKind → Option Alarm
  nextHandle : Handle

namespace Register

def empty : Register := ⟨fun _ => none, 1⟩

/-- The new entry takes the place of the one of the same kind. -/
def arm (r : Register) (kind : TimerKind) (deadline : Millis) : Register where
  entry? other := if other = kind then some ⟨r.nextHandle, deadline⟩ else r.entry? other
  nextHandle := Timers.handleAfter r.nextHandle

/-- Only the entries that pass a test stay. -/
def keep (r : Register) (stays : Alarm → Bool) : Register :=
  { r with entry? := fun kind => (r.entry? kind).filter stays }

/-- Every entry with the handle goes, of whatever kind. -/
def cancel (r : Register) (handle : Handle) : Register :=
  r.keep (·.handle ≠ handle)

/-- Every entry that is due goes. -/
def expire (r : Register) (now : Millis) : Register :=
  r.keep fun a => !decide (a.deadline ≤ now)

def take (r : Register) : TimerCall → Register
  | .arm kind deadline => r.arm kind deadline
  | .cancel handle => r.cancel handle
  | .fire now => r.expire now

def after (r : Register) (calls : List TimerCall) : Register :=
  calls.foldl take r

/-- The timers of a kind: one or none. -/
def ofKind (r : Register) (kind : TimerKind) : List Timer :=
  (r.entry? kind).toList.map (·.timer kind)

/-- The entries, as timers. -/
def timers (r : Register) : List Timer :=
  TimerKind.all.flatMap r.ofKind

/-- The entries that are due at a time. -/
def due (r : Register) (now : Millis) : List Timer :=
  r.timers.filter (·.deadline ≤ now)

theorem length_ofKind_le (r : Register) (kind : TimerKind) : (r.ofKind kind).length ≤ 1 := by
  unfold ofKind
  cases r.entry? kind <;> simp

theorem ofKind_arm (r : Register) (kind : TimerKind) (deadline : Millis) (other : TimerKind) :
    (r.arm kind deadline).ofKind other =
      if other = kind then [⟨r.nextHandle, kind, deadline⟩] else r.ofKind other := by
  unfold ofKind arm
  by_cases h : other = kind
  · simp only [h, if_true]
    rfl
  · simp only [h, if_false]

theorem ofKind_keep (r : Register) (stays : Alarm → Bool) (kind : TimerKind) :
    (r.keep stays).ofKind kind =
      (r.ofKind kind).filter fun x => stays ⟨x.handle, x.deadline⟩ := by
  unfold ofKind keep
  dsimp only
  cases r.entry? kind with
  | none => rfl
  | some a => by_cases h : stays a <;> simp [Alarm.timer, h, Option.filter]

theorem kind_of_mem_ofKind {r : Register} {kind : TimerKind} {x : Timer}
    (h : x ∈ r.ofKind kind) : x.kind = kind := by
  rcases List.mem_map.mp h with ⟨a, -, rfl⟩
  rfl

theorem timers_eq (r : Register) : r.timers = r.ofKind .commandPulse ++ r.ofKind .loadSafety := by
  simp [timers, TimerKind.all]

-- No kind comes up twice.
theorem nodup_kinds (r : Register) : (r.timers.map (·.kind)).Nodup := by
  have hone : ∀ kind, ((r.ofKind kind).map (·.kind)).Nodup := by
    intro kind
    unfold ofKind
    cases r.entry? kind <;> simp
  rw [timers_eq, List.map_append, List.nodup_append]
  refine ⟨hone _, hone _, ?_⟩
  intro k hk k' hk'
  rcases List.mem_map.mp hk with ⟨x, hx, rfl⟩
  rcases List.mem_map.mp hk' with ⟨y, hy, rfl⟩
  rw [kind_of_mem_ofKind hx, kind_of_mem_ofKind hy]
  decide

end Register

namespace Timers

def take (t : Timers) : TimerCall → Timers
  | .arm kind deadline => (t.arm kind deadline).1
  | .cancel handle => t.cancel handle
  | .fire now => (t.fireDue now).2

def after (t : Timers) (calls : List TimerCall) : Timers :=
  calls.foldl take t

/-! ## The order of firing -/

/-- Of the two, `x` need not wait for `y`: it has the earlier deadline or, of two timers that are due
together, a handle that is not the greater one. -/
def FiresBy (x y : Timer) : Prop :=
  x.deadline < y.deadline ∨ x.deadline = y.deadline ∧ x.handle ≤ y.handle

theorem firesBy_iff {x y : Timer} :
    FiresBy x y ↔ x.deadline.toNat < y.deadline.toNat ∨
      x.deadline.toNat = y.deadline.toNat ∧ x.handle.toNat ≤ y.handle.toNat := by
  rw [FiresBy, UInt64.lt_iff_toNat_lt, UInt32.le_iff_toNat_le, UInt64.toNat_inj]

theorem firesBefore_iff_not_firesBy {x y : Timer} : firesBefore x y = true ↔ ¬ FiresBy y x := by
  simp only [firesBefore, firesBy_iff, Bool.or_eq_true, Bool.and_eq_true, decide_eq_true_eq,
    UInt64.lt_iff_toNat_lt, UInt32.lt_iff_toNat_lt, ← UInt64.toNat_inj]
  omega

theorem FiresBy.trans {x y z : Timer} (h : FiresBy x y) (h' : FiresBy y z) : FiresBy x z := by
  rw [firesBy_iff] at h h' ⊢
  omega

theorem firesBy_refl (x : Timer) : FiresBy x x :=
  .inr ⟨rfl, UInt32.le_refl _⟩

theorem firstOf_firesBy (x y : Timer) : FiresBy (firstOf x y) x ∧ FiresBy (firstOf x y) y := by
  unfold firstOf
  split
  · rename_i hbefore
    have hnot : ¬ FiresBy x y := firesBefore_iff_not_firesBy.mp hbefore
    refine ⟨?_, firesBy_refl y⟩
    rw [firesBy_iff] at hnot ⊢
    omega
  · rename_i hbefore
    rw [firesBefore_iff_not_firesBy, Classical.not_not] at hbefore
    exact ⟨firesBy_refl x, hbefore⟩

theorem foldl_firstOf_firesBy (t : Timer) (due : List Timer) :
    ∀ x ∈ t :: due, FiresBy (due.foldl firstOf t) x := by
  induction due generalizing t with
  | nil =>
    intro x hx
    rw [List.mem_singleton.mp hx]
    exact firesBy_refl t
  | cons d due ih =>
    rw [List.foldl_cons]
    have hfirst := ih (firstOf t d) _ List.mem_cons_self
    have hpair := firstOf_firesBy t d
    intro x hx
    rcases List.mem_cons.mp hx with rfl | hx
    · exact hfirst.trans hpair.1
    · rcases List.mem_cons.mp hx with rfl | hx
      · exact hfirst.trans hpair.2
      · exact ih (firstOf t d) x (List.mem_cons_of_mem _ hx)

theorem firstDue?_firesBy {live : List Timer} {now : Millis} {t : Timer}
    (h : firstDue? live now = some t) {x : Timer} (hx : x ∈ live) (hdue : x.deadline ≤ now) :
    FiresBy t x := by
  unfold firstDue? at h
  have hmem : x ∈ live.filter (·.deadline ≤ now) := List.mem_filter.mpr ⟨hx, by simpa using hdue⟩
  split at h
  · rename_i hnil
    rw [hnil] at hmem
    cases hmem
  · rename_i first due hlist
    rw [hlist] at hmem
    rw [← Option.some.inj h]
    exact foldl_firstOf_firesBy first due x hmem

-- What fires first need not wait for anything that fires after it.
theorem pairwise_fireAll (live : List Timer) (now : Millis) :
    (fireAll live now).1.Pairwise FiresBy := by
  fun_induction fireAll live now with
  | case1 live h => exact .nil
  | case2 live t h fired left hrec ih =>
    rw [hrec] at ih
    refine List.pairwise_cons.mpr ⟨?_, ih⟩
    intro x hx
    have hfired : x ∈ live.erase t ∧ x.deadline ≤ now := by
      rw [← mem_fireAll, hrec]
      exact hx
    exact firstDue?_firesBy h (List.mem_of_mem_erase hfired.1) hfired.2

-- Each timer that is due fires, and each but once.
theorem perm_fireAll (live : List Timer) (now : Millis) :
    (fireAll live now).1.Perm (live.filter (·.deadline ≤ now)) := by
  fun_induction fireAll live now with
  | case1 live h =>
    have hnone : live.filter (·.deadline ≤ now) = [] := by
      rw [List.filter_eq_nil_iff]
      intro x hx
      simpa using firstDue?_eq_none h x hx
    rw [hnone]
  | case2 live t h fired left hrec ih =>
    rw [hrec, ← List.erase_filter] at ih
    have hmem : t ∈ live.filter (·.deadline ≤ now) :=
      List.mem_filter.mpr ⟨firstDue?_mem h, by simpa using firstDue?_due h⟩
    exact (ih.cons t).trans (List.perm_cons_erase hmem).symm

/-! ## The timers keep the register -/

/-- The live timers are those of the register, kind by kind. -/
structure Keeps (t : Timers) (r : Register) : Prop where
  entries : ∀ kind, t.ofKind kind = r.ofKind kind
  next : t.nextHandle = r.nextHandle

theorem keeps_empty : empty.Keeps .empty where
  entries := fun _ => rfl
  next := rfl

namespace Keeps

variable {t : Timers} {r : Register} (h : t.Keeps r)

include h

-- The other kind has one timer at most, so there is a slot for the new one.
theorem arm (kind : TimerKind) (deadline : Millis) :
    (t.arm kind deadline).1.Keeps (r.arm kind deadline) where
  entries := by
    intro other
    rw [Register.ofKind_arm]
    by_cases hne : other = kind
    · have hspare : ∃ spare, spare ≠ kind := by
        cases kind
        · exact ⟨.loadSafety, by decide⟩
        · exact ⟨.commandPulse, by decide⟩
      rcases hspare with ⟨spare, hspare⟩
      have hone : (t.ofKind spare).length ≤ 1 := by
        rw [h.entries spare]
        exact r.length_ofKind_le spare
      have hself : (t.arm kind deadline).1.ofKind kind = [⟨t.nextHandle, kind, deadline⟩] :=
        @ofKind_rearm_self t none kind spare deadline hspare hone
      rw [if_pos hne, hne, hself, h.next]
    · rw [if_neg hne, ofKind_arm_of_ne hne, h.entries other]
  next := by
    show handleAfter t.nextHandle = handleAfter r.nextHandle
    rw [h.next]

theorem cancel (handle : Handle) : (t.cancel handle).Keeps (r.cancel handle) where
  entries := by
    intro kind
    rw [ofKind_cancel, h.entries kind]
    exact (r.ofKind_keep (·.handle ≠ handle) kind).symm
  next := h.next

theorem fire (now : Millis) : (t.fireDue now).2.Keeps (r.expire now) where
  entries := by
    intro kind
    rw [ofKind_fireDue, h.entries kind]
    exact (r.ofKind_keep (fun a => !decide (a.deadline ≤ now)) kind).symm
  next := h.next

theorem take (call : TimerCall) : (t.take call).Keeps (r.take call) := by
  cases call with
  | arm kind deadline => exact h.arm kind deadline
  | cancel handle => exact h.cancel handle
  | fire now => exact h.fire now

theorem after (calls : List TimerCall) : (t.after calls).Keeps (r.after calls) := by
  induction calls generalizing t r with
  | nil => exact h
  | cons call calls ih => exact ih (h.take call)

theorem perm : t.live.Perm r.timers := by
  have hsplit := List.filter_append_perm (fun x : Timer => decide (x.kind = .commandPulse)) t.live
  have hpulse : t.live.filter (fun x => decide (x.kind = .commandPulse)) =
      r.ofKind .commandPulse := h.entries .commandPulse
  have hload : t.live.filter (fun x => !decide (x.kind = .commandPulse)) =
      r.ofKind .loadSafety := by
    rw [← h.entries .loadSafety, ofKind]
    congr 1
    funext x
    cases x.kind <;> rfl
  rw [r.timers_eq, ← hpulse, ← hload]
  exact hsplit.symm

theorem isArmed_eq (kind : TimerKind) : t.isArmed kind = (r.entry? kind).isSome := by
  have hkind : t.isArmed kind = !(t.ofKind kind).isEmpty := by
    unfold isArmed ofKind
    induction t.live with
    | nil => rfl
    | cons x live ih => by_cases hx : x.kind = kind <;> simp_all
  rw [hkind, h.entries kind, Register.ofKind]
  cases r.entry? kind <;> rfl

end Keeps

/-! ## The two side by side -/

-- The next deadline is the least of the deadlines of the live timers.
theorem nextDeadline?_eq_min? (t : Timers) :
    t.nextDeadline? = (t.live.map (·.deadline)).min? := by
  unfold nextDeadline?
  induction t.live with
  | nil => rfl
  | cons x live ih =>
    rw [List.foldr_cons, ih, List.map_cons, List.min?_cons]
    cases (live.map (·.deadline)).min? <;> rfl

theorem min?_eq_of_perm {xs ys : List Millis} (h : xs.Perm ys) : xs.min? = ys.min? := by
  apply Option.ext
  intro a
  rw [List.min?_eq_some_iff, List.min?_eq_some_iff]
  simp only [h.mem_iff]

/-- After any calls, and any number of them, the timers are those of the register that has been told
the same. A timer that is armed is entered, in the place of the one before. The timers that fire are
the entries that are due, each of them once and in the order of their deadlines and handles, which is
how the light gets to know of them and how many it counts. The next deadline, the number of timers and
whether a kind is armed can be read off the register. -/
theorem register_exact (calls : List TimerCall) :
    let t := Timers.empty.after calls
    let r := Register.empty.after calls
    t.live.Perm r.timers ∧
      (∀ kind deadline, (t.arm kind deadline).2 = r.nextHandle ∧
        ⟨r.nextHandle, kind, deadline⟩ ∈ (t.arm kind deadline).1.live) ∧
      (∀ now, let fired := (t.fireDue now).1
        fired.Perm (r.due now) ∧ (fired.map (·.kind)).Nodup ∧ fired.Pairwise FiresBy ∧
          ∀ i : Indicator, i.fireTimers t now =
            (fired.foldl (fun i x => i.timerFired x.handle x.kind) i, (t.fireDue now).2,
              (r.due now).length)) ∧
      t.nextDeadline? = (r.timers.map (·.deadline)).min? ∧ t.count = r.timers.length ∧
      ∀ kind, t.isArmed kind = (r.entry? kind).isSome := by
  intro t r
  have h : t.Keeps r := keeps_empty.after calls
  refine ⟨h.perm, ?_, ?_, ?_, h.perm.length_eq, h.isArmed_eq⟩
  · intro kind deadline
    refine ⟨h.next, ?_⟩
    rw [mem_live_iff, (h.arm kind deadline).entries, Register.ofKind_arm, if_pos rfl]
    exact List.mem_singleton_self _
  · intro now fired
    have hdue : fired.Perm (r.due now) := (perm_fireAll t.live now).trans (h.perm.filter _)
    refine ⟨hdue, ?_, pairwise_fireAll t.live now, ?_⟩
    · have hsub : (r.due now).map (·.kind) |>.Sublist (r.timers.map (·.kind)) :=
        (List.filter_sublist).map _
      exact (hdue.map _).nodup_iff.mpr (r.nodup_kinds.sublist hsub)
    · intro i
      rw [← hdue.length_eq]
      rfl
  · rw [nextDeadline?_eq_min?]
    exact min?_eq_of_perm (h.perm.map _)

/-! ## Removal in place -/

/-- The timers without the one at a place, into which the last one moves. -/
def removeInPlace (live : List Timer) (place : Nat) : List Timer :=
  match live.getLast? with
  | none => []
  | some last => (live.set place last).dropLast

theorem length_removeInPlace (live : List Timer) (place : Nat) :
    (removeInPlace live place).length = live.length - 1 := by
  unfold removeInPlace
  split
  · rename_i hlast
    rw [List.getLast?_eq_none_iff.mp hlast]
    rfl
  · rw [List.length_dropLast, List.length_set]

-- With no kind twice there are two timers at most: the one that is left is the last or the first.
theorem removeInPlace_idxOf {live : List Timer} {t : Timer} (hkinds : (live.map (·.kind)).Nodup)
    (ht : t ∈ live) : removeInPlace live (live.idxOf t) = live.erase t := by
  have hlength : live.length ≤ 2 := by
    have hall : live.map (·.kind) ⊆ TimerKind.all := by
      intro kind _
      cases kind <;> decide
    rw [← List.length_map (·.kind)]
    exact (List.subperm_of_subset hkinds hall).length_le
  match live with
  | [] => cases ht
  | [x] =>
    rw [List.mem_singleton.mp ht]
    simp [removeInPlace]
  | [x, y] =>
    by_cases hx : x = t
    · subst hx
      simp [removeInPlace]
    · have hy : y = t := by simpa [Ne.symm hx, eq_comm] using ht
      subst hy
      simp [removeInPlace, hx]
  | x :: y :: z :: rest =>
    simp only [List.length_cons] at hlength
    omega

/-- Takes the due timers out as `fireAll` does, in place. -/
def fireAllInPlace (live : List Timer) (now : Millis) : List Timer × List Timer :=
  match _h : firstDue? live now with
  | none => ([], live)
  | some t =>
    let (fired, left) := fireAllInPlace (removeInPlace live (live.idxOf t)) now
    (t :: fired, left)
termination_by live.length
decreasing_by
  have hpos := List.length_pos_of_mem (firstDue?_mem _h)
  rw [length_removeInPlace]
  omega

theorem fireAllInPlace_of_none {live : List Timer} {now : Millis}
    (h : firstDue? live now = none) : fireAllInPlace live now = ([], live) := by
  unfold fireAllInPlace
  split
  · rfl
  · rename_i hsome
    rw [h] at hsome
    cases hsome

theorem fireAllInPlace_of_some {live : List Timer} {now : Millis} {t : Timer}
    (h : firstDue? live now = some t) :
    fireAllInPlace live now =
      (t :: (fireAllInPlace (removeInPlace live (live.idxOf t)) now).1,
        (fireAllInPlace (removeInPlace live (live.idxOf t)) now).2) := by
  conv => lhs; unfold fireAllInPlace
  split
  · rename_i hnone
    rw [h] at hnone
    cases hnone
  · rename_i first hfirst
    rw [Option.some.inj (h.symm.trans hfirst)]

theorem fireAllInPlace_eq {live : List Timer} {now : Millis}
    (hkinds : (live.map (·.kind)).Nodup) : fireAllInPlace live now = fireAll live now := by
  fun_induction fireAll live now with
  | case1 live h => exact fireAllInPlace_of_none h
  | case2 live t h fired left hrec ih =>
    have hsub : ((live.erase t).map (·.kind)).Nodup :=
      hkinds.sublist (List.erase_sublist.map _)
    rw [fireAllInPlace_of_some h, removeInPlace_idxOf hkinds (firstDue?_mem h), ih hsub, hrec]

/-- Whatever the timers have been told, those that are due can be taken out in place as well. -/
theorem fireAllInPlace_after (calls : List TimerCall) (now : Millis) :
    fireAllInPlace (empty.after calls).live now = fireAll (empty.after calls).live now := by
  have hperm : (empty.after calls).live.Perm (Register.empty.after calls).timers :=
    (keeps_empty.after calls).perm
  exact fireAllInPlace_eq ((hperm.map _).nodup_iff.mpr (Register.nodup_kinds _))

end Timers

end HubCard
