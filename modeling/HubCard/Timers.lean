import HubCard.Millis

/-!
One-shot timers, at most one of each kind. Arming a kind replaces its live timer. Each timer has a
handle by which it is cancelled; handles count up from one and skip zero when they wrap around.
-/

namespace HubCard

inductive TimerKind where
  /-- Ends the busy pulse after a press. -/
  | commandPulse
  /-- Ends the loading of an activity that is never confirmed. -/
  | loadSafety
  deriving Repr, DecidableEq

def TimerKind.name : TimerKind → String
  | .commandPulse => "command_pulse"
  | .loadSafety => "activity_load_safety"

abbrev Handle := UInt32

structure Timer where
  handle : Handle
  kind : TimerKind
  deadline : Millis
  deriving Repr, DecidableEq

/-- What the timers have been told to do. -/
inductive TimerOrder where
  | arm (kind : TimerKind) (deadline : Millis) (handle : Handle)
  | cancel (handle : Handle)
  deriving Repr, DecidableEq

structure Timers where
  live : List Timer
  nextHandle : Handle
  /-- Every order so far, the latest first. -/
  orders : List TimerOrder
  deriving Repr, DecidableEq

namespace Timers

/-- How many timers can be live at once. -/
def capacity : Nat := 4

def empty : Timers := ⟨[], 1, []⟩

/-- The handle after `h`, which is never zero. -/
def handleAfter (h : Handle) : Handle :=
  if h + 1 = 0 then 1 else h + 1

/-- Arms a timer and gives its handle. Where every slot is taken the timer is lost. -/
def arm (t : Timers) (kind : TimerKind) (deadline : Millis) : Timers × Handle :=
  let kept := t.live.filter (·.kind ≠ kind)
  let handle := t.nextHandle
  let live := if kept.length < capacity then kept ++ [⟨handle, kind, deadline⟩] else kept
  (⟨live, handleAfter handle, .arm kind deadline handle :: t.orders⟩, handle)

/-- Cancels the timer with a handle; there need not be one. -/
def cancel (t : Timers) (handle : Handle) : Timers :=
  { t with
    live := t.live.filter (·.handle ≠ handle)
    orders := .cancel handle :: t.orders }

def cancel? (t : Timers) : Option Handle → Timers
  | some handle => t.cancel handle
  | none => t

/-- Whether `x` fires before `y` when both are due. -/
def firesBefore (x y : Timer) : Bool :=
  x.deadline < y.deadline || (x.deadline = y.deadline && x.handle < y.handle)

/-- The one of two timers that fires first, `x` when neither does. -/
def firstOf (x y : Timer) : Timer :=
  if firesBefore y x then y else x

/-- The timer that is due at `now` and fires first. -/
def firstDue? (live : List Timer) (now : Millis) : Option Timer :=
  match live.filter (·.deadline ≤ now) with
  | [] => none
  | t :: due => some (due.foldl firstOf t)

theorem foldl_firstOf_mem (t : Timer) (due : List Timer) : due.foldl firstOf t ∈ t :: due := by
  induction due generalizing t with
  | nil => simp
  | cons d due ih =>
    have h := ih (firstOf t d)
    simp only [List.foldl_cons, List.mem_cons] at h ⊢
    rcases h with h | h
    · rw [h]
      unfold firstOf
      split <;> simp
    · exact .inr (.inr h)

theorem firstDue?_mem {live : List Timer} {now : Millis} {t : Timer}
    (h : firstDue? live now = some t) : t ∈ live := by
  unfold firstDue? at h
  split at h
  · simp at h
  · rename_i first due hdue
    have hm := foldl_firstOf_mem first due
    rw [Option.some.injEq] at h
    rw [h, ← hdue] at hm
    exact (List.mem_filter.mp hm).1

/-- Takes the due timers out one by one, in the order in which they fire, and gives the fired ones
and those still live. A timer that is taken out leaves its place to the last one; among timers of two
kinds, one of each, that is no different from `erase`. -/
def fireAll (live : List Timer) (now : Millis) : List Timer × List Timer :=
  match _h : firstDue? live now with
  | none => ([], live)
  | some t =>
    let (fired, left) := fireAll (live.erase t) now
    (t :: fired, left)
termination_by live.length
decreasing_by
  have hm := firstDue?_mem _h
  have hpos := List.length_pos_of_mem hm
  rw [List.length_erase_of_mem hm]
  omega

/-- Fires every timer due at `now`. -/
def fireDue (t : Timers) (now : Millis) : List Timer × Timers :=
  let (fired, left) := fireAll t.live now
  (fired, { t with live := left })

/-- The earlier of two deadlines, where there may be none. -/
def earlier? : Option Millis → Option Millis → Option Millis
  | some a, some b => some (if a ≤ b then a else b)
  | a, b => a.or b

/-- The earliest deadline of a live timer. -/
def nextDeadline? (t : Timers) : Option Millis :=
  t.live.foldr (fun timer next => earlier? (some timer.deadline) next) none

def count (t : Timers) : Nat :=
  t.live.length

def isArmed (t : Timers) (kind : TimerKind) : Bool :=
  t.live.any (·.kind == kind)

end Timers

end HubCard
