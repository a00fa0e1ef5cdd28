import HubCard.Proofs.Register
import Mathlib.Data.List.Nodup

/-!
The handles of timers over runs longer than there are handles. They come round, so a handle alone
does not tell which timer it was given for. It does among the timers of one round: as long as those
that are live come from the latest armings, as many as there are handles, no two of them share one,
and cancelling by a handle of these armings ends the timer it was given for and no other.
-/

namespace HubCard

/-- The timer that an order arms. -/
def TimerOrder.armed? : TimerOrder → Option Timer
  | .arm kind deadline handle => some ⟨handle, kind, deadline⟩
  | .cancel _ => none

/-- The kind and the deadline of the timer that is asked for. -/
def TimerCall.asked? : TimerCall → Option (TimerKind × Millis)
  | .arm kind deadline => some (kind, deadline)
  | .cancel _ | .fire _ => none

namespace Timers

/-- Every timer that has been armed so far, live or not, in the order of arming. -/
def armings (t : Timers) : List Timer :=
  t.orders.reverse.filterMap TimerOrder.armed?

/-- The timer is live and comes from the arming of this number. A later arming of its kind would have
taken its place, also one that came by the same handle. -/
def LiveFrom (t : Timers) (n : Nat) (x : Timer) : Prop :=
  x ∈ t.live ∧ t.armings[n]? = some x ∧ ∀ m y, n < m → t.armings[m]? = some y → y.kind ≠ x.kind

/-- The arming is one of the latest, of which there are as many as there are handles. -/
def Recent (t : Timers) (n : Nat) : Prop :=
  t.armings.length ≤ n + (UInt32.size - 1)

theorem after_concat (t : Timers) (calls : List TimerCall) (call : TimerCall) :
    t.after (calls ++ [call]) = (t.after calls).take call := by
  rw [after, List.foldl_append]
  rfl

theorem armings_arm (t : Timers) (kind : TimerKind) (deadline : Millis) :
    (t.arm kind deadline).1.armings = t.armings ++ [⟨(t.arm kind deadline).2, kind, deadline⟩] := by
  simp [armings, arm, TimerOrder.armed?]

theorem armings_cancel (t : Timers) (handle : Handle) : (t.cancel handle).armings = t.armings := by
  simp [armings, cancel, TimerOrder.armed?]

theorem armings_fireDue (t : Timers) (now : Millis) : (t.fireDue now).2.armings = t.armings :=
  rfl

-- What was armed is what was asked for.
theorem asked_after (t : Timers) (calls : List TimerCall) :
    ((t.after calls).armings.map fun x => (x.kind, x.deadline)) =
      (t.armings.map fun x => (x.kind, x.deadline)) ++ calls.filterMap TimerCall.asked? := by
  induction calls generalizing t with
  | nil => simp [after]
  | cons call calls ih =>
    show (((t.take call).after calls).armings.map _) = _
    rw [ih (t.take call)]
    cases call with
    | arm kind deadline =>
      have harm : (t.take (.arm kind deadline)).armings = _ := t.armings_arm kind deadline
      rw [harm, List.map_append, List.append_assoc]
      rfl
    | cancel handle =>
      have hcancel : (t.take (.cancel handle)).armings = _ := t.armings_cancel handle
      rw [hcancel]
      rfl
    | fire now => rfl

/-! ## The round of handles -/

-- The residue starts anew exactly where the handle wraps around.
theorem toNat_handleAfter_round {h : Handle} {n : Nat} (hh : h.toNat = 1 + n % (UInt32.size - 1)) :
    (handleAfter h).toNat = 1 + (n + 1) % (UInt32.size - 1) := by
  rw [toNat_handleAfter_eq]
  simp only [UInt32.size] at hh ⊢
  split <;> omega

/-- Handles are given out in turn, and live timers come from the latest arming of their kind. -/
structure Numbered (t : Timers) : Prop where
  next : t.nextHandle.toNat = 1 + t.armings.length % (UInt32.size - 1)
  handle : ∀ n x, t.armings[n]? = some x → x.handle.toNat = 1 + n % (UInt32.size - 1)
  source : ∀ x ∈ t.live, ∃ n, t.LiveFrom n x

theorem numbered_empty : empty.Numbered where
  next := rfl
  handle := nofun
  source := nofun

theorem LiveFrom.unique {t : Timers} {x : Timer} {m n : Nat} (hm : t.LiveFrom m x)
    (hn : t.LiveFrom n x) : m = n := by
  rcases Nat.lt_trichotomy m n with hlt | heq | hgt
  · exact absurd rfl (hm.2.2 n x hlt hn.2.1)
  · exact heq
  · exact absurd rfl (hn.2.2 m x hgt hm.2.1)

namespace Numbered

variable {t : Timers} (h : t.Numbered)

include h

theorem arm (kind : TimerKind) (deadline : Millis) : (t.arm kind deadline).1.Numbered where
  next := by
    rw [armings_arm, List.length_append, List.length_singleton]
    exact toNat_handleAfter_round h.next
  handle := by
    intro n x hx
    rw [armings_arm, List.getElem?_append] at hx
    split at hx
    · exact h.handle n x hx
    · have hn : n = t.armings.length := by
        have hlt := (List.getElem?_eq_some_iff.mp hx).1
        rw [List.length_singleton] at hlt
        omega
      rw [hn, Nat.sub_self, List.getElem?_cons_zero, Option.some.injEq] at hx
      rw [← hx, hn]
      exact h.next
  source := by
    intro x hx
    rcases mem_live_arm hx with ⟨hold, hkind⟩ | hnew
    · obtain ⟨n, -, hn, hlatest⟩ := h.source x hold
      refine ⟨n, hx, ?_, ?_⟩
      · rw [armings_arm, List.getElem?_append_left (List.getElem?_eq_some_iff.mp hn).1]
        exact hn
      · intro m y hm hy
        rw [armings_arm, List.getElem?_append] at hy
        split at hy
        · exact hlatest m y hm hy
        · rw [List.mem_singleton.mp (List.mem_of_getElem? hy)]
          exact Ne.symm hkind
    · refine ⟨t.armings.length, hx, ?_, ?_⟩
      · rw [armings_arm, List.getElem?_concat_length, hnew]
        rfl
      · -- nothing is armed after the latest arming
        intro m y hm hy
        have hlt := (List.getElem?_eq_some_iff.mp hy).1
        rw [armings_arm, List.length_append, List.length_singleton] at hlt
        omega

theorem of_subset {t' : Timers} (hlive : t'.live ⊆ t.live) (hnext : t'.nextHandle = t.nextHandle)
    (harmings : t'.armings = t.armings) : t'.Numbered where
  next := by rw [hnext, harmings, h.next]
  handle := by rw [harmings]; exact h.handle
  source := by
    intro x hx
    obtain ⟨n, -, hn⟩ := h.source x (hlive hx)
    exact ⟨n, hx, by rw [harmings]; exact hn⟩

theorem take (call : TimerCall) : (t.take call).Numbered := by
  cases call with
  | arm kind deadline => exact h.arm kind deadline
  | cancel handle =>
    exact h.of_subset (List.filter_subset_self _) rfl (t.armings_cancel handle)
  | fire now =>
    have hlive : (t.fireDue now).2.live ⊆ t.live := by
      show (fireAll t.live now).2 ⊆ t.live
      rw [fireAll_left]
      exact List.filter_subset_self _
    exact h.of_subset hlive rfl (t.armings_fireDue now)

theorem after (calls : List TimerCall) : (t.after calls).Numbered := by
  induction calls generalizing t with
  | nil => exact h
  | cons call calls ih => exact ih (h.take call)

-- Recent armings are told apart by their handles.
theorem recent_inj {m n : Nat} {x y : Timer} (hx : t.armings[m]? = some x)
    (hy : t.armings[n]? = some y) (hm : t.Recent m) (hn : t.Recent n)
    (hsame : x.handle = y.handle) : m = n := by
  have hmx := h.handle m x hx
  have hny := h.handle n y hy
  have hlt := (List.getElem?_eq_some_iff.mp hx).1
  have hlt' := (List.getElem?_eq_some_iff.mp hy).1
  rw [hsame] at hmx
  simp only [Recent, UInt32.size] at hm hn hmx hny
  omega

/-! ## A single round -/

section Recent

variable (hrecent : ∀ n x, t.LiveFrom n x → t.Recent n)

include hrecent

-- A live timer with the handle of a recent arming comes from that arming.
theorem liveFrom_of_handle {m : Nat} {x y : Timer} (hx : x ∈ t.live) (hy : t.armings[m]? = some y)
    (hm : t.Recent m) (hsame : x.handle = y.handle) : x = y ∧ t.LiveFrom m y := by
  obtain ⟨n, hn⟩ := h.source x hx
  have hmn : n = m := h.recent_inj hn.2.1 hy (hrecent n x hn) hm hsame
  rw [hmn] at hn
  have hxy : x = y := by
    have harmed := hn.2.1
    rw [hy, Option.some.injEq] at harmed
    exact harmed.symm
  rw [hxy] at hn
  exact ⟨hxy, hn⟩

theorem handle_inj {x y : Timer} (hx : x ∈ t.live) (hy : y ∈ t.live)
    (hsame : x.handle = y.handle) : x = y := by
  obtain ⟨n, hn⟩ := h.source y hy
  exact (h.liveFrom_of_handle hrecent hx hn.2.1 (hrecent n y hn) hsame).1

theorem live_cancel_of_liveFrom {m : Nat} {y : Timer} (hlive : t.LiveFrom m y)
    (hnodup : t.live.Nodup) : (t.cancel y.handle).live = t.live.erase y := by
  rw [hnodup.erase_eq_filter]
  apply List.filter_congr
  intro x hx
  rw [Bool.eq_iff_iff, decide_eq_true_iff, bne_iff_ne]
  exact not_congr ⟨h.handle_inj hrecent hx hlive.1, fun hxy => by rw [hxy]⟩

theorem live_cancel_of_not_liveFrom {m : Nat} {y : Timer} (hy : t.armings[m]? = some y)
    (hm : t.Recent m) (hgone : ¬ t.LiveFrom m y) : (t.cancel y.handle).live = t.live := by
  apply List.filter_eq_self.mpr
  intro x hx
  rw [decide_eq_true_iff]
  exact fun hsame => hgone (h.liveFrom_of_handle hrecent hx hy hm hsame).2

end Recent

end Numbered

/-- The armings of a run are those that were asked for, in order. The handle of each is the number
of armings before it, counted round from one and without zero, and every live timer comes from one
arming. Where all live timers come from recent armings their handles differ, and cancelling by the
handle of a recent arming takes out its timer, if that is still live, and nothing else. -/
theorem handles_exact (calls : List TimerCall) :
    let t := empty.after calls
    (t.armings.map fun x => (x.kind, x.deadline)) = calls.filterMap TimerCall.asked? ∧
      (∀ kind deadline, (t.arm kind deadline).1.armings =
        t.armings ++ [⟨(t.arm kind deadline).2, kind, deadline⟩]) ∧
      (∀ n x, t.armings[n]? = some x →
        x.handle.toNat = 1 + n % (UInt32.size - 1) ∧ x.handle ≠ 0) ∧
      (∀ x ∈ t.live, ∃! n, t.LiveFrom n x) ∧
      ((∀ n x, t.LiveFrom n x → t.Recent n) →
        (t.live.map (·.handle)).Nodup ∧
          ∀ m y, t.armings[m]? = some y → t.Recent m →
            (t.LiveFrom m y → (t.cancel y.handle).live = t.live.erase y) ∧
              (¬ t.LiveFrom m y → (t.cancel y.handle).live = t.live)) := by
  intro t
  have h : t.Numbered := numbered_empty.after calls
  have hnodup : t.live.Nodup := by
    have hperm : t.live.Perm (Register.empty.after calls).timers := (keeps_empty.after calls).perm
    exact ((hperm.map _).nodup_iff.mpr (Register.nodup_kinds _)).of_map
  refine ⟨asked_after empty calls, t.armings_arm, ?_, ?_, ?_⟩
  · intro n x hx
    have hhandle := h.handle n x hx
    refine ⟨hhandle, ?_⟩
    intro hzero
    rw [hzero, UInt32.toNat_zero] at hhandle
    omega
  · intro x hx
    obtain ⟨n, hn⟩ := h.source x hx
    exact ⟨n, hn, fun m hm => hm.unique hn⟩
  · intro hrecent
    refine ⟨hnodup.map_on fun x hx y hy => h.handle_inj hrecent hx hy, ?_⟩
    intro m y hy hm
    exact ⟨fun hlive => h.live_cancel_of_liveFrom hrecent hlive hnodup,
      fun hgone => h.live_cancel_of_not_liveFrom hrecent hy hm hgone⟩

-- The handle of a pulse that has been replaced ends nothing, that of the latest pulse ends only this
-- one, and after a whole round the first handle comes again.
theorem handles_exact_round :
    let t := empty.after
      [.arm .commandPulse 1000, .arm .loadSafety 60000, .arm .commandPulse 2000]
    let round : List TimerCall := .replicate (UInt32.size - 1) (.arm .commandPulse 0)
    (∀ n x, t.LiveFrom n x → t.Recent n) ∧ t.LiveFrom 2 ⟨3, .commandPulse, 2000⟩ ∧
      (t.cancel 1).live = t.live ∧ (t.cancel 3).live = [⟨2, .loadSafety, 60000⟩] ∧
      ((empty.after round).arm .loadSafety 0).2 = 1 := by
  intro t round
  have hrecent : ∀ n, t.Recent n := by
    intro n
    have hlength : t.armings.length = 3 := by decide
    simp only [Recent, hlength, UInt32.size]
    omega
  have hlatest : t.LiveFrom 2 ⟨3, .commandPulse, 2000⟩ := by
    refine ⟨by decide, by decide, ?_⟩
    intro m y hm hy
    have hlt : m < 3 := (List.getElem?_eq_some_iff.mp hy).1
    omega
  have hreplaced : ¬ t.LiveFrom 0 ⟨1, .commandPulse, 1000⟩ := fun hlive => absurd hlive.1 (by decide)
  obtain ⟨-, -, -, -, hone⟩ := handles_exact
    [.arm .commandPulse 1000, .arm .loadSafety 60000, .arm .commandPulse 2000]
  obtain ⟨-, hcancel⟩ := hone fun n _ _ => hrecent n
  refine ⟨fun n _ _ => hrecent n, hlatest, ?_, ?_, ?_⟩
  · exact (hcancel 0 ⟨1, .commandPulse, 1000⟩ (by decide) (hrecent 0)).2 hreplaced
  · exact (hcancel 2 ⟨3, .commandPulse, 2000⟩ (by decide) (hrecent 2)).1 hlatest
  · -- the run is too long to be carried out, so it is taken as any run of this length
    have hagain : ∀ calls : List TimerCall,
        (calls.filterMap TimerCall.asked?).length = UInt32.size - 1 →
          ((empty.after calls).arm .loadSafety 0).2 = 1 := by
      intro calls hround
      obtain ⟨hasked, harm, -⟩ := handles_exact calls
      obtain ⟨-, -, hhandle, -⟩ := handles_exact (calls ++ [.arm .loadSafety 0])
      have hlast : (empty.after (calls ++ [.arm .loadSafety 0])).armings =
          (empty.after calls).armings ++
            [⟨((empty.after calls).arm .loadSafety 0).2, .loadSafety, 0⟩] := by
        rw [after_concat]
        exact harm .loadSafety 0
      rw [hlast] at hhandle
      have hlength : (empty.after calls).armings.length = UInt32.size - 1 := by
        rw [← hround, ← hasked, List.length_map]
      have hfirst := (hhandle _ _ List.getElem?_concat_length).1
      rw [hlength, Nat.mod_self] at hfirst
      exact UInt32.toNat_inj.mp hfirst
    have hasked : round.filterMap TimerCall.asked? =
        .replicate (UInt32.size - 1) (.commandPulse, 0) := List.filterMap_replicate_of_some rfl
    apply hagain
    rw [hasked, List.length_replicate]

end Timers

end HubCard
