import HubCard.Proofs.Waking

/-!
The deadlines of a card in a run in order. None of them is ever in the past: what an operation waits
for begins with the operation. And a card that has been woken at a time has no deadline left up to
then, unless that is the end of time.
-/

namespace HubCard

namespace Millis

theorem le_last (t : Millis) : t ≤ last := by
  have := t.toNat_lt
  rw [UInt64.le_iff_toNat_le, toNat_last, UInt64.size]
  omega

end Millis

namespace Selector.Request

/-- Whether the request outlasts all time: it would expire past the end of it. -/
def Outlasts (r : Request) (expiry : Millis) : Prop :=
  Millis.last.toNat < r.start.toNat + expiry.toNat + 1

variable {r : Request} {expiry : Millis}

theorem not_expired_of_outlasts (h : r.Outlasts expiry) (now : Millis) :
    ¬ expiry < Millis.since now r.start := by
  have hlast := UInt64.le_iff_toNat_le.mp (Millis.le_last now)
  rw [Outlasts] at h
  rw [UInt64.lt_iff_toNat_lt, Millis.toNat_since]
  omega

-- A request that has not expired is yet to expire, unless time is over by then.
theorem lt_deadline_or_outlasts {now : Millis} (h : ¬ expiry < Millis.since now r.start) :
    now < r.deadline expiry ∨ now = Millis.last ∧ r.Outlasts expiry := by
  have hlast := UInt64.le_iff_toNat_le.mp (Millis.le_last now)
  rw [UInt64.lt_iff_toNat_lt, Millis.toNat_since] at h
  rw [UInt64.lt_iff_toNat_lt, toNat_deadline, Outlasts, ← UInt64.toNat_inj]
  rw [Millis.toNat_last] at hlast ⊢
  omega

end Selector.Request

namespace Timers

theorem earlier?_eq_some {a b : Option Millis} {d : Millis} (h : earlier? a b = some d) :
    a = some d ∨ b = some d := by
  cases a with
  | none => exact .inr h
  | some x =>
    cases b with
    | none => exact .inl h
    | some y =>
      simp only [earlier?] at h
      split at h
      · exact .inl h
      · exact .inr h

theorem nextDeadline?_eq_some {t : Timers} {d : Millis} (h : t.nextDeadline? = some d) :
    ∃ x ∈ t.live, x.deadline = d := by
  unfold nextDeadline? at h
  generalize t.live = live at h ⊢
  induction live with
  | nil => cases h
  | cons x live ih =>
    rcases earlier?_eq_some h with hx | hlive
    · exact ⟨x, List.mem_cons_self, Option.some.inj hx⟩
    · rcases ih hlive with ⟨y, hy, hd⟩
      exact ⟨y, List.mem_cons_of_mem x hy, hd⟩

end Timers

namespace Lamp

/-- Whether what an order begins, if anything, does not begin before a time. -/
def Order.From (now : Millis) : Order → Prop
  | .pulse t | .load _ t => now ≤ t
  | _ => True

variable {l : Lamp} {now : Millis}

theorem from_obey (h : l.timers.From now) {o : Order} (ho : o.From now) :
    (l.obey o).timers.From now := by
  have hlater : ∀ t span, now ≤ t → now ≤ Millis.later t span :=
    fun t span ht => UInt64.le_trans ht (Millis.le_later t span)
  cases o with
  | pulse t => exact (h.cancel? _).arm .commandPulse (hlater t _ ho)
  | load target t => exact (h.cancel? _).arm .loadSafety (hlater t _ ho)
  | stop =>
    rw [obey_stop_eq]
    exact h.cancel? _
  | arrive label =>
    rw [obey_arrive, obey_stop_eq]
    split
    · exact h.cancel? _
    · exact h
  | fire t => exact h.fireDue t
  | hubBusy _ | refresh _ | takeTimedOut => exact h

theorem from_obeyAll (h : l.timers.From now) {orders : List Order}
    (horders : ∀ o ∈ orders, o.From now) : (l.obeyAll orders).timers.From now := by
  induction orders generalizing l with
  | nil => exact h
  | cons o orders ih =>
    rw [List.forall_mem_cons] at horders
    exact ih (from_obey h horders.1) horders.2

theorem from_orders {t : Millis} (hle : now ≤ t) (actions : List Selector.Action) :
    ∀ o ∈ actions.flatMap (·.orders t), o.From now :=
  Card.forall_mem_orders (P := (·.From now)) (fun _ => hle) trivial actions

end Lamp

namespace Card

/-! ## Nothing in the past -/

/-- No deadline of the card is before a time. -/
def From (now : Millis) (c : Card) : Prop :=
  ∀ d, c.nextDeadline? = some d → now ≤ d

theorem from_iff {c : Card} {now : Millis} :
    c.From now ↔ c.timers.From now ∧
      ∀ r, c.control.request = some r → now ≤ r.deadline c.config.timing.requestExpiry :=
  forall_nextDeadline?_iff fun _ _ hle hs => UInt64.le_trans hs hle

-- The next deadline is that of a timer or that of the request.
theorem nextDeadline?_eq_some {c : Card} {d : Millis} (h : c.nextDeadline? = some d) :
    (∃ x ∈ c.timers.live, x.deadline = d) ∨
      ∃ r, c.control.request = some r ∧ r.deadline c.config.timing.requestExpiry = d := by
  rcases Timers.earlier?_eq_some h with htimer | hrequest
  · exact .inl (Timers.nextDeadline?_eq_some htimer)
  · exact .inr (Option.map_eq_some_iff.mp hrequest)

theorem timers_perform {c : Card} {now : Millis} (h : c.timers.From now) {o : Operation}
    (htime : ∀ t, o.time? = some t → now ≤ t) : (c.perform o).card.timers.From now := by
  have hlit : ∀ {l : Lamp} (t : Millis), l.timers.From now → (l.obey (.refresh t)).timers.From now :=
    fun t hl => hl
  have hturn := c.turn o
  generalize c.perform o = p at hturn ⊢
  cases hturn with
  | start | ignored | still | skipped | writeBack => exact h
  | @updated _ host hub selector t hreports ht =>
    show (c.updated host hub selector t).lamp.timers.From now
    rw [lamp_updated]
    refine hlit t (Lamp.from_obeyAll h ?_)
    intro order horder
    rcases List.mem_append.mp horder with horder | horder
    · exact Lamp.from_orders (htime t ht) _ order horder
    · rw [List.mem_cons, List.mem_singleton] at horder
      rcases horder with rfl | rfl <;> trivial
  | @stirred option t control actions =>
    show (c.stirred control actions t).lamp.timers.From now
    rw [lamp_stirred]
    exact hlit t (Lamp.from_obeyAll h (Lamp.from_orders (htime t rfl) actions))
  | pressed hpress answer t =>
    show (c.pulsed t).lamp.timers.From now
    rw [lamp_pulsed]
    refine hlit t (Lamp.from_obeyAll h ?_)
    intro order horder
    rw [List.mem_singleton.mp horder]
    exact htime t rfl
  | @woken t | @undisturbed t =>
    show (c.roused t).lamp.timers.From now
    rw [lamp_roused]
    refine hlit t (Lamp.from_obeyAll h ?_)
    intro order horder
    rcases List.mem_append.mp horder with horder | horder
    · rw [List.mem_cons, List.mem_singleton] at horder
      rcases horder with rfl | rfl <;> trivial
    · exact Lamp.from_orders (htime t rfl) _ order horder

-- A request that is there after an operation was there before, or begins with it.
theorem request_perform {c : Card} (h : c.Rest) {o : Operation} {r : Selector.Request}
    (hreq : (c.perform o).card.control.request = some r) :
    c.control.request = some r ∨ o.time? = some r.start := by
  have hturn := c.turn o
  generalize c.perform o = p at hturn hreq
  cases hturn with
  | start | ignored | skipped | pressed => exact .inl hreq
  | writeBack => exact .inl (c.control.writeBack_frame.1.symm.trans hreq)
  | @updated _ host hub selector t hreports ht =>
    rcases Selector.Control.settle_request hreq with hkept | hstart
    · exact .inl hkept
    · exact .inr (hstart ▸ ht)
  | @still option t control hoffers hpick =>
    rcases Selector.Control.pick_of_pending h.settled.toReady hpick hreq with
      ⟨hkept, -⟩ | ⟨hstart, -⟩
    · exact .inl hkept
    · exact .inr (congrArg some hstart.symm)
  | @stirred option t control actions hoffers hpick =>
    rcases Selector.Control.pick_of_pending h.settled.toReady hpick hreq with
      ⟨hkept, -⟩ | ⟨hstart, -⟩
    · exact .inl hkept
    · exact .inr (congrArg some hstart.symm)
  | @woken t | @undisturbed t =>
    rcases Selector.Control.settle_request hreq with hkept | hstart
    · exact .inl hkept
    · exact .inr (congrArg some hstart.symm)

theorem From.perform {c : Card} {now : Millis} (h : c.From now) (hrest : c.Rest) {o : Operation}
    (htime : ∀ t, o.time? = some t → now ≤ t) : (c.perform o).card.From now := by
  rw [from_iff] at h ⊢
  refine ⟨timers_perform h.1 htime, ?_⟩
  intro r hr
  rw [config_perform]
  rcases request_perform hrest hr with hkept | hstart
  · exact h.2 r hkept
  · have hlater := UInt64.le_trans (Millis.le_later r.start c.config.timing.requestExpiry)
      (Millis.le_later _ 1)
    exact UInt64.le_trans (htime r.start hstart) hlater

theorem From.after {c : Card} {now : Millis} (h : c.From now) (hrest : c.Rest)
    {ops : List Operation} (htimes : ∀ t ∈ times ops, now ≤ t) :
    (c.after ops).Rest ∧ (c.after ops).From now := by
  have hok : ∀ o ∈ ops, ∀ t, o.time? = some t → now ≤ t :=
    fun o ho t ht => htimes t (List.mem_filterMap.mpr ⟨o, ho, ht⟩)
  apply after_induction (fun o => ∀ t, o.time? = some t → now ≤ t) (fun c => c.Rest ∧ c.From now)
  · intro c o htime hc
    exact ⟨hc.1.perform o, hc.2.perform hc.1 htime⟩
  · exact ⟨hrest, h⟩
  · exact hok

/-! ## Woken in time -/

-- Before the end of time that leaves nothing that is due.
theorem Past.lt_nextDeadline? {c : Card} {now : Millis} (h : c.Past now)
    (hnow : now ≠ Millis.last) : ∀ d, c.nextDeadline? = some d → now < d := by
  rw [lt_nextDeadline?_iff]
  refine ⟨h.timers, ?_⟩
  intro r hr
  rcases Selector.Request.lt_deadline_or_outlasts (h.request r hr) with hlater | ⟨hend, -⟩
  · exact hlater
  · exact absurd hend hnow

/-- The card waits for the end of a request that outlasts all time. -/
def Outlasting (c : Card) : Prop :=
  ∃ r, c.control.request = some r ∧ r.Outlasts c.config.timing.requestExpiry

-- At a time that has been taken in, only the end of time and a request that outlasts it are due.
theorem Past.outlasting {c : Card} {d : Millis} (h : c.Past d) (hnext : c.nextDeadline? = some d) :
    d = Millis.last ∧ c.Outlasting := by
  rcases nextDeadline?_eq_some hnext with ⟨x, hx, hdeadline⟩ | ⟨r, hr, hdeadline⟩
  · have hlater := h.timers x hx
    rw [hdeadline] at hlater
    exact absurd hlater (UInt64.lt_irrefl d)
  · rcases Selector.Request.lt_deadline_or_outlasts (h.request r hr) with hlater | ⟨hend, houtlasts⟩
    · rw [hdeadline] at hlater
      exact absurd hlater (UInt64.lt_irrefl d)
    · exact ⟨hend, r, hr, houtlasts⟩

/-- Wakings of a card one after another, each at the deadline that the card has come to, and none
before a time: the card at first and the card that they leave. -/
inductive Prompt : Millis → Card → List Waking → Card → Prop where
  | none (s : Millis) (c : Card) : Prompt s c [] c
  | next {s d : Millis} {c left : Card} {wakings : List Waking} (hle : s ≤ d)
      (hnext : c.nextDeadline? = some d) (hrest : Prompt d (c.wake d).1.card wakings left) :
      Prompt s c (⟨d, (c.wake d).1.acts, (c.wake d).2⟩ :: wakings) left

section WakeUntil

variable {c : Card} {limit : Millis} {last : Option Millis}

theorem wakeUntil_of_due {d : Millis} (hnext : c.nextDeadline? = some d)
    (hdue : d ≤ limit ∧ last ≠ some d) :
    c.wakeUntil limit last =
      (((c.wake d).1.card.wakeUntil limit (some d)).1,
        ⟨d, (c.wake d).1.acts, (c.wake d).2⟩ ::
          ((c.wake d).1.card.wakeUntil limit (some d)).2) := by
  rw [wakeUntil]
  split
  · rename_i hnone
    rw [hnext] at hnone
    cases hnone
  · rename_i d' hsome
    rw [hnext, Option.some.injEq] at hsome
    subst hsome
    rw [if_pos hdue]

theorem wakeUntil_of_not_due
    (hnone : ∀ d, c.nextDeadline? = some d → ¬ (d ≤ limit ∧ last ≠ some d)) :
    c.wakeUntil limit last = (c, []) := by
  rw [wakeUntil]
  split
  · rfl
  · rename_i d hnext
    rw [if_neg (hnone d hnext)]

end WakeUntil

/-- What is so where nothing is due, and before a waking when it is so after it. -/
theorem wakeUntil_induction (limit : Millis) {motive : Card → Option Millis → Prop}
    (not_due : ∀ c last, (∀ d, c.nextDeadline? = some d → ¬ (d ≤ limit ∧ last ≠ some d)) →
      motive c last)
    (due : ∀ c last d, c.nextDeadline? = some d → d ≤ limit ∧ last ≠ some d →
      motive (c.wake d).1.card (some d) → motive c last)
    (c : Card) (last : Option Millis) : motive c last := by
  apply wakeUntil.induct limit motive
  · intro c last hnext
    apply not_due
    intro d hd
    rw [hnext] at hd
    cases hd
  · intro c last d hnext hdue woken _ _ _ hwoken
    exact due c last d hnext hdue hwoken
  · intro c last d hnext hdue
    apply not_due
    intro d' hd'
    rw [hnext, Option.some.injEq] at hd'
    subst hd'
    exact hdue

theorem prompt_wakeUntil {c : Card} {s : Millis} (h : c.From s) (limit : Millis)
    (last : Option Millis) :
    Prompt s c (c.wakeUntil limit last).2 (c.wakeUntil limit last).1 := by
  induction c, last using wakeUntil_induction limit generalizing s with
  | not_due c last hnone =>
    rw [wakeUntil_of_not_due hnone]
    exact .none s c
  | due c last d hnext hdue ih =>
    rw [wakeUntil_of_due hnext hdue]
    have hlater : (c.wake d).1.card.From d := fun d' hd' => le_nextDeadline?_wake hnext hd'
    exact .next (h d hnext) hnext (ih hlater)

theorem time_le_of_wakeUntil {c : Card} {limit : Millis} {last : Option Millis} :
    ∀ w ∈ (c.wakeUntil limit last).2, w.time ≤ limit := by
  induction c, last using wakeUntil_induction limit with
  | not_due c last hnone =>
    rw [wakeUntil_of_not_due hnone]
    exact fun _ hw => by cases hw
  | due c last d hnext hdue ih =>
    rw [wakeUntil_of_due hnext hdue, List.forall_mem_cons]
    exact ⟨hdue.1, ih⟩

/-- A deadline that a waking has left behind can only be the end of time. -/
def Stuck (c : Card) (last : Option Millis) : Prop :=
  ∀ d, last = some d → c.nextDeadline? = some d → d = Millis.last

theorem stuck_none (c : Card) : c.Stuck none :=
  fun _ h => by cases h

theorem stuck_wake {c : Card} (h : c.Rest) (now : Millis) :
    (c.wake now).1.card.Stuck (some now) := by
  rintro d ⟨rfl⟩ hleft
  exact ((past_wake h now).outlasting hleft).1

-- So nothing is missed by stopping there.
theorem from_wakeUntil {c : Card} (h : c.Rest) {limit : Millis} {last : Option Millis}
    (hstuck : c.Stuck last) : (c.wakeUntil limit last).1.From limit := by
  induction c, last using wakeUntil_induction limit with
  | not_due c last hnone =>
    rw [wakeUntil_of_not_due hnone]
    intro d hd
    by_cases hle : d ≤ limit
    · have hlast : last = some d := Decidable.not_not.mp fun hne => hnone d hd ⟨hle, hne⟩
      rw [hstuck d hlast hd]
      exact Millis.le_last limit
    · exact UInt64.le_of_lt (UInt64.not_le.mp hle)
  | due c last d hnext hdue ih =>
    rw [wakeUntil_of_due hnext hdue]
    exact ih (h.perform (.wake d)) (stuck_wake h d)

namespace Prompt

variable {s : Millis} {c left : Card} {wakings : List Waking} (h : Prompt s c wakings left)

include h

theorem rest (hrest : c.Rest) : left.Rest := by
  induction h with
  | none => exact hrest
  | next _ _ _ ih => exact ih (hrest.perform (.wake _))

theorem le_time : ∀ w ∈ wakings, s ≤ w.time := by
  induction h with
  | none => exact fun _ hw => by cases hw
  | next hle _ _ ih =>
    rw [List.forall_mem_cons]
    exact ⟨hle, fun w hw => UInt64.le_trans hle (ih w hw)⟩

/-- The wakings as operations. -/
theorem eq_after : left = c.after (wakings.map fun w => .wake w.time) := by
  induction h with
  | none => rfl
  | next _ _ _ ih => exact ih

-- Each waking is for the deadline that is the next once the card has gone through those before it.
theorem exists_woken {w : Waking} (hw : w ∈ wakings) :
    ∃ before after, wakings = before ++ w :: after ∧
      let d := c.after (before.map fun w => .wake w.time)
      d.nextDeadline? = some w.time ∧ w.view = (d.wake w.time).2 := by
  induction h with
  | none => cases hw
  | @next s d c left wakings hle hnext hrest ih =>
    rcases List.mem_cons.mp hw with rfl | hw
    · exact ⟨[], wakings, rfl, hnext, rfl⟩
    · rcases ih hw with ⟨before, after, hsplit, hwoken⟩
      exact ⟨_ :: before, after, congrArg _ hsplit, hwoken⟩

end Prompt

end Card

end HubCard
