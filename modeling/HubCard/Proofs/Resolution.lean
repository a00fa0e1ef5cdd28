import HubCard.Proofs.Invariants

/-!
How requests end, and what the card reports of it. An update or a waking that ends a request reports
so. A pick that finds the request expired and makes a new one does not: the way into the new request
clears the report of the old one.
-/

namespace HubCard

namespace Act

/-- The ends of requests that a list of acts reports. -/
def endings (acts : List Act) : List Selector.Outcome :=
  acts.filterMap fun
    | .event (.activityConfirmed option) => some (.confirmed option)
    | .event (.requestExpired option _) => some (.expired option)
    | _ => none

theorem endings_append (acts more : List Act) :
    endings (acts ++ more) = endings acts ++ endings more :=
  List.filterMap_append

theorem endings_eq_nil {acts : List Act} (h : Spare .outcome acts) : endings acts = [] := by
  apply h.filterMap_eq_nil
  intro a htopic
  split
  · exact absurd rfl htopic
  · exact absurd rfl htopic
  · rfl

theorem endings_ofOutcome (c : Selector.Control) : endings (ofOutcome c) = c.outcome.toList := by
  unfold ofOutcome
  rcases c.outcome with _ | ⟨_⟩ | ⟨_⟩ <;> rfl

-- Of three lists of acts only the middle one reports ends.
theorem endings_between {before after : List Act} (hbefore : Spare .outcome before)
    (c : Selector.Control) (hafter : Spare .outcome after) :
    endings (before ++ ofOutcome c ++ after) = c.outcome.toList := by
  rw [endings_append, endings_append, endings_eq_nil hbefore, endings_eq_nil hafter,
    endings_ofOutcome, List.nil_append, List.append_nil]

end Act

namespace Card

variable {c : Card}

theorem endings_updateActs (h : c.Rest) (host : Host) (hub : HubReport)
    (selector : SelectorReport) (now : Millis) :
    Act.endings (c.updateActs host hub selector now) =
      (c.control.ending? (c.received hub selector).confirmed now).toList := by
  have hparts : Act.endings (c.updateActs host hub selector now) =
      (c.settling hub selector now).1.outcome.toList := by
    rw [updateActs, List.append_assoc]
    exact Act.endings_between (by simp) _ (by simp)
  rw [hparts, settling, Selector.Control.settle_eq h.settled.toReady,
    Selector.Control.holding_outcome, h.reported, Option.or_none]

theorem endings_pickActs (c : Card) (answer : Answer) (control : Selector.Control)
    (actions : List Selector.Action) (now : Millis) :
    Act.endings (c.pickActs answer control actions now) = control.outcome.toList :=
  Act.endings_between (by simp) control (by simp)

theorem endings_wakeActs (h : c.Rest) (now : Millis) :
    Act.endings (c.wakeActs now) = (c.control.ending? c.confirmed now).toList := by
  have hparts : Act.endings (c.wakeActs now) =
      (c.control.settle c.confirmed now).1.outcome.toList :=
    Act.endings_between (by simp) _ (by simp)
  rw [hparts, Selector.Control.settle_eq h.settled.toReady, Selector.Control.holding_outcome,
    h.reported, Option.or_none]

/-! ## Confirmation -/

-- Only an update can change what the hub confirms.
theorem endings_of_confirmed (h : c.Rest) {r : Selector.Request}
    (hreq : c.control.request = some r) {o : Operation}
    (hvalue : (c.perform o).card.confirmed = r.value) :
    Act.endings (c.perform o).acts = [.confirmed r.value] := by
  have hturn := c.turn o
  generalize c.perform o = p at hturn hvalue ⊢
  cases hturn with
  | @updated _ host hub selector now =>
    simp only [updated_frame] at hvalue
    rw [endings_updateActs h, hvalue, Selector.Control.ending?_of_confirmed hreq]
    rfl
  | start | ignored | still | stirred | skipped | pressed | woken | undisturbed | writeBack =>
    exact absurd hvalue (h.confirmed_ne hreq)

/-! ## Expiry -/

/-- What becomes of a request that has expired when an operation ends it. -/
theorem endings_of_expired (h : c.Rest) {r : Selector.Request}
    (hreq : c.control.request = some r) {o : Operation} {now : Millis} (htime : o.time? = some now)
    (hgone : (c.perform o).card.control.request ≠ some r)
    (hvalue : (c.perform o).card.confirmed ≠ r.value)
    (hexpired : c.config.timing.requestExpiry < Millis.since now r.start) :
    ((c.perform o).card.control.request = none ∧
        Act.endings (c.perform o).acts = [.expired r.value]) ∨
      ((∃ answer option, o = .handle answer (.selectActivity option) now ∧
          (c.perform o).card.control.request = some ⟨option, now⟩) ∧
        Act.endings (c.perform o).acts = []) := by
  rw [← h.expiry] at hexpired
  have hexpires : c.control.ending? c.confirmed now = some (.expired r.value) :=
    Selector.Control.ending?_of_expired hreq (h.confirmed_ne hreq) hexpired
  have hturn := c.turn o
  generalize c.perform o = p at hturn hgone hvalue ⊢
  cases hturn with
  | start | ignored | skipped | pressed => exact absurd hreq hgone
  | writeBack => exact absurd (c.control.writeBack_frame.1.trans hreq) hgone
  | @updated _ host hub selector t hreports ht =>
    rw [ht, Option.some.injEq] at htime
    subst htime
    left
    simp only [updated_frame] at hvalue
    have hends := Selector.Control.ending?_of_expired hreq hvalue hexpired
    constructor
    · simp [settling, Selector.Control.settle_eq h.settled.toReady,
        Selector.Control.kept?_eq_none hends]
    · rw [endings_updateActs h, hends]
      rfl
  | @woken t | @undisturbed t =>
    cases htime
    left
    constructor
    · simp [withView, Selector.Control.settle_eq h.settled.toReady,
        Selector.Control.kept?_eq_none hexpires]
    · rw [endings_wakeActs h, hexpires]
      rfl
  | @still option t control hoffers hpick hphase =>
    cases htime
    rw [(h.settled.pick_still hpick hphase).1] at hexpires
    cases hexpires
  | @stirred option t control actions hoffers hpick hstir answer =>
    cases htime
    rw [endings_pickActs]
    simp only [stirred_frame, Selector.Control.takeOutcome_frame]
    rcases Selector.Control.pick_cases h.settled.toReady option c.confirmed now with
      ⟨-, heq⟩ | ⟨-, hends, -⟩ | ⟨-, -, heq⟩
    · -- the option that is shown again
      left
      rw [heq, Selector.Control.settle_eq h.settled.toReady, hexpires,
        Selector.Control.kept?_eq_none hexpires] at hpick
      rw [← (Prod.mk.inj hpick).1]
      exact ⟨rfl, rfl⟩
    · -- a request that has expired cannot be taken back
      rw [hexpires] at hends
      cases hends
    · -- another one, so the request is made anew
      right
      rw [heq, Selector.Control.kept?_eq_none hexpires] at hpick
      rw [← (Prod.mk.inj hpick).1]
      exact ⟨⟨answer, option, rfl, rfl⟩, rfl⟩

-- A request that is reported as expired was there when the operation began.
theorem request_of_endings (h : c.Rest) {o : Operation} {option : String}
    (hreported : .expired option ∈ Act.endings (c.perform o).acts) :
    ∃ r, c.control.request = some r ∧ r.value = option := by
  have hturn := c.turn o
  generalize c.perform o = p at hturn hreported
  cases hturn with
  | start | ignored | still | skipped | writeBack => cases hreported
  | pressed =>
    rw [Act.endings_eq_nil (by simp [pressActs])] at hreported
    cases hreported
  | updated =>
    rw [endings_updateActs h, Option.mem_toList] at hreported
    exact Selector.Control.request_of_expired hreported
  | woken | undisturbed =>
    rw [endings_wakeActs h, Option.mem_toList] at hreported
    exact Selector.Control.request_of_expired hreported
  | @stirred picked now control actions hoffers hpick =>
    rw [endings_pickActs, Option.mem_toList] at hreported
    rcases Selector.Control.pick_outcome h.settled.toReady h.reported hpick with
      hnone | hends | ⟨hends, -⟩
    · rw [hnone] at hreported
      cases hreported
    · rw [hends] at hreported
      exact Selector.Control.request_of_expired hreported
    · -- a request that is taken back counts as confirmed
      rw [hends] at hreported
      cases hreported

/-! ## After a run -/

/-- After any run: an operation that ends a request by a confirmation reports that once. One that
ends it because it has expired reports that once unless it makes a new request, which only a pick
does; then it reports nothing. No expiry is reported but of a request that was there before. -/
theorem endings_exact {config : Config} {start : Card} (hnew : Card.new config = .ok start)
    (ops : List Operation) (o : Operation) :
    let c := start.after ops
    let p := c.perform o
    (∀ r, c.control.request = some r → p.card.control.request ≠ some r →
        p.card.confirmed = r.value → Act.endings p.acts = [.confirmed r.value]) ∧
      (∀ r now, o.time? = some now → c.control.request = some r →
        p.card.control.request ≠ some r → p.card.confirmed ≠ r.value →
        config.timing.requestExpiry < Millis.since now r.start →
        (p.card.control.request = none → Act.endings p.acts = [.expired r.value]) ∧
          (p.card.control.request ≠ none → Act.endings p.acts = [] ∧
            ∃ answer option, o = .handle answer (.selectActivity option) now ∧
              p.card.control.request = some ⟨option, now⟩)) ∧
      ∀ option, .expired option ∈ Act.endings p.acts →
        ∃ r, c.control.request = some r ∧ r.value = option := by
  intro c p
  have hrest : c.Rest := (rest_and_drawn_after hnew ops).1
  have hconfig : c.config = config := config_after hnew ops
  refine ⟨?_, ?_, fun option hreported => request_of_endings hrest hreported⟩
  · intro r hreq _ hvalue
    exact endings_of_confirmed hrest hreq hvalue
  · intro r now htime hreq hgone hvalue hexpired
    rw [← hconfig] at hexpired
    rcases endings_of_expired hrest hreq htime hgone hvalue hexpired with
      ⟨hnone, hends⟩ | ⟨⟨answer, option, ho, hrequest⟩, hends⟩
    · exact ⟨fun _ => hends, fun hsome => absurd hnone hsome⟩
    · refine ⟨fun hnone => ?_, fun _ => ⟨hends, answer, option, ho, hrequest⟩⟩
      rw [hrequest] at hnone
      cases hnone

open Sample

-- A waking reports a request that has expired.
theorem endings_exact_woken :
    Act.endings (((card Sample.config).after picked).perform (.wake 16001)).acts =
      [.expired "Movie"] := by
  have hrequest : ((card Sample.config).after picked).control.request = some ⟨"Movie", 1000⟩ := by
    decide +kernel
  have hexact := (endings_exact new_config picked (.wake 16001)).2.1 ⟨"Movie", 1000⟩ 16001 rfl
    hrequest (by decide +kernel) (by decide +kernel) (by decide)
  exact hexact.1 (by decide +kernel)

/-- A pick that comes before any waking makes a new request, and the end of the old one is lost. -/
theorem expiry_unreported :
    ((card Sample.config).after picked).control.request = some ⟨"Movie", 1000⟩ ∧
      Sample.config.timing.requestExpiry < Millis.since 16001 1000 ∧
      (((card Sample.config).after picked).perform
        (.handle accepting (.selectActivity "Radio") 16001)).card.confirmed = "TV" ∧
      (((card Sample.config).after picked).perform
        (.handle accepting (.selectActivity "Radio") 16001)).card.control.request =
          some ⟨"Radio", 16001⟩ ∧
      Act.endings (((card Sample.config).after picked).perform
        (.handle accepting (.selectActivity "Radio") 16001)).acts = [] := by
  refine ⟨?_, ?_, ?_, ?_, ?_⟩ <;> decide +kernel

end Card

end HubCard
