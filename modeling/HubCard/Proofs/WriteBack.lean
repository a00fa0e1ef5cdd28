import HubCard.Proofs.Answers

/-!
Writing back to the selector control. What has been written is read by nothing but the next writing:
a card goes through a run in the same way whether or not, and wherever, it is asked what to write.
What it gives out to be written is what it shows, and when that comes back as a pick of the user it is
not taken for one.
-/

namespace HubCard

namespace Selector.Control

/-- The same selector, with something else written to its control. -/
def withWritten (c : Control) (written : Option String) : Control :=
  { c with written }

@[simp] theorem withWritten_frame (c : Control) (written : Option String) :
    (c.withWritten written).machine = c.machine ∧ (c.withWritten written).shown = c.shown ∧
      (c.withWritten written).phase = c.phase ∧ (c.withWritten written).request = c.request :=
  ⟨rfl, rfl, rfl, rfl⟩

theorem settle_withWritten (c : Control) (written : Option String) (confirmed : String)
    (now : Millis) :
    (c.withWritten written).settle confirmed now =
      ((c.settle confirmed now).1.withWritten written, (c.settle confirmed now).2) := rfl

theorem pick_withWritten (c : Control) (written : Option String) (value confirmed : String)
    (now : Millis) :
    (c.withWritten written).pick value confirmed now =
      ((c.pick value confirmed now).1.withWritten written, (c.pick value confirmed now).2) := by
  unfold pick
  simp only [settle_withWritten, withWritten_frame]
  split <;> rfl

theorem writeBack_eq (c : Control) :
    c.writeBack =
      (c.withWritten (some c.shown), if c.written = some c.shown then none else some c.shown) := by
  unfold writeBack
  split
  · rename_i h
    rw [withWritten, ← h]
  · rfl

-- A pick of what is shown tells the selector the time, where nothing ends.
theorem Settled.pick_shown {c : Control} (h : c.Settled) {now : Millis}
    (hends : c.ending? c.confirmed now = none) :
    c.pick c.shown c.confirmed now = (c.holding c.confirmed now c.request c.outcome, []) := by
  have hshown : c.shown = c.shownAt c.confirmed now := (h.shownAt_eq hends).symm
  rw [pick_of_shown h.toReady hshown, settle_eq h.toReady, kept?, hends]
  rfl

end Selector.Control

/-- The same card, with something else written to its selector control. -/
def Card.withWritten (c : Card) (written : Option String) : Card :=
  c.withControl (c.control.withWritten written)

def Pass.withWritten (p : Pass) (written : Option String) : Pass :=
  { p with card := p.card.withWritten written }

namespace Card

/-! ## Operations that do not write -/

variable (c : Card) (written : Option String)

@[simp] theorem withWritten_frame :
    (c.withWritten written).config = c.config ∧ (c.withWritten written).hub = c.hub ∧
      (c.withWritten written).gating = c.gating ∧
      (c.withWritten written).confirmed = c.confirmed ∧
      (c.withWritten written).control = c.control.withWritten written :=
  ⟨rfl, rfl, rfl, rfl, rfl⟩

theorem withWritten_self : c.withWritten c.control.written = c := rfl

theorem currentLabel_withWritten : (c.withWritten written).currentLabel = c.currentLabel := rfl

theorem view_withWritten : (c.withWritten written).view = c.view := rfl

section Update

variable (host : Host) (hub : HubReport) (selector : SelectorReport) (now : Millis)

theorem received_withWritten :
    (c.withWritten written).received hub selector =
      (c.received hub selector).withWritten written := by
  simp only [received, withWritten, withControl]

theorem settling_withWritten :
    (c.withWritten written).settling hub selector now =
      ((c.settling hub selector now).1.withWritten written,
        (c.settling hub selector now).2) := by
  simp only [settling, received_withWritten, withWritten_frame,
    Selector.Control.settle_withWritten]

theorem updateOrders_withWritten :
    (c.withWritten written).updateOrders hub selector now = c.updateOrders hub selector now := by
  unfold updateOrders
  rw [settling_withWritten, received_withWritten, currentLabel_withWritten]

theorem painting_withWritten : (c.withWritten written).painting host = c.painting host := rfl

theorem updated_withWritten :
    (c.withWritten written).updated host hub selector now =
      (c.updated host hub selector now).withWritten written := by
  have hlamp : (c.withWritten written).lamp = c.lamp := rfl
  unfold updated
  rw [received_withWritten, settling_withWritten, updateOrders_withWritten, painting_withWritten,
    hlamp]
  rfl

theorem updateActs_withWritten :
    (c.withWritten written).updateActs host hub selector now =
      c.updateActs host hub selector now := by
  have hreceive : ((c.withWritten written).receive hub selector).acts =
      (c.receive hub selector).acts := by
    simp only [receive_eq, withWritten_frame]
  unfold updateActs
  rw [hreceive, settling_withWritten, updateOrders_withWritten, painting_withWritten]
  rfl

theorem update_withWritten :
    (c.withWritten written).update host hub selector now =
      ((c.update host hub selector now).1.withWritten written,
        (c.update host hub selector now).2) := by
  simp only [update_eq, updateActs_withWritten, updated_withWritten, view_withWritten]
  rfl

end Update

theorem selectActivity_withWritten (answer : Answer) (option : String) (now : Millis) :
    (c.withWritten written).selectActivity answer option now =
      ((c.selectActivity answer option now).1.withWritten written,
        (c.selectActivity answer option now).2) := by
  have hsame : (c.withWritten written).offers option = c.offers option := rfl
  cases hoffers : c.offers option with
  | false =>
    rw [selectActivity_of_not_offers hoffers, selectActivity_of_not_offers (hsame.trans hoffers)]
    rfl
  | true =>
    rcases hpick : c.control.pick option c.confirmed now with ⟨control, actions⟩
    have hpick' : (c.withWritten written).control.pick option (c.withWritten written).confirmed now =
        (control.withWritten written, actions) := by
      simp only [withWritten_frame, Selector.Control.pick_withWritten, hpick]
    rw [selectActivity_of_offers hoffers hpick,
      selectActivity_of_offers (hsame.trans hoffers) hpick']
    simp only [withWritten_frame, Selector.Control.withWritten_frame]
    split <;> rfl

theorem pressButton_withWritten (answer : Answer) (key : String) (now : Millis) :
    (c.withWritten written).pressButton answer key now =
      ((c.pressButton answer key now).1.withWritten written,
        (c.pressButton answer key now).2) := by
  unfold pressButton
  simp only [withWritten_frame, Pass.send_eq]
  cases Button.find? key with
  | none => rfl
  | some button =>
    dsimp only
    split
    · rfl
    · split
      · rfl
      · split <;> rfl

theorem pressShortcut_withWritten (answer : Answer) (index : Nat) (now : Millis) :
    (c.withWritten written).pressShortcut answer index now =
      ((c.pressShortcut answer index now).1.withWritten written,
        (c.pressShortcut answer index now).2) := by
  unfold pressShortcut
  simp only [withWritten_frame, Pass.send_eq]
  split
  · split
    · rfl
    · split
      · rfl
      · split <;> rfl
  · rfl

theorem handle_withWritten (answer : Answer) (command : Command) (now : Millis) :
    (c.withWritten written).handle answer command now =
      ((c.handle answer command now).1.withWritten written, (c.handle answer command now).2) := by
  cases command with
  | selectActivity option => exact c.selectActivity_withWritten written answer option now
  | pressButton key => exact c.pressButton_withWritten written answer key now
  | pressShortcut index => exact c.pressShortcut_withWritten written answer index now

theorem wake_withWritten (now : Millis) :
    (c.withWritten written).wake now =
      ((c.wake now).1.withWritten written, (c.wake now).2) := by
  have hstirs : (c.withWritten written).stirs now = c.stirs now := rfl
  simp only [wake_eq, hstirs]
  split <;> rfl

end Card

/-! ## Runs with and without writing -/

def Operation.isWriteBack : Operation → Bool
  | .writeBack => true
  | _ => false

/-- A run in which nothing is written. -/
def withoutWriting (ops : List Operation) : List Operation :=
  ops.filter (!·.isWriteBack)

/-- What there is to be seen of an operation that does not write. -/
structure Sighting where
  acts : List Act
  view : Option View
  deadline : Option Millis
  deriving Repr, DecidableEq

namespace Card

def sighting (c : Card) (o : Operation) : Sighting :=
  ⟨(c.perform o).acts, c.given? o, (c.perform o).card.nextDeadline?⟩

/-- What there is to be seen of a run, operation by operation, but for those that write. -/
def sightings (c : Card) : List Operation → List Sighting
  | [] => []
  | o :: ops =>
    if o.isWriteBack then (c.perform o).card.sightings ops
    else c.sighting o :: (c.perform o).card.sightings ops

/-- What is written in the course of a run. -/
def writings (c : Card) : List Operation → List String
  | [] => []
  | o :: ops => (c.written? o).toList ++ (c.perform o).card.writings ops

-- An operation that does not write neither reads nor changes what has been written.
theorem perform_withWritten (c : Card) (written : Option String) {o : Operation}
    (ho : o.isWriteBack = false) :
    (c.withWritten written).perform o = (c.perform o).withWritten written ∧
      (c.withWritten written).given? o = c.given? o := by
  cases o with
  | start => exact ⟨rfl, rfl⟩
  | update host hub selector now =>
    simp only [perform, given?, update_withWritten]
    exact ⟨trivial, trivial⟩
  | updateFrom host entities now =>
    simp only [perform, given?, updateFrom, withWritten_frame, update_withWritten]
    exact ⟨trivial, trivial⟩
  | handle answer command now =>
    simp only [perform, given?, handle_withWritten]
    exact ⟨trivial, trivial⟩
  | wake now =>
    simp only [perform, given?, wake_withWritten]
    exact ⟨trivial, trivial⟩
  | writeBack => cases ho

theorem perform_writeBack (c : Card) :
    c.perform .writeBack = ⟨c.withWritten (some c.control.shown), []⟩ := by
  simp only [perform, writeBack, Selector.Control.writeBack_eq]
  rfl

-- Two cards that differ in what has been written go through the same run, whether it is written on
-- the way or not.
theorem run_withoutWriting (c : Card) (written : Option String) (ops : List Operation) :
    (c.withWritten written).sightings (withoutWriting ops) = c.sightings ops ∧
      ((c.withWritten written).after (withoutWriting ops)).nextDeadline? =
        (c.after ops).nextDeadline? := by
  induction ops generalizing c written with
  | nil => exact ⟨rfl, rfl⟩
  | cons o ops ih =>
    cases ho : o.isWriteBack with
    | true =>
      cases o with
      | writeBack =>
        have hcard : (c.perform .writeBack).card = c.withWritten (some c.control.shown) := by
          rw [perform_writeBack]
        have hskip : withoutWriting (.writeBack :: ops) = withoutWriting ops := rfl
        rw [hskip, sightings, if_pos ho, after_cons, hcard]
        exact ih (c.withWritten (some c.control.shown)) written
      | _ => cases ho
    | false =>
      have hkeep : withoutWriting (o :: ops) = o :: withoutWriting ops := by
        simp [withoutWriting, ho]
      rcases c.perform_withWritten written ho with ⟨hperform, hview⟩
      have hcard : ((c.withWritten written).perform o).card =
          (c.perform o).card.withWritten written := by
        rw [hperform]
        rfl
      have hsighting : (c.withWritten written).sighting o = c.sighting o := by
        rw [sighting, hperform, hview]
        rfl
      rcases ih (c.perform o).card written with ⟨hsightings, hdeadline⟩
      rw [hkeep]
      simp only [sightings, ho, Bool.false_eq_true, if_false, after_cons, hsighting, hcard,
        hsightings, hdeadline]
      exact ⟨trivial, trivial⟩

theorem sightings_withWritten (c : Card) (written : Option String) (ops : List Operation) :
    (c.withWritten written).sightings ops = c.sightings ops :=
  ((c.withWritten written).run_withoutWriting none ops).1.symm.trans
    (c.run_withoutWriting none ops).1

-- To write is no act.
theorem actsOver_eq_sightings (c : Card) (ops : List Operation) :
    c.actsOver ops = (c.sightings ops).flatMap Sighting.acts := by
  induction ops generalizing c with
  | nil => rfl
  | cons o ops ih =>
    rw [actsOver, sightings, ih]
    cases ho : o.isWriteBack with
    | true =>
      cases o with
      | writeBack => rfl
      | _ => cases ho
    | false => rfl

-- What counts as written is what was written last.
theorem written_after (c : Card) (ops : List Operation) :
    (c.after ops).control.written = (c.writings ops).getLast?.or c.control.written := by
  induction ops generalizing c with
  | nil => rfl
  | cons o ops ih =>
    rw [after_cons, ih, writings, List.getLast?_append, Option.or_assoc]
    congr 1
    cases ho : o.isWriteBack with
    | true =>
      cases o with
      | writeBack =>
        have hcard : (c.perform .writeBack).card.control.written = some c.control.shown := by
          rw [perform_writeBack]
          rfl
        rw [hcard]
        simp only [written?, writeBack, Selector.Control.writeBack_eq]
        split
        · rename_i hsame
          exact hsame.symm
        · rfl
      | _ => cases ho
    | false =>
      have hnone : c.written? o = none := by
        cases o with
        | writeBack => cases ho
        | _ => rfl
      have hkept := (c.perform_withWritten c.control.written ho).1
      rw [withWritten_self] at hkept
      rw [hnone, hkept]
      rfl

theorem written_after_new {config : Config} {start : Card} (hnew : Card.new config = .ok start)
    (ops : List Operation) :
    (start.after ops).control.written = (start.writings ops).getLast? := by
  have hnone : start.control.written = none := by
    rw [new_eq hnew]
    rfl
  rw [written_after, hnone, Option.or_none]

-- What is shown is written unless it is what has been written.
theorem writeBack_eq_some {c : Card} {v : String} :
    c.writeBack.2 = some v ↔ v = c.control.shown ∧ c.control.written ≠ some v := by
  simp only [writeBack, Selector.Control.writeBack_eq]
  split
  · rename_i hheld
    simp only [reduceCtorEq, false_iff, not_and, Decidable.not_not]
    rintro rfl
    exact hheld
  · rename_i hother
    rw [Option.some.injEq]
    constructor
    · rintro rfl
      exact ⟨rfl, hother⟩
    · rintro ⟨rfl, -⟩
      rfl

-- A pick of what is shown is not taken for one, as long as the request has not expired.
theorem handle_shown {c : Card} (h : c.Rest) {now : Millis}
    (hlive : ∀ r, c.control.request = some r →
      ¬ c.config.timing.requestExpiry < Millis.since now r.start) (answer : Answer) :
    (c.handle answer (.selectActivity c.control.shown) now).2 = none ∧
      (c.handle answer (.selectActivity c.control.shown) now).1.acts = [] := by
  have hends : c.control.ending? c.control.confirmed now = none := by
    rw [h.told]
    rcases h.ending?_eq now with hnone | ⟨r, hr, -, hexpired⟩
    · exact hnone
    · exact absurd hexpired (hlive r hr)
  have hpick := h.settled.pick_shown hends
  rw [h.told] at hpick
  rw [handle]
  cases hoffers : c.offers c.control.shown with
  | false =>
    rw [selectActivity_of_not_offers hoffers]
    exact ⟨rfl, rfl⟩
  | true =>
    have hphase : (c.control.holding c.confirmed now c.control.request c.control.outcome).phase =
        c.control.phase := h.settled.phase.symm
    rw [selectActivity_of_offers hoffers hpick, hphase]
    simp only [List.isEmpty_nil, beq_self_eq_true, Bool.and_self, if_true]
    exact ⟨trivial, trivial⟩

/-- Writing back shows nowhere but in what is written. Two runs that differ only in when it is asked
what to write come to the same views, acts and deadlines. What is written is what is shown, whenever
that is not what was written last. And when it comes back as a pick of the user while it is still
shown, by a request that has not expired or by what is confirmed, nothing happens. -/
theorem writeBack_unseen {config : Config} {start : Card} (hnew : Card.new config = .ok start) :
    (∀ ops ops', withoutWriting ops = withoutWriting ops' →
      start.sightings ops = start.sightings ops' ∧
        (start.after ops).nextDeadline? = (start.after ops').nextDeadline?) ∧
    ∀ ops, let c := start.after ops
      (∀ v, c.writeBack.2 = some v ↔
        v = c.control.shown ∧ (start.writings ops).getLast? ≠ some v) ∧
      (start.writings (ops ++ [.writeBack])).getLast? = some c.control.shown ∧
      ∀ v, c.writeBack.2 = some v → ∀ between, let d := c.writeBack.1.after between
        d.control.shown = v → ∀ now,
          (∀ r, d.control.request = some r →
            ¬ config.timing.requestExpiry < Millis.since now r.start) →
          ∀ answer, (d.handle answer (.selectActivity v) now).2 = none ∧
            (d.handle answer (.selectActivity v) now).1.acts = [] := by
  constructor
  · intro ops ops' hsame
    have hfirst := start.run_withoutWriting none ops
    have hsecond := start.run_withoutWriting none ops'
    rw [hsame] at hfirst
    exact ⟨hfirst.1.symm.trans hsecond.1, hfirst.2.symm.trans hsecond.2⟩
  · intro ops c
    refine ⟨?_, ?_, ?_⟩
    · intro v
      rw [writeBack_eq_some, show c.control.written = _ from written_after_new hnew ops]
    · rw [← written_after_new hnew, after_append]
      show (c.perform .writeBack).card.control.written = some c.control.shown
      rw [perform_writeBack]
      rfl
    · intro v hv between d hshown now hlive answer
      have hd : d = start.after (ops ++ .writeBack :: between) := by
        rw [after_append]
        rfl
      have hrest : d.Rest := by
        rw [hd]
        exact (rest_and_drawn_after hnew _).1
      have hconfig : d.config = config := by
        rw [hd]
        exact config_after hnew _
      rw [← hshown]
      apply handle_shown hrest
      rw [hconfig]
      exact hlive

end Card

namespace Sample

/-- The same as `picked`, with the control written to after every step. -/
def pickedWriting : List Operation :=
  [.updateFrom host (entities "on" "TV" []) 0, .writeBack,
    .handle accepting (.selectActivity "Movie") 1000, .writeBack, .writeBack]

end Sample

namespace Card

open Sample

-- What is asked for is written, and comes back as a pick until the request has expired.
theorem writeBack_unseen_picked :
    let c := (card Sample.config).after picked
    (card Sample.config).sightings picked = (card Sample.config).sightings pickedWriting ∧
      c.writeBack.2 = some "Movie" ∧
      (c.writeBack.1.handle accepting (.selectActivity "Movie") 16000).2 = none := by
  intro c
  rcases writeBack_unseen new_config with ⟨hruns, hwrites⟩
  rcases hwrites picked with ⟨hwritten, -, hback⟩
  have hshown : c.control.shown = "Movie" := by decide +kernel
  have hwritings : (card Sample.config).writings picked = [] := by decide +kernel
  have hmovie : c.writeBack.2 = some "Movie" := by
    rw [hwritten, hwritings]
    exact ⟨hshown.symm, by decide⟩
  have hlive : ∀ r, c.writeBack.1.control.request = some r →
      ¬ Sample.config.timing.requestExpiry < Millis.since 16000 r.start := by
    have hrequest : c.writeBack.1.control.request = some ⟨"Movie", 1000⟩ := by decide +kernel
    rw [hrequest]
    rintro r ⟨rfl⟩
    decide
  refine ⟨(hruns picked pickedWriting rfl).1, hmovie, ?_⟩
  exact (hback "Movie" hmovie [] (by decide +kernel) 16000 hlive accepting).1

end Card

end HubCard
