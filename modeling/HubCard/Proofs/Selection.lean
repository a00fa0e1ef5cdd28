import HubCard.Proofs.Invariants

/-!
When the hub is asked for an activity: once on a pick of the user that is on offer and not shown
already, and at no other time. The card never reacts to what it hears or shows by asking again.
-/

namespace HubCard

namespace Act

/-- The requests among a list of acts: the selector that is asked, and the option. -/
def selections (acts : List Act) : List (String × String) :=
  acts.filterMap fun
    | .call (.selectOption id option) _ => some (id, option)
    | _ => none

/-- What the card would report of a request while no selector is known. -/
def unaddressed : Act :=
  .event (.callFailed "select.select_option" "no activity selector entity")

@[simp] theorem selections_append (acts more : List Act) :
    selections (acts ++ more) = selections acts ++ selections more :=
  List.filterMap_append

theorem selections_eq_nil {acts : List Act} (h : Spare .selection acts) : selections acts = [] := by
  apply h.filterMap_eq_nil
  intro a htopic
  split
  · exact absurd rfl htopic
  · rfl

theorem unaddressed_not_mem {acts : List Act} (h : Spare .selection acts) : unaddressed ∉ acts :=
  fun ha => h unaddressed ha rfl

theorem selections_ofAction (answer : Answer) (id option : String) :
    selections (ofAction answer (some id) (.selectOption option)) = [(id, option)] := by
  have hcall : selections (ofCall answer (.selectOption id option)) = [(id, option)] := by
    unfold ofCall
    cases answer (.selectOption id option) <;> rfl
  simp only [ofAction, selections_append, hcall]
  rfl

-- The end of a request makes no call and reports nothing by itself.
theorem ofAction_outcome (answer : Answer) (selectorId : Option String)
    (ended : Option Selector.Outcome) :
    (Selector.Outcome.actions ended).flatMap (ofAction answer selectorId) = [] := by
  rcases ended with _ | ⟨_⟩ | ⟨_⟩ <;> rfl

end Act

-- Every message of a refusal has a colon.
theorem CallError.colon_mem_message (e : CallError) : ':' ∈ e.message.toList := by
  cases e with
  | rejected service reason =>
    have hmark : ':' ∈ " rejected: ".toList := by decide +kernel
    change ':' ∈ (service ++ " rejected: " ++ reason).toList
    rw [String.toList_append, String.toList_append]
    exact List.mem_append_left _ (List.mem_append_right _ hmark)
  | unavailable reason =>
    have hmark : ':' ∈ "service unavailable: ".toList := by decide +kernel
    change ':' ∈ ("service unavailable: " ++ reason).toList
    rw [String.toList_append]
    exact List.mem_append_left _ hmark

theorem CallError.message_ne (e : CallError) : e.message ≠ "no activity selector entity" := by
  have hplain : ':' ∉ "no activity selector entity".toList := by decide +kernel
  intro he
  rw [← he] at hplain
  exact hplain e.colon_mem_message

namespace Act

theorem unaddressed_not_mem_ofCall (answer : Answer) (c : Call) :
    unaddressed ∉ ofCall answer c := by
  unfold ofCall unaddressed
  cases answer c with
  | none => simp
  | some e => simp [e.message_ne.symm]

theorem unaddressed_not_mem_ofAction (answer : Answer) (id : String) (a : Selector.Action) :
    unaddressed ∉ ofAction answer (some id) a := by
  cases a with
  | selectOption option =>
    have hcall := unaddressed_not_mem_ofCall answer (.selectOption id option)
    simp only [ofAction, List.mem_append, not_or]
    exact ⟨hcall, by simp [unaddressed]⟩
  | startLoading target => simp [ofAction]
  | stopLoading => simp [ofAction]

end Act

namespace Card

/-! ## Outside picks -/

variable {c : Card}

-- A settling never asks the hub for anything.
theorem selectOption_not_mem_settle (h : c.Rest) (confirmed option : String) (now : Millis) :
    .selectOption option ∉ (c.control.settle confirmed now).2 := by
  rw [Selector.Control.settle_eq h.settled.toReady]
  rcases c.control.ending? confirmed now with _ | ⟨_⟩ | ⟨_⟩ <;> simp [Selector.Outcome.actions]

theorem settling_acts (h : c.Rest) (answer : Answer) (selectorId : Option String)
    (hub : HubReport) (selector : SelectorReport) (now : Millis) :
    (c.settling hub selector now).2.flatMap (Act.ofAction answer selectorId) = [] := by
  rw [settling, Selector.Control.settle_eq h.settled.toReady]
  exact Act.ofAction_outcome answer selectorId _

-- Nothing but a pick is about a selection.
theorem spare_selection_perform (h : c.Rest) {o : Operation}
    (hpick : ∀ answer option now, o ≠ .handle answer (.selectActivity option) now) :
    Act.Spare .selection (c.perform o).acts := by
  have hturn := c.turn o
  generalize c.perform o = p at hturn ⊢
  cases hturn with
  | start => simp [startEvents, Act.topic]
  | skipped => simp [Act.topic]
  | writeBack => simp
  | updated => simp [updateActs, settling_acts h]
  | pressed => simp [pressActs]
  | woken | undisturbed => simp [wakeActs]
  | ignored _ answer now => exact absurd rfl (hpick answer _ now)
  | still _ _ _ answer => exact absurd rfl (hpick answer _ _)
  | stirred _ _ _ answer => exact absurd rfl (hpick answer _ _)

/-! ## Picks -/

/-- What the card shows in its selector at a time. -/
def shownAt (c : Card) (now : Millis) : String :=
  match c.control.request with
  | some r =>
    if Millis.since now r.start ≤ c.config.timing.requestExpiry then r.value else c.confirmed
  | none => c.confirmed

theorem shownAt_eq (h : c.Rest) (now : Millis) :
    c.shownAt now = c.control.shownAt c.confirmed now := by
  unfold shownAt Selector.Control.shownAt
  cases c.control.request with
  | none => rfl
  | some r =>
    simp only [h.expiry, ← UInt64.not_le]
    split <;> simp [*]

/-- The last view lets the user pick an option, and the card does not show it at the moment. -/
def Open (c : Card) (option : String) (now : Millis) : Prop :=
  ∃ v, c.lastView = some v ∧ v.selector.visible = true ∧ v.selector.enabled = true ∧
    (v.selector.options = [] ∨ option ∈ v.selector.options) ∧ option ≠ c.shownAt now

theorem offers_iff (h : c.Drawn) {option : String} :
    c.offers option = true ↔
      ∃ v, c.lastView = some v ∧ v.selector.visible = true ∧ v.selector.enabled = true ∧
        (v.selector.options = [] ∨ option ∈ v.selector.options) := by
  have hview : c.offers option = true ↔ c.view.selector.visible = true ∧
      c.view.selector.enabled = true ∧
        (c.view.selector.options = [] ∨ option ∈ c.view.selector.options) := by
    simp [offers, selectorEnabled, view, View.compose, and_assoc]
  rw [hview]
  constructor
  · intro hoffers
    cases hlast : c.lastView with
    | none =>
      -- before the first view there is no selector to pick from
      rcases h.first hlast with ⟨hhub, hselector, -⟩
      have hmissing : c.view.selector.enabled = false := by
        simp only [view, View.compose, hhub, hselector]
        rfl
      rw [hmissing] at hoffers
      exact absurd hoffers.2.1 Bool.false_ne_true
    | some v =>
      rw [← h.last v hlast] at hoffers
      exact ⟨v, rfl, hoffers⟩
  · rintro ⟨v, hlast, hoffers⟩
    rw [h.last v hlast] at hoffers
    exact hoffers

-- What the machine makes of a pick: a request, unless the option is shown already.
theorem pick_acts (h : c.Rest) (answer : Answer) (selectorId : Option String) (option : String)
    (now : Millis) :
    (c.control.pick option c.confirmed now).2.flatMap (Act.ofAction answer selectorId) =
      if option = c.shownAt now then [] else Act.ofAction answer selectorId (.selectOption option) := by
  have hload : ∀ rest : List Selector.Action, rest.flatMap (Act.ofAction answer selectorId) = [] →
      (.selectOption option :: .startLoading option :: rest : List Selector.Action).flatMap
        (Act.ofAction answer selectorId) =
          Act.ofAction answer selectorId (.selectOption option) := by
    intro rest hrest
    rw [List.flatMap_cons, List.flatMap_cons, hrest]
    exact List.append_nil _
  rw [shownAt_eq h]
  rcases Selector.Control.pick_cases h.settled.toReady option c.confirmed now with
    ⟨hshown, hpick⟩ | ⟨hshown, -, hpick⟩ | ⟨hshown, -, hpick⟩
  · rw [if_pos hshown, hpick, h.settle_actions]
    rfl
  · rw [if_neg hshown, hpick]
    exact hload [.stopLoading] rfl
  · rw [if_neg hshown, hpick, List.flatMap_append, Act.ofAction_outcome, List.nil_append]
    exact hload [] rfl

theorem selections_pick (h : c.Rest) (answer : Answer) (id option : String) (now : Millis) :
    Act.selections ((c.control.pick option c.confirmed now).2.flatMap
        (Act.ofAction answer (some id))) =
      if option = c.shownAt now then [] else [(id, option)] := by
  rw [pick_acts h]
  split
  · rfl
  · exact Act.selections_ofAction answer id option

-- Whether or not a selector is known, a pick of what is shown asks for nothing.
theorem pick_actions_of_shown (h : c.Rest) {option : String} {now : Millis}
    (hshown : option = c.shownAt now) : (c.control.pick option c.confirmed now).2 = [] := by
  rw [shownAt_eq h] at hshown
  rw [Selector.Control.pick_of_shown h.settled.toReady hshown, h.settle_actions]

theorem selections_of_open (h : c.Rest) (hdrawn : c.Drawn) {option id : String} {now : Millis}
    (hopen : c.Open option now) (hid : c.hub.selectorId = some id) (answer : Answer) :
    Act.selections (c.perform (.handle answer (.selectActivity option) now)).acts =
      [(id, option)] := by
  rcases hopen with ⟨v, hlast, hvisible, henabled, hlisted, hnew⟩
  have hoffers : c.offers option = true :=
    (offers_iff hdrawn).mpr ⟨v, hlast, hvisible, henabled, hlisted⟩
  have hasked := selections_pick h answer id option now
  rw [if_neg hnew] at hasked
  have hturn := c.turn (.handle answer (.selectActivity option) now)
  generalize c.perform (.handle answer (.selectActivity option) now) = p at hturn ⊢
  cases hturn with
  | ignored hnot =>
    rw [hoffers] at hnot
    cases hnot
  | still _ hpick =>
    rw [hpick] at hasked
    cases hasked
  | stirred _ hpick =>
    rw [hpick] at hasked
    rw [pickActs, hid, List.append_assoc, Act.selections_append, hasked,
      Act.selections_eq_nil (by simp)]
    rfl
  | skipped hpress => exact absurd rfl (hpress option)
  | pressed hpress => exact absurd rfl (hpress option)
  | updated host hreports => cases hreports

theorem selections_of_not_open (h : c.Rest) (hdrawn : c.Drawn) {option : String} {now : Millis}
    (hclosed : ¬ c.Open option now) (answer : Answer) :
    Act.selections (c.perform (.handle answer (.selectActivity option) now)).acts = [] := by
  have hturn := c.turn (.handle answer (.selectActivity option) now)
  generalize c.perform (.handle answer (.selectActivity option) now) = p at hturn ⊢
  cases hturn with
  | ignored | still => rfl
  | @stirred _ _ control actions hoffers hpick =>
    have hshown : option = c.shownAt now := by
      apply Decidable.byContradiction
      intro hnew
      rcases (offers_iff hdrawn).mp hoffers with ⟨v, hlast, hvisible, henabled, hlisted⟩
      exact hclosed ⟨v, hlast, hvisible, henabled, hlisted, hnew⟩
    have hnone := pick_actions_of_shown h hshown
    rw [hpick] at hnone
    have hactions : actions = [] := hnone
    exact Act.selections_eq_nil (by simp [pickActs, hactions])
  | skipped hpress => exact absurd rfl (hpress option)
  | pressed hpress => exact absurd rfl (hpress option)
  | updated host hreports => cases hreports

/-! ## The selector that is asked -/

/-- A selector that can be used is one that the hub has named. -/
def Addressed (c : Card) : Prop :=
  c.selector.availability = .available → ∃ id, c.hub.selectorId = some id

theorem readReports_addressed (entities : Dict Entity) (hubId : String)
    (h : (readReports entities hubId).2.availability = .available) :
    ∃ id, (readReports entities hubId).1.selectorId = some id := by
  unfold readReports at h ⊢
  dsimp only at h ⊢
  cases hid : (HubReport.ofEntity? (entities.get? hubId)).selectorId with
  | none =>
    rw [hid] at h
    cases h
  | some id => exact ⟨id, rfl⟩

theorem Addressed.perform (h : c.Addressed) {o : Operation} (hreads : o.readsEntities = true) :
    (c.perform o).card.Addressed := by
  have hreports := c.reports_perform o
  unfold Addressed
  cases ho : o.reports? c.config with
  | none =>
    rw [ho, Option.getD_none, Prod.mk.injEq] at hreports
    rw [hreports.1, hreports.2]
    exact h
  | some reports =>
    rw [ho, Option.getD_some] at hreports
    cases o with
    | updateFrom host entities now =>
      rw [Operation.reports?, Option.some.injEq] at ho
      rw [← ho, Prod.mk.injEq] at hreports
      rw [hreports.1, hreports.2]
      exact readReports_addressed entities c.config.entity
    | update => cases hreads
    | start | handle | wake | writeBack => cases ho

-- A pick is only listened to while the selector can be used, and then the hub has named it.
theorem Addressed.of_offers (h : c.Addressed) {option : String} (hoffers : c.offers option = true) :
    ∃ id, c.hub.selectorId = some id := by
  rw [offers, selectorEnabled, View.selectorUsable] at hoffers
  simp only [Bool.and_eq_true, beq_iff_eq] at hoffers
  exact h hoffers.1.2.1

theorem Addressed.unaddressed_not_mem (haddressed : c.Addressed) (h : c.Rest) (o : Operation) :
    Act.unaddressed ∉ (c.perform o).acts := by
  have hother : (∀ answer option now, o ≠ .handle answer (.selectActivity option) now) →
      Act.unaddressed ∉ (c.perform o).acts :=
    fun hpick => Act.unaddressed_not_mem (spare_selection_perform h hpick)
  cases o with
  | handle answer command now =>
    cases command with
    | pressButton | pressShortcut => exact hother (by simp)
    | selectActivity option =>
      clear hother
      have hturn := c.turn (.handle answer (.selectActivity option) now)
      generalize c.perform (.handle answer (.selectActivity option) now) = p at hturn ⊢
      cases hturn with
      | ignored | still => simp
      | @stirred _ _ control actions hoffers =>
        rcases haddressed.of_offers hoffers with ⟨id, hid⟩
        have hreports : Act.unaddressed ∉ Act.ofOutcome control ++
            Act.ofLight ((c.pickLamp actions now).busy.refresh now).2 :=
          Act.unaddressed_not_mem (by simp)
        rw [pickActs, hid, List.append_assoc, List.mem_append, not_or]
        refine ⟨?_, hreports⟩
        rw [List.mem_flatMap]
        rintro ⟨a, -, ha⟩
        exact Act.unaddressed_not_mem_ofAction answer id a ha
      | skipped hpress | pressed hpress => exact absurd rfl (hpress option)
      | updated host hreports => cases hreports
  | start | update | updateFrom | wake | writeBack => exact hother (by simp)

/-! ## After a run -/

theorem addressed_after {config : Config} {start : Card} (hnew : Card.new config = .ok start)
    {ops : List Operation} (hreads : ∀ o ∈ ops, o.readsEntities = true) :
    (start.after ops).Addressed := by
  apply after_induction (·.readsEntities = true) Addressed
  · intro c o ho hc
    exact hc.perform ho
  · rw [new_eq hnew]
    intro havailable
    cases havailable
  · exact hreads

/-- After any run over entities the hub is asked for an activity by a pick alone. A pick asks once,
through the selector that the last reports have named, exactly when the last view is open to it; the
card is never at a loss for the selector, and a waking never has to leave out a request. -/
theorem selections_exact {config : Config} {start : Card} (hnew : Card.new config = .ok start)
    {ops : List Operation} (hreads : ∀ o ∈ ops, o.readsEntities = true) :
    let c := start.after ops
    (∀ o, (∀ answer option now, o ≠ .handle answer (.selectActivity option) now) →
        Act.selections (c.perform o).acts = []) ∧
      (∀ answer option now, c.Open option now →
        ∃ id, (latest config ops).1.selectorId = some id ∧
          Act.selections (c.perform (.handle answer (.selectActivity option) now)).acts =
            [(id, option)]) ∧
      (∀ answer option now, ¬ c.Open option now →
        Act.selections (c.perform (.handle answer (.selectActivity option) now)).acts = []) ∧
      (∀ o, Act.unaddressed ∉ (c.perform o).acts) ∧
      ∀ now option, .selectOption option ∉ ((c.fireTimers now).1.settle now).2 := by
  intro c
  have hrest : c.Rest := (rest_and_drawn_after hnew ops).1
  have hdrawn : c.Drawn := (rest_and_drawn_after hnew ops).2
  have haddressed : c.Addressed := addressed_after hnew hreads
  refine ⟨?_, ?_, ?_, haddressed.unaddressed_not_mem hrest, ?_⟩
  · intro o hpick
    exact Act.selections_eq_nil (spare_selection_perform hrest hpick)
  · intro answer option now hopen
    have husable : c.selector.availability = .available := by
      rcases hopen with ⟨v, hlast, -, henabled, -, -⟩
      rw [hdrawn.last v hlast] at henabled
      simp only [view, View.compose, View.selectorUsable, Bool.and_eq_true, beq_iff_eq] at henabled
      exact henabled.1
    rcases haddressed husable with ⟨id, hid⟩
    refine ⟨id, ?_, selections_of_open hrest hdrawn hopen hid answer⟩
    rw [← (reports_eq_latest hnew ops).1]
    exact hid
  · intro answer option now hclosed
    exact selections_of_not_open hrest hdrawn hclosed answer
  · intro now option
    rw [fireTimers_eq]
    exact selectOption_not_mem_settle hrest c.confirmed option now

open Sample

theorem selections_exact_heard :
    ∃ id, Act.selections (((card Sample.config).after heard).perform
      (.handle accepting (.selectActivity "Movie") 1000)).acts = [(id, "Movie")] := by
  have hreads : ∀ o ∈ heard, o.readsEntities = true := by simp [heard, Operation.readsEntities]
  have hopen : ((card Sample.config).after heard).Open "Movie" 1000 := by
    refine ⟨((card Sample.config).after heard).view, ?_, ?_, ?_, .inr ?_, ?_⟩ <;> decide +kernel
  obtain ⟨id, -, hasked⟩ :=
    (selections_exact new_config hreads).2.1 accepting "Movie" 1000 hopen
  exact ⟨id, hasked⟩

end Card

end HubCard
