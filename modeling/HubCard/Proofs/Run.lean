import HubCard.Card.Wake

/-!
Runs of a card: what the dashboard does with it, one operation after another, and the two ways in
which a property is carried through a run.
-/

namespace HubCard

/-- One thing that the dashboard does with a card, with everything that it depends on. -/
inductive Operation where
  | start
  | update (host : Host) (hub : HubReport) (selector : SelectorReport) (now : Millis)
  | updateFrom (host : Host) (entities : Dict Entity) (now : Millis)
  | handle (answer : Answer) (command : Command) (now : Millis)
  | wake (now : Millis)
  | writeBack

namespace Operation

/-- The time that the card is told. -/
def time? : Operation → Option Millis
  | .update _ _ _ now | .updateFrom _ _ now | .handle _ _ now | .wake now => some now
  | .start | .writeBack => none

/-- The reports that the operation brings. -/
def reports? (config : Config) : Operation → Option (HubReport × SelectorReport)
  | .update _ hub selector _ => some (hub, selector)
  | .updateFrom _ entities _ => some (readReports entities config.entity)
  | _ => none

def isUpdate : Operation → Bool
  | .update .. | .updateFrom .. => true
  | _ => false

/-- Whether the operation brings no reports but such as are read off entities. -/
def readsEntities : Operation → Bool
  | .update .. => false
  | _ => true

end Operation

/-- The times that a card is told in a run. -/
def times (ops : List Operation) : List Millis :=
  ops.filterMap Operation.time?

theorem times_cons_of_none {o : Operation} (h : o.time? = none) (ops : List Operation) :
    times (o :: ops) = times ops := by
  simp [times, h]

theorem times_cons_of_some {o : Operation} {t : Millis} (h : o.time? = some t)
    (ops : List Operation) : times (o :: ops) = t :: times ops := by
  simp [times, h]

/-- Time does not run backwards. -/
def InOrder (ops : List Operation) : Prop :=
  (times ops).Pairwise (· ≤ ·)

namespace Card

/-- The card after an operation, and the acts of the operation. -/
def perform (c : Card) : Operation → Pass
  | .start => ⟨c, c.startEvents⟩
  | .update host hub selector now => (c.update host hub selector now).1
  | .updateFrom host entities now => (c.updateFrom host entities now).1
  | .handle answer command now => (c.handle answer command now).1
  | .wake now => (c.wake now).1
  | .writeBack => ⟨c.writeBack.1, []⟩

/-- The view that an operation gives, if it gives one. -/
def given? (c : Card) : Operation → Option View
  | .update host hub selector now => some (c.update host hub selector now).2
  | .updateFrom host entities now => some (c.updateFrom host entities now).2
  | .handle answer command now => (c.handle answer command now).2
  | .wake now => (c.wake now).2
  | .start | .writeBack => none

/-- The card after a run. -/
def after (c : Card) (ops : List Operation) : Card :=
  ops.foldl (fun c o => (c.perform o).card) c

/-- The acts of a run. -/
def actsOver (c : Card) : List Operation → List Act
  | [] => []
  | o :: ops => (c.perform o).acts ++ (c.perform o).card.actsOver ops

@[simp] theorem after_cons (c : Card) (o : Operation) (ops : List Operation) :
    c.after (o :: ops) = (c.perform o).card.after ops := rfl

theorem after_append (c : Card) (ops more : List Operation) :
    c.after (ops ++ more) = (c.after ops).after more :=
  List.foldl_append

theorem actsOver_append (c : Card) (ops more : List Operation) :
    c.actsOver (ops ++ more) = c.actsOver ops ++ (c.after ops).actsOver more := by
  induction ops generalizing c with
  | nil => rfl
  | cons o ops ih => rw [List.cons_append, actsOver, actsOver, ih, List.append_assoc, after_cons]

/-- What every operation of a kind keeps, every run of such operations keeps. -/
theorem after_induction (ok : Operation → Prop) (Inv : Card → Prop)
    (hstep : ∀ c o, ok o → Inv c → Inv (c.perform o).card) {c : Card} (h : Inv c)
    {ops : List Operation} (hok : ∀ o ∈ ops, ok o) : Inv (c.after ops) := by
  induction ops generalizing c with
  | nil => exact h
  | cons o ops ih =>
    rw [after_cons]
    apply ih
    · exact hstep c o (hok o List.mem_cons_self) h
    · exact fun o' ho' => hok o' (List.mem_cons_of_mem o ho')

/-- The same for a property of the card at a time, which keeps as the time goes on. -/
theorem after_induction_timed (Inv : Millis → Card → Prop)
    (hmono : ∀ s t c, s ≤ t → Inv s c → Inv t c)
    (hstep : ∀ s c o, (∀ t, o.time? = some t → s ≤ t) → Inv s c →
      Inv (o.time?.getD s) (c.perform o).card)
    {c : Card} {s now : Millis} (h : Inv s c) {ops : List Operation} (horder : InOrder ops)
    (hfirst : ∀ t ∈ times ops, s ≤ t) (hnow : s ≤ now) (hlast : ∀ t ∈ times ops, t ≤ now) :
    Inv now (c.after ops) := by
  induction ops generalizing c s with
  | nil => exact hmono s now c hnow h
  | cons o ops ih =>
    rw [after_cons]
    cases ht : o.time? with
    | none =>
      rw [times_cons_of_none ht] at hfirst hlast
      rw [InOrder, times_cons_of_none ht] at horder
      have hone := hstep s c o (by simp [ht]) h
      rw [ht] at hone
      exact ih hone horder hfirst hnow hlast
    | some t =>
      rw [times_cons_of_some ht] at hfirst hlast
      rw [InOrder, times_cons_of_some ht, List.pairwise_cons] at horder
      have hle : ∀ t', o.time? = some t' → s ≤ t' := by
        intro t' ht'
        rw [ht, Option.some.injEq] at ht'
        rw [← ht']
        exact hfirst t List.mem_cons_self
      have hone := hstep s c o hle h
      rw [ht] at hone
      exact ih hone horder.2 horder.1 (hlast t List.mem_cons_self)
        fun t' ht' => hlast t' (List.mem_cons_of_mem t ht')

end Card

/-! ## A run to look at -/

namespace Sample

def config : Config := .ofEntity "remote.hub"

def accepting : Answer := fun _ => none

def host : Host := ⟨.empty, false, accepting⟩

/-- A hub in a state, with some more attributes, and its selector with three activities. -/
def entities (state value : String) (attributes : List (String × Json)) : Dict Entity :=
  .ofList
    [("remote.hub", ⟨"remote.hub", state, .ofList
        (("activity_select_entity_id", .str "select.hub") :: attributes)⟩),
      ("select.hub", ⟨"select.hub", value, .ofList [("options", .texts ["TV", "Movie", "Radio"])]⟩)]

/-- A card that has not been told anything. -/
def card (config : Config) : Card where
  config
  control := .new config.timing.requestExpiry
  busy := .new config.timing
  timers := .empty
  painter := .new
  hub := .missing
  selector := .missing
  gating := .initial
  confirmed := ""
  lastView := none

theorem new_config : Card.new config = .ok (card config) := rfl

/-- The hub is at one activity. -/
def heard : List Operation :=
  [.updateFrom host (entities "on" "TV" []) 0]

/-- Then the user picks another one. -/
def picked : List Operation :=
  heard ++ [.handle accepting (.selectActivity "Movie") 1000]

end Sample

end HubCard
