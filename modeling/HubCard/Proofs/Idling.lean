import HubCard.Proofs.Numbers
import HubCard.Proofs.Repetition
import HubCard.Proofs.Replay
import HubCard.Proofs.WriteBack

/-!
Lines that say nothing but the time. They have the card woken sooner, and written back to once more,
and neither can be told from what comes out. To be woken up to one time and then up to another is to be
woken up to the other: the card takes note of the first time at its own deadlines only.
-/

namespace HubCard

namespace Card

theorem steady_after {c : Card} (h : c.Rest) (hwired : c.Wired) (ops : List Operation) :
    (c.after ops).Rest ∧ (c.after ops).Wired := by
  apply after_induction (fun _ => True) (fun c => c.Rest ∧ c.Wired)
  · exact fun c o _ hc => ⟨hc.1.perform o, hc.2.perform o⟩
  · exact ⟨h, hwired⟩
  · exact fun _ _ => trivial

/-! ## Woken in two goes -/

theorem idle_woken {c : Card} (h : c.Rest) (hwired : c.Wired) (now : Millis) :
    (c.wake now).1.card.Idle now := by
  have hrest : (c.wake now).1.card.Rest := h.perform (.wake now)
  have hquiet : (c.wake now).1.card.busy.timedOut = none := (hwired.perform (.wake now)).quiet
  have hpast := past_wake h now
  rcases woken_frame h now with ⟨-, -, hlamp, -⟩
  generalize (c.wake now).1.card = d at hrest hquiet hpast hlamp ⊢
  refine ⟨hpast.timers, ?_, hquiet, ?_⟩
  · rw [Selector.Control.ending?_eq_none_iff, hrest.expiry]
    intro r hr
    exact ⟨(hrest.confirmed_ne hr).symm, hpast.request r hr⟩
  · rw [hlamp]
    exact Lamp.refresh_again _ now

-- A waking leaves nothing for another one at the same time.
theorem wake_again {c : Card} (h : c.Rest) (hwired : c.Wired) (now : Millis) :
    (c.wake now).1.card.wake now = (⟨(c.wake now).1.card, []⟩, none) := by
  have hrest : (c.wake now).1.card.Rest := h.perform (.wake now)
  have hidle := idle_woken h hwired now
  rcases woken_frame h now with ⟨hconfirmed, hcontrol, -, -⟩
  generalize (c.wake now).1.card = d at hrest hidle hconfirmed hcontrol
  have hsame : d.control.holding d.confirmed now d.control.request none = d.control := by
    rw [hconfirmed, hcontrol]
    rfl
  rw [wake_idle hrest hidle, hsame]
  rfl

/-- Whether there is anything to be seen of a waking. -/
def Waking.isLoud (w : Waking) : Bool :=
  !w.acts.isEmpty || w.view.isSome

theorem Waking.isLoud_eq_false {w : Waking} :
    w.isLoud = false ↔ w.acts = [] ∧ w.view = none := by
  simp [isLoud]

def loud (wakings : List Waking) : List Waking :=
  wakings.filter Waking.isLoud

@[simp] theorem loud_append (wakings more : List Waking) :
    loud (wakings ++ more) = loud wakings ++ loud more :=
  List.filter_append ..

-- What silent wakings add nothing to is the same without them.
theorem flatMap_loud {α : Type} {read : Waking → List α}
    (hread : ∀ w, w.acts = [] → w.view = none → read w = []) (wakings : List Waking) :
    (loud wakings).flatMap read = wakings.flatMap read := by
  induction wakings with
  | nil => rfl
  | cons w wakings ih =>
    rw [loud, List.filter_cons]
    split
    · rw [List.flatMap_cons, List.flatMap_cons]
      exact congrArg _ ih
    · rename_i hsilent
      rw [Bool.not_eq_true, Waking.isLoud_eq_false] at hsilent
      rw [List.flatMap_cons, hread w hsilent.1 hsilent.2, List.nil_append]
      exact ih

theorem flatMap_eq_of_loud {α : Type} {read : Waking → List α}
    (hread : ∀ w, w.acts = [] → w.view = none → read w = []) {wakings wakings' : List Waking}
    (h : loud wakings = loud wakings') : wakings.flatMap read = wakings'.flatMap read := by
  rw [← flatMap_loud hread, h, flatMap_loud hread]

/-- To wake the card once more at the deadline that it has been left with does nothing. -/
def Spent (c : Card) (last : Option Millis) : Prop :=
  ∀ d, last = some d → c.nextDeadline? = some d → c.wake d = (⟨c, []⟩, none)

theorem spent_none (c : Card) : c.Spent none :=
  fun _ h => by cases h

theorem spent_wake {c : Card} (h : c.Rest) (hwired : c.Wired) (now : Millis) :
    (c.wake now).1.card.Spent (some now) := by
  rintro d ⟨rfl⟩ -
  exact wake_again h hwired now

-- So it makes no difference whether the card is spared that.
theorem wakeUntil_restart {c : Card} {last : Option Millis} (hspent : c.Spent last)
    (limit : Millis) :
    (c.wakeUntil limit none).1 = (c.wakeUntil limit last).1 ∧
      loud (c.wakeUntil limit none).2 = loud (c.wakeUntil limit last).2 := by
  by_cases hstop : ∃ d, c.nextDeadline? = some d ∧ d ≤ limit
  · rcases hstop with ⟨d, hnext, hle⟩
    have hfirst : c.wakeUntil limit none = _ := wakeUntil_of_due hnext ⟨hle, nofun⟩
    by_cases hlast : last = some d
    · rw [hspent d hlast hnext] at hfirst
      rw [hfirst, hlast]
      exact ⟨rfl, rfl⟩
    · rw [hfirst, wakeUntil_of_due hnext ⟨hle, hlast⟩]
      exact ⟨rfl, rfl⟩
  · have hnone : ∀ last : Option Millis, ∀ d, c.nextDeadline? = some d →
        ¬ (d ≤ limit ∧ last ≠ some d) :=
      fun last d hnext hdue => hstop ⟨d, hnext, hdue.1⟩
    rw [wakeUntil_of_not_due (hnone none), wakeUntil_of_not_due (hnone last)]
    exact ⟨rfl, rfl⟩

theorem wakeUntil_wakeUntil {c : Card} (h : c.Rest) (hwired : c.Wired) {first limit : Millis}
    (hle : first ≤ limit) {last : Option Millis} (hspent : c.Spent last) :
    ((c.wakeUntil first last).1.wakeUntil limit none).1 = (c.wakeUntil limit last).1 ∧
      loud ((c.wakeUntil first last).2 ++ ((c.wakeUntil first last).1.wakeUntil limit none).2) =
        loud (c.wakeUntil limit last).2 := by
  induction c, last using wakeUntil_induction first with
  | not_due c last hnone =>
    rw [wakeUntil_of_not_due hnone]
    exact wakeUntil_restart hspent limit
  | due c last d hnext hdue ih =>
    rw [wakeUntil_of_due hnext hdue, wakeUntil_of_due hnext ⟨UInt64.le_trans hdue.1 hle, hdue.2⟩]
    rcases ih (h.perform (.wake d)) (hwired.perform (.wake d)) (spent_wake h hwired d) with
      ⟨hcard, hloud⟩
    refine ⟨hcard, ?_⟩
    rw [List.cons_append, loud, loud, List.filter_cons, List.filter_cons]
    rw [show List.filter _ _ = _ from hloud]
    rfl

theorem wakeUntil_withWritten (c : Card) (written : Option String) (limit : Millis)
    (last : Option Millis) :
    (c.withWritten written).wakeUntil limit last =
      ((c.wakeUntil limit last).1.withWritten written, (c.wakeUntil limit last).2) := by
  induction c, last using wakeUntil_induction limit with
  | not_due c last hnone =>
    rw [wakeUntil_of_not_due hnone, wakeUntil_of_not_due (c := c.withWritten written) hnone]
  | due c last d hnext hdue ih =>
    have hwake := c.wake_withWritten written d
    have hcard : ((c.withWritten written).wake d).1.card = (c.wake d).1.card.withWritten written := by
      rw [hwake]
      rfl
    rw [wakeUntil_of_due hnext hdue, wakeUntil_of_due (c := c.withWritten written) hnext hdue, hcard,
      ih, hwake]
    rfl

-- What has been written does not show in the acts of a run.
theorem actsOver_withWritten (c : Card) (written : Option String) (ops : List Operation) :
    (c.withWritten written).actsOver ops = c.actsOver ops := by
  rw [actsOver_eq_sightings, actsOver_eq_sightings, sightings_withWritten]

/-- What is done in a list of wakings. -/
def wakingActs (wakings : List Waking) : List Act :=
  wakings.flatMap (·.acts)

theorem wakingActs_append (wakings more : List Waking) :
    wakingActs (wakings ++ more) = wakingActs wakings ++ wakingActs more :=
  List.flatMap_append

theorem Prompt.actsOver_eq {s : Millis} {c left : Card} {wakings : List Waking}
    (h : Prompt s c wakings left) :
    c.actsOver (wakings.map fun w => .wake w.time) = wakingActs wakings := by
  induction h with
  | none => rfl
  | next _ _ _ ih =>
    rw [List.map_cons, actsOver, wakingActs, List.flatMap_cons]
    exact congrArg _ ih

end Card

/-! ## Up to what has been written -/

namespace Dashboard

/-- The same dashboard, with something else written to the selector control of its card. -/
def withWritten (d : Dashboard) (written : Option String) : Dashboard :=
  { d with card := d.card.withWritten written }

variable (d : Dashboard) (written : Option String)

@[simp] theorem withWritten_frame :
    (d.withWritten written).card = d.card.withWritten written ∧
      (d.withWritten written).host = d.host ∧ (d.withWritten written).answer = d.answer :=
  ⟨rfl, rfl, rfl⟩

theorem absorb_withWritten (p : Pass) :
    (d.withWritten written).absorb (p.withWritten written) = (d.absorb p).withWritten written := rfl

theorem updateFrom_withWritten (entities : Dict Entity) (now : Millis) :
    (d.withWritten written).updateFrom entities now =
      ((d.updateFrom entities now).1.withWritten written, (d.updateFrom entities now).2) := by
  simp only [updateFrom, Card.updateFrom, withWritten_frame, Card.withWritten_frame,
    Card.update_withWritten, absorb_withWritten]
  rfl

theorem handle_withWritten (command : Command) (now : Millis) :
    (d.withWritten written).handle command now =
      ((d.handle command now).1.withWritten written, (d.handle command now).2) := by
  simp only [handle, withWritten_frame, Card.handle_withWritten, absorb_withWritten]
  rfl

theorem writeBack_eq : d.writeBack.1 = d.withWritten (some d.card.control.shown) := by
  simp only [writeBack, Card.writeBack, Selector.Control.writeBack_eq]
  rfl

end Dashboard

namespace Script

/-- The step that says nothing but the time. -/
def Step.idle (time : Millis) : Step :=
  ⟨time, none, none, none, none⟩

/-! ## Its text -/

/-- The step as a line. -/
def idleLine (time : Millis) : String :=
  "\x7b\"at\": " ++ Numeral.natText time.toNat ++ "\x7d"

theorem toList_idleLine (time : Millis) :
    (idleLine time).toList =
      '\x7b' :: '"' :: 'a' :: 't' :: '"' :: ':' :: ' ' ::
        (Nat.toDigits 10 time.toNat ++ ['\x7d']) := by
  simp [idleLine, Numeral.natText]

theorem ofText_idleLine (time : Millis) :
    Step.decoder.ofText (idleLine time) = .ok (.idle time) := by
  have hopen : ∀ s, Json.head ('\x7b' :: s) = .ok (.object, s) := fun _ => rfl
  have hdepth : Json.enter Json.maxDepth = .ok 126 := rfl
  have hkey : ∀ s, Json.nextKey true ('"' :: 'a' :: 't' :: '"' :: s) = .ok (some "at", s) :=
    fun _ => rfl
  have hcolon : ∀ s, Json.colon (':' :: s) = .ok s := fun _ => rfl
  have hfield : Step.record.field? "at" =
      some (Json.Field.require (Json.Decoder.word64.field "at" fun time s => { s with time })) := rfl
  have hbrace : Json.EndsNumber ['\x7d'] := by
    rintro c ⟨rfl⟩
    decide
  have htime : Json.Decoder.word64.read 126 (' ' :: (Nat.toDigits 10 time.toNat ++ ['\x7d'])) =
      .ok (time, ['\x7d']) := by
    rw [Json.read_word64_space, Json.read_word64 time hbrace]
  have hclose : Json.nextKey false ['\x7d'] = .ok (none, []) := rfl
  have hput : ({ Step.record.blank with time } : Step) = .idle time := rfl
  have hdone : Step.record.finish ["at"] (.idle time) = .ok (.idle time) := rfl
  unfold Json.Decoder.ofText Step.decoder Json.Record.decoder
  rw [toList_idleLine]
  -- the one member, and then the end of the object
  simp only [hopen, bind, Except.bind, hdepth, List.length_cons]
  rw [Json.Record.readMembers]
  simp only [hkey, bind, Except.bind, hfield, List.contains_nil, Bool.false_eq_true, if_false, hcolon,
    Json.Field.require, Json.Decoder.field, htime, Except.map]
  rw [Json.Record.readMembers]
  simp only [hclose, bind, Except.bind]
  rw [hput, hdone]
  rfl

theorem step?_idleLine (time : Millis) : step? (idleLine time) = some (.idle time) := by
  have hcomment : isComment (idleLine time) = false := by
    rw [isComment, toList_idleLine, Text.trimStart_cons_of_not_blank (by decide)]
    rfl
  rw [step?, hcomment, ofText_idleLine]
  rfl

namespace Replay

/-- The same replay, with something else written to the selector control. -/
def withWritten (r : Replay) (written : Option String) : Replay :=
  { r with dashboard := r.dashboard.withWritten written }

section Written

variable (r : Replay) (written : Option String) (s : Step)

theorem wokenAt_withWritten (time : Millis) :
    (r.withWritten written).wokenAt time = (r.wokenAt time).withWritten written := by
  simp only [wokenAt, wakeUntil, withWritten, Dashboard.withWritten, Card.wakeUntil_withWritten]

theorem wakings_withWritten (limit : Millis) :
    (r.withWritten written).wakings limit = r.wakings limit := by
  simp only [wakings, withWritten, Dashboard.withWritten, Card.wakeUntil_withWritten]

theorem switched_withWritten :
    ((r.withWritten written).switchHub s).1.switchMode s =
        ((r.switchHub s).1.switchMode s).withWritten written ∧
      ((r.withWritten written).switchHub s).2 = (r.switchHub s).2 := by
  unfold switchHub switchMode
  cases s.offline <;> cases s.dark <;> exact ⟨rfl, rfl⟩

theorem refresh_withWritten :
    (r.withWritten written).refresh s =
      ((r.refresh s).1.withWritten written, (r.refresh s).2) := by
  have hlearn : ∀ entities, (r.withWritten written).learn entities =
      (r.learn entities).withWritten written := fun _ => rfl
  have hframe : ∀ r : Replay, (r.withWritten written).dashboard = r.dashboard.withWritten written ∧
      (r.withWritten written).entities = r.entities := fun _ => ⟨rfl, rfl⟩
  unfold refresh
  split
  · simp only [hlearn, hframe, Dashboard.updateFrom_withWritten]
    rfl
  · rfl

theorem obey_withWritten :
    (r.withWritten written).obey s = ((r.obey s).1.withWritten written, (r.obey s).2) := by
  have hdashboard : (r.withWritten written).dashboard = r.dashboard.withWritten written := rfl
  unfold obey
  cases s.command with
  | none => rfl
  | some command =>
    simp only [hdashboard, Dashboard.handle_withWritten]
    rfl

-- A step ends with a writing, and what had been written before is forgotten.
theorem carryOut_withWritten : (r.withWritten written).carryOut s = r.carryOut s := by
  have hwrite : ∀ r : Replay, (r.withWritten written).dashboard.writeBack.1 = r.dashboard.writeBack.1 := by
    intro r
    rw [Dashboard.writeBack_eq, Dashboard.writeBack_eq]
    rfl
  rcases r.switched_withWritten written s with ⟨hswitched, hnotes⟩
  simp only [carryOut, hswitched, hnotes, refresh_withWritten, obey_withWritten, hwrite]
  rfl

theorem actsOver_wakes (limit : Millis) :
    r.dashboard.card.actsOver (r.wakes limit) = Card.wakingActs (r.wakings limit) :=
  (Card.prompt_wakeUntil (fun _ _ => UInt64.zero_le) limit none).actsOver_eq

theorem actsOver_deeds :
    r.dashboard.card.actsOver (r.deeds s) =
      Card.wakingActs (r.wakings s.time) ++
        (r.wokenAt s.time).dashboard.card.actsOver ((r.wokenAt s.time).errands s) := by
  rw [deeds, Card.actsOver_append, actsOver_wakes, card_wokenAt]

theorem carryOut_idle (time : Millis) :
    r.carryOut (.idle time) = (r.withWritten (some r.dashboard.card.control.shown), []) := by
  have hcarry : r.carryOut (.idle time) = ({ r with dashboard := r.dashboard.writeBack.1 }, []) := rfl
  rw [hcarry, Dashboard.writeBack_eq]
  rfl

theorem play_idle (time : Millis) :
    r.play (.idle time) =
      ((r.wokenAt time).withWritten (some (r.wokenAt time).dashboard.card.control.shown),
        wakingsOutput (r.wakings time)) := by
  rw [play_eq, carryOut_idle, List.append_nil]
  rfl

theorem errands_withWritten : (r.withWritten written).errands s = r.errands s := by
  unfold errands
  rw [(r.switched_withWritten written s).1]
  rfl

end Written

/-! ## In two goes -/

section Goes

variable {r : Replay} (hrest : r.dashboard.card.Rest) (hwired : r.dashboard.card.Wired)
  {first limit : Millis} (hle : first ≤ limit)

include hrest hwired hle

theorem wokenAt_wokenAt : (r.wokenAt first).wokenAt limit = r.wokenAt limit := by
  have hcard := (Card.wakeUntil_wakeUntil hrest hwired hle (Card.spent_none _)).1
  simp only [wokenAt, wakeUntil, hcard]

theorem loud_wakings :
    Card.loud (r.wakings first ++ (r.wokenAt first).wakings limit) = Card.loud (r.wakings limit) :=
  (Card.wakeUntil_wakeUntil hrest hwired hle (Card.spent_none _)).2

end Goes

theorem wakingsOutput_append (wakings more : List Card.Waking) :
    wakingsOutput (wakings ++ more) = wakingsOutput wakings ++ wakingsOutput more :=
  List.flatMap_append

theorem wakingsOutput_of_loud {wakings wakings' : List Card.Waking}
    (h : Card.loud wakings = Card.loud wakings') :
    wakingsOutput wakings = wakingsOutput wakings' := by
  apply Card.flatMap_eq_of_loud _ h
  intro w hacts hview
  rw [hacts, hview]
  rfl

theorem wakingActs_of_loud {wakings wakings' : List Card.Waking}
    (h : Card.loud wakings = Card.loud wakings') :
    Card.wakingActs wakings = Card.wakingActs wakings' :=
  Card.flatMap_eq_of_loud (fun _ hacts _ => hacts) h

/-! ## Ahead of time -/

/-- A replay that has had its card woken sooner than another one. Up to any time that it has not come
to yet the other one catches up: their cards are the same then, but for what has been written, and so
is what there has been to be seen of the wakings. -/
structure Ahead (r r' : Replay) (wakings : List Card.Waking) : Prop where
  later : r.lastTime ≤ r'.lastTime
  rest : r'.dashboard.card.Rest
  wired : r'.dashboard.card.Wired
  card : ∀ limit, r'.lastTime ≤ limit →
    ∃ written, r'.wokenAt limit = (r.wokenAt limit).withWritten written
  seen : ∀ limit, r'.lastTime ≤ limit →
    Card.loud (wakings ++ r'.wakings limit) = Card.loud (r.wakings limit)

theorem Ahead.refl {r : Replay} (hrest : r.dashboard.card.Rest) (hwired : r.dashboard.card.Wired) :
    Ahead r r [] where
  later := UInt64.le_refl _
  rest := hrest
  wired := hwired
  card := fun limit _ => ⟨(r.wokenAt limit).dashboard.card.control.written, rfl⟩
  seen := fun _ _ => rfl

namespace Ahead

variable {r r' : Replay} {wakings : List Card.Waking} (h : Ahead r r' wakings)

include h

-- To be woken once more only gets it further ahead.
theorem idle {time : Millis} (hle : r'.lastTime ≤ time) :
    Ahead r (r'.play (.idle time)).1 (wakings ++ r'.wakings time) := by
  have hcard := r'.card_play (.idle time)
  rcases Card.steady_after h.rest h.wired (r'.deeds (.idle time)) with ⟨hrest, hwired⟩
  rw [← hcard] at hrest hwired
  have hplayed : (r'.play (.idle time)).1 =
      (r'.wokenAt time).withWritten (some (r'.wokenAt time).dashboard.card.control.shown) := by
    rw [play_idle]
  generalize (some (r'.wokenAt time).dashboard.card.control.shown) = written at hplayed
  rw [hplayed] at hrest hwired ⊢
  refine ⟨UInt64.le_trans h.later hle, hrest, hwired, ?_, ?_⟩
  · intro limit hlimit
    replace hlimit : time ≤ limit := hlimit
    rcases h.card limit (UInt64.le_trans hle hlimit) with ⟨before, hbefore⟩
    refine ⟨written, ?_⟩
    rw [wokenAt_withWritten, wokenAt_wokenAt h.rest h.wired hlimit, hbefore]
    rfl
  · intro limit hlimit
    replace hlimit : time ≤ limit := hlimit
    rw [wakings_withWritten, List.append_assoc, Card.loud_append, loud_wakings h.rest h.wired hlimit,
      ← Card.loud_append]
    exact h.seen limit (UInt64.le_trans hle hlimit)

-- At the next step that is in both scripts the other one catches up.
theorem play {s : Step} (hle : r'.lastTime ≤ s.time) {next : Replay} {outputs : List Output}
    (hplay : r.play s = (next, outputs)) :
    ∃ outputs', r'.play s = (next, outputs') ∧ wakingsOutput wakings ++ outputs' = outputs ∧
      Card.wakingActs wakings ++ r'.dashboard.card.actsOver (r'.deeds s) =
        r.dashboard.card.actsOver (r.deeds s) ∧
      Ahead next next [] := by
  have hseen := h.seen s.time hle
  rcases h.card s.time hle with ⟨written, hcard⟩
  rw [play_eq, Prod.mk.injEq] at hplay
  have hplay' : r'.play s =
      (next, wakingsOutput (r'.wakings s.time) ++ ((r.wokenAt s.time).carryOut s).2) := by
    rw [play_eq, hcard, carryOut_withWritten, hplay.1]
  refine ⟨_, hplay', ?_, ?_, ?_⟩
  · rw [← hplay.2, ← List.append_assoc, ← wakingsOutput_append, wakingsOutput_of_loud hseen]
  · have hacts : ((r.wokenAt s.time).withWritten written).dashboard.card.actsOver
          ((r.wokenAt s.time).errands s) =
        (r.wokenAt s.time).dashboard.card.actsOver ((r.wokenAt s.time).errands s) :=
      Card.actsOver_withWritten _ written _
    rw [actsOver_deeds, actsOver_deeds, hcard, errands_withWritten, hacts, ← List.append_assoc,
      ← Card.wakingActs_append, wakingActs_of_loud hseen]
  · have hsteady := Card.steady_after h.rest h.wired (r'.deeds s)
    rw [← card_play, hplay'] at hsteady
    exact .refl hsteady.1 hsteady.2

theorem finish :
    wakingsOutput wakings ++ r'.finish = r.finish ∧
      Card.wakingActs wakings ++ r'.dashboard.card.actsOver (r'.wakes Millis.last) =
        r.dashboard.card.actsOver (r.wakes Millis.last) := by
  have hseen := h.seen Millis.last (Millis.le_last _)
  rcases h.card Millis.last (Millis.le_last _) with ⟨written, hcard⟩
  constructor
  · rw [finish_eq, finish_eq, hcard, ← List.append_assoc, ← wakingsOutput_append,
      wakingsOutput_of_loud hseen]
    rfl
  · rw [actsOver_wakes, actsOver_wakes, ← Card.wakingActs_append, wakingActs_of_loud hseen]

end Ahead

/-! ## Scripts with idle lines -/

/-- A script, and the same script with lines put in that say nothing but the time. -/
inductive Padded : List String → List String → Prop where
  | nil : Padded [] []
  | keep (line : String) {lines padded : List String} (h : Padded lines padded) :
      Padded (line :: lines) (line :: padded)
  | idle {line : String} {time : Millis} (hline : step? line = some (.idle time))
      {lines padded : List String} (h : Padded lines padded) : Padded lines (line :: padded)

/-- What the card goes through while lines are played up to the end, or up to the one that cannot be. -/
def operations (r : Replay) : Nat → List String → List Operation
  | _, [] => r.wakes Millis.last
  | number, line :: lines =>
    match r.feed number line with
    | .error _ => []
    | .ok (next, _) => (step? line).toList.flatMap r.deeds ++ next.operations (number + 1) lines

/-- The acts of the card while lines are played. -/
def actsOver (r : Replay) (number : Nat) (lines : List String) : List Act :=
  r.dashboard.card.actsOver (r.operations number lines)

section Lines

variable {r next : Replay} {number : Nat} {line : String} {lines : List String}
  {outputs : List Output} (hfeed : r.feed number line = .ok (next, outputs))

include hfeed

theorem actsOver_cons {s : Step} (hstep : step? line = some s) (hplay : r.play s = (next, outputs)) :
    r.actsOver number (line :: lines) =
      r.dashboard.card.actsOver (r.deeds s) ++ next.actsOver (number + 1) lines := by
  have hcard := r.card_play s
  rw [hplay] at hcard
  rw [actsOver, operations, hfeed, hstep]
  simp only [Option.toList_some, List.flatMap_cons, List.flatMap_nil, List.append_nil]
  rw [Card.actsOver_append, ← hcard]
  rfl

theorem actsOver_cons_comment (hstep : step? line = none) (hsame : next = r) :
    r.actsOver number (line :: lines) = next.actsOver (number + 1) lines := by
  rw [actsOver, operations, hfeed, hstep, hsame]
  rfl

end Lines

theorem Ahead.run {r r' : Replay} {wakings : List Card.Waking} (h : Ahead r r' wakings)
    {lines padded : List String} (hpadded : Padded lines padded) {number : Nat}
    (haccepted : (r.run number lines).2 = none) (hfrom : ∀ t ∈ stepTimes padded, r'.lastTime ≤ t)
    (horder : (stepTimes padded).Pairwise (· ≤ ·)) (number' : Nat) :
    (r'.run number' padded).2 = none ∧
      wakingsOutput wakings ++ (r'.run number' padded).1 = (r.run number lines).1 ∧
      Card.wakingActs wakings ++ r'.actsOver number' padded = r.actsOver number lines := by
  induction hpadded generalizing r r' wakings number number' with
  | nil => exact ⟨rfl, h.finish⟩
  | @keep line lines padded hpadded ih =>
    cases hfeed : r.feed number line with
    | error fault =>
      rw [Replay.run, hfeed] at haccepted
      cases haccepted
    | ok result =>
      rcases result with ⟨next, outputs⟩
      rw [run_cons hfeed] at haccepted ⊢
      rcases feed_cases hfeed with ⟨hcomment, hnone, rfl, rfl⟩ | ⟨s, hstep, -, hplay⟩
      · have hfeed' := feed_of_comment (r := r') hcomment number'
        rw [stepTimes_cons_of_none hnone] at hfrom horder
        rw [run_cons hfeed', actsOver_cons_comment hfeed hnone rfl,
          actsOver_cons_comment hfeed' hnone rfl]
        exact ih h haccepted hfrom horder (number' + 1)
      · rw [stepTimes_cons_of_some hstep, List.forall_mem_cons] at hfrom
        rw [stepTimes_cons_of_some hstep, List.pairwise_cons] at horder
        obtain ⟨outputs', hplay', houtputs, hacts, hsame⟩ := h.play hfrom.1 hplay
        have hfeed' : r'.feed number' line = .ok (next, outputs') := by
          rw [feed_of_step hstep hfrom.1, hplay']
        have hlast : next.lastTime = s.time := by
          rw [← lastTime_play r s, hplay]
        rw [← hlast] at horder
        obtain ⟨hfault, hrest, hmore⟩ := ih hsame haccepted horder.1 horder.2 (number' + 1)
        rw [run_cons hfeed', actsOver_cons hfeed hstep hplay, actsOver_cons hfeed' hstep hplay',
          ← hacts, ← hmore]
        refine ⟨hfault, ?_, (List.append_assoc ..).symm⟩
        rw [← List.append_assoc, houtputs, ← hrest]
        rfl
  | @idle line time hline lines padded hpadded ih =>
    rw [stepTimes_cons_of_some hline, List.forall_mem_cons] at hfrom
    rw [stepTimes_cons_of_some hline, List.pairwise_cons] at horder
    have hplay := r'.play_idle time
    have hfeed := feed_of_step (r := r') hline hfrom.1 number'
    rw [hplay] at hfeed
    have hacts : r'.dashboard.card.actsOver (r'.deeds (.idle time)) =
        Card.wakingActs (r'.wakings time) := by
      rw [actsOver_deeds]
      exact List.append_nil _
    have hahead : Ahead r (r'.play (.idle time)).1 (wakings ++ r'.wakings time) := h.idle hfrom.1
    rw [hplay] at hahead
    obtain ⟨hfault, hrest, hmore⟩ := ih hahead haccepted horder.1 horder.2 (number' + 1)
    rw [run_cons hfeed, actsOver_cons hfeed hline hplay, hacts, ← hrest, ← hmore,
      wakingsOutput_append, Card.wakingActs_append, List.append_assoc, List.append_assoc]
    exact ⟨hfault, rfl, rfl⟩

/-- How often the card is woken does not show. A script that is accepted may have lines put into it
that say nothing but the time, anywhere where time does not run backwards: it is still accepted, and
what comes out is the same line by line, and so is all that the card does, act by act. -/
theorem idle_lines_unseen {config : Config} {start : Card} (hnew : Card.new config = .ok start)
    (themes : Dict Theme) (dark : Bool) {lines padded : List String} (hpadded : Padded lines padded)
    (haccepted : ((begin start themes dark).1.run 1 lines).2 = none)
    (horder : (stepTimes padded).Pairwise (· ≤ ·)) :
    let begun := (begin start themes dark).1
    (begun.run 1 padded).2 = none ∧ (begun.run 1 padded).1 = (begun.run 1 lines).1 ∧
      begun.actsOver 1 padded = begun.actsOver 1 lines := by
  intro begun
  have hrest : begun.dashboard.card.Rest := (Card.rest_and_drawn_after hnew []).1
  have hwired : begun.dashboard.card.Wired := Card.wired_after hnew []
  have hfrom : ∀ t ∈ stepTimes padded, begun.lastTime ≤ t := fun _ _ => UInt64.zero_le
  exact (Ahead.refl hrest hwired).run hpadded haccepted hfrom horder 1

open Sample

-- The card is woken for the request that has expired, and once more at the end of time.
theorem idle_lines_unseen_asked :
    let begun := (begin (card Sample.config) .empty false).1
    (begun.run 1 [arrival, idleLine 0, asking, idleLine 15001, idleLine Millis.last]).1 =
      (begun.run 1 [arrival, asking]).1 := by
  intro begun
  rcases Option.map_eq_some_iff.mp time_arrival with ⟨first, harrival, hfirst⟩
  rcases Option.map_eq_some_iff.mp time_asking with ⟨second, hasking, hsecond⟩
  have hpadded : Padded [arrival, asking]
      [arrival, idleLine 0, asking, idleLine 15001, idleLine Millis.last] :=
    .keep arrival (.idle (step?_idleLine 0) (.keep asking (.idle (step?_idleLine 15001)
      (.idle (step?_idleLine Millis.last) .nil))))
  have htimes : stepTimes [arrival, asking] = [0, 0] := by
    rw [stepTimes_cons_of_some harrival, stepTimes_cons_of_some hasking, hfirst, hsecond]
    rfl
  have hpaddedTimes :
      stepTimes [arrival, idleLine 0, asking, idleLine 15001, idleLine Millis.last] =
        [0, 0, 0, 15001, Millis.last] := by
    rw [stepTimes_cons_of_some harrival, stepTimes_cons_of_some (step?_idleLine 0),
      stepTimes_cons_of_some hasking, stepTimes_cons_of_some (step?_idleLine 15001),
      stepTimes_cons_of_some (step?_idleLine Millis.last), hfirst, hsecond]
    rfl
  have haccepted : (begun.run 1 [arrival, asking]).2 = none := by
    apply run_accepted
    · intro line hline
      rw [List.mem_cons, List.mem_singleton] at hline
      rcases hline with rfl | rfl
      · rw [harrival]
        exact .inr rfl
      · rw [hasking]
        exact .inr rfl
    · rw [htimes]
      decide
    · exact fun _ _ => UInt64.zero_le
  have horder : (stepTimes [arrival, idleLine 0, asking, idleLine 15001,
      idleLine Millis.last]).Pairwise (· ≤ ·) := by
    rw [hpaddedTimes]
    decide
  exact (idle_lines_unseen new_config .empty false hpadded haccepted horder).2.1

end Replay

end Script

end HubCard
