import HubCard.Proofs.Deadlines
import HubCard.Proofs.Stamps

/-!
Replays as runs of the card. A line comes to nothing or to a step; a step wakes the card at its
deadlines up to its time and then tells it what the step says. So the lines that come out say times
that do not go back, and the line of a waking says the deadline it was for.
-/

namespace HubCard.Script

/-- The step that a line comes to, if it is one. -/
def step? (line : String) : Option Step :=
  if isComment line then none else (Step.decoder.ofText line).toOption

/-- The times of the steps among some lines. -/
def stepTimes (lines : List String) : List Millis :=
  (lines.filterMap step?).map Step.time

theorem stepTimes_cons_of_none {line : String} (h : step? line = none) (lines : List String) :
    stepTimes (line :: lines) = stepTimes lines := by
  simp [stepTimes, h]

theorem stepTimes_cons_of_some {line : String} {s : Step} (h : step? line = some s)
    (lines : List String) : stepTimes (line :: lines) = s.time :: stepTimes lines := by
  simp [stepTimes, h]

namespace Replay

/-! ## One line -/

/-- The second half of a step: the card is told what the step says. -/
def carryOut (r : Replay) (s : Step) : Replay × List Output :=
  let switched := r.switchHub s
  let refreshed := (switched.1.switchMode s).refresh s
  let obeyed := refreshed.1.obey s
  ({ obeyed.1 with dashboard := obeyed.1.dashboard.writeBack.1 },
    switched.2 ++ refreshed.2 ++ obeyed.2)

/-- The wakings of the card up to a time. -/
def wakings (r : Replay) (limit : Millis) : List Card.Waking :=
  (r.dashboard.card.wakeUntil limit none).2

/-- What a list of wakings gives out. -/
def wakingsOutput (wakings : List Card.Waking) : List Output :=
  wakings.flatMap fun w => logOf w.acts ++ lineOf ⟨w.time⟩ w.view

-- The renderer is set before anything is printed, so it does not matter to what it was set before.
theorem output_showWakings (renderer : Renderer) (wakings : List Card.Waking) :
    (showWakings renderer wakings).2 = wakingsOutput wakings := by
  induction wakings generalizing renderer with
  | nil => rfl
  | cons w wakings ih =>
    rw [showWakings, wakingsOutput, List.flatMap_cons]
    exact congrArg _ (ih _)

theorem output_wakeUntil (r : Replay) (limit : Millis) :
    (r.wakeUntil limit).2 = wakingsOutput (r.wakings limit) :=
  output_showWakings ..

/-- The replay at a time, once its card has been woken up to it and its renderer has been set. -/
def wokenAt (r : Replay) (time : Millis) : Replay :=
  { (r.wakeUntil time).1 with renderer := ⟨time⟩, lastTime := time }

theorem play_eq (r : Replay) (s : Step) :
    r.play s =
      (((r.wokenAt s.time).carryOut s).1,
        wakingsOutput (r.wakings s.time) ++ ((r.wokenAt s.time).carryOut s).2) := by
  rw [← output_wakeUntil]
  simp only [play, carryOut, List.append_assoc]
  rfl

/-- The last line of the log. -/
def summary (r : Replay) : Output :=
  note
    ("script done: " ++ Numeral.natText r.dashboard.calls.length ++ " service calls, "
      ++ Numeral.natText r.dashboard.style.length ++ " style properties set")

theorem finish_eq (r : Replay) :
    r.finish = wakingsOutput (r.wakings Millis.last) ++ [(r.wokenAt Millis.last).summary] := by
  rw [← output_wakeUntil]
  rfl

theorem feed_of_comment {r : Replay} {line : String} (h : isComment line = true) (number : Nat) :
    r.feed number line = .ok (r, []) := by
  rw [feed, if_pos h]

theorem feed_of_step {r : Replay} {line : String} {s : Step} (h : step? line = some s)
    (hle : r.lastTime ≤ s.time) (number : Nat) :
    r.feed number line = .ok ((r.play s).1, (r.play s).2) := by
  unfold step? at h
  split at h
  · cases h
  · rename_i hcomment
    have htext : Step.decoder.ofText line = .ok s := by
      cases hread : Step.decoder.ofText line with
      | error fault =>
        rw [hread] at h
        cases h
      | ok s' =>
        rw [hread] at h
        rw [Option.some.inj h]
    rw [feed, if_neg hcomment, htext]
    exact if_neg (UInt64.not_lt.mpr hle)

/-- A line that is played is a comment, or a step that does not go back in time. -/
theorem feed_cases {r next : Replay} {number : Nat} {line : String} {outputs : List Output}
    (h : r.feed number line = .ok (next, outputs)) :
    (isComment line = true ∧ step? line = none ∧ next = r ∧ outputs = []) ∨
      ∃ s, step? line = some s ∧ r.lastTime ≤ s.time ∧ r.play s = (next, outputs) := by
  unfold feed at h
  split at h
  · rename_i hcomment
    rw [Except.ok.injEq, Prod.mk.injEq] at h
    refine .inl ⟨hcomment, ?_, h.1.symm, h.2.symm⟩
    rw [step?, if_pos hcomment]
  · rename_i hcomment
    split at h
    · cases h
    · rename_i s hread
      split at h
      · cases h
      · rename_i hlt
        refine .inr ⟨s, ?_, UInt64.not_lt.mp hlt, Except.ok.inj h⟩
        rw [step?, if_neg hcomment, hread]
        rfl

theorem run_cons {r next : Replay} {number : Nat} {line : String} {outputs : List Output}
    (hfeed : r.feed number line = .ok (next, outputs)) (lines : List String) :
    r.run number (line :: lines) =
      (outputs ++ (next.run (number + 1) lines).1, (next.run (number + 1) lines).2) := by
  rw [run, hfeed]

/-! ## What the card is told -/

/-- The wakings of the card up to a time, as operations. -/
def wakes (r : Replay) (limit : Millis) : List Operation :=
  (r.wakings limit).map fun w => .wake w.time

/-- What the card is told by the second half of a step. -/
def errands (r : Replay) (s : Step) : List Operation :=
  let told := ((r.switchHub s).1.switchMode s).learn (s.entities.getD Dict.empty)
  (if s.entities.isSome || s.dark.isSome then
    [.updateFrom told.dashboard.host told.entities s.time] else []) ++
    (s.command.toList.map fun command => .handle told.dashboard.answer command s.time) ++
    [.writeBack]

/-- What the card goes through in a step. -/
def deeds (r : Replay) (s : Step) : List Operation :=
  r.wakes s.time ++ (r.wokenAt s.time).errands s

theorem card_refresh (r : Replay) (s : Step) :
    (r.refresh s).1.dashboard.card =
      r.dashboard.card.after (if s.entities.isSome || s.dark.isSome then
        [.updateFrom r.dashboard.host (r.learn (s.entities.getD Dict.empty)).entities s.time]
        else []) := by
  have hupdate : ∀ (d : Dashboard) entities now,
      (d.updateFrom entities now).1.card = d.card.after [.updateFrom d.host entities now] :=
    fun _ _ _ => rfl
  unfold refresh
  split
  · exact hupdate (r.learn _).dashboard _ s.time
  · rfl

theorem answer_refresh (r : Replay) (s : Step) :
    (r.refresh s).1.dashboard.answer = r.dashboard.answer := by
  unfold refresh
  split <;> rfl

theorem card_obey (r : Replay) (s : Step) :
    (r.obey s).1.dashboard.card =
      r.dashboard.card.after (s.command.toList.map (.handle r.dashboard.answer · s.time)) := by
  unfold obey
  cases s.command <;> rfl

theorem card_switched (r : Replay) (s : Step) :
    ((r.switchHub s).1.switchMode s).dashboard.card = r.dashboard.card := by
  unfold switchHub switchMode
  cases s.offline <;> cases s.dark <;> rfl

theorem card_carryOut (r : Replay) (s : Step) :
    (r.carryOut s).1.dashboard.card = r.dashboard.card.after (r.errands s) := by
  have hwrite : ∀ d : Dashboard, d.writeBack.1.card = d.card.after [.writeBack] := fun _ => rfl
  simp only [carryOut, hwrite, card_obey, answer_refresh, card_refresh, card_switched, errands,
    Card.after_append]
  rfl

theorem time_errands (r : Replay) (s : Step) : ∀ t ∈ times (r.errands s), t = s.time := by
  intro t ht
  rcases List.mem_filterMap.mp ht with ⟨o, ho, htime⟩
  rw [errands, List.append_assoc, List.mem_append, List.mem_append, List.mem_map,
    List.mem_singleton] at ho
  rcases ho with ho | ⟨command, -, rfl⟩ | rfl
  · split at ho
    · rw [List.mem_singleton.mp ho] at htime
      exact (Option.some.inj htime).symm
    · cases ho
  · exact (Option.some.inj htime).symm
  · cases htime

theorem card_wokenAt (r : Replay) (time : Millis) :
    (r.wokenAt time).dashboard.card = r.dashboard.card.after (r.wakes time) :=
  (Card.prompt_wakeUntil (fun _ _ => UInt64.zero_le) time none).eq_after

theorem card_play (r : Replay) (s : Step) :
    (r.play s).1.dashboard.card = r.dashboard.card.after (r.deeds s) := by
  rw [play_eq, card_carryOut, card_wokenAt, deeds, Card.after_append]

-- Whatever is played, the card goes through a run.
theorem exists_card_feed {r next : Replay} {number : Nat} {line : String} {outputs : List Output}
    (hfeed : r.feed number line = .ok (next, outputs)) :
    ∃ ops, next.dashboard.card = r.dashboard.card.after ops := by
  rcases feed_cases hfeed with ⟨-, -, rfl, -⟩ | ⟨s, -, -, hplay⟩
  · exact ⟨[], rfl⟩
  · have hcard := r.card_play s
    rw [hplay] at hcard
    exact ⟨r.deeds s, hcard⟩

theorem lastTime_carryOut (r : Replay) (s : Step) : (r.carryOut s).1.lastTime = r.lastTime := by
  have hswitched : ((r.switchHub s).1.switchMode s).lastTime = r.lastTime := by
    unfold switchHub switchMode
    cases s.offline <;> cases s.dark <;> rfl
  have hrefresh : ∀ r : Replay, (r.refresh s).1.lastTime = r.lastTime := by
    intro r
    unfold refresh
    split <;> rfl
  have hobey : ∀ r : Replay, (r.obey s).1.lastTime = r.lastTime := by
    intro r
    unfold obey
    cases s.command <;> rfl
  simp only [carryOut, hobey, hrefresh, hswitched]

theorem lastTime_play (r : Replay) (s : Step) : (r.play s).1.lastTime = s.time := by
  rw [play_eq]
  exact lastTime_carryOut (r.wokenAt s.time) s

/-! ## What comes out -/

theorem renderer_refresh (r : Replay) (s : Step) : (r.refresh s).1.renderer = r.renderer := by
  unfold refresh
  split <;> rfl

theorem stamped_refresh (r : Replay) (s : Step) :
    Stamped r.renderer.time r.renderer.time (r.refresh s).2 := by
  unfold refresh
  split
  · exact (stamped_line r.renderer _).log_append _
  · exact stamped_of_none rfl _ _

theorem stamped_obey (r : Replay) (s : Step) :
    Stamped r.renderer.time r.renderer.time (r.obey s).2 := by
  unfold obey
  cases s.command with
  | none => exact stamped_of_none rfl _ _
  | some command => exact (stamped_lineOf r.renderer _).log_append _

-- What a step says is carried out at the time that the renderer is set to.
theorem stamped_carryOut (r : Replay) (s : Step) :
    Stamped r.renderer.time r.renderer.time (r.carryOut s).2 := by
  have hswitched : ((r.switchHub s).1.switchMode s).renderer = r.renderer ∧
      printed (r.switchHub s).2 = [] := by
    unfold switchHub switchMode
    cases s.offline <;> cases s.dark <;> exact ⟨rfl, rfl⟩
  have hrefreshed := stamped_refresh ((r.switchHub s).1.switchMode s) s
  have hobeyed := stamped_obey (((r.switchHub s).1.switchMode s).refresh s).1 s
  rw [hswitched.1] at hrefreshed
  rw [renderer_refresh, hswitched.1] at hobeyed
  have hle := UInt64.le_refl r.renderer.time
  exact ((stamped_of_none hswitched.2 _ _).append hrefreshed hle hle).append hobeyed hle hle

theorem mem_printed_wakingsOutput {wakings : List Card.Waking} {line : String} :
    line ∈ printed (wakingsOutput wakings) ↔
      ∃ w ∈ wakings, ∃ v, w.view = some v ∧ (Renderer.mk w.time).line v = line := by
  induction wakings with
  | nil => simp [wakingsOutput, printed]
  | cons w wakings ih =>
    have hsplit : printed (wakingsOutput (w :: wakings)) =
        printed (lineOf ⟨w.time⟩ w.view) ++ printed (wakingsOutput wakings) := by
      rw [wakingsOutput, List.flatMap_cons, printed_append, printed_append, printed_logOf]
      rfl
    rw [hsplit, List.mem_append, ih]
    simp only [List.mem_cons, exists_eq_or_imp]
    cases w.view with
    | none => simp [lineOf, printed]
    | some v => simp [lineOf, printed, Output.line?, eq_comm]

theorem stamped_wakingsOutput {first last : Millis} {c left : Card} {wakings : List Card.Waking}
    (h : Card.Prompt first c wakings left) (hlast : ∀ w ∈ wakings, w.time ≤ last) :
    Stamped first last (wakingsOutput wakings) := by
  induction h with
  | none => exact stamped_of_none rfl _ _
  | @next first d c left wakings hle hnext hrest ih =>
    rw [List.forall_mem_cons] at hlast
    have hfirst : Stamped d d (logOf (c.wake d).1.acts ++ lineOf ⟨d⟩ (c.wake d).2) :=
      (stamped_lineOf ⟨d⟩ _).log_append _
    exact (hfirst.append (ih hlast.2) (UInt64.le_refl d) hlast.1).mono hle

/-! ## In time -/

/-- A replay in between two lines: nothing that its card waits for is in the past. -/
structure InTime (r : Replay) : Prop where
  rest : r.dashboard.card.Rest
  deadlines : r.dashboard.card.From r.lastTime

namespace InTime

variable {r : Replay} (h : r.InTime)

include h

theorem stamped_wakings (limit : Millis) :
    Stamped r.lastTime limit (wakingsOutput (r.wakings limit)) :=
  stamped_wakingsOutput (Card.prompt_wakeUntil h.deadlines limit none) Card.time_le_of_wakeUntil

theorem play {s : Step} (hle : r.lastTime ≤ s.time) :
    (r.play s).1.InTime ∧ Stamped r.lastTime s.time (r.play s).2 := by
  have hrest : (r.wokenAt s.time).dashboard.card.Rest :=
    (Card.prompt_wakeUntil h.deadlines s.time none).rest h.rest
  have hfrom : (r.wokenAt s.time).dashboard.card.From s.time :=
    Card.from_wakeUntil h.rest (Card.stuck_none _)
  have htimes : ∀ t ∈ times ((r.wokenAt s.time).errands s), s.time ≤ t := by
    intro t ht
    rw [time_errands _ s t ht]
    exact UInt64.le_refl _
  have hafter := hfrom.after hrest htimes
  constructor
  · have hcard : (r.play s).1.dashboard.card =
        (r.wokenAt s.time).dashboard.card.after ((r.wokenAt s.time).errands s) := by
      rw [play_eq, card_carryOut]
    constructor
    · rw [hcard]
      exact hafter.1
    · rw [hcard, lastTime_play]
      exact hafter.2
  · rw [play_eq]
    exact (h.stamped_wakings s.time).append (stamped_carryOut _ s) hle (UInt64.le_refl _)

theorem feed {next : Replay} {number : Nat} {line : String} {outputs : List Output}
    (hfeed : r.feed number line = .ok (next, outputs)) :
    next.InTime ∧ Stamped r.lastTime next.lastTime outputs ∧ r.lastTime ≤ next.lastTime := by
  rcases feed_cases hfeed with ⟨-, -, rfl, rfl⟩ | ⟨s, -, hle, hplay⟩
  · exact ⟨h, stamped_of_none rfl _ _, UInt64.le_refl _⟩
  · have hplayed := h.play hle
    have htime := r.lastTime_play s
    rw [hplay] at hplayed htime
    rw [show next.lastTime = s.time from htime]
    exact ⟨hplayed.1, hplayed.2, hle⟩

theorem run (number : Nat) (lines : List String) :
    Stamped r.lastTime Millis.last (r.run number lines).1 := by
  induction lines generalizing r number with
  | nil =>
    rw [Replay.run, finish_eq]
    exact (h.stamped_wakings Millis.last).append (stamped_of_none rfl Millis.last Millis.last)
      (Millis.le_last _) (UInt64.le_refl _)
  | cons line lines ih =>
    rw [Replay.run]
    cases hfeed : r.feed number line with
    | error fault => exact stamped_of_none rfl _ _
    | ok result =>
      rcases result with ⟨next, outputs⟩
      obtain ⟨hnext, hstamped, hle⟩ := h.feed hfeed
      exact hstamped.append (ih hnext (number + 1)) hle (Millis.le_last _)

end InTime

/-- A script is accepted that can be read and in which time does not run backwards. -/
theorem run_accepted {r : Replay} {lines : List String}
    (hread : ∀ line ∈ lines, isComment line = true ∨ (step? line).isSome = true)
    (horder : (stepTimes lines).Pairwise (· ≤ ·)) (hfrom : ∀ t ∈ stepTimes lines, r.lastTime ≤ t)
    (number : Nat) : (r.run number lines).2 = none := by
  induction lines generalizing r number with
  | nil => rfl
  | cons line lines ih =>
    rw [List.forall_mem_cons] at hread
    by_cases hcomment : isComment line = true
    · have hnone : step? line = none := by
        rw [step?, if_pos hcomment]
      rw [stepTimes_cons_of_none hnone] at horder hfrom
      rw [run_cons (feed_of_comment hcomment number)]
      exact ih hread.2 horder hfrom (number + 1)
    · rcases Option.isSome_iff_exists.mp (hread.1.resolve_left hcomment) with ⟨s, hstep⟩
      rw [stepTimes_cons_of_some hstep, List.pairwise_cons] at horder
      rw [stepTimes_cons_of_some hstep, List.forall_mem_cons] at hfrom
      rw [run_cons (feed_of_step hstep hfrom.1 number)]
      refine ih hread.2 horder.2 ?_ (number + 1)
      rw [lastTime_play]
      exact horder.1

/-- The lines are played one after another, up to a replay. -/
inductive Plays : Replay → List String → Replay → Prop where
  | nil (r : Replay) : Plays r [] r
  | cons {r next left : Replay} {number : Nat} {line : String} {lines : List String}
      {outputs : List Output} (hfeed : r.feed number line = .ok (next, outputs))
      (hrest : Plays next lines left) : Plays r (line :: lines) left

theorem Plays.inTime {r left : Replay} {lines : List String} (hplays : Plays r lines left)
    (h : r.InTime) : left.InTime := by
  induction hplays with
  | nil => exact h
  | cons hfeed _ ih => exact ih (h.feed hfeed).1

theorem Plays.exists_card {r left : Replay} {lines : List String} (hplays : Plays r lines left) :
    ∃ ops, left.dashboard.card = r.dashboard.card.after ops := by
  induction hplays with
  | nil => exact ⟨[], rfl⟩
  | cons hfeed _ ih =>
    rcases exists_card_feed hfeed with ⟨first, hfirst⟩
    rcases ih with ⟨rest, hrest⟩
    refine ⟨first ++ rest, ?_⟩
    rw [hrest, hfirst, Card.after_append]

-- Time has come as far as the steps that have been played.
theorem Plays.lastTime_le {r left : Replay} {lines : List String} (hplays : Plays r lines left) :
    r.lastTime ≤ left.lastTime ∧ ∀ t ∈ stepTimes lines, t ≤ left.lastTime := by
  induction hplays with
  | nil => exact ⟨UInt64.le_refl _, fun _ ht => by cases ht⟩
  | @cons r next left number line lines outputs hfeed hrest ih =>
    rcases feed_cases hfeed with ⟨-, hnone, rfl, -⟩ | ⟨s, hstep, hle, hplay⟩
    · rw [stepTimes_cons_of_none hnone]
      exact ih
    · have hnext : next.lastTime = s.time := by
        have htime := r.lastTime_play s
        rw [hplay] at htime
        exact htime
      rw [hnext] at ih
      rw [stepTimes_cons_of_some hstep, List.forall_mem_cons]
      exact ⟨UInt64.le_trans hle ih.1, ih.1, ih.2⟩

theorem inTime_begin {config : Config} {start : Card} (hnew : Card.new config = .ok start)
    (themes : Dict Theme) (dark : Bool) : (begin start themes dark).1.InTime where
  rest := (Card.rest_and_drawn_after hnew []).1
  deadlines := fun _ _ => UInt64.zero_le

/-- Time does not run backwards in a replay. Whatever the script says and however it ends, every line
that is printed says a time, and they are in order. A line that comes of waking the card in between two
lines of the script shows what the card gives out when it is woken at its next deadline, once it has
gone through the wakings before, and says that deadline. It is the deadline of a timer or of the
request, and is not before any step that has been played. -/
theorem time_goes_on {config : Config} {start : Card} (hnew : Card.new config = .ok start)
    (themes : Dict Theme) (dark : Bool) :
    let begun := begin start themes dark
    (∀ lines, ∃ times : List Millis,
      (printed (begun.2 ++ (begun.1.run 1 lines).1)).map at? = times.map some ∧
        times.Pairwise (· ≤ ·)) ∧
    ∀ played r, Plays begun.1 played r → ∀ limit, ∀ line ∈ printed (r.wakeUntil limit).2,
      ∃ time v, at? line = some time ∧
        line = "\x7b\"at\":" ++ Numeral.natText time.toNat ++ ",\"render\":" ++ v.toJson.render ++
          "\x7d" ∧
        (∀ t ∈ stepTimes played, t ≤ time) ∧ time ≤ limit ∧
        ∃ before w later, r.wakings limit = before ++ w :: later ∧ w.time = time ∧
          let c := r.dashboard.card.after (before.map fun w => .wake w.time)
          c.nextDeadline? = some time ∧ (c.wake time).2 = some v ∧
          ((∃ x ∈ c.timers.live, x.deadline = time) ∨
            ∃ q, c.control.request = some q ∧
              Millis.later (Millis.later q.start config.timing.requestExpiry) 1 = time) := by
  intro begun
  have hbegun : begun.1.InTime := inTime_begin hnew themes dark
  constructor
  · intro lines
    have hnone : printed begun.2 = [] := printed_logOf start.startEvents
    obtain ⟨times, hat, horder, -⟩ := hbegun.run 1 lines
    refine ⟨times, ?_, horder⟩
    rw [printed_append, hnone]
    exact hat
  · intro played r hplays limit line hline
    have hr : r.InTime := hplays.inTime hbegun
    have hprompt := Card.prompt_wakeUntil hr.deadlines limit none
    rw [output_wakeUntil] at hline
    rcases mem_printed_wakingsOutput.mp hline with ⟨w, hw, v, hgiven, rfl⟩
    refine ⟨w.time, v, at?_line _ v, Renderer.line_eq _ v, ?_, Card.time_le_of_wakeUntil w hw, ?_⟩
    · intro t ht
      exact UInt64.le_trans (hplays.lastTime_le.2 t ht) (hprompt.le_time w hw)
    · rcases hprompt.exists_woken hw with ⟨before, later, hsplit, hnext, hsame⟩
      refine ⟨before, w, later, hsplit, rfl, hnext, hsame.symm.trans hgiven, ?_⟩
      generalize before.map (fun w : Card.Waking => Operation.wake w.time) = sooner at hnext ⊢
      have hconfig : (r.dashboard.card.after sooner).config = config := by
        rcases hplays.exists_card with ⟨ops, hcard⟩
        rw [hcard, ← Card.after_append]
        exact Card.config_after hnew _
      have hdue := Card.nextDeadline?_eq_some hnext
      rw [hconfig] at hdue
      exact hdue

end Replay

end HubCard.Script

namespace HubCard

/-! ## A script to look at -/

namespace Sample

open Script

/-- The hub and its selector come up. -/
def arrival : String :=
  (Json.obj
    [("at", .int 0),
      ("states", .obj
        [("remote.hub", .obj [("attributes", .obj [("activity_select_entity_id", .str "s")])]),
          ("s", .obj [("state", .str "TV")])])]).render

/-- The user picks an activity. -/
def asking : String :=
  (Json.obj [("at", .int 0), ("command", .obj [("select_activity", .str "Movie")])]).render

theorem time_arrival : (step? arrival).map Step.time = some 0 := by decide +kernel

theorem time_asking : (step? asking).map Step.time = some 0 := by decide +kernel

/-- The replay after both. -/
def asked : Replay :=
  let begun := (Replay.begin (card config) .empty false).1
  ((begun.play ((step? arrival).getD ⟨0, none, none, none, none⟩)).1.play
    ((step? asking).getD ⟨0, none, none, none, none⟩)).1

theorem wakings_asked :
    (asked.wakings 20000).map (fun w => (w.time, w.view.isSome)) = [(15001, true)] := by
  decide +kernel

end Sample

namespace Script.Replay

open Sample

-- The request expires unconfirmed, and the line that shows it comes when that is due.
theorem time_goes_on_asked :
    ∃ line ∈ printed (asked.wakeUntil 20000).2, at? line = some 15001 ∧
      ∃ before w later, asked.wakings 20000 = before ++ w :: later ∧ w.time = 15001 := by
  rcases Option.map_eq_some_iff.mp time_arrival with ⟨first, harrival, hfirst⟩
  rcases Option.map_eq_some_iff.mp time_asking with ⟨second, hasking, hsecond⟩
  have hplays : Plays (begin (card Sample.config) .empty false).1 [arrival, asking] asked := by
    rw [asked, harrival, hasking]
    refine .cons (feed_of_step harrival UInt64.zero_le 1)
      (.cons (feed_of_step hasking ?_ 2) (.nil _))
    rw [lastTime_play, hfirst, hsecond]
    exact UInt64.le_refl 0
  rcases List.map_eq_singleton_iff.mp wakings_asked with ⟨w, hwakings, hw⟩
  rcases Prod.mk.inj hw with ⟨htime, hsome⟩
  rcases Option.isSome_iff_exists.mp hsome with ⟨v, hview⟩
  have hline : (Renderer.mk w.time).line v ∈ printed (asked.wakeUntil 20000).2 := by
    rw [output_wakeUntil, hwakings]
    exact mem_printed_wakingsOutput.mpr ⟨w, List.mem_singleton_self w, v, hview, rfl⟩
  rcases (time_goes_on new_config .empty false).2 [arrival, asking] asked hplays 20000 _ hline with
    ⟨time, -, hat, -, -, -, before, w', later, hsplit, hsame, -⟩
  have h15001 : time = 15001 := by
    rw [at?_line] at hat
    rw [← Option.some.inj hat]
    exact htime
  rw [h15001] at hat hsame
  exact ⟨_, hline, hat, before, w', later, hsplit, hsame⟩

end Script.Replay

end HubCard
