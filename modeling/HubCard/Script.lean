import HubCard.Card.Wake
import HubCard.Dashboard
import HubCard.Renderer
import HubCard.Text.Line

/-!
Scripts: lines of JSON that say what happens to a card and when, and their replay on a dashboard in
memory. Each line has a time, before which the card is woken at all its deadlines up to then, and any
of: entities, a command, a change of the mode, a loss of the hub.
-/

namespace HubCard.Script

structure Step where
  time : Millis
  entities : Option (Dict Entity)
  command : Option Command
  dark : Option Bool
  offline : Option Bool
  deriving Repr

namespace Step

def record : Json.Record Step where
  title := "struct ScriptLine"
  blank := ⟨0, none, none, none, none⟩
  fields :=
    [(Json.Decoder.word64.field "at" fun time s => { s with time }).require,
      Entity.registry.option.field "states" fun entities s => { s with entities },
      Command.decoder.option.field "command" fun command s => { s with command },
      Json.Decoder.bool.option.field "dark" fun dark s => { s with dark },
      Json.Decoder.bool.option.field "offline" fun offline s => { s with offline }]
  stranger := .refuse
  asList := true

def decoder : Json.Decoder Step := record.decoder

end Step

/-- Blank lines and lines that begin with `#` say nothing. -/
def isComment (line : String) : Bool :=
  match Text.trimStart line.toList with
  | [] => true
  | c :: _ => c == '#'

/-- What a replay gives out. -/
inductive Output where
  /-- A line for a view. -/
  | line (text : String)
  | log (line : LogLine)
  deriving Repr, DecidableEq

inductive Fault where
  | unreadable (number : Nat) (fault : Json.Fault)
  | backwards (number : Nat) (time last : Millis)
  deriving Repr, DecidableEq

structure Replay where
  dashboard : Dashboard
  renderer : Renderer
  /-- All entities seen so far. -/
  entities : Dict Entity
  lastTime : Millis

namespace Replay

def logOf (acts : List Act) : List Output :=
  (acts.filterMap Act.log?).map .log

/-- Prints a view, if there is a new one. -/
def lineOf (renderer : Renderer) (view : Option View) : List Output :=
  match view with
  | some v => [.line (renderer.line v)]
  | none => []

def note (text : String) : Output :=
  .log ⟨.info, text⟩

/-- A replay that is about to begin, and what it gives out first. -/
def begin (card : Card) (themes : Dict Theme) (dark : Bool) : Replay × List Output :=
  (⟨Dashboard.new card themes dark, .new, Dict.empty, 0⟩,
    note ("simulating card for " ++ card.config.entity) :: logOf card.startEvents)

/-- Prints what comes of some wakings, with the renderer set to the time of each. -/
def showWakings (renderer : Renderer) : List Card.Waking → Renderer × List Output
  | [] => (renderer, [])
  | w :: wakings =>
    let renderer := renderer.setTime w.time
    let (last, rest) := showWakings renderer wakings
    (last, logOf w.acts ++ lineOf renderer w.view ++ rest)

/-- Wakes the card at its deadlines up to a time. -/
def wakeUntil (r : Replay) (limit : Millis) : Replay × List Output :=
  let (card, wakings) := r.dashboard.card.wakeUntil limit none
  let (renderer, outputs) := showWakings r.renderer wakings
  ({ r with dashboard := { r.dashboard with card }, renderer }, outputs)

/-- Cuts the hub off or connects it, where the step says so. -/
def switchHub (r : Replay) (s : Step) : Replay × List Output :=
  match s.offline with
  | some offline =>
    ({ r with dashboard := r.dashboard.setOffline offline },
      [note (if offline then "hub offline" else "hub online")])
  | none => (r, [])

def switchMode (r : Replay) (s : Step) : Replay :=
  match s.dark with
  | some dark => { r with dashboard := { r.dashboard with dark } }
  | none => r

/-- Adds the entities of a step, each under the id it is listed by. -/
def learn (r : Replay) (entities : Dict Entity) : Replay :=
  { r with
    entities := entities.foldl (fun known (id, e) => known.insert id { e with id }) r.entities }

/-- Updates the card, where the step brings entities or a mode. -/
def refresh (r : Replay) (s : Step) : Replay × List Output :=
  if s.entities.isSome || s.dark.isSome then
    let r := r.learn (s.entities.getD Dict.empty)
    let (dashboard, acts, view) := r.dashboard.updateFrom r.entities s.time
    ({ r with dashboard }, logOf acts ++ [.line (r.renderer.line view)])
  else (r, [])

def obey (r : Replay) (s : Step) : Replay × List Output :=
  match s.command with
  | some command =>
    let (dashboard, acts, view) := r.dashboard.handle command s.time
    ({ r with dashboard }, logOf acts ++ lineOf r.renderer view)
  | none => (r, [])

/-- Plays one step. -/
def play (r : Replay) (s : Step) : Replay × List Output :=
  let r := { r with lastTime := s.time }
  let (r, woken) := r.wakeUntil s.time
  let r := { r with renderer := r.renderer.setTime s.time }
  let (r, switched) := r.switchHub s
  let (r, refreshed) := (r.switchMode s).refresh s
  let (r, obeyed) := r.obey s
  let (dashboard, _) := r.dashboard.writeBack
  ({ r with dashboard }, woken ++ switched ++ refreshed ++ obeyed)

/-- Plays the line with a number. Time must not run backwards. -/
def feed (r : Replay) (number : Nat) (line : String) : Except Fault (Replay × List Output) :=
  if isComment line then .ok (r, [])
  else
    match Step.decoder.ofText line with
    | .error fault => .error (.unreadable number fault)
    | .ok s =>
      if s.time < r.lastTime then .error (.backwards number s.time r.lastTime)
      else .ok (r.play s)

/-- Lets all the time there is pass, and sums up. -/
def finish (r : Replay) : List Output :=
  let (r, woken) := r.wakeUntil Millis.last
  woken ++
    [note
      ("script done: " ++ Numeral.natText r.dashboard.calls.length ++ " service calls, "
        ++ Numeral.natText r.dashboard.style.length ++ " style properties set")]

/-- Plays the lines of a script, numbered from `number` on, and gives what comes out up to its end
or up to the line that cannot be played. -/
def run (r : Replay) : Nat → List String → List Output × Option Fault
  | _, [] => (r.finish, none)
  | number, line :: lines =>
    match r.feed number line with
    | .error fault => ([], some fault)
    | .ok (r, first) =>
      let (rest, fault) := r.run (number + 1) lines
      (first ++ rest, fault)

end Replay

end HubCard.Script
