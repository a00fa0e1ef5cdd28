import HubCard.Card
import HubCard.Json.Printer

/-!
A dashboard in memory with one card on it. It holds the themes and the style of the card, takes the
calls of the card or refuses all of them, and shows what became of every act.
-/

namespace HubCard

structure Dashboard where
  card : Card
  themes : Dict Theme
  dark : Bool
  /-- Why every call is refused at the moment, if it is. -/
  refusal : Option CallError
  style : Dict String
  /-- The calls accepted so far, the oldest first. -/
  calls : List Call

namespace Dashboard

def new (card : Card) (themes : Dict Theme) (dark : Bool) : Dashboard :=
  ⟨card, themes, dark, none, Dict.empty, []⟩

def answer (d : Dashboard) : Answer :=
  fun _ => d.refusal

def host (d : Dashboard) : Host :=
  ⟨d.themes, d.dark, d.answer⟩

/-- The dashboard once the acts of an operation have come to it. -/
def absorb (d : Dashboard) (p : Pass) : Dashboard :=
  { d with
    card := p.card
    style := Mutation.runAll d.style (p.acts.filterMap Act.mutation?)
    calls := d.calls ++ p.acts.filterMap Act.accepted? }

/-- Cuts the hub off, so that every call fails, or connects it again. -/
def setOffline (d : Dashboard) (offline : Bool) : Dashboard :=
  { d with refusal := if offline then some (.unavailable "hub offline") else none }

def update (d : Dashboard) (hub : HubReport) (selector : SelectorReport) (now : Millis) :
    Dashboard × List Act × View :=
  let (p, view) := d.card.update d.host hub selector now
  (d.absorb p, p.acts, view)

def updateFrom (d : Dashboard) (entities : Dict Entity) (now : Millis) :
    Dashboard × List Act × View :=
  let (p, view) := d.card.updateFrom d.host entities now
  (d.absorb p, p.acts, view)

def handle (d : Dashboard) (command : Command) (now : Millis) :
    Dashboard × List Act × Option View :=
  let (p, view) := d.card.handle d.answer command now
  (d.absorb p, p.acts, view)

def wake (d : Dashboard) (now : Millis) : Dashboard × List Act × Option View :=
  let (p, view) := d.card.wake now
  (d.absorb p, p.acts, view)

def writeBack (d : Dashboard) : Dashboard × Option String :=
  let (card, value) := d.card.writeBack
  ({ d with card }, value)

end Dashboard

/-- The line that an act leaves in the log: every event, and every call that was accepted. -/
def Act.log? : Act → Option LogLine
  | .event e => some e.log
  | .call c none => some ⟨.info, "SIM | " ++ c.name ++ " " ++ c.data.render⟩
  | _ => none

end HubCard
