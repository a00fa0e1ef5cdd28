import HubCard.Selector.Machine

/-!
The activity selector as the card sees it: picks of the user go in through `pick`, the hub's word and
the clock through `settle`. What the control should show comes out through `writeBack`, which never
feeds the machine, so that the card does not react to its own writing.
-/

namespace HubCard.Selector

structure Control where
  machine : Machine
  /-- The value that was last written to the control. -/
  written : Option String
  deriving Repr, DecidableEq

namespace Control

def new (expiry : Millis) : Control :=
  ⟨⟨.idle, .new expiry⟩, none⟩

def phase (c : Control) : Phase :=
  c.machine.phase

def request (c : Control) : Option Request :=
  c.machine.memory.request

/-- What the selector shows, as of the last time the machine was told. -/
def shown (c : Control) : String :=
  c.machine.memory.shown

/-- One step of the machine. What has gathered in the outbox is given out. -/
def advance (c : Control) : Control × List Action :=
  let (after, _) := c.machine.step
  ({ c with machine := { after with memory := { after.memory with outbox := [] } } },
    after.memory.outbox)

/-- Sets the value that the hub confirms, and the time. -/
def observe (c : Control) (confirmed : String) (now : Millis) : Control :=
  { c with machine := { c.machine with memory := { c.machine.memory with now, confirmed } } }

/-- Leaves a pick of the user for the next step. -/
def choose (c : Control) (value : String) : Control :=
  { c with machine := { c.machine with memory := { c.machine.memory with picked := some value } } }

/-- Takes in the value that the hub confirms, and the time. -/
def settle (c : Control) (confirmed : String) (now : Millis) : Control × List Action :=
  (c.observe confirmed now).advance

/-- Takes in a pick of the user. What is shown already is not asked for again. -/
def pick (c : Control) (value confirmed : String) (now : Millis) : Control × List Action :=
  let (c, first) := c.settle confirmed now
  if value = c.shown then (c, first)
  else
    let (c, second) := (c.choose value).advance
    (c, first ++ second)

/-- The value to write to the control, if it is not the one written last. -/
def writeBack (c : Control) : Control × Option String :=
  if c.written = some c.shown then (c, none)
  else ({ c with written := some c.shown }, some c.shown)

/-- How the last request ended, given out once. -/
def takeOutcome (c : Control) : Control × Option Outcome :=
  ({ c with machine := { c.machine with memory := { c.machine.memory with outcome := none } } },
    c.machine.memory.outcome)

end Control

end HubCard.Selector
