import HubCard.Millis

/-!
The state machine of the activity selector. In `idle` the selector shows what the hub confirms; in
`pending` it shows what the user has asked for, until the hub confirms it or the request expires.
-/

namespace HubCard.Selector

structure Request where
  value : String
  start : Millis
  deriving Repr, DecidableEq

/-- What the machine asks of the card. -/
inductive Action where
  | selectOption (value : String)
  | startLoading (value : String)
  | stopLoading
  deriving Repr, DecidableEq

/-- How a request ended. -/
inductive Outcome where
  | confirmed (value : String)
  | expired (value : String)
  deriving Repr, DecidableEq

inductive Phase where
  | idle
  | pending
  deriving Repr, DecidableEq

namespace Phase

def all : List Phase := [.idle, .pending]

def name : Phase → String
  | .idle => "idle"
  | .pending => "pending"

/-- The name in a table of the phases. -/
def title : Phase → String
  | .idle => "Idle"
  | .pending => "Pending"

end Phase

/-- What the phases work on: inputs, the request, and outputs that wait to be collected. -/
structure Memory where
  now : Millis
  confirmed : String
  /-- What the user has picked since the last step. -/
  picked : Option String
  request : Option Request
  expiry : Millis
  outbox : List Action
  outcome : Option Outcome
  deriving Repr, DecidableEq

namespace Memory

def new (expiry : Millis) : Memory :=
  ⟨0, "", none, none, expiry, [], none⟩

def isExpired (m : Memory) : Bool :=
  match m.request with
  | some r => m.expiry < Millis.since m.now r.start
  | none => false

/-- What the selector shows: the request while it has not expired, else the confirmed value. -/
def shown (m : Memory) : String :=
  match m.request with
  | some r => if m.isExpired then m.confirmed else r.value
  | none => m.confirmed

def clearRequest (m : Memory) : Memory :=
  { m with request := none }

def startRequest (m : Memory) (value : String) : Memory :=
  { m with request := some ⟨value, m.now⟩ }

/-- Asks the card to send the request and to show it as loading. -/
def ask (m : Memory) : Memory :=
  match m.request with
  | some r => { m with outbox := m.outbox ++ [.selectOption r.value, .startLoading r.value] }
  | none => m

def enterPending (m : Memory) : Memory :=
  { m with outcome := none }.ask

/-- A step while idle: a value other than the confirmed one becomes a request. -/
def idleStep (m : Memory) : Memory × Option Phase :=
  match m.picked with
  | none => (m, none)
  | some value =>
    let m := { m with picked := none }
    if value = m.confirmed then (m, none) else (m.startRequest value, some .pending)

/-- Replaces the request by a value picked in the meantime, unless it asks for the same. -/
def replaceRequest (m : Memory) : Memory :=
  match m.picked with
  | none => m
  | some value =>
    let m := { m with picked := none }
    if m.request.any (·.value == value) then m else (m.startRequest value).ask

/-- A step while pending: the request may be replaced, and then be confirmed or expire. -/
def pendingStep (m : Memory) : Memory × Option Phase :=
  let m := m.replaceRequest
  match m.request with
  | none => (m, none)
  | some r =>
    if m.confirmed = r.value then
      ({ m with outbox := m.outbox ++ [.stopLoading], outcome := some (.confirmed r.value) },
        some .idle)
    else if m.isExpired then
      ({ m with outcome := some (.expired r.value) }, some .idle)
    else (m, none)

end Memory

namespace Phase

/-- What is done on the way into a phase, if anything. -/
def onEnter? : Phase → Option (Memory → Memory)
  | .idle => some Memory.clearRequest
  | .pending => some Memory.enterPending

/-- What is done on the way out of a phase, if anything. -/
def onLeave? : Phase → Option (Memory → Memory)
  | .idle => none
  | .pending => some Memory.clearRequest

def step : Phase → Memory → Memory × Option Phase
  | .idle => Memory.idleStep
  | .pending => Memory.pendingStep

end Phase

structure Machine where
  phase : Phase
  memory : Memory
  deriving Repr, DecidableEq

namespace Machine

def move (s : Machine) (next : Phase) : Machine :=
  let left := (s.phase.onLeave?.getD id) s.memory
  ⟨next, (next.onEnter?.getD id) left⟩

/-- One step, and the phases it leads from and to if it changes the phase. -/
def step (s : Machine) : Machine × Option (Phase × Phase) :=
  match s.phase.step s.memory with
  | (memory, none) => (⟨s.phase, memory⟩, none)
  | (memory, some next) => ((⟨s.phase, memory⟩ : Machine).move next, some (s.phase, next))

end Machine

end HubCard.Selector
