import HubCard.Json.Printer
import HubCard.View

/-!
A renderer that prints each view as one line of JSON, stamped with the time it was last set to.
-/

namespace HubCard

structure Renderer where
  time : Millis
  deriving Repr, DecidableEq

namespace Renderer

def new : Renderer := ⟨0⟩

/-- Sets the time of the lines that follow. -/
def setTime (r : Renderer) (time : Millis) : Renderer :=
  { r with time }

/-- The line that it prints for a view. -/
def line (r : Renderer) (v : View) : String :=
  (Json.obj [("at", .int r.time.toNat), ("render", v.toJson)]).render

end Renderer

end HubCard
