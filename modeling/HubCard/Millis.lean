/-!
Points in time and spans of time, in whole milliseconds of 64 bits. Arithmetic stops at both ends of
the range.
-/

namespace HubCard

abbrev Millis := UInt64

namespace Millis

/-- The last point in time there is. -/
def last : Millis := .ofNat (UInt64.size - 1)

/-- The point in time a span after `t`, or the last one. -/
def later (t span : Millis) : Millis :=
  .ofNat (min (t.toNat + span.toNat) (UInt64.size - 1))

/-- How long ago `start` was at time `now`; nothing when it is still to come. -/
def since (now start : Millis) : Millis :=
  .ofNat (now.toNat - start.toNat)

theorem toNat_last : last.toNat = UInt64.size - 1 := rfl

theorem toNat_later (t span : Millis) :
    (later t span).toNat = min (t.toNat + span.toNat) (UInt64.size - 1) := by
  simp only [later, UInt64.toNat_ofNat', UInt64.size]
  omega

theorem toNat_since (now start : Millis) : (since now start).toNat = now.toNat - start.toNat := by
  have := now.toNat_lt
  simp only [since, UInt64.toNat_ofNat']
  omega

end Millis

end HubCard
