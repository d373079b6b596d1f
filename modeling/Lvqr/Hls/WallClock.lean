import Lvqr.Hls.Conservation
import Lvqr.Lib.Carry
import Mathlib.Algebra.BigOperators.Ring.List

set_option autoImplicit false

-- The wall-clock stamps of closed segments: each starts where the milliseconds of
-- the segments before it add up to, every one of them rounded down by itself.
namespace Lvqr.Hls

open PlaylistBuilder

def millisTimes (ticks : List Nat) : List Nat := ticks.map (· * 1000)

def elapsedMillis (timescale : Nat) (ticks : List Nat) : Nat := Carry.quotients timescale (millisTimes ticks)

def segmentTicks (history : List (ClosedSegment Cmaf.CmafChunk)) : List Nat :=
  history.map (·.segment.durationTicks)

structure Clocked (builder : PlaylistBuilder) (ledger : Ledger Cmaf.CmafChunk) : Prop where
  elapsed : builder.cumulativeDurationMillis = elapsedMillis builder.config.timescale (segmentTicks ledger.history)
  stamps : ∀ before closed, before ++ [closed] <+: ledger.history →
    closed.segment.programDateTimeMillis =
      builder.config.programDateTimeBase.map (· + elapsedMillis builder.config.timescale (segmentTicks before))

end Lvqr.Hls
