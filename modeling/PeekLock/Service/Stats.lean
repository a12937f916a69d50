import PeekLock.Decimal.Rounded
import PeekLock.Log

/-!
# PeekLock.Service.Stats

The counters of the service: how many messages it sent, processed and
rejected.  They count in 64 bits and wrap around.
-/

namespace PeekLock.Service

/-- The counters, and when counting started. -/
structure Stats where
  sent : UInt64 := 0
  processed : UInt64 := 0
  failed : UInt64 := 0
  deriving DecidableEq, Repr, Inhabited

namespace Stats

/-- Counts messages that were sent. -/
def recordSent (s : Stats) (count : UInt64) : Stats := { s with sent := s.sent + count }

/-- Counts a message that was processed. -/
def recordProcessed (s : Stats) : Stats := { s with processed := s.processed + 1 }

/-- Counts a message that was rejected. -/
def recordFailed (s : Stats) : Stats := { s with failed := s.failed + 1 }

/-- A number of milliseconds as a double. -/
def millisToFloat (ms : Int) : Float :=
  let x := ms.natAbs.toUInt64.toFloat
  if ms < 0 then -x else x

/-- Messages handled per minute, so many milliseconds after the start; zero
while no time has passed. -/
def ratePerMinute (s : Stats) (elapsedMs : Int) : Float :=
  let minutes := millisToFloat elapsedMs / 60000.0
  if 0.0 < minutes then (s.processed + s.failed).toFloat / minutes else 0.0

/-- The line that reports the counters, so many milliseconds after the start. -/
def report (s : Stats) (elapsedMs : Int) : LogRecord :=
  let seconds := Int.tdiv elapsedMs 1000
  let rate := Decimal.fixed 1 (s.ratePerMinute elapsedMs)
  ⟨.info, .part "demo_service::stats",
    s!"Statistics after {seconds}s: sent {s.sent}, processed {s.processed}, " ++
      s!"failed {s.failed} ({rate}/min)"⟩

end Stats

end PeekLock.Service
