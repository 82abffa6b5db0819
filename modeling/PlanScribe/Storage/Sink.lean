import PlanScribe.Storage.Bytes

/-!
# Sinks

A sink takes bytes a few at a time, may refuse to take more than a fixed number of them, and may
fail to flush. Writing a text means offering the bytes that are left until all are stored or the
sink takes none.
-/
namespace PlanScribe

/-- Where a document is delivered: the bytes stored and the flushes tried so far, and what the sink
allows. -/
structure Sink where
  stored : Bytes := []
  flushes : Nat := 0
  /-- The most bytes taken at once. -/
  chunk : Option Nat := none
  /-- The most bytes stored at all. -/
  limit : Option Nat := none
  failFlush : Bool := false
deriving DecidableEq, Repr

namespace Sink

/-- How many of the offered bytes the sink takes at once. -/
def accepts (sink : Sink) (offered : Nat) : Nat :=
  let room := match sink.limit with
    | some limit => limit - sink.stored.length
    | none => offered
  let chunk := sink.chunk.getD offered
  min offered (min chunk room)

/-- Offers the bytes at most `attempts` times; tells whether all were stored. -/
def feed : Nat → Sink → Bytes → Sink × Bool
  | _, sink, [] => (sink, true)
  | 0, sink, _ :: _ => (sink, false)
  | attempts + 1, sink, bytes =>
    match sink.accepts bytes.length with
    | 0 => (sink, false)
    | taken + 1 =>
      feed attempts { sink with stored := sink.stored ++ bytes.take (taken + 1) }
        (bytes.drop (taken + 1))

/-- Stores as many of the bytes as the sink takes; tells whether all were stored. -/
def writeAll (sink : Sink) (bytes : Bytes) : Sink × Bool := feed bytes.length sink bytes

/-- Tries to flush, which counts also when it fails. -/
def flush (sink : Sink) : Sink × Bool :=
  ({ sink with flushes := sink.flushes + 1 }, !sink.failFlush)

/-- Writes the bytes and flushes once all of them are stored. -/
def deliver (sink : Sink) (bytes : Bytes) : Sink × Bool :=
  match sink.writeAll bytes with
  | (written, true) => written.flush
  | (written, false) => (written, false)

end Sink

end PlanScribe
