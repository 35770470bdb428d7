import BeaconBroadcast.Json.Layout
import BeaconBroadcast.Validation.Level

/-!
# `BeaconBroadcast.Wire.Validation` — levels and verdicts as documents

A level is a name. A verdict is a name too, except for the one that carries the level reached.
-/

namespace BeaconBroadcast

open Json

namespace Level

def toJson (l : Level) : Value := .name l.name

def ofJson : Decoder Level := .choice (all.map fun l => (l.name, Decoder.plain l))

end Level

namespace Verdict

def toJson : Verdict → Value
  | success => .name "Success"
  | gossipFailure => .name "GossipFailure"
  | consensusFailure => .name "ConsensusFailure"
  | equivocation => .name "EquivocationFailure"
  | insufficient reached =>
      .record [("InsufficientLevel", .record [("reached", reached.toJson)])]

/-- What an insufficient validation carries. -/
def reachedLayout := Layout.need "reached" Level.ofJson .done

def ofJson : Decoder Verdict := .choice [
  ("Success", Decoder.plain success),
  ("GossipFailure", Decoder.plain gossipFailure),
  ("ConsensusFailure", Decoder.plain consensusFailure),
  ("EquivocationFailure", Decoder.plain equivocation),
  ("InsufficientLevel", Decoder.carrying fun v => do
    let (reached, ()) ← reachedLayout.decoder v
    return insufficient reached)]

end Verdict

end BeaconBroadcast
