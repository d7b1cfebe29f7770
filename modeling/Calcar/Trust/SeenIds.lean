import Calcar.Trust

/-!
# Seen ids

`SeenIDs` of `backend/trust/trust.go`, a replay cache for ids that live for a
given time.  The lock makes each call one step.
-/

namespace Calcar.Trust

/-- `SeenIDs`: the instant from which each stored id may be used again. -/
structure SeenIDs where
  expires : String → Option Int

/-- `NewSeenIDs`. -/
def newSeenIDs : SeenIDs := ⟨fun _ => none⟩

namespace SeenIDs

/-- `Seen`: whether an id is live. -/
def seen (c : SeenIDs) (id : String) (nowMillis : Int) : Bool :=
  match c.expires id with
  | some exp => decide (nowMillis < exp)
  | none => false

/-- `Add`. -/
def add (c : SeenIDs) (id : String) (nowMillis ttlMillis : Int) :
    Except TrustError Unit × SeenIDs :=
  if id = "" then (.error ⟨.invalidInput, "id required"⟩, c)
  else if c.seen id nowMillis = true then (.error ⟨.replayedId, "id already seen"⟩, c)
  else
    (.ok (), { expires := fun id' =>
      if id' = id then some (wrap64 (nowMillis + ttlMillis)) else c.expires id' })

/-- `Purge`: the ids at or past their instant go. -/
def purge (c : SeenIDs) (nowMillis : Int) : SeenIDs :=
  { expires := fun id => (c.expires id).filter fun exp => !decide (exp ≤ nowMillis) }

end SeenIDs

end Calcar.Trust
