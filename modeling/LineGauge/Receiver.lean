import LineGauge.Text.Utf8

/-! Receivers of bytes. What is offered to a receiver is taken in calls: each takes some of the
bytes at the front and leaves the rest to the next one. A receiver with limited room takes that many
bytes in total, and a call that finds no room left is a failure. Nothing is held back, so there is
nothing to flush. -/
namespace LineGauge

structure Receiver where
  /-- How many bytes are taken in total; any number if not given. -/
  room : Option Nat := none
  /-- How many bytes a call would take, by the bytes taken before it and the bytes on offer. A call
  takes at least one, and no more than there are. -/
  appetite : Bytes → Bytes → Nat := fun _ offer => offer.length
  taken : Bytes := []

namespace Receiver

/-- How many bytes there is still room for, if there is a limit. -/
def left (w : Receiver) : Option Nat := w.room.map (· - w.taken.length)

/-- How many of the bytes on offer the next call takes. -/
def share (w : Receiver) (offer : Bytes) : Nat :=
  let wanted := min (max 1 (w.appetite w.taken offer)) offer.length
  match w.left with
  | none => wanted
  | some n => min wanted n

/-- The receiver after a call that took these bytes. -/
def add (w : Receiver) (bytes : Bytes) : Receiver := { w with taken := w.taken ++ bytes }

/-- Calls on the receiver until it has taken all bytes on offer, or until a call takes nothing. -/
def offer (w : Receiver) (bytes : Bytes) : Receiver × Bool :=
  if 0 < bytes.length then
    let n := w.share bytes
    if 0 < n then offer (w.add (bytes.take n)) (bytes.drop n) else (w, false)
  else (w, true)
termination_by bytes.length
decreasing_by
  rw [List.length_drop]
  omega

/-- Offers one part after the other, as long as each is taken as a whole. -/
def offerAll (w : Receiver) : List Bytes → Receiver × Bool
  | [] => (w, true)
  | part :: parts =>
    match w.offer part with
    | (w, true) => offerAll w parts
    | (w, false) => (w, false)

end Receiver

end LineGauge
