import JitTrace.Fault

/-! # Byte streams

A stream is what a sequence of reads will deliver: bytes in pieces of any size, interruptions, and
failures. It is a finite list, and reading past its end finds the end again. A read delivers bytes
of one piece only.
-/

namespace JitTrace

/-- One piece of a stream. -/
inductive Piece where
  | data (bytes : List UInt8)
  /-- A read that asks to be repeated. -/
  | interrupted
  | failure (fault : IoFault)
  deriving DecidableEq, Repr

/-- The pieces that reads will deliver, in order. -/
abbrev Stream := List Piece

/-- What a read found. -/
inductive Delivery where
  | data (bytes : List UInt8)
  | failed (fault : IoFault)
  | ended
  deriving DecidableEq, Repr

namespace Stream

/-- A stream that delivers the given bytes. -/
def ofBytes (bytes : List UInt8) : Stream :=
  [.data bytes]

/-- Reads at most `size` bytes. An interrupted read is repeated, and an empty piece is no
delivery of its own. -/
def read (size : Nat) : Stream → Delivery × Stream
  | [] => (.ended, [])
  | .interrupted :: rest => read size rest
  | .failure fault :: rest => (.failed fault, rest)
  | .data [] :: rest => read size rest
  | .data (byte :: bytes) :: rest =>
    if ((byte :: bytes).drop size).isEmpty then (.data (byte :: bytes), rest)
    else (.data ((byte :: bytes).take size), .data ((byte :: bytes).drop size) :: rest)

/-- A bound on the number of reads that deliver something. -/
def weight : Stream → Nat
  | [] => 0
  | .data bytes :: rest => bytes.length + 1 + weight rest
  | .interrupted :: rest => 1 + weight rest
  | .failure _ :: rest => 1 + weight rest

/-- Reading bytes takes at least their number off the weight. -/
theorem length_add_weight_le {size : Nat} {stream rest : Stream} {bytes : List UInt8}
    (hread : stream.read size = (.data bytes, rest)) :
    bytes.length + weight rest ≤ weight stream := by
  -- The read passes over an interruption in `case2` and over an empty piece in `case4`, and takes
  -- a piece as a whole in `case5` and the front of one in `case6`.
  fun_induction read size stream with
  | case1 => cases hread
  | case2 pieces ih =>
      have hpieces := ih hread
      simp only [weight]
      omega
  | case3 => cases hread
  | case4 pieces ih =>
      have hpieces := ih hread
      simp only [weight]
      omega
  | case5 byte tail pieces _ =>
      cases hread
      simp only [weight]
      omega
  | case6 byte tail pieces _ =>
      cases hread
      simp only [weight, List.length_take, List.length_drop]
      omega

/-- A read of at least one byte delivers at least one. -/
theorem length_pos_of_read {size : Nat} (hsize : 0 < size) {stream rest : Stream}
    {bytes : List UInt8} (hread : stream.read size = (.data bytes, rest)) :
    0 < bytes.length := by
  fun_induction read size stream with
  | case1 | case3 => cases hread
  | case2 pieces ih | case4 pieces ih => exact ih hread
  | case5 byte tail pieces _ =>
      cases hread
      exact Nat.succ_pos tail.length
  | case6 byte tail pieces _ =>
      cases hread
      rw [List.length_take]
      exact Nat.lt_min.mpr ⟨hsize, Nat.succ_pos tail.length⟩

/-- A failed read takes its piece off the weight. -/
theorem weight_lt_of_failed {size : Nat} {stream rest : Stream} {fault : IoFault}
    (hread : stream.read size = (.failed fault, rest)) : weight rest < weight stream := by
  fun_induction read size stream with
  | case1 | case5 | case6 => cases hread
  | case2 pieces ih =>
      have hpieces := ih hread
      simp only [weight]
      omega
  | case3 fault pieces =>
      cases hread
      simp only [weight]
      omega
  | case4 pieces ih =>
      have hpieces := ih hread
      simp only [weight]
      omega

end Stream

end JitTrace
