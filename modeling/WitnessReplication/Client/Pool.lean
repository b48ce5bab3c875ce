import WitnessReplication.FairLock
import WitnessReplication.Message
import WitnessReplication.Transport.Error

/-!
# Pool — a connection to each member, opened when it is needed

    Every member has a slot with at most one connection.  Whoever wants to use it lines up at the
    slot's lock and keeps it for a whole exchange, so that exchanges with different members never
    wait for each other and exchanges with one member never mix.

* **`Pool.enroll`** — lets somebody line up for an exchange, unless the pool is closed or has no
  such slot; checking and lining up are one step.
* **`Pool.lineUp`** — lets somebody line up who does not want an exchange.
-/

namespace WitnessReplication

/-- A member's slot: whether a connection is open, and who holds or wants it. -/
structure Slot where
  address   : Address
  connected : Bool := false
  lock      : FairLock := {}
  deriving DecidableEq, Inhabited

/-- One slot per member, in the order of the member list. -/
structure Pool where
  slots  : List Slot
  closed : Bool := false
  deriving DecidableEq, Inhabited

namespace Pool

/-- A pool without connections. -/
def ofMembers (members : List Address) : Pool := ⟨members.map fun a => { address := a }, false⟩

/-- How many members there are. -/
def size (p : Pool) : Nat := p.slots.length

/-- The place of the first member with an address. -/
def indexOf? (p : Pool) (a : Address) : Option Nat := p.slots.findIdx? fun s => s.address = a

/-- The address of a member; of a place without one, an empty address. -/
def address (p : Pool) (i : Nat) : Address :=
  match p.slots[i]? with
  | some s => s.address
  | none   => ⟨""⟩

/-- Changes one slot. -/
def modify (p : Pool) (i : Nat) (f : Slot → Slot) : Pool := { p with slots := p.slots.modify i f }

/-- Whether somebody is first in line at a slot. -/
def holds (p : Pool) (i who : Nat) : Bool :=
  match p.slots[i]? with
  | some s => s.lock.holds who
  | none   => false

/-- Whether a slot has a connection. -/
def connected (p : Pool) (i : Nat) : Bool :=
  match p.slots[i]? with
  | some s => s.connected
  | none   => false

/-- Lines up at a slot. -/
def lineUp (p : Pool) (i who : Nat) : Pool := p.modify i fun s => { s with lock := s.lock.join who }

/-- Lines up at a slot for an exchange, unless the pool is closed or there is no such slot. -/
def enroll (p : Pool) (i who : Nat) : Except TransportError Pool :=
  if p.closed then .error ⟨.connect, "Connection pool is closed"⟩
  else if i < p.size then .ok (p.lineUp i who)
  else .error ⟨.connect, s!"No cluster member at index {i}"⟩

/-- Leaves the line at a slot. -/
def leave (p : Pool) (i who : Nat) : Pool := p.modify i fun s => { s with lock := s.lock.leave who }

/-- Leaves every line. -/
def leaveAll (p : Pool) (who : Nat) : Pool :=
  { p with slots := p.slots.map fun s => { s with lock := s.lock.leave who } }

/-- Keeps a new connection. -/
def connect (p : Pool) (i : Nat) : Pool := p.modify i fun s => { s with connected := true }

/-- Drops a connection. -/
def disconnect (p : Pool) (i : Nat) : Pool := p.modify i fun s => { s with connected := false }

/-- Refuses exchanges from now on. -/
def close (p : Pool) : Pool := { p with closed := true }

/-! ## The number of slots never changes -/

@[simp] theorem size_modify (p : Pool) (i : Nat) (f : Slot → Slot) :
    (p.modify i f).size = p.size := by
  simp [size, modify]

@[simp] theorem size_lineUp (p : Pool) (i who : Nat) : (p.lineUp i who).size = p.size :=
  p.size_modify i _

@[simp] theorem size_leave (p : Pool) (i who : Nat) : (p.leave i who).size = p.size :=
  p.size_modify i _

@[simp] theorem size_leaveAll (p : Pool) (who : Nat) : (p.leaveAll who).size = p.size := by
  simp [size, leaveAll]

@[simp] theorem size_connect (p : Pool) (i : Nat) : (p.connect i).size = p.size :=
  p.size_modify i _

@[simp] theorem size_disconnect (p : Pool) (i : Nat) : (p.disconnect i).size = p.size :=
  p.size_modify i _

/-- A pool lets somebody line up exactly if it is open and has the slot. -/
theorem enroll_eq_ok_iff {p q : Pool} {i who : Nat} :
    p.enroll i who = .ok q ↔ p.closed = false ∧ i < p.size ∧ q = p.lineUp i who := by
  unfold enroll
  cases hc : p.closed with
  | true  => simp
  | false =>
      by_cases hi : i < p.size
      · simp [hi, eq_comm]
      · simp [hi]

end Pool

end WitnessReplication
