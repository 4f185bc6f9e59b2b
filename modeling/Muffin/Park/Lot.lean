-- SUMMARY: The lock-free parking lot of `kernel_park` as a system of slots and ticket-holding objects, stepped one atomic operation at a time.
import Mathlib

/-!
# The parking lot

A `ParkingLot` is an unbounded sequence of slots. Each slot has a state byte
(`Empty`, `Reserved`, `Occupied`, `Unparked`) and a value cell. Everything
that refers to a slot is an object of the system: reservations, park and
unpark tickets, operations in the middle of their second atomic step, waker
clones with the pointer they share, and ticket cells.

`Lot` holds the slots and the multiset of live objects. `Step` is one atomic
operation of any thread on the objects it picks. The accesses to the value
cell are made by the owner of the right the state byte grants, so each sits
with the atomic operation on the state byte that orders it: the write of
`park` with its exchange, and the read after a failed exchange with the
store of `Empty` that follows it.

Three fields are ghost state, kept only to state the protocol: the claim
number of every reservation (a slot is reused, a claim is not), the value
each `park` was given, and the result each `park`, `unpark` and `wake`
returned.
-/

namespace Muffin.Park

/-- `State`, the state byte of a slot. -/
inductive State where
  | empty
  | reserved
  | occupied
  | unparked
  deriving DecidableEq, Repr

/-- `Slot<T>`: the state byte, the `MaybeUninit<T>` cell, and the ghost number of the claim
    that reserved it last. An uninitialised cell holds an arbitrary value. -/
structure Slot (α : Type) where
  state : State
  value : α
  claim : Nat

/-- A slot as a ticket holds it, tagged with the claim the ticket comes from. -/
structure Ref where
  slot : Nat
  claim : Nat
  deriving DecidableEq, Repr

/-- The result of `ParkTicket::park`: `Ok(())`, or `Err(ParkError::Unparked(value))`. -/
inductive ParkResult (α : Type) where
  | ok
  | unparked (value : α)

/-- The live objects that carry a right over a slot or hold one. -/
inductive Obj (α : Type) where
  /-- `Reservation`: both rights of a claimed slot. -/
  | reservation (r : Ref)
  /-- `ParkTicket`. -/
  | parkTicket (r : Ref)
  /-- `UnparkTicket`; `waker = some w` when it is the ticket `Waker::wake` of waker `w`
      rebuilt from the pointer it swapped out. -/
  | unparkTicket (r : Ref) (waker : Option Nat)
  /-- `park` after its exchange failed: it still has to read its value back and release. -/
  | parkFailed (r : Ref)
  /-- `unpark` after its exchange failed: it still has to take the value and release. -/
  | unparkTaking (r : Ref) (waker : Option Nat)
  /-- One clone of `Waker` number `w`. -/
  | waker (w : Nat)
  /-- The `AtomicPtr` that all clones of waker `w` share. -/
  | wakerPtr (w : Nat) (ptr : Option Ref)
  /-- `ParkTicketCell`. -/
  | parkCell (held : Option Ref)
  /-- `UnparkTicketCell`. -/
  | unparkCell (held : Option Ref)

/-- The state of a lot and of everything that refers to it. -/
structure Lot (α : Type) where
  slots : Nat → Slot α
  objs : Multiset (Obj α)
  /-- Ghost: the number the next claim gets. -/
  claims : Nat
  /-- Ghost: the number the next waker gets. -/
  wakers : Nat
  /-- Ghost: the value each claim's `park` was given. -/
  parked : Ref → Option α
  /-- Ghost: what each claim's `park` returned. -/
  parkResult : Ref → Option (ParkResult α)
  /-- Ghost: what each claim's `unpark` returned. -/
  unparkResult : Ref → Option (Option α)
  /-- Ghost: the calls of each waker whose pointer swap found the slot. -/
  wakeHits : Nat → Nat
  /-- Ghost: the calls of each waker that returned `Some`. -/
  wakeSome : Nat → Nat

variable {α : Type}

-- ---------------------------------------------------------------------------
-- Atomic operations on one slot and one cell
-- ---------------------------------------------------------------------------

namespace Slot

/-- `ParkingLot::claim`: `compare_exchange(Empty, Reserved)`. -/
def claimCas (s : Slot α) (claim : Nat) : Option (Slot α) :=
  if s.state = .empty then some { s with state := .reserved, claim := claim } else none

/-- `Reservation::release`, and the final `store(Empty)` of `park` and `unpark`. -/
def release (s : Slot α) : Slot α := { s with state := .empty }

/-- The first step of `ParkTicket::park`: write the value, then
    `compare_exchange(Reserved, Occupied)`. -/
def parkCas (s : Slot α) (v : α) : Bool × Slot α :=
  let s := { s with value := v }
  if s.state = .reserved then (true, { s with state := .occupied }) else (false, s)

/-- The first step of `UnparkTicket::unpark`: `compare_exchange(Reserved, Unparked)`. -/
def unparkCas (s : Slot α) : Bool × Slot α :=
  if s.state = .reserved then (true, { s with state := .unparked }) else (false, s)

theorem claimCas_eq_some {s s' : Slot α} {c : Nat} (h : s.claimCas c = some s') :
    s.state = .empty ∧ s' = { s with state := .reserved, claim := c } := by
  unfold claimCas at h
  split at h
  · exact ⟨‹_›, (Option.some.inj h).symm⟩
  · cases h

theorem parkCas_eq_true {s s' : Slot α} {v : α} (h : s.parkCas v = (true, s')) :
    s.state = .reserved ∧ s' = { s with value := v, state := .occupied } := by
  unfold parkCas at h
  dsimp only at h
  split at h
  · exact ⟨‹_›, (Prod.mk.inj h).2.symm⟩
  · simp at h

theorem parkCas_eq_false {s s' : Slot α} {v : α} (h : s.parkCas v = (false, s')) :
    s.state ≠ .reserved ∧ s' = { s with value := v } := by
  unfold parkCas at h
  dsimp only at h
  split at h
  · simp at h
  · exact ⟨‹_›, (Prod.mk.inj h).2.symm⟩

theorem unparkCas_eq_true {s s' : Slot α} (h : s.unparkCas = (true, s')) :
    s.state = .reserved ∧ s' = { s with state := .unparked } := by
  unfold unparkCas at h
  split at h
  · exact ⟨‹_›, (Prod.mk.inj h).2.symm⟩
  · simp at h

theorem unparkCas_fst_eq_false {s : Slot α} (h : s.unparkCas.1 = false) :
    s.state ≠ .reserved := by
  unfold unparkCas at h
  split at h
  · simp at h
  · assumption

end Slot

/-- `compare_exchange(null, ptr)` of the cells' `put` and `put_reservation`: store `r` in an
    empty cell, refuse and keep the content otherwise. -/
def cellPut (held : Option Ref) (r : Ref) : Bool × Option Ref :=
  match held with
  | none => (true, some r)
  | some _ => (false, held)

/-- `swap(null)` of the cells' `take` and of `Waker::wake`. -/
def cellTake (held : Option Ref) : Option Ref × Option Ref := (held, none)

-- ---------------------------------------------------------------------------
-- The lot
-- ---------------------------------------------------------------------------

namespace Lot

/-- A new lot: every slot empty, no object yet. Claim numbers start at 1, so no claim
    shares its number with the initial state of a slot. -/
def init [Inhabited α] : Lot α where
  slots := fun _ => ⟨.empty, default, 0⟩
  objs := 0
  claims := 1
  wakers := 0
  parked := fun _ => none
  parkResult := fun _ => none
  unparkResult := fun _ => none
  wakeHits := fun _ => 0
  wakeSome := fun _ => 0

/-- Replace the slot of `r`. -/
def setSlot (σ : Lot α) (i : Nat) (s : Slot α) : Lot α :=
  { σ with slots := Function.update σ.slots i s }

/-- One atomic step of one thread. `rest` is every object the step does not consume. -/
inductive Step : Lot α → Lot α → Prop
  /-- `reserve` and `try_reserve` claim an empty slot. -/
  | claim (σ : Lot α) (i : Nat) (s : Slot α) (h : (σ.slots i).claimCas σ.claims = some s) :
      Step σ { σ.setSlot i s with
        objs := .reservation ⟨i, σ.claims⟩ ::ₘ σ.objs, claims := σ.claims + 1 }
  /-- `Reservation::release`. -/
  | release (σ : Lot α) (r : Ref) (rest : Multiset (Obj α))
      (h : σ.objs = .reservation r ::ₘ rest) :
      Step σ { σ.setSlot r.slot (σ.slots r.slot).release with objs := rest }
  /-- `Reservation::split`. -/
  | split (σ : Lot α) (r : Ref) (rest : Multiset (Obj α))
      (h : σ.objs = .reservation r ::ₘ rest) :
      Step σ { σ with objs := .parkTicket r ::ₘ .unparkTicket r none ::ₘ rest }
  /-- `park(v)` whose exchange succeeds returns `Ok(())`. -/
  | parkOk (σ : Lot α) (r : Ref) (v : α) (rest : Multiset (Obj α)) (s : Slot α)
      (h : σ.objs = .parkTicket r ::ₘ rest) (hcas : (σ.slots r.slot).parkCas v = (true, s)) :
      Step σ { σ.setSlot r.slot s with
        objs := rest, parked := Function.update σ.parked r (some v),
        parkResult := Function.update σ.parkResult r (some .ok) }
  /-- `park(v)` whose exchange fails goes on to its second step. -/
  | parkLose (σ : Lot α) (r : Ref) (v : α) (rest : Multiset (Obj α)) (s : Slot α)
      (h : σ.objs = .parkTicket r ::ₘ rest) (hcas : (σ.slots r.slot).parkCas v = (false, s)) :
      Step σ { σ.setSlot r.slot s with
        objs := .parkFailed r ::ₘ rest, parked := Function.update σ.parked r (some v) }
  /-- The second step of a losing `park`: read the value back, `store(Empty)`, and return
      `Err(Unparked(value))`. -/
  | parkFinish (σ : Lot α) (r : Ref) (rest : Multiset (Obj α))
      (h : σ.objs = .parkFailed r ::ₘ rest) :
      Step σ { σ.setSlot r.slot (σ.slots r.slot).release with
        objs := rest,
        parkResult := Function.update σ.parkResult r (some (.unparked (σ.slots r.slot).value)) }
  /-- `unpark` whose exchange succeeds returns `None`. -/
  | unparkNone (σ : Lot α) (r : Ref) (w : Option Nat) (rest : Multiset (Obj α)) (s : Slot α)
      (h : σ.objs = .unparkTicket r w ::ₘ rest) (hcas : (σ.slots r.slot).unparkCas = (true, s)) :
      Step σ { σ.setSlot r.slot s with
        objs := rest, unparkResult := Function.update σ.unparkResult r (some none) }
  /-- `unpark` whose exchange fails goes on to take the value. -/
  | unparkLose (σ : Lot α) (r : Ref) (w : Option Nat) (rest : Multiset (Obj α))
      (h : σ.objs = .unparkTicket r w ::ₘ rest) (hcas : (σ.slots r.slot).unparkCas.1 = false) :
      Step σ { σ with objs := .unparkTaking r w ::ₘ rest }
  /-- The second step of a losing `unpark`: read the value, `store(Empty)`, return `Some`. -/
  | unparkFinish (σ : Lot α) (r : Ref) (w : Option Nat) (rest : Multiset (Obj α))
      (h : σ.objs = .unparkTaking r w ::ₘ rest) :
      Step σ { σ.setSlot r.slot (σ.slots r.slot).release with
        objs := rest,
        unparkResult := Function.update σ.unparkResult r (some (some (σ.slots r.slot).value)),
        wakeSome := match w with
          | some w => Function.update σ.wakeSome w (σ.wakeSome w + 1)
          | none => σ.wakeSome }
  /-- `UnparkTicket::into_waker`: a fresh shared pointer and its first clone. -/
  | intoWaker (σ : Lot α) (r : Ref) (rest : Multiset (Obj α))
      (h : σ.objs = .unparkTicket r none ::ₘ rest) :
      Step σ { σ with
        objs := .waker σ.wakers ::ₘ .wakerPtr σ.wakers (some r) ::ₘ rest,
        wakers := σ.wakers + 1 }
  /-- `Waker::clone`. -/
  | cloneWaker (σ : Lot α) (w : Nat) (hw : Obj.waker w ∈ σ.objs) :
      Step σ { σ with objs := .waker w ::ₘ σ.objs }
  /-- The pointer swap of `Waker::wake` by any clone of `w`: a found pointer becomes the
      ticket this call goes on to unpark, a null one makes the call return `None`. -/
  | wake (σ : Lot α) (w : Nat) (p : Option Ref) (rest : Multiset (Obj α))
      (hw : Obj.waker w ∈ rest) (h : σ.objs = .wakerPtr w p ::ₘ rest) :
      Step σ { σ with
        objs := .wakerPtr w (cellTake p).2 ::ₘ
          (match (cellTake p).1 with
           | some r => .unparkTicket r (some w) ::ₘ rest
           | none => rest),
        wakeHits := match (cellTake p).1 with
          | some _ => Function.update σ.wakeHits w (σ.wakeHits w + 1)
          | none => σ.wakeHits }
  /-- `ParkTicketCell::new` and `UnparkTicketCell::new`. -/
  | newParkCell (σ : Lot α) : Step σ { σ with objs := .parkCell none ::ₘ σ.objs }
  | newUnparkCell (σ : Lot α) : Step σ { σ with objs := .unparkCell none ::ₘ σ.objs }
  /-- `ParkTicketCell::put`: an empty cell takes the ticket; a full one hands it back,
      which changes nothing. -/
  | parkCellPut (σ : Lot α) (r : Ref) (held : Option Ref) (rest : Multiset (Obj α))
      (h : σ.objs = .parkTicket r ::ₘ .parkCell held ::ₘ rest) (hput : (cellPut held r).1 = true) :
      Step σ { σ with objs := .parkCell (cellPut held r).2 ::ₘ rest }
  /-- `ParkTicketCell::put` on a full cell: the compare-exchange fails and the caller gets its
      ticket back in `Err`, so nothing changes. -/
  | parkCellPutRefused (σ : Lot α) (r : Ref) (held : Option Ref) (rest : Multiset (Obj α))
      (h : σ.objs = .parkTicket r ::ₘ .parkCell held ::ₘ rest) (hput : (cellPut held r).1 = false) :
      Step σ σ
  /-- `ParkTicketCell::put_reservation`: the cell keeps the park right and the caller gets
      the unpark ticket. -/
  | parkCellPutReservation (σ : Lot α) (r : Ref) (held : Option Ref) (rest : Multiset (Obj α))
      (h : σ.objs = .reservation r ::ₘ .parkCell held ::ₘ rest)
      (hput : (cellPut held r).1 = true) :
      Step σ { σ with objs := .unparkTicket r none ::ₘ .parkCell (cellPut held r).2 ::ₘ rest }
  /-- `ParkTicketCell::put_reservation` on a full cell: the caller gets the reservation back
      whole, to release it. -/
  | parkCellPutReservationRefused (σ : Lot α) (r : Ref) (held : Option Ref) (rest : Multiset (Obj α))
      (h : σ.objs = .reservation r ::ₘ .parkCell held ::ₘ rest) (hput : (cellPut held r).1 = false) :
      Step σ σ
  /-- `ParkTicketCell::take` of a full cell. -/
  | parkCellTake (σ : Lot α) (r : Ref) (rest : Multiset (Obj α))
      (h : σ.objs = .parkCell (some r) ::ₘ rest) :
      Step σ { σ with objs := .parkTicket r ::ₘ .parkCell (cellTake (some r)).2 ::ₘ rest }
  /-- `UnparkTicketCell::put_reservation`: the cell keeps the unpark right and the caller
      gets the park ticket. -/
  | unparkCellPutReservation (σ : Lot α) (r : Ref) (held : Option Ref) (rest : Multiset (Obj α))
      (h : σ.objs = .reservation r ::ₘ .unparkCell held ::ₘ rest)
      (hput : (cellPut held r).1 = true) :
      Step σ { σ with objs := .parkTicket r ::ₘ .unparkCell (cellPut held r).2 ::ₘ rest }
  /-- `UnparkTicketCell::put_reservation` on a full cell: the caller gets the reservation
      back whole. -/
  | unparkCellPutReservationRefused (σ : Lot α) (r : Ref) (held : Option Ref) (rest : Multiset (Obj α))
      (h : σ.objs = .reservation r ::ₘ .unparkCell held ::ₘ rest) (hput : (cellPut held r).1 = false) :
      Step σ σ
  /-- `UnparkTicketCell::take` of a full cell. -/
  | unparkCellTake (σ : Lot α) (r : Ref) (rest : Multiset (Obj α))
      (h : σ.objs = .unparkCell (some r) ::ₘ rest) :
      Step σ { σ with
        objs := .unparkTicket r none ::ₘ .unparkCell (cellTake (some r)).2 ::ₘ rest }

/-- The states a lot can reach from `ParkingLot::new()` by any interleaving of steps of any
    number of threads. -/
def Reachable [Inhabited α] (σ : Lot α) : Prop := Relation.ReflTransGen Step init σ

end Lot

end Muffin.Park
