-- SUMMARY: The kernel's task scheduler: the per-CPU `Scheduler` with `reschedule`, `route` and `next_task`, the global run queue, the cleanup queue with its unpark cell, and the lot that holds parked tasks; each operation's effect on where the tasks are and which claims wait for their park, and `reschedule` on a CPU that is ready: it keeps every task, settles every task, keeps the idle task on its CPU, and switches away from a task that must leave.
import Muffin.Lib.Rust

/-!
# The task scheduler

Each CPU runs its `Scheduler` with interrupts disabled. `reschedule` first
routes the task it switched away from last time (the zombie) to where its
disposal says: back to the global run queue, or to the CPU's idle slot when it
is the idle task; into the lot `WAITING` with the park ticket it held, or back
to the run queue when its wake source ran first; or to the cleanup queue when it
terminated. It then picks the next task, from the run queue, or the CPU's idle
task when the current one cannot go on, and leaves the current one as the new
zombie, with its park ticket taken and its disposal decided.

What the scheduler reads of a task is its id, its `should_terminate` flag and
the claim of the park ticket in its `ParkTicketCell` (`Task`). The lot is its
handoff semantics, per claim (`Slot`): `park` stores the task unless the unpark
side ran first, and `unpark` takes the task back, or marks the claim so that
the park bounces; `Muffin.Park.Protocol` proves that the lot itself behaves so.
Wake sources (wakers, sleepers, the signal state) hold unpark tickets, which are
not tracked: a wake source may unpark any claim at any time (`Call.unpark`),
and an unpark of a claim that is not reserved or occupied changes nothing.

The context switch, the FPU and TLS registers and the kernel stack pointer are
hardware state and not modelled.

The proofs say where the tasks are (`Scheduler.tasks`, `Shared.tasks`), which
claims still wait for their park, and which tasks are settled: holding no park
ticket, and marked to terminate exactly when on their way to the cleanup queue.
Each operation on the shared state gets one lemma for all three; `routes_route`
does the same for `route`, and `Ready.reschedule` assembles `reschedule` from
its two halves, `routeZombie` and `pickNext`. `Muffin.Mtask.Kernel` builds the
kernel's calls on them.
-/

namespace Muffin.Mtask

open Rust

-- ---------------------------------------------------------------------------
-- Tasks and the lot
-- ---------------------------------------------------------------------------

/-- What the scheduler reads of a `Task`: its id, its `should_terminate` flag, and the claim of
    the park ticket that its `ParkTicketCell` holds. -/
structure Task where
  id : Nat
  shouldTerminate : Bool
  parkTicket : Option Nat
  deriving DecidableEq, Repr

namespace Task

/-- `Task::create_new` and `Task::create_current`: a task that neither terminates nor parks. -/
def new (id : Nat) : Task := ⟨id, false, none⟩

/-- `Task::set_park_ticket` and `Task::set_park_reservation`, which store through the same
    compare-exchange of the cell: an occupied cell hands the ticket back. -/
def setParkTicket (t : Task) (ticket : Nat) : Option Task :=
  if t.parkTicket.isNone then some { t with parkTicket := some ticket } else none

/-- `Task::take_park_ticket`. -/
def takeParkTicket (t : Task) : Option Nat × Task := (t.parkTicket, { t with parkTicket := none })

end Task

/-- `Disposal`: where an outgoing task goes once it is off the CPU. -/
inductive Disposal where
  | enqueue
  | park (ticket : Nat)
  | terminate
  deriving DecidableEq, Repr

/-- `matches!(disposal, Disposal::Park(_))`. -/
def Disposal.isPark : Disposal → Bool
  | .park _ => true
  | _ => false

/-- `matches!(disposal, Disposal::Terminate)`. -/
def Disposal.isTerminate : Disposal → Bool
  | .terminate => true
  | _ => false

/-- A claim of the lot: its `State`, with the task that an `Occupied` slot holds. -/
inductive Slot where
  | empty
  | reserved
  | occupied (task : Task)
  | unparked
  deriving DecidableEq, Repr

namespace Slot

/-- The task a slot holds. -/
def task? : Slot → Option Task
  | .occupied task => some task
  | _ => none

/-- A claim whose park ticket is still to be used: reserved, or unparked before its park. -/
def awaitsPark : Slot → Bool
  | .reserved | .unparked => true
  | _ => false

end Slot

/-- What the CPUs share: `GLOBAL_QUEUE`, `TASK_CLEANUP_QUEUE` with `CLEANUP_UNPARK`, the lot
    `WAITING` by claim, and the counter of `TaskId::new`. -/
structure Shared where
  globalQueue : List Task
  cleanupQueue : List Task
  cleanupUnpark : Option Nat
  waiting : List Slot
  nextTid : Nat
  deriving DecidableEq, Repr

namespace Shared

/-- The state of a claim; a claim not made yet is empty. -/
def slot (g : Shared) (r : Nat) : Slot := g.waiting.getD r .empty

def setSlot (g : Shared) (r : Nat) (s : Slot) : Shared := { g with waiting := g.waiting.set r s }

/-- `ParkingLot::reserve`: a fresh claim. -/
def reserve (g : Shared) : Nat × Shared := (g.waiting.length, { g with waiting := g.waiting ++ [.reserved] })

/-- `Reservation::release`. -/
def release (g : Shared) (r : Nat) : Shared := g.setSlot r .empty

/-- `ParkTicket::park`: the task goes into a reserved slot; when the unpark side ran first, the
    slot is released and the task handed back. -/
def park (g : Shared) (r : Nat) (task : Task) : Option Task × Shared :=
  match g.slot r with
  | .reserved => (none, g.setSlot r (.occupied task))
  | _ => (some task, g.release r)

/-- `UnparkTicket::unpark`: the parked task, which leaves the slot, or `None` after marking a
    reserved slot so that its park bounces. -/
def unpark (g : Shared) (r : Nat) : Option Task × Shared :=
  match g.slot r with
  | .reserved => (none, g.setSlot r .unparked)
  | .occupied task => (some task, g.release r)
  | _ => (none, g)

/-- `GlobalTaskQueue::enqueue`. -/
def enqueue (g : Shared) (task : Task) : Shared := { g with globalQueue := g.globalQueue ++ [task] }

/-- `GlobalTaskQueue::dequeue`. -/
def dequeue (g : Shared) : Option Task × Shared :=
  match g.globalQueue with
  | [] => (none, g)
  | task :: rest => (some task, { g with globalQueue := rest })

/-- `wait::unpark_and_enqueue`, and `wait::wake` once its waker fires the ticket. -/
def unparkAndEnqueue (g : Shared) (r : Nat) : Shared :=
  match g.unpark r with
  | (some task, g) => g.enqueue task
  | (none, g) => g

/-- `CLEANUP_UNPARK.take()`. -/
def takeCleanupUnpark (g : Shared) : Option Nat × Shared := (g.cleanupUnpark, { g with cleanupUnpark := none })

/-- `TaskCleanup::enqueue`: the task joins the cleanup queue, and the cleanup task is woken if it
    armed its cell. -/
def cleanupEnqueue (g : Shared) (task : Task) : Shared :=
  let g := { g with cleanupQueue := g.cleanupQueue ++ [task] }
  match g.takeCleanupUnpark with
  | (some ticket, g) => g.unparkAndEnqueue ticket
  | (none, g) => g

/-- `TaskCleanup::dequeue`. -/
def cleanupDequeue (g : Shared) : Option Task × Shared :=
  match g.cleanupQueue with
  | [] => (none, g)
  | task :: rest => (some task, { g with cleanupQueue := rest })

/-- `TaskId::new`. -/
def newTid (g : Shared) : Nat × Shared := (g.nextTid, { g with nextTid := g.nextTid + 1 })

end Shared

-- ---------------------------------------------------------------------------
-- One CPU's scheduler
-- ---------------------------------------------------------------------------

/-- `Scheduler`: one CPU's current task, its idle task while off the CPU with the idle task's id,
    and the task last switched away from with its disposal. -/
structure Scheduler where
  currentTask : Task
  idleTask : Option Task
  idleTid : Option Nat
  zombieTask : Option (Task × Disposal)
  deriving DecidableEq, Repr

namespace Scheduler

/-- `Scheduler::new_cpu_local`, around the task of `Task::create_current`. -/
def newCpuLocal (current : Task) : Scheduler := ⟨current, none, none, none⟩

/-- `Scheduler::set_idle_task`. -/
def setIdleTask (s : Scheduler) (task : Task) : Scheduler :=
  { s with idleTid := some task.id, idleTask := some task }

/-- `Scheduler::route`. -/
def route (s : Scheduler) (g : Shared) (task : Task) : Disposal → Scheduler × Shared
  | .enqueue => if s.idleTid = some task.id then ({ s with idleTask := some task }, g) else (s, g.enqueue task)
  | .park ticket =>
    match g.park ticket task with
    | (none, g) => (s, g)
    | (some task, g) => (s, g.enqueue task)
  | .terminate => (s, g.cleanupEnqueue task)

/-- `Scheduler::next_task`: the head of the run queue, or the idle task when the current task
    cannot go on. -/
def nextTask (s : Scheduler) (g : Shared) (mustSwitch : Bool) : Option Task × Scheduler × Shared :=
  match g.dequeue with
  | (some task, g) => (some task, s, g)
  | (none, g) =>
    if mustSwitch || s.currentTask.shouldTerminate then (s.idleTask, { s with idleTask := none }, g)
    else (none, s, g)

/-- The outgoing task with its park ticket taken, and the disposal `reschedule` decides for it: a
    pending park ticket wins over termination. -/
def dispose (old : Task) : Task × Disposal :=
  let (ticket, old) := old.takeParkTicket
  let requested := match ticket with
    | some ticket => Disposal.park ticket
    | none => .enqueue
  (old, if old.shouldTerminate && !requested.isPark then .terminate else requested)

/-- `Scheduler::reschedule`. -/
def reschedule (s : Scheduler) (g : Shared) : Scheduler × Shared :=
  let (s, g) := match s.zombieTask with
    | some (zombie, disposal) => { s with zombieTask := none }.route g zombie disposal
    | none => (s, g)
  -- a parking task cannot stay on the CPU
  let mustSwitch := s.currentTask.parkTicket.isSome
  match s.nextTask g mustSwitch with
  | (none, s, g) => (s, g)
  | (some next, s, g) => ({ s with currentTask := next, zombieTask := some (dispose s.currentTask) }, g)

/-- `wait::block_current`: the current task keeps the park ticket, and the CPU reschedules. -/
def blockCurrent (s : Scheduler) (g : Shared) (ticket : Nat) : Except Panic (Scheduler × Shared) := do
  let some task := s.currentTask.setParkTicket ticket
    | throw ⟨"the blocking task already holds a park ticket"⟩
  pure ({ s with currentTask := task }.reschedule g)

/-- `request_stop_park`: a fresh reservation goes into the current task's cell, or back to the lot
    when the cell holds a ticket. The unpark ticket goes to the signal state, a wake source. -/
def requestStopPark (s : Scheduler) (g : Shared) : Scheduler × Shared :=
  let (r, g) := g.reserve
  match s.currentTask.setParkTicket r with
  | some task => ({ s with currentTask := task }, g)
  | none => (s, g.release r)

/-- What the signal delivery of a timer tick does to the current task: nothing, a stop, or a
    termination (also `reap_current_if_requested`, and `Task::exit_current` before its loop of
    reschedules). -/
inductive TickAct where
  | deliver
  | stop
  | terminate
  deriving DecidableEq, Repr

/-- `timer_interrupt_handler_impl` on one CPU: the signal delivery, then `reschedule`. -/
def timer (s : Scheduler) (g : Shared) : TickAct → Scheduler × Shared
  | .deliver => s.reschedule g
  | .stop =>
    let (s, g) := s.requestStopPark g
    s.reschedule g
  | .terminate => { s with currentTask := { s.currentTask with shouldTerminate := true } }.reschedule g

/-- One round of `TaskCleanup::cleanup_tasks` after the queue is drained: it arms `CLEANUP_UNPARK`
    with a fresh reservation, drops a task enqueued before the cell was armed (taking the unpark
    ticket back, so that its park bounces), and parks. A cell that is armed already sends the
    reservation back to the lot. -/
def cleanupPark (s : Scheduler) (g : Shared) : Except Panic (Scheduler × Shared) :=
  let (r, g) := g.reserve
  match g.cleanupUnpark with
  | some _ => pure (s, g.release r)
  | none =>
    let g := { g with cleanupUnpark := some r }
    let g := match g.cleanupDequeue with
      | (some _, g) =>
        match g.takeCleanupUnpark with
        | (some ticket, g) => g.unparkAndEnqueue ticket
        | (none, g) => g
      | (none, g) => g
    s.blockCurrent g r

end Scheduler


-- ---------------------------------------------------------------------------
-- Where the tasks are
-- ---------------------------------------------------------------------------

/-- A task between two calls: it holds no park ticket, and it is marked to terminate exactly
    when `term` is. -/
def Task.Settled (t : Task) (term : Bool) : Prop := t.parkTicket = none ∧ t.shouldTerminate = term

namespace Shared

/-- The parked tasks. -/
def lotTasks (g : Shared) : List Task := g.waiting.filterMap Slot.task?

/-- The tasks the shared state holds: queued to run, queued for cleanup, and parked. -/
def tasks (g : Shared) : Multiset Task := ↑g.globalQueue + ↑g.cleanupQueue + ↑g.lotTasks

/-- The ids of the tasks the shared state holds. -/
def ids (g : Shared) : Multiset Nat := g.tasks.map Task.id

/-- No task of the shared state holds a park ticket; those queued to run or parked go on, and
    those queued for cleanup terminate. -/
structure Settled (g : Shared) : Prop where
  globalQueue : ∀ t ∈ g.globalQueue, t.Settled false
  cleanupQueue : ∀ t ∈ g.cleanupQueue, t.Settled true
  lot : ∀ t ∈ g.lotTasks, t.Settled false

variable {g g' : Shared} {r q : Nat} {t : Task} {o : Option Task}

/-! ### Slots -/

theorem slot_eq_empty_of_le (h : g.waiting.length ≤ r) : g.slot r = .empty := by
  rw [slot, List.getD_eq_getElem?_getD, List.getElem?_eq_none h, Option.getD_none]

theorem slot_setSlot (g : Shared) (r : Nat) (x : Slot) (q : Nat) :
    (g.setSlot r x).slot q = if q = r ∧ r < g.waiting.length then x else g.slot q := by
  unfold slot setSlot
  simp only [List.getD_eq_getElem?_getD, List.getElem?_set]
  by_cases hq : q = r
  · subst hq
    by_cases hlt : q < g.waiting.length
    · simp [hlt]
    · simp [hlt]
  · simp [Ne.symm hq, hq]

theorem slot_reserve (g : Shared) (q : Nat) :
    g.reserve.2.slot q = if q = g.waiting.length then .reserved else g.slot q := by
  unfold reserve slot
  simp only [List.getD_eq_getElem?_getD, List.getElem?_append]
  by_cases hlt : q < g.waiting.length
  · rw [if_pos hlt, if_neg (by omega)]
  · rw [if_neg hlt, List.getElem?_eq_none (Nat.le_of_not_lt hlt), List.getElem?_singleton]
    by_cases hq : q = g.waiting.length
    · simp [hq]
    · rw [if_neg (by omega), if_neg hq]

/-- Writing a slot swaps the task it held for the task it holds now. -/
theorem lotTasks_setSlot (h : r < g.waiting.length) (x : Slot) :
    (↑(g.setSlot r x).lotTasks : Multiset Task) + ↑(g.slot r).task?.toList =
      ↑g.lotTasks + ↑x.task?.toList := by
  -- cut the lot at the claim
  obtain ⟨A, y, B, hw, rfl⟩ : ∃ A y B, g.waiting = A ++ y :: B ∧ r = A.length := by
    refine ⟨g.waiting.take r, g.waiting[r], g.waiting.drop (r + 1), ?_, (List.length_take_of_le h.le).symm⟩
    rw [← List.drop_eq_getElem_cons h, List.take_append_drop]
  have hslot : g.slot A.length = y := by simp [slot, hw]
  have hset : g.waiting.set A.length x = A ++ x :: B := by simp [hw]
  unfold lotTasks setSlot
  rw [hset, hslot, hw]
  cases hx : x.task? <;> cases hy : y.task? <;>
    simp only [List.filterMap_append, List.filterMap_cons, hx, hy, ← Multiset.coe_add,
      ← Multiset.cons_coe, ← Multiset.singleton_add, Option.toList_none, Option.toList_some,
      Multiset.coe_nil, add_zero] <;> abel

theorem lt_of_slot_ne_empty (h : g.slot r ≠ .empty) : r < g.waiting.length := by
  by_contra hle
  exact h (slot_eq_empty_of_le (Nat.le_of_not_lt hle))

theorem mem_lotTasks_of_slot (h : g.slot r = .occupied t) : t ∈ g.lotTasks := by
  have hlt : r < g.waiting.length := lt_of_slot_ne_empty (by rw [h]; nofun)
  rw [slot, List.getD_eq_getElem?_getD, List.getElem?_eq_getElem hlt, Option.getD_some] at h
  exact List.mem_filterMap.2 ⟨_, h ▸ List.getElem_mem hlt, rfl⟩

theorem setSlot_of_le (h : g.waiting.length ≤ r) (x : Slot) : g.setSlot r x = g := by
  simp [setSlot, List.set_eq_of_length_le h]

theorem tasks_setSlot (h : r < g.waiting.length) (x : Slot) :
    (g.setSlot r x).tasks + ↑(g.slot r).task?.toList = g.tasks + ↑x.task?.toList := by
  simp only [tasks, add_assoc]
  rw [lotTasks_setSlot h x]
  rfl

/-- Writing a slot that holds no task with a slot that holds none keeps the tasks. -/
theorem tasks_setSlot_of_none {x : Slot} (hr : (g.slot r).task? = none) (hx : x.task? = none) :
    (g.setSlot r x).tasks = g.tasks := by
  by_cases h : r < g.waiting.length
  · simpa [hr, hx] using tasks_setSlot h x
  · rw [setSlot_of_le (Nat.le_of_not_lt h)]

theorem mem_lotTasks_setSlot {x : Slot} (ht : t ∈ (g.setSlot r x).lotTasks) :
    t ∈ g.lotTasks ∨ x.task? = some t := by
  by_cases h : r < g.waiting.length
  · have hmem : t ∈ (↑g.lotTasks : Multiset Task) + ↑x.task?.toList := by
      rw [← lotTasks_setSlot h x]
      exact Multiset.mem_add.2 (.inl (Multiset.mem_coe.2 ht))
    rcases Multiset.mem_add.1 hmem with hl | hx
    · exact .inl (Multiset.mem_coe.1 hl)
    · exact .inr (by simpa using Multiset.mem_coe.1 hx)
  · rw [setSlot_of_le (Nat.le_of_not_lt h)] at ht
    exact .inl ht

theorem Settled.setSlot {x : Slot} (hg : g.Settled) (hx : ∀ t, x.task? = some t → t.Settled false) :
    (g.setSlot r x).Settled where
  globalQueue := hg.globalQueue
  cleanupQueue := hg.cleanupQueue
  lot t ht := (mem_lotTasks_setSlot ht).elim (hg.lot t) (hx t)

/-- The claims that still wait for their park after a slot is written. -/
theorem awaitsPark_setSlot (g : Shared) (r : Nat) (x : Slot) (q : Nat) :
    ((g.setSlot r x).slot q).awaitsPark =
      if q = r ∧ r < g.waiting.length then x.awaitsPark else (g.slot q).awaitsPark := by
  rw [slot_setSlot]
  split <;> rfl

/-! ### The run queue -/

@[simp] theorem slot_enqueue (g : Shared) (t : Task) : (g.enqueue t).slot = g.slot := rfl

@[simp] theorem nextTid_enqueue (g : Shared) (t : Task) : (g.enqueue t).nextTid = g.nextTid := rfl

theorem tasks_enqueue (g : Shared) (t : Task) : (g.enqueue t).tasks = t ::ₘ g.tasks := by
  simp only [tasks, enqueue, lotTasks, ← Multiset.coe_add]
  rw [Multiset.coe_singleton, ← Multiset.singleton_add]
  abel

theorem Settled.enqueue (hg : g.Settled) (ht : t.Settled false) : (g.enqueue t).Settled where
  globalQueue u hu := by
    rcases List.mem_append.1 hu with hu | hu
    · exact hg.globalQueue u hu
    · rw [List.mem_singleton.1 hu]
      exact ht
  cleanupQueue := hg.cleanupQueue
  lot := hg.lot

/-- `dequeue` takes the head of the run queue, or finds it empty. -/
theorem dequeue_cases (g : Shared) :
    (g.globalQueue = [] ∧ g.dequeue = (none, g)) ∨
      ∃ t rest, g.globalQueue = t :: rest ∧ g.dequeue = (some t, { g with globalQueue := rest }) := by
  unfold dequeue
  split
  · exact .inl ⟨‹_›, rfl⟩
  · exact .inr ⟨_, _, ‹_›, rfl⟩

/-- What a `dequeue` that finds a task does: the task leaves the run queue, and nothing else
    changes. -/
theorem dequeue_eq_some (h : g.dequeue = (some t, g')) :
    t ∈ g.globalQueue ∧ g.tasks = t ::ₘ g'.tasks ∧ g'.slot = g.slot ∧ g'.nextTid = g.nextTid ∧
      (g.Settled → g'.Settled) := by
  rcases dequeue_cases g with ⟨-, hd⟩ | ⟨u, rest, hq, hd⟩
  · rw [hd] at h
    cases h
  · rw [hd, Prod.mk.injEq, Option.some.injEq] at h
    obtain ⟨rfl, rfl⟩ := h
    refine ⟨by simp [hq], ?_, rfl, rfl, fun hg => ⟨fun v hv => ?_, hg.cleanupQueue, hg.lot⟩⟩
    · simp only [tasks, hq, lotTasks, ← Multiset.cons_coe, Multiset.cons_add]
    · exact hg.globalQueue v (by simp [hq, hv])

/-! ### The lot -/

/-- `unpark` marks a reserved claim, takes the task out of an occupied one, and does nothing
    else. -/
theorem unpark_cases (g : Shared) (r : Nat) :
    (g.slot r = .reserved ∧ g.unpark r = (none, g.setSlot r .unparked)) ∨
      (∃ t, g.slot r = .occupied t ∧ g.unpark r = (some t, g.release r)) ∨
      ((g.slot r).task? = none ∧ (g.slot r).awaitsPark = (g.slot r = .unparked) ∧
        g.unpark r = (none, g)) := by
  unfold unpark
  split
  · exact .inl ⟨‹_›, rfl⟩
  · exact .inr (.inl ⟨_, ‹_›, rfl⟩)
  · rename_i h₁ h₂
    refine .inr (.inr ⟨?_, ?_, rfl⟩) <;> cases hs : g.slot r <;> simp_all [Slot.task?, Slot.awaitsPark]

theorem tasks_release_occupied (h : g.slot r = .occupied t) : (g.release r).tasks + {t} = g.tasks := by
  have hlt : r < g.waiting.length := lt_of_slot_ne_empty (by rw [h]; nofun)
  simpa [h, Slot.task?, release] using tasks_setSlot hlt .empty

/-- `unpark_and_enqueue` moves a parked task to the run queue, so the tasks stay, and every claim
    still waits for its park exactly when it did. -/
theorem unparkAndEnqueue_spec (g : Shared) (r : Nat) :
    (g.unparkAndEnqueue r).tasks = g.tasks ∧
      (∀ q, ((g.unparkAndEnqueue r).slot q).awaitsPark = (g.slot q).awaitsPark) ∧
      (g.unparkAndEnqueue r).nextTid = g.nextTid ∧
      (g.Settled → (g.unparkAndEnqueue r).Settled) := by
  rcases unpark_cases g r with ⟨hs, hu⟩ | ⟨t, hs, hu⟩ | ⟨hs, -, hu⟩
  · -- a reserved claim is marked, so that its park bounces
    simp only [unparkAndEnqueue, hu]
    refine ⟨tasks_setSlot_of_none (by simp [hs, Slot.task?]) rfl, fun q => ?_, rfl,
      fun hg => hg.setSlot (by simp [Slot.task?])⟩
    rw [awaitsPark_setSlot]
    split
    · rename_i hq
      rw [hq.1, hs]
      rfl
    · rfl
  · -- the parked task goes to the run queue
    simp only [unparkAndEnqueue, hu]
    refine ⟨by rw [tasks_enqueue, ← tasks_release_occupied hs, add_comm, Multiset.singleton_add],
      fun q => ?_, rfl, fun hg => (hg.setSlot (by simp [Slot.task?])).enqueue (hg.lot t (mem_lotTasks_of_slot hs))⟩
    rw [slot_enqueue, release, awaitsPark_setSlot]
    split
    · rename_i hq
      rw [hq.1, hs]
      rfl
    · rfl
  · simp [unparkAndEnqueue, hu]

end Shared

namespace Shared

variable {g g' : Shared} {r q : Nat} {t : Task} {o : Option Task} {x : Slot}

/-- A slot that no longer waits for its park, written in place of a claim: that claim is used,
    and every other claim waits as before. -/
theorem awaitsPark_setSlot_used (hx : x.awaitsPark = false) (q : Nat) :
    ((g.setSlot r x).slot q).awaitsPark = true ↔ (g.slot q).awaitsPark = true ∧ q ≠ r := by
  rw [awaitsPark_setSlot]
  split
  · rename_i hq
    simp [hq.1, hx]
  · rename_i hq
    by_cases hqr : q = r
    · subst hqr
      have hle : g.waiting.length ≤ q := Nat.le_of_not_lt fun hlt => hq ⟨rfl, hlt⟩
      simp [slot_eq_empty_of_le hle, Slot.awaitsPark]
    · simp [hqr]

/-! ### Claims -/

@[simp] theorem reserve_fst (g : Shared) : g.reserve.1 = g.waiting.length := rfl

theorem tasks_reserve (g : Shared) : g.reserve.2.tasks = g.tasks := by
  simp [tasks, reserve, lotTasks, List.filterMap_cons, Slot.task?]

theorem Settled.reserve (hg : g.Settled) : g.reserve.2.Settled where
  globalQueue := hg.globalQueue
  cleanupQueue := hg.cleanupQueue
  lot t ht := hg.lot t (by simpa [Shared.reserve, lotTasks, Slot.task?] using ht)

/-- A reservation is a fresh claim: nothing waited on it before, and it waits for its park now. -/
theorem awaitsPark_reserve (g : Shared) (q : Nat) :
    (g.reserve.2.slot q).awaitsPark = true ↔ (g.slot q).awaitsPark = true ∨ q = g.waiting.length := by
  rw [slot_reserve]
  by_cases hq : q = g.waiting.length
  · simp [hq, Slot.awaitsPark]
  · simp [hq]

theorem awaitsPark_fresh (g : Shared) : (g.slot g.waiting.length).awaitsPark = false := by
  rw [slot_eq_empty_of_le le_rfl]
  rfl

/-- `Reservation::release` of a claim that holds no task. -/
theorem release_spec (h : (g.slot r).task? = none) :
    (g.release r).tasks = g.tasks ∧
      (∀ q, ((g.release r).slot q).awaitsPark = true ↔ (g.slot q).awaitsPark = true ∧ q ≠ r) ∧
      (g.release r).nextTid = g.nextTid ∧ (g.Settled → (g.release r).Settled) :=
  ⟨tasks_setSlot_of_none h rfl, awaitsPark_setSlot_used rfl, rfl,
    fun hg => hg.setSlot (by simp [Slot.task?])⟩

/-- `park` puts the task into a reserved slot, and hands it back from any other. -/
theorem park_cases (g : Shared) (r : Nat) (t : Task) :
    (g.slot r = .reserved ∧ g.park r t = (none, g.setSlot r (.occupied t))) ∨
      (g.slot r ≠ .reserved ∧ g.park r t = (some t, g.release r)) := by
  unfold park
  split
  · exact .inl ⟨‹_›, rfl⟩
  · exact .inr ⟨‹_›, rfl⟩

/-- The park side of a reserved claim stores its task there. -/
theorem occupy_spec (h : g.slot r = .reserved) (t : Task) :
    (g.setSlot r (.occupied t)).tasks = t ::ₘ g.tasks ∧
      (∀ q, ((g.setSlot r (.occupied t)).slot q).awaitsPark = true ↔ (g.slot q).awaitsPark = true ∧ q ≠ r) ∧
      (g.setSlot r (.occupied t)).nextTid = g.nextTid ∧
      (g.Settled → t.Settled false → (g.setSlot r (.occupied t)).Settled) := by
  have hlt : r < g.waiting.length := lt_of_slot_ne_empty (by rw [h]; nofun)
  refine ⟨?_, awaitsPark_setSlot_used rfl, rfl, fun hg ht => hg.setSlot fun u hu => ?_⟩
  · have := tasks_setSlot hlt (.occupied t)
    simpa [h, Slot.task?, add_comm, Multiset.singleton_add] using this
  · cases hu
    exact ht

/-! ### The cleanup queue -/

theorem cleanupEnqueue_spec (g : Shared) (t : Task) :
    (g.cleanupEnqueue t).tasks = t ::ₘ g.tasks ∧
      (∀ q, ((g.cleanupEnqueue t).slot q).awaitsPark = (g.slot q).awaitsPark) ∧
      (g.cleanupEnqueue t).nextTid = g.nextTid ∧
      (g.Settled → t.Settled true → (g.cleanupEnqueue t).Settled) := by
  -- the task joins the queue first; the wake of the cleanup task then moves no task
  set g₁ : Shared := { g with cleanupQueue := g.cleanupQueue ++ [t], cleanupUnpark := none }
  have htasks : g₁.tasks = t ::ₘ g.tasks := by
    simp only [g₁, tasks, lotTasks, ← Multiset.coe_add]
    rw [Multiset.coe_singleton, ← Multiset.singleton_add]
    abel
  have hsettled : g.Settled → t.Settled true → g₁.Settled := fun hg ht =>
    ⟨hg.globalQueue, fun u hu => (List.mem_append.1 hu).elim (hg.cleanupQueue u)
      (fun hu => List.mem_singleton.1 hu ▸ ht), hg.lot⟩
  have hg₁ : g.cleanupEnqueue t = match g.cleanupUnpark with
      | some ticket => g₁.unparkAndEnqueue ticket
      | none => g₁ := by
    unfold cleanupEnqueue takeCleanupUnpark
    cases g.cleanupUnpark <;> rfl
  rw [hg₁]
  cases g.cleanupUnpark with
  | none => exact ⟨htasks, fun _ => rfl, rfl, hsettled⟩
  | some ticket =>
    obtain ⟨ht, hs, hn, hS⟩ := unparkAndEnqueue_spec g₁ ticket
    exact ⟨ht.trans htasks, fun q => (hs q).trans rfl, hn, fun hg hu => hS (hsettled hg hu)⟩

/-- `cleanupDequeue` takes the head of the cleanup queue, or finds it empty. -/
theorem cleanupDequeue_spec (h : g.cleanupDequeue = (o, g')) :
    g.tasks = ↑o.toList + g'.tasks ∧ (∀ t, o = some t → t ∈ g.cleanupQueue) ∧ g'.slot = g.slot ∧
      g'.nextTid = g.nextTid ∧ (g.Settled → g'.Settled) := by
  unfold cleanupDequeue at h
  split at h
  · obtain ⟨rfl, rfl⟩ := Prod.mk.inj h
    exact ⟨by simp, by simp, rfl, rfl, id⟩
  · rename_i u rest hq
    obtain ⟨rfl, rfl⟩ := Prod.mk.inj h
    refine ⟨?_, by simp [hq], rfl, rfl, fun hg => ⟨hg.globalQueue, fun v hv => ?_, hg.lot⟩⟩
    · simp only [tasks, hq, lotTasks, Option.toList_some, ← Multiset.cons_coe, Multiset.coe_nil,
        ← Multiset.singleton_add, add_zero]
      abel
    · exact hg.cleanupQueue v (by simp [hq, hv])

/-! ### Ids -/

@[simp] theorem tasks_newTid (g : Shared) : g.newTid.2.tasks = g.tasks := rfl

@[simp] theorem nextTid_newTid (g : Shared) : g.newTid.2.nextTid = g.nextTid + 1 := rfl

theorem Settled.newTid (hg : g.Settled) : g.newTid.2.Settled := ⟨hg.1, hg.2, hg.3⟩

end Shared

/-- The claim whose park ticket a disposal holds. -/
def Disposal.ticket? : Disposal → Option Nat
  | .park r => some r
  | _ => none

namespace Scheduler

theorem dispose_eq (t : Task) : dispose t =
    ({ t with parkTicket := none }, match t.parkTicket with
      | some r => .park r
      | none => if t.shouldTerminate then .terminate else .enqueue) := by
  unfold dispose Task.takeParkTicket
  cases t.parkTicket <;> cases t.shouldTerminate <;> rfl

@[simp] theorem dispose_id (t : Task) : (dispose t).1.id = t.id := rfl

/-- The zombie holds the park ticket that the task held on the CPU. -/
theorem ticket?_dispose (t : Task) : (dispose t).2.ticket? = t.parkTicket := by
  rw [dispose_eq]
  cases t.parkTicket <;> cases t.shouldTerminate <;> rfl

/-- The zombie is settled: a pending park ticket wins over termination, so a task that holds one
    is not marked to terminate. -/
theorem dispose_settled {t : Task} (h : t.parkTicket = none ∨ t.shouldTerminate = false) :
    (dispose t).1.Settled (dispose t).2.isTerminate := by
  rw [dispose_eq]
  rcases h with h | h <;> cases hp : t.parkTicket <;> cases hs : t.shouldTerminate <;>
    simp_all [Task.Settled, Disposal.isTerminate]

/-- A settled task leaves the CPU to be enqueued again. -/
theorem dispose_of_settled {t : Task} (h : t.Settled false) : dispose t = (t, .enqueue) := by
  obtain ⟨id, term, ticket⟩ := t
  obtain ⟨rfl, rfl⟩ := h
  rfl

/-- The tasks a CPU's scheduler holds: the current task, the idle task, and the zombie. -/
def tasks (s : Scheduler) : Multiset Task :=
  s.currentTask ::ₘ (↑s.idleTask.toList + ↑(s.zombieTask.map Prod.fst).toList)

/-- The ids of the tasks a CPU's scheduler holds. -/
def ids (s : Scheduler) : Multiset Nat := s.tasks.map Task.id

/-- The claim whose park ticket the zombie holds, to park it with at the next `reschedule`. -/
def heldBy (s : Scheduler) : Option Nat := s.zombieTask.bind fun z => z.2.ticket?

/-- The current task cannot go on: it holds a park ticket, or it terminates. -/
def MustSwitch (s : Scheduler) : Prop :=
  (s.currentTask.parkTicket.isSome || s.currentTask.shouldTerminate) = true

/-- The current task of the CPU is not its idle task. -/
def NotIdle (s : Scheduler) : Prop := s.idleTid ≠ some s.currentTask.id

instance (s : Scheduler) : Decidable s.NotIdle := inferInstanceAs (Decidable (_ ≠ _))

/-- The tasks off the CPU are settled: the idle task goes on, and the zombie terminates exactly
    when its disposal is `Terminate`. -/
structure OffSettled (s : Scheduler) : Prop where
  idle : ∀ t, s.idleTask = some t → t.Settled false
  zombie : ∀ t d, s.zombieTask = some (t, d) → t.Settled d.isTerminate

/-- Every task of the CPU is settled. -/
structure Settled (s : Scheduler) : Prop where
  current : s.currentTask.Settled false
  off : s.OffSettled

/-- Where the idle task of id `i` is: in the idle slot, or, with the slot empty, current or the
    zombie to be enqueued, which `route` sends back to the slot. -/
def IdleAt (s : Scheduler) (i : Nat) : Prop :=
  s.idleTask.map Task.id = some i ∨
    s.idleTask = none ∧ (s.currentTask.id = i ∨ ∃ t, s.zombieTask = some (t, .enqueue) ∧ t.id = i)

/-- The idle task stays on its CPU: the idle slot holds the task of `idle_tid`, and that task is
    always in one of the places `IdleAt` names. -/
structure IdleOk (s : Scheduler) : Prop where
  idleTask_none : s.idleTid = none → s.idleTask = none
  idleAt : ∀ i, s.idleTid = some i → s.IdleAt i

/-- What `reschedule` needs of a CPU: no two of its tasks share an id, every task off the CPU is
    settled, the claim the zombie holds still waits for its park, the idle task is where
    `IdleOk` says, the current task does not both park and terminate, and a current task that
    must leave the CPU is not the idle task, on a CPU that has one. -/
structure Ready (s : Scheduler) (g : Shared) : Prop where
  nodup : s.ids.Nodup
  off : s.OffSettled
  shared : g.Settled
  idleOk : s.IdleOk
  held : ∀ r, s.heldBy = some r → (g.slot r).awaitsPark = true
  current : s.currentTask.parkTicket = none ∨ s.currentTask.shouldTerminate = false
  mustSwitch : s.MustSwitch → s.idleTid.isSome ∧ s.NotIdle

/-- The first half of `reschedule`: the zombie goes where its disposal says. -/
def routeZombie (s : Scheduler) (g : Shared) : Scheduler × Shared :=
  match s.zombieTask with
  | some (zombie, disposal) => { s with zombieTask := none }.route g zombie disposal
  | none => (s, g)

/-- The second half of `reschedule`: the next task, and the current one left as the zombie. -/
def pickNext (s : Scheduler) (g : Shared) : Scheduler × Shared :=
  match s.nextTask g s.currentTask.parkTicket.isSome with
  | (none, s, g) => (s, g)
  | (some next, s, g) => ({ s with currentTask := next, zombieTask := some (dispose s.currentTask) }, g)

theorem reschedule_eq (s : Scheduler) (g : Shared) :
    s.reschedule g = (s.routeZombie g).1.pickNext (s.routeZombie g).2 := by
  unfold reschedule routeZombie pickNext
  cases s.zombieTask <;> rfl

end Scheduler

namespace Scheduler

variable {s s' : Scheduler} {g g' : Shared} {z t : Task} {d : Disposal} {r : Nat}

/-! ### Routing the zombie -/

/-- What routing the task `z` with disposal `d` leaves behind: the task joins the tasks where its
    disposal says, the claim of a park disposal is used, and nothing else changes. -/
structure Routes (s : Scheduler) (g : Shared) (z : Task) (d : Disposal) (s' : Scheduler) (g' : Shared) :
    Prop where
  tasks : s'.tasks + g'.tasks = z ::ₘ (s.tasks + g.tasks)
  currentTask : s'.currentTask = s.currentTask
  zombieTask : s'.zombieTask = s.zombieTask
  idleTid : s'.idleTid = s.idleTid
  idleTask : s'.idleTask = if d = .enqueue ∧ s.idleTid = some z.id then some z else s.idleTask
  awaits : ∀ q, (g'.slot q).awaitsPark = true ↔ (g.slot q).awaitsPark = true ∧ d.ticket? ≠ some q
  nextTid : g'.nextTid = g.nextTid
  settled : g.Settled → z.Settled d.isTerminate → g'.Settled

/-- The idle task goes back to its slot. -/
theorem routes_idle (hi : s.idleTid = some z.id) (he : s.idleTask = none) :
    Routes s g z .enqueue { s with idleTask := some z } g where
  tasks := by
    simp only [tasks, he, Option.toList_some, Option.toList_none, Multiset.coe_nil, zero_add,
      Multiset.coe_singleton, Multiset.cons_add, Multiset.singleton_add, Multiset.cons_swap]
  currentTask := rfl
  zombieTask := rfl
  idleTid := rfl
  idleTask := by simp [hi]
  awaits q := by simp [Disposal.ticket?]
  nextTid := rfl
  settled hg _ := hg

/-- Any other task to be enqueued goes to the run queue. -/
theorem routes_enqueue (hi : s.idleTid ≠ some z.id) : Routes s g z .enqueue s (g.enqueue z) where
  tasks := by rw [Shared.tasks_enqueue, Multiset.add_cons]
  currentTask := rfl
  zombieTask := rfl
  idleTid := rfl
  idleTask := by simp [hi]
  awaits q := by simp [Disposal.ticket?]
  nextTid := rfl
  settled hg hz := hg.enqueue hz

/-- A task with the park ticket of a reserved claim is parked there. -/
theorem routes_occupy (h : g.slot r = .reserved) :
    Routes s g z (.park r) s (g.setSlot r (.occupied z)) :=
  have hocc := Shared.occupy_spec h z
  { tasks := by rw [hocc.1, Multiset.add_cons]
    currentTask := rfl
    zombieTask := rfl
    idleTid := rfl
    idleTask := by simp
    awaits := fun q => by rw [hocc.2.1]; simp only [Disposal.ticket?, ne_eq, Option.some.injEq, @eq_comm _ r q]
    nextTid := hocc.2.2.1
    settled := hocc.2.2.2 }

/-- A task whose claim was unparked first bounces to the run queue, and the claim is released. -/
theorem routes_bounce (h : g.slot r = .unparked) :
    Routes s g z (.park r) s ((g.release r).enqueue z) :=
  have hrel := Shared.release_spec (g := g) (r := r) (by rw [h]; rfl)
  { tasks := by rw [Shared.tasks_enqueue, hrel.1, Multiset.add_cons]
    currentTask := rfl
    zombieTask := rfl
    idleTid := rfl
    idleTask := by simp
    awaits := fun q => by rw [Shared.slot_enqueue, hrel.2.1]; simp only [Disposal.ticket?, ne_eq, Option.some.injEq, @eq_comm _ r q]
    nextTid := hrel.2.2.1
    settled := fun hg hz => (hrel.2.2.2 hg).enqueue hz }

/-- A terminated task goes to the cleanup queue. -/
theorem routes_terminate : Routes s g z .terminate s (g.cleanupEnqueue z) :=
  have hcl := Shared.cleanupEnqueue_spec g z
  { tasks := by rw [hcl.1, Multiset.add_cons]
    currentTask := rfl
    zombieTask := rfl
    idleTid := rfl
    idleTask := by simp
    awaits := fun q => by rw [hcl.2.1]; simp [Disposal.ticket?]
    nextTid := hcl.2.2.1
    settled := hcl.2.2.2 }

/-- `route` sends the task where its disposal says, when the idle slot is free for the idle task
    and a park ticket's claim still waits for its park. -/
theorem routes_route (hidle : s.idleTid = some z.id → d = .enqueue → s.idleTask = none)
    (hpark : ∀ r, d = .park r → (g.slot r).awaitsPark = true) :
    Routes s g z d (s.route g z d).1 (s.route g z d).2 := by
  cases d with
  | enqueue =>
    by_cases hi : s.idleTid = some z.id
    · simpa [route, hi] using routes_idle (g := g) hi (hidle hi rfl)
    · simpa [route, hi] using routes_enqueue (g := g) hi
  | park r =>
    have hr := hpark r rfl
    rcases Shared.park_cases g r z with ⟨hs, hp⟩ | ⟨hs, hp⟩
    · simpa [route, hp] using routes_occupy (s := s) hs
    · have hu : g.slot r = .unparked := by
        cases hslot : g.slot r <;> simp_all [Slot.awaitsPark]
      simpa [route, hp] using routes_bounce (s := s) hu
  | terminate => exact routes_terminate

end Scheduler

namespace Scheduler

variable {s s' : Scheduler} {g g' : Shared} {z t : Task} {d : Disposal} {r : Nat}

theorem settled_of_not_mustSwitch (h : ¬ s.MustSwitch) : s.currentTask.Settled false := by
  cases hp : s.currentTask.parkTicket <;> cases hf : s.currentTask.shouldTerminate <;>
    simp_all [MustSwitch, Task.Settled]

theorem tasks_of_zombie (h : s.zombieTask = some (z, d)) :
    s.tasks = z ::ₘ { s with zombieTask := none }.tasks := by
  simp only [tasks, h, Option.map_some, Option.map_none, Option.toList_some, Option.toList_none,
    Multiset.coe_nil, add_zero, Multiset.coe_singleton, ← Multiset.singleton_add]
  abel

theorem heldBy_of_zombie (h : s.zombieTask = some (z, d)) : s.heldBy = d.ticket? := by
  simp [heldBy, h]

theorem heldBy_of_none (h : s.zombieTask = none) : s.heldBy = none := by
  simp [heldBy, h]

theorem routeZombie_of_none (h : s.zombieTask = none) : s.routeZombie g = (s, g) := by
  simp [routeZombie, h]

theorem routeZombie_of_some (h : s.zombieTask = some (z, d)) :
    s.routeZombie g = { s with zombieTask := none }.route g z d := by
  simp [routeZombie, h]

/-- The zombie goes to the idle slot only when the slot is empty: the zombie is the idle task then,
    and no two tasks of the CPU share an id. -/
theorem Ready.idleTask_none (h : s.Ready g) (hz : s.zombieTask = some (z, d))
    (hi : s.idleTid = some z.id) : s.idleTask = none := by
  rcases h.idleOk.idleAt z.id hi with hslot | ⟨he, -⟩
  · obtain ⟨t, ht, htid⟩ := Option.map_eq_some_iff.1 hslot
    have hnd := h.nodup
    simp [ids, tasks, ht, hz, htid] at hnd
  · exact he

/-- Whether the current task must leave, and whether it can, read only its current task and the
    id of its idle task. -/
theorem mustSwitch_congr (hc : s'.currentTask = s.currentTask) (hi : s'.idleTid = s.idleTid)
    (h : s.MustSwitch → s.idleTid.isSome ∧ s.NotIdle) : s'.MustSwitch → s'.idleTid.isSome ∧ s'.NotIdle := by
  simp only [MustSwitch, NotIdle, hc, hi]
  exact h

/-- A CPU whose zombie is routed, as `reschedule` leaves it before it picks the next task: the idle
    task is in its slot unless it is current. -/
structure Routed (s : Scheduler) (g : Shared) : Prop where
  zombieTask : s.zombieTask = none
  idle : ∀ t, s.idleTask = some t → t.Settled false
  shared : g.Settled
  idleTask_none : s.idleTid = none → s.idleTask = none
  idleAt : ∀ i, s.idleTid = some i →
    s.idleTask.map Task.id = some i ∨ s.idleTask = none ∧ s.currentTask.id = i
  current : s.currentTask.parkTicket = none ∨ s.currentTask.shouldTerminate = false
  mustSwitch : s.MustSwitch → s.idleTid.isSome ∧ s.NotIdle

/-- Routing the zombie of a `Ready` CPU: the tasks stay, the claim the zombie held is used, and
    the idle task is in its slot unless it is current. -/
theorem Ready.routeZombie (h : s.Ready g) :
    (s.routeZombie g).1.tasks + (s.routeZombie g).2.tasks = s.tasks + g.tasks ∧
      (s.routeZombie g).1.currentTask = s.currentTask ∧ (s.routeZombie g).1.idleTid = s.idleTid ∧
      (∀ q, ((s.routeZombie g).2.slot q).awaitsPark = true ↔
        (g.slot q).awaitsPark = true ∧ s.heldBy ≠ some q) ∧
      (s.routeZombie g).2.nextTid = g.nextTid ∧ Routed (s.routeZombie g).1 (s.routeZombie g).2 := by
  cases hz : s.zombieTask with
  | none =>
    -- nothing to route
    rw [routeZombie_of_none hz]
    refine ⟨rfl, rfl, rfl, fun q => by simp [heldBy_of_none hz], rfl, ?_⟩
    exact { zombieTask := hz, idle := h.off.idle, shared := h.shared,
            idleTask_none := h.idleOk.idleTask_none,
            idleAt := fun i hi => (h.idleOk.idleAt i hi).imp_right
              fun ⟨he, hc⟩ => ⟨he, hc.resolve_right (by simp [hz])⟩,
            current := h.current, mustSwitch := h.mustSwitch }
  | some zd =>
    obtain ⟨z, d⟩ := zd
    rw [routeZombie_of_some hz]
    have hR : Routes { s with zombieTask := none } g z d _ _ :=
      routes_route (fun hi _ => h.idleTask_none hz hi)
        (fun r hd => h.held r (by rw [heldBy_of_zombie hz, hd]; rfl))
    have hzs : z.Settled d.isTerminate := h.off.zombie z d hz
    refine ⟨?_, hR.currentTask, hR.idleTid, fun q => by rw [hR.awaits, heldBy_of_zombie hz], hR.nextTid, ?_⟩
    · rw [hR.tasks, tasks_of_zombie hz, Multiset.cons_add]
    refine { zombieTask := hR.zombieTask, idle := fun t ht => ?_, shared := hR.settled h.shared hzs,
             idleTask_none := fun hn => ?_, idleAt := fun i hi => ?_,
             current := by rw [hR.currentTask]; exact h.current,
             mustSwitch := mustSwitch_congr hR.currentTask hR.idleTid h.mustSwitch }
    · -- the idle slot holds the task it held, or the idle task just routed there
      rw [hR.idleTask] at ht
      split_ifs at ht with hc
      · cases ht
        simpa [hc.1, Disposal.isTerminate] using hzs
      · exact h.off.idle t ht
    · have hn' : s.idleTid = none := hR.idleTid ▸ hn
      rw [hR.idleTask, if_neg (by simp [hn']), h.idleOk.idleTask_none hn']
    · rw [hR.idleTid] at hi
      rw [hR.idleTask, hR.currentTask]
      rcases h.idleOk.idleAt i hi with hslot | ⟨he, hcur | ⟨t, ht, htid⟩⟩
      · split_ifs with hc
        · exact .inl (by simp [Option.some.inj (hc.2.symm.trans hi)])
        · exact .inl hslot
      · split_ifs with hc
        · exact .inl (by simp [Option.some.inj (hc.2.symm.trans hi)])
        · exact .inr ⟨he, hcur⟩
      · -- the idle task was the zombie, and is back in its slot
        rw [hz, Option.some.injEq, Prod.mk.injEq] at ht
        obtain ⟨rfl, rfl⟩ := ht
        rw [if_pos ⟨rfl, htid ▸ hi⟩]
        exact .inl (by simp [htid])

end Scheduler

namespace Scheduler

variable {s s' : Scheduler} {g g' : Shared} {z t : Task} {d : Disposal} {r : Nat}

/-! ### Picking the next task -/

/-- `pickNext` switches to the head of the run queue, switches to the idle task when the current
    one must leave and the queue is empty, or stays. -/
theorem pickNext_cases (s : Scheduler) (g : Shared) :
    (∃ t g', g.dequeue = (some t, g') ∧
      s.pickNext g = ({ s with currentTask := t, zombieTask := some (dispose s.currentTask) }, g')) ∨
    (∃ t, s.MustSwitch ∧ s.idleTask = some t ∧
      s.pickNext g = ({ s with idleTask := none, currentTask := t, zombieTask := some (dispose s.currentTask) }, g)) ∨
    ((s.MustSwitch → s.idleTask = none) ∧ s.pickNext g = (s, g)) := by
  obtain ⟨cur, idle, tid, zombie⟩ := s
  unfold pickNext nextTask
  rcases Shared.dequeue_cases g with ⟨-, hd⟩ | ⟨t, rest, -, hd⟩
  · rw [hd]
    by_cases hm : (cur.parkTicket.isSome || cur.shouldTerminate) = true
    · cases idle with
      | none => exact .inr (.inr ⟨fun _ => rfl, by simp [hm]⟩)
      | some t => exact .inr (.inl ⟨t, hm, rfl, by simp [hm]⟩)
    · exact .inr (.inr ⟨fun h => absurd h hm, by simp [hm]⟩)
  · exact .inl ⟨t, _, hd, by rw [hd]⟩

/-- What `reschedule` leaves behind, against the CPU and the shared state before: the ids stay,
    every task is settled, the idle task is where `IdleOk` says, the zombie holds the park ticket
    the current task held, and that claim is the one the next `reschedule` uses. -/
structure Rescheduled (s : Scheduler) (g : Shared) (s' : Scheduler) (g' : Shared) : Prop where
  ids : s'.ids + g'.ids = s.ids + g.ids
  settled : s'.Settled
  shared : g'.Settled
  idleOk : s'.IdleOk
  idleTid : s'.idleTid = s.idleTid
  heldBy : s'.heldBy = s.currentTask.parkTicket
  awaits : ∀ q, (g'.slot q).awaitsPark = true ↔ (g.slot q).awaitsPark = true ∧ s.heldBy ≠ some q
  nextTid : g'.nextTid = g.nextTid
  switch : s.MustSwitch → s'.zombieTask = some (dispose s.currentTask)

/-- The current task of a routed CPU settles on it when it is the idle task. -/
theorem Routed.settled_of_idle (h : Routed s g) (hi : s.idleTid = some s.currentTask.id) :
    s.currentTask.Settled false :=
  settled_of_not_mustSwitch fun hm => (h.mustSwitch hm).2 hi

/-- Picking the next task on a routed CPU. -/
theorem Routed.pickNext (h : Routed s g) : Rescheduled s g (s.pickNext g).1 (s.pickNext g).2 := by
  have hheld : s.heldBy = none := heldBy_of_none h.zombieTask
  rcases pickNext_cases s g with ⟨t, g', hd, hp⟩ | ⟨t, hm, hi, hp⟩ | ⟨hm, hp⟩ <;> rw [hp]
  · -- the head of the run queue comes in, the current task leaves as the zombie
    obtain ⟨hmem, htasks, hslot, hnext, hS⟩ := Shared.dequeue_eq_some hd
    refine ⟨?_, ⟨h.shared.globalQueue t hmem, h.idle, ?_⟩, hS h.shared, ⟨h.idleTask_none, fun i hi => ?_⟩,
      rfl, ticket?_dispose _, fun q => by simp [hslot, hheld], hnext, fun _ => rfl⟩
    · simp only [ids, tasks, Shared.ids, htasks, h.zombieTask, Option.map_some, Option.map_none,
        Option.toList_some, Option.toList_none, Multiset.coe_nil, Multiset.coe_singleton, add_zero,
        Multiset.map_add, Multiset.map_singleton, dispose_id, ← Multiset.singleton_add]
      abel
    · rintro u e ⟨⟩
      exact dispose_settled h.current
    · rcases h.idleAt i hi with hslot' | ⟨he, hc⟩
      · exact .inl hslot'
      · -- the idle task leaves as a zombie to be enqueued, that is, back to its slot
        have hset := h.settled_of_idle (hc ▸ hi)
        exact .inr ⟨he, .inr ⟨s.currentTask, by rw [dispose_of_settled hset], hc⟩⟩
  · -- the idle task comes in
    refine ⟨?_, ⟨h.idle t hi, ⟨fun _ h => by simp at h, ?_⟩⟩, h.shared, ⟨fun _ => rfl, fun i hi' => ?_⟩,
      rfl, ticket?_dispose _, fun q => by simp [hheld], rfl, fun _ => rfl⟩
    · simp only [ids, tasks, Shared.ids, hi, h.zombieTask, Option.map_some, Option.map_none,
        Option.toList_some, Option.toList_none, Multiset.coe_nil, Multiset.coe_singleton, add_zero,
        zero_add, Multiset.map_add, Multiset.map_singleton, dispose_id,
        ← Multiset.singleton_add]
      abel
    · rintro u e ⟨⟩
      exact dispose_settled h.current
    · rcases h.idleAt i hi' with hslot | ⟨he, -⟩
      · exact .inr ⟨rfl, .inl (by simpa [hi] using hslot)⟩
      · simp [he] at hi
  · -- the current task stays, and it cannot be one that must leave
    have hstay : ¬ s.MustSwitch := fun hm' => by
      obtain ⟨hsome, hnot⟩ := h.mustSwitch hm'
      obtain ⟨i, hi⟩ := Option.isSome_iff_exists.1 hsome
      rcases h.idleAt i hi with hslot | ⟨-, hc⟩
      · simp [hm hm'] at hslot
      · exact hnot (hc ▸ hi)
    have hset := settled_of_not_mustSwitch hstay
    refine ⟨rfl, ⟨hset, h.idle, fun _ _ hz => by simp [h.zombieTask] at hz⟩, h.shared,
      ⟨h.idleTask_none, fun i hi => ?_⟩, rfl, by rw [hheld, hset.1], fun q => by simp [hheld], rfl,
      fun hm' => absurd hm' hstay⟩
    exact (h.idleAt i hi).imp_right fun ⟨he, hc⟩ => ⟨he, .inl hc⟩

/-- `reschedule` on a `Ready` CPU. -/
theorem Ready.reschedule (h : s.Ready g) : Rescheduled s g (s.reschedule g).1 (s.reschedule g).2 := by
  obtain ⟨htasks, hcur, htid, hawaits, hnext, hR⟩ := h.routeZombie
  have hP := hR.pickNext
  rw [reschedule_eq]
  refine ⟨?_, hP.settled, hP.shared, hP.idleOk, hP.idleTid.trans htid, ?_, fun q => ?_,
    hP.nextTid.trans hnext, fun hm => ?_⟩
  · rw [hP.ids, ids, ids, Shared.ids, Shared.ids, ← Multiset.map_add, htasks, Multiset.map_add]
  · rw [hP.heldBy, hcur]
  · rw [hP.awaits, heldBy_of_none hR.zombieTask, hawaits]
    simp
  · rw [hP.switch (by rwa [MustSwitch, hcur]), hcur]

end Scheduler

end Muffin.Mtask
