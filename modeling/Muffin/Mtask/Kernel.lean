-- SUMMARY: The kernel's calls on the scheduler from boot (spawning, installing idle tasks, timer ticks that deliver, stop or terminate, blocking, wake sources, the cleanup task), each CPU's call as a step of its scheduler with the shared state, and the invariant every reachable state keeps: no task is lost or duplicated, no park ticket is held between calls, every claim that waits for its park is held by exactly one CPU, and each idle task stays on its CPU.
import Muffin.Mtask.Scheduler

/-!
# The kernel's calls

A `Kernel` is the schedulers of `n` CPUs and the state they share. A `Call` is
one CPU's critical section with interrupts disabled, or one atomic operation on
the shared queues and the lot, so every interleaving of the CPUs is a sequence
of calls; `Allowed` is what the kernel's code guarantees of each (an idle task
is installed once, and only a task other than the idle task blocks, stops or
terminates). `Reachable` is every state that boot and allowed calls reach.

The proofs go in two layers. `Scheduler.Wf` is what one CPU keeps with the
shared state between calls, and `CpuStep` what a call on one CPU does, as far
as the others can see: which ids it drops or creates, and which claims it uses
or takes. Each call's lemma proves its `CpuStep` from the reschedule lemma of
`Muffin.Mtask.Scheduler`; `Kernel.Wf.onCpu` lifts a `CpuStep` to the whole
kernel, with every other CPU framed, and `reachable_wf` follows by induction
over the run.

A blocking task sets its park ticket and reschedules in one call. In the source
a timer tick can come between the two; its reschedule is the one of the call,
and the task's own reschedule when it runs again is a tick that delivers
nothing. A wake source that fires between the reservation and the park is the
call's `woken` flag.
-/

namespace Muffin.Mtask

open Rust

namespace Scheduler

variable {s s' : Scheduler} {g g' g₁ : Shared} {c : Task} {r : Nat}

/-- What a CPU keeps between calls, with the shared state: every task is settled, the idle task is
    where `IdleOk` says, and the claim the zombie holds still waits for its park. -/
structure Wf (s : Scheduler) (g : Shared) : Prop where
  settled : s.Settled
  shared : g.Settled
  idleOk : s.IdleOk
  held : ∀ r, s.heldBy = some r → (g.slot r).awaitsPark = true

/-- A call on one CPU, as the others see it: the ids change only by tasks dropped from the cleanup
    queue and tasks created with fresh ids, `Wf` holds after it, a claim waits for its park after
    it when it did before and the CPU's zombie did not use it, or when the CPU's new zombie holds
    it, and a claim the new zombie holds was free or held by this CPU before. -/
structure CpuStep (s : Scheduler) (g : Shared) (s' : Scheduler) (g' : Shared) : Prop where
  ids : ∃ dropped created, s'.ids + g'.ids + dropped = s.ids + g.ids + created ∧
    (∀ i ∈ dropped, ∃ t ∈ g.cleanupQueue, t.id = i) ∧ created.Nodup ∧
    ∀ i ∈ created, g.nextTid ≤ i ∧ i < g'.nextTid
  nextTid : g.nextTid ≤ g'.nextTid
  wf : s'.Wf g'
  awaits : ∀ q, (g'.slot q).awaitsPark = true ↔
    (g.slot q).awaitsPark = true ∧ s.heldBy ≠ some q ∨ s'.heldBy = some q
  fresh : ∀ q, s'.heldBy = some q → (g.slot q).awaitsPark = false ∨ s.heldBy = some q

theorem ids_withCurrent (hc : c.id = s.currentTask.id) : ({ s with currentTask := c }).ids = s.ids := by
  simp [ids, tasks, hc]

theorem IdleOk.withCurrent (h : s.IdleOk) (hc : c.id = s.currentTask.id) :
    ({ s with currentTask := c }).IdleOk where
  idleTask_none := h.idleTask_none
  idleAt i hi := by
    rcases h.idleAt i hi with hs | ⟨he, hcur | hz⟩
    · exact .inl hs
    · exact .inr ⟨he, .inl (hc.trans hcur)⟩
    · exact .inr ⟨he, .inr hz⟩

/-- A claim the zombie holds waits for its park, so it waits exactly when it did or the zombie
    holds it. -/
theorem Wf.awaits_iff (h : s.Wf g) (q : Nat) :
    (g.slot q).awaitsPark = true ↔ (g.slot q).awaitsPark = true ∧ s.heldBy ≠ some q ∨ s.heldBy = some q := by
  by_cases hq : s.heldBy = some q
  · simp [hq, h.held q hq]
  · simp [hq]

/-- A call that changes the current task, keeping its id, and the shared state, then reschedules:
    the shared state may lose tasks of the cleanup queue, and the claim of a park ticket the
    current task takes is fresh. -/
theorem Wf.rescheduleWith (h : s.Wf g) (hn : s.ids.Nodup) (hc : c.id = s.currentTask.id)
    (hcur : c.parkTicket = none ∨ c.shouldTerminate = false)
    (hm : (c.parkTicket.isSome || c.shouldTerminate) = true → s.idleTid.isSome ∧ s.NotIdle)
    (hg₁ : g₁.Settled) (dropped : Multiset Nat) (hids : g₁.ids + dropped = g.ids)
    (hdrop : ∀ i ∈ dropped, ∃ t ∈ g.cleanupQueue, t.id = i)
    (hawait : ∀ q, (g₁.slot q).awaitsPark = true ↔ (g.slot q).awaitsPark = true ∨ c.parkTicket = some q)
    (hfresh : ∀ q, c.parkTicket = some q → (g.slot q).awaitsPark = false) (hnext : g₁.nextTid = g.nextTid) :
    CpuStep s g ({ s with currentTask := c }.reschedule g₁).1 ({ s with currentTask := c }.reschedule g₁).2 ∧
      ((c.parkTicket.isSome || c.shouldTerminate) = true →
        ({ s with currentTask := c }.reschedule g₁).1.zombieTask = some (dispose c)) := by
  have hready : ({ s with currentTask := c }).Ready g₁ :=
    { nodup := by rw [ids_withCurrent hc]; exact hn
      off := ⟨h.settled.off.idle, h.settled.off.zombie⟩
      shared := hg₁
      idleOk := h.idleOk.withCurrent hc
      held := fun r hr => (hawait r).2 (.inl (h.held r hr))
      current := hcur
      mustSwitch := fun hm' => by
        obtain ⟨hsome, hnot⟩ := hm hm'
        exact ⟨hsome, by simpa [NotIdle, hc] using hnot⟩ }
  have hR := hready.reschedule
  -- the claim of the current task's ticket is fresh, so no zombie held it
  have hheld : ∀ q, c.parkTicket = some q → s.heldBy ≠ some q := fun q hq hh => by
    have hw := h.held q hh
    rw [hfresh q hq] at hw
    cases hw
  refine ⟨⟨⟨dropped, 0, ?_, hdrop, Multiset.nodup_zero, by simp⟩, by rw [hR.nextTid, hnext],
    ⟨hR.settled, hR.shared, hR.idleOk, fun q hq => ?_⟩, fun q => ?_, fun q hq => ?_⟩, hR.switch⟩
  · rw [add_zero, hR.ids, ids_withCurrent hc, add_assoc, hids]
  · rw [hR.heldBy] at hq
    exact (hR.awaits q).2 ⟨(hawait q).2 (.inr hq), hheld q hq⟩
  · rw [hR.awaits, hawait, hR.heldBy]
    constructor
    · rintro ⟨hq | hq, hne⟩
      · exact .inl ⟨hq, hne⟩
      · exact .inr hq
    · rintro (⟨hq, hne⟩ | hq)
      · exact ⟨.inl hq, hne⟩
      · exact ⟨.inr hq, hheld q hq⟩
  · rw [hR.heldBy] at hq
    exact .inl (hfresh q hq)

theorem setParkTicket_of_none {t : Task} (h : t.parkTicket = none) (r : Nat) :
    t.setParkTicket r = some { t with parkTicket := some r } := by
  simp [Task.setParkTicket, h]

/-- A task that parks with no ticket of its own leaves as itself, to be parked on the claim. -/
theorem dispose_parked {t : Task} (h : t.parkTicket = none) (r : Nat) :
    dispose { t with parkTicket := some r } = (t, .park r) := by
  obtain ⟨id, term, ticket⟩ := t
  cases h
  cases term <;> rfl

theorem blockCurrent_of_none (h : s.currentTask.parkTicket = none) (g : Shared) (r : Nat) :
    s.blockCurrent g r = .ok ({ s with currentTask := { s.currentTask with parkTicket := some r } }.reschedule g) := by
  simp [blockCurrent, setParkTicket_of_none h]
  rfl

theorem timer_stop_of_none (h : s.currentTask.parkTicket = none) (g : Shared) :
    s.timer g .stop =
      { s with currentTask := { s.currentTask with parkTicket := some g.waiting.length } }.reschedule g.reserve.2 := by
  simp [timer, requestStopPark, setParkTicket_of_none h]

/-- A timer tick that delivers nothing. -/
theorem Wf.reschedule (h : s.Wf g) (hn : s.ids.Nodup) : CpuStep s g (s.reschedule g).1 (s.reschedule g).2 :=
  have hcur := h.settled.current
  (h.rescheduleWith hn rfl (.inl hcur.1) (fun hm => by simp [hcur.1, hcur.2] at hm) h.shared 0
    (add_zero _) (by simp) (fun q => by simp [hcur.1]) (fun q hq => by simp [hcur.1] at hq) rfl).1

/-- The current task takes the park ticket of a fresh claim and reschedules: it leaves the CPU, as
    the zombie to be parked on that claim. -/
theorem Wf.parkCurrent (h : s.Wf g) (hn : s.ids.Nodup) (ha : s.idleTid.isSome ∧ s.NotIdle)
    (hg₁ : g₁.Settled) (dropped : Multiset Nat) (hids : g₁.ids + dropped = g.ids)
    (hdrop : ∀ i ∈ dropped, ∃ t ∈ g.cleanupQueue, t.id = i)
    (hawait : ∀ q, (g₁.slot q).awaitsPark = true ↔ (g.slot q).awaitsPark = true ∨ q = r)
    (hfresh : (g.slot r).awaitsPark = false) (hnext : g₁.nextTid = g.nextTid) :
    CpuStep s g ({ s with currentTask := { s.currentTask with parkTicket := some r } }.reschedule g₁).1
        ({ s with currentTask := { s.currentTask with parkTicket := some r } }.reschedule g₁).2 ∧
      ({ s with currentTask := { s.currentTask with parkTicket := some r } }.reschedule g₁).1.zombieTask =
        some (s.currentTask, .park r) := by
  have hcur := h.settled.current
  obtain ⟨hstep, hswitch⟩ := h.rescheduleWith hn (c := { s.currentTask with parkTicket := some r }) rfl
    (.inr hcur.2) (fun _ => ha) hg₁ dropped hids hdrop
    (fun q => by rw [hawait q]; simp only [Option.some.injEq, @eq_comm _ r q])
    (fun q hq => by obtain rfl := Option.some.inj hq; exact hfresh) hnext
  exact ⟨hstep, by rw [hswitch rfl, dispose_parked hcur.1]⟩

/-- A timer tick that stops the current task: a fresh claim's park ticket goes into its cell, and
    the task leaves the CPU to be parked on that claim. -/
theorem Wf.timer_stop (h : s.Wf g) (hn : s.ids.Nodup) (ha : s.idleTid.isSome ∧ s.NotIdle) :
    CpuStep s g (s.timer g .stop).1 (s.timer g .stop).2 ∧
      (s.timer g .stop).1.zombieTask = some (s.currentTask, .park g.waiting.length) := by
  rw [timer_stop_of_none h.settled.current.1]
  exact h.parkCurrent hn ha h.shared.reserve 0 (by rw [add_zero, Shared.ids, Shared.ids, Shared.tasks_reserve])
    (by simp) (Shared.awaitsPark_reserve g) (Shared.awaitsPark_fresh g) rfl

/-- A timer tick that terminates the current task: it leaves the CPU, to go to the cleanup queue. -/
theorem Wf.timer_terminate (h : s.Wf g) (hn : s.ids.Nodup) (ha : s.idleTid.isSome ∧ s.NotIdle) :
    CpuStep s g (s.timer g .terminate).1 (s.timer g .terminate).2 ∧
      (s.timer g .terminate).1.zombieTask = some ({ s.currentTask with shouldTerminate := true }, .terminate) := by
  have hcur := h.settled.current
  obtain ⟨hstep, hswitch⟩ := h.rescheduleWith hn (c := { s.currentTask with shouldTerminate := true }) rfl
    (.inl hcur.1) (fun _ => ha) h.shared 0 (add_zero _) (by simp) (fun q => by simp [hcur.1])
    (fun q hq => by simp [hcur.1] at hq) rfl
  refine ⟨hstep, ?_⟩
  rw [timer, hswitch (by simp), dispose_eq]
  simp [hcur.1]

end Scheduler

namespace Shared

variable {g g' : Shared} {o : Option Task}

/-- The task `cleanupDequeue` takes is one of the cleanup queue, and only its id leaves. -/
theorem ids_cleanupDequeue (h : g.cleanupDequeue = (o, g')) :
    g'.ids + ↑(o.map Task.id).toList = g.ids ∧
      ∀ i ∈ (↑(o.map Task.id).toList : Multiset Nat), ∃ t ∈ g.cleanupQueue, t.id = i := by
  obtain ⟨htasks, hmem, -⟩ := cleanupDequeue_spec h
  refine ⟨?_, fun i hi => ?_⟩
  · rw [ids, ids, htasks, Multiset.map_add, add_comm]
    cases o <;> simp
  · cases o with
    | none => simp at hi
    | some t => exact ⟨t, hmem t rfl, (by simpa using hi : i = t.id).symm⟩

/-- The drop of the cleanup task's park round: a task enqueued before the cell was armed is
    dropped, and the wake it sent is taken back and fired, so that the park bounces. -/
def dropBeforePark (g : Shared) : Shared :=
  match g.cleanupDequeue with
  | (some _, g) =>
    match g.takeCleanupUnpark with
    | (some ticket, g) => g.unparkAndEnqueue ticket
    | (none, g) => g
  | (none, g) => g

/-- The drop loses at most one task of the cleanup queue, and taking the wake back only marks the
    claim. -/
theorem dropBeforePark_spec (g : Shared) :
    ∃ dropped, g.dropBeforePark.ids + dropped = g.ids ∧
      (∀ i ∈ dropped, ∃ t ∈ g.cleanupQueue, t.id = i) ∧
      (∀ q, (g.dropBeforePark.slot q).awaitsPark = (g.slot q).awaitsPark) ∧
      g.dropBeforePark.nextTid = g.nextTid ∧ (g.Settled → g.dropBeforePark.Settled) := by
  rcases hd : g.cleanupDequeue with ⟨o, g₃⟩
  obtain ⟨hids, hdrop⟩ := ids_cleanupDequeue hd
  obtain ⟨-, -, hslot, hnext, hS⟩ := cleanupDequeue_spec hd
  -- what the drop leaves, against the state after the dequeue
  have hg₁ : g.dropBeforePark.tasks = g₃.tasks ∧
      (∀ q, (g.dropBeforePark.slot q).awaitsPark = (g₃.slot q).awaitsPark) ∧
      g.dropBeforePark.nextTid = g₃.nextTid ∧ (g₃.Settled → g.dropBeforePark.Settled) := by
    unfold dropBeforePark
    rw [hd]
    cases o with
    | none => exact ⟨rfl, fun _ => rfl, rfl, id⟩
    | some t =>
      dsimp only
      cases hc : g₃.cleanupUnpark with
      | none =>
        rw [takeCleanupUnpark, hc]
        exact ⟨rfl, fun _ => rfl, rfl, fun h => ⟨h.1, h.2, h.3⟩⟩
      | some ticket =>
        rw [takeCleanupUnpark, hc]
        obtain ⟨ht, ha, hn, hS'⟩ := unparkAndEnqueue_spec { g₃ with cleanupUnpark := none } ticket
        exact ⟨ht, ha, hn, fun h => hS' ⟨h.1, h.2, h.3⟩⟩
  exact ⟨_, by rw [ids, hg₁.1]; exact hids, hdrop, fun q => by rw [hg₁.2.1, hslot],
    hg₁.2.2.1.trans hnext, fun h => hg₁.2.2.2 (hS h)⟩

end Shared

/-- A call on what the CPUs share alone: it drops tasks of the cleanup queue and creates tasks
    with fresh ids, keeps the shared state settled, and leaves every claim waiting as it did. -/
structure SharedStep (g g' : Shared) : Prop where
  ids : ∃ dropped created, g'.ids + dropped = g.ids + created ∧
    (∀ i ∈ dropped, ∃ t ∈ g.cleanupQueue, t.id = i) ∧ created.Nodup ∧
    ∀ i ∈ created, g.nextTid ≤ i ∧ i < g'.nextTid
  nextTid : g.nextTid ≤ g'.nextTid
  settled : g'.Settled
  awaits : ∀ q, (g'.slot q).awaitsPark = (g.slot q).awaitsPark

namespace SharedStep

variable {g : Shared}

/-- A step that moves tasks around the shared state and leaves every claim waiting as it did. -/
theorem of_tasks {g' : Shared} (hg : g.Settled) (htasks : g'.tasks = g.tasks) (hS : g.Settled → g'.Settled)
    (hawait : ∀ q, (g'.slot q).awaitsPark = (g.slot q).awaitsPark) (hnext : g'.nextTid = g.nextTid) :
    SharedStep g g' where
  ids := ⟨0, 0, by rw [add_zero, add_zero, Shared.ids, Shared.ids, htasks], by simp, Multiset.nodup_zero, by simp⟩
  nextTid := hnext.ge
  settled := hS hg
  awaits := hawait

/-- `Task::create_new` and `GlobalTaskQueue::enqueue`: a task with a fresh id joins the run queue. -/
theorem spawn (hg : g.Settled) : SharedStep g (g.newTid.2.enqueue (.new g.nextTid)) where
  ids := ⟨0, {g.nextTid}, by simp [Shared.ids, Shared.tasks_enqueue, Task.new, add_comm],
    by simp, Multiset.nodup_singleton _, by simp⟩
  nextTid := by simp
  settled := hg.newTid.enqueue ⟨rfl, rfl⟩
  awaits q := rfl

/-- A wake source fires its ticket. -/
theorem unpark (hg : g.Settled) (r : Nat) : SharedStep g (g.unparkAndEnqueue r) :=
  have hu := Shared.unparkAndEnqueue_spec g r
  of_tasks hg hu.1 hu.2.2.2 hu.2.1 hu.2.2.1

/-- The cleanup task drops a task of its queue. -/
theorem cleanupDrop (hg : g.Settled) : SharedStep g g.cleanupDequeue.2 := by
  rcases hd : g.cleanupDequeue with ⟨o, g'⟩
  obtain ⟨hids, hdrop⟩ := Shared.ids_cleanupDequeue hd
  obtain ⟨-, -, hslot, hnext, hS⟩ := Shared.cleanupDequeue_spec hd
  exact ⟨⟨_, 0, by rw [add_zero, hids], hdrop, Multiset.nodup_zero, by simp⟩, hnext.ge, hS hg,
    fun q => by rw [hslot]⟩

/-- A reservation released before anyone saw it changes nothing of the lot. -/
theorem reserve_release (hg : g.Settled) : SharedStep g (g.reserve.2.release g.waiting.length) := by
  have hr := Shared.release_spec (g := g.reserve.2) (r := g.waiting.length)
    (by rw [Shared.slot_reserve, if_pos rfl]; rfl)
  refine of_tasks hg (hr.1.trans (Shared.tasks_reserve g)) (fun hg => hr.2.2.2 hg.reserve) (fun q => ?_) hr.2.2.1
  have hfresh := Shared.awaitsPark_fresh g
  rw [Bool.eq_iff_iff, hr.2.1, Shared.awaitsPark_reserve]
  constructor
  · rintro ⟨hq | hq, hne⟩
    · exact hq
    · exact absurd hq hne
  · intro hq
    exact ⟨.inl hq, fun he => by rw [he, hfresh] at hq; cases hq⟩

end SharedStep

namespace Scheduler

variable {s : Scheduler} {g g' : Shared}

/-- A call on the shared state alone, seen from a CPU. -/
theorem Wf.stay (h : s.Wf g) (hs : SharedStep g g') : CpuStep s g s g' where
  ids := by
    obtain ⟨dropped, created, hids, hdrop, hcr, hcf⟩ := hs.ids
    exact ⟨dropped, created, by rw [add_assoc, hids, add_assoc], hdrop, hcr, hcf⟩
  nextTid := hs.nextTid
  wf := ⟨h.settled, hs.settled, h.idleOk, fun r hr => by rw [hs.awaits]; exact h.held r hr⟩
  awaits q := by rw [hs.awaits]; exact h.awaits_iff q
  fresh _ hq := .inr hq

theorem ids_setIdleTask (hnone : s.idleTask = none) (t : Task) : (s.setIdleTask t).ids = t.id ::ₘ s.ids := by
  simp only [ids, tasks, Scheduler.setIdleTask, hnone, Option.toList_some, Option.toList_none,
    Multiset.coe_nil, zero_add, Multiset.coe_singleton, Multiset.singleton_add, Multiset.map_cons,
    Multiset.cons_swap]

/-- `install_idle_task`: a fresh task goes into the empty idle slot. -/
theorem Wf.setIdleTask (h : s.Wf g) (hnone : s.idleTid = none) :
    CpuStep s g (s.setIdleTask (.new g.nextTid)) g.newTid.2 where
  ids := ⟨0, {g.nextTid}, by
    rw [add_zero, ids_setIdleTask (h.idleOk.idleTask_none hnone), Shared.ids, Shared.ids,
      Shared.tasks_newTid, Multiset.cons_add, ← Multiset.singleton_add, add_comm]
    rfl, by simp, Multiset.nodup_singleton _, by simp⟩
  nextTid := by simp
  wf := ⟨⟨h.settled.current, ⟨fun t ht => by cases ht; exact ⟨rfl, rfl⟩, h.settled.off.zombie⟩⟩,
    h.shared.newTid, ⟨fun hn => by simp [Scheduler.setIdleTask] at hn,
      fun i hi => .inl (by simpa [Scheduler.setIdleTask] using hi)⟩,
    h.held⟩
  awaits q := h.awaits_iff q
  fresh _ hq := .inr hq

/-- One round of the cleanup task's park: it arms the cell with a fresh claim, or sends the claim
    back when the cell is armed already; it drops a task enqueued before the cell was armed, and
    then parks on the claim, which bounces when the drop took the wake. -/
theorem cleanupPark_of_none (hcell : g.cleanupUnpark = none) :
    s.cleanupPark g = s.blockCurrent { g.reserve.2 with cleanupUnpark := some g.waiting.length }.dropBeforePark
      g.waiting.length := by
  simp only [cleanupPark, Shared.reserve, hcell]
  rfl

theorem Wf.cleanupPark (h : s.Wf g) (hn : s.ids.Nodup) (ha : s.idleTid.isSome ∧ s.NotIdle) :
    ∃ p, s.cleanupPark g = .ok p ∧ CpuStep s g p.1 p.2 := by
  cases hcell : g.cleanupUnpark with
  | some ticket =>
    refine ⟨(s, g.reserve.2.release g.waiting.length), ?_, h.stay (SharedStep.reserve_release h.shared)⟩
    simp only [Scheduler.cleanupPark, Shared.reserve, hcell]
    rfl
  | none =>
    -- the cell is armed with the claim, and the drop leaves the claim waiting, or marked
    set g₂ : Shared := { g.reserve.2 with cleanupUnpark := some g.waiting.length }
    have hg₂ : g₂.Settled := ⟨h.shared.reserve.1, h.shared.reserve.2, h.shared.reserve.3⟩
    obtain ⟨dropped, hids, hdrop, hawait, hnext, hS⟩ := g₂.dropBeforePark_spec
    have hpark := h.parkCurrent hn ha (hS hg₂) dropped
      (by rw [hids]; exact congrArg (Multiset.map Task.id) (Shared.tasks_reserve g)) hdrop
      (fun q => by rw [hawait]; exact Shared.awaitsPark_reserve g q) (Shared.awaitsPark_fresh g) hnext
    exact ⟨_, (cleanupPark_of_none hcell).trans (blockCurrent_of_none h.settled.current.1 _ _), hpark.1⟩

end Scheduler

-- ---------------------------------------------------------------------------
-- The kernel
-- ---------------------------------------------------------------------------

/-- The schedulers of `n` CPUs and what they share. -/
structure Kernel (n : Nat) where
  cpus : Fin n → Scheduler
  shared : Shared

/-- A call on the scheduler: a CPU's critical section, or an atomic operation on what the CPUs
    share. -/
inductive Call (n : Nat) where
  /-- `Task::create_new` and `GlobalTaskQueue::enqueue`, as `TaskCleanup::init` does. -/
  | spawn
  /-- `install_idle_task` on a CPU. -/
  | setIdle (cpu : Fin n)
  /-- A timer tick on a CPU. -/
  | timer (cpu : Fin n) (act : Scheduler.TickAct)
  /-- The current task of a CPU blocks: `wait::reserve`, then `block_current` with the park
      ticket, the unpark ticket going to a wake source, which may fire before the task parks. -/
  | block (cpu : Fin n) (woken : Bool)
  /-- A wake source fires its ticket. -/
  | unpark (ticket : Nat)
  /-- The cleanup task, current on a CPU, parks. -/
  | cleanupPark (cpu : Fin n)
  /-- The cleanup task drops a task of its queue. -/
  | cleanupDrop
  deriving DecidableEq, Repr

namespace Kernel

variable {n : Nat}

/-- The kernel after `init`: each CPU runs the task it booted in, and nothing else exists yet. -/
def boot (n : Nat) : Kernel n := ⟨fun c => .newCpuLocal (.new c), ⟨[], [], none, [], n⟩⟩

/-- A CPU's scheduler and the shared state after a critical section on that CPU. -/
def onCpu (k : Kernel n) (c : Fin n) (p : Scheduler × Shared) : Kernel n :=
  ⟨Function.update k.cpus c p.1, p.2⟩

/-- One call. -/
def step (k : Kernel n) : Call n → Except Panic (Kernel n)
  | .spawn =>
    let (id, g) := k.shared.newTid
    pure ⟨k.cpus, g.enqueue (.new id)⟩
  | .setIdle c =>
    let (id, g) := k.shared.newTid
    pure (k.onCpu c ((k.cpus c).setIdleTask (.new id), g))
  | .timer c act => pure (k.onCpu c ((k.cpus c).timer k.shared act))
  | .block c woken => do
    let (r, g) := k.shared.reserve
    let g := if woken then g.unparkAndEnqueue r else g
    pure (k.onCpu c (← (k.cpus c).blockCurrent g r))
  | .unpark r => pure ⟨k.cpus, k.shared.unparkAndEnqueue r⟩
  | .cleanupPark c => do pure (k.onCpu c (← (k.cpus c).cleanupPark k.shared))
  | .cleanupDrop => pure ⟨k.cpus, k.shared.cleanupDequeue.2⟩

/-- The calls the kernel makes: an idle task is installed once per CPU, and only a task other than
    the idle task blocks, stops or terminates, on a CPU whose idle task is installed. -/
def Allowed (k : Kernel n) : Call n → Prop
  | .setIdle c => (k.cpus c).idleTid = none
  | .timer _ .deliver => True
  | .timer c _ | .block c _ | .cleanupPark c => (k.cpus c).idleTid.isSome ∧ (k.cpus c).NotIdle
  | .spawn | .unpark _ | .cleanupDrop => True

instance (k : Kernel n) : ∀ c, Decidable (k.Allowed c)
  | .setIdle c => inferInstanceAs (Decidable ((k.cpus c).idleTid = none))
  | .timer _ .deliver => isTrue trivial
  | .timer c .stop | .timer c .terminate | .block c _ | .cleanupPark c =>
    inferInstanceAs (Decidable ((k.cpus c).idleTid.isSome ∧ (k.cpus c).NotIdle))
  | .spawn | .unpark _ | .cleanupDrop => isTrue trivial

/-- One allowed call that does not panic. -/
def Step (k k' : Kernel n) : Prop := ∃ c, k.Allowed c ∧ k.step c = .ok k'

/-- The kernels that boot and some sequence of allowed calls reach. -/
def Reachable (k : Kernel n) : Prop := Relation.ReflTransGen Step (boot n) k

/-! ### Where the tasks are -/

/-- The ids of every task of the kernel: those each CPU holds, and those the CPUs share. -/
def ids (k : Kernel n) : Multiset Nat := ∑ c, (k.cpus c).ids + k.shared.ids

/-- The ids that the CPUs other than `c` hold. -/
def othersIds (k : Kernel n) (c : Fin n) : Multiset Nat := ∑ c' ∈ Finset.univ.erase c, (k.cpus c').ids

variable {k : Kernel n} {c : Fin n} {s' : Scheduler} {g' : Shared}

theorem ids_eq_others (k : Kernel n) (c : Fin n) :
    k.ids = (k.cpus c).ids + k.othersIds c + k.shared.ids := by
  rw [ids, othersIds, Finset.add_sum_erase _ (fun c' => (k.cpus c').ids) (Finset.mem_univ c)]

theorem ids_onCpu (k : Kernel n) (c : Fin n) (p : Scheduler × Shared) :
    (k.onCpu c p).ids = p.1.ids + k.othersIds c + p.2.ids := by
  rw [ids, ← Finset.add_sum_erase _ _ (Finset.mem_univ c), othersIds]
  simp only [onCpu, Function.update_self]
  congr 2
  exact Finset.sum_congr rfl fun c' hc' => by rw [Function.update_of_ne (Finset.ne_of_mem_erase hc')]

/-- Ids that a step keeps, drops or creates fresh, above every id there was: none is duplicated,
    and all stay below the counter. -/
theorem nodup_of_fresh {X X' D C : Multiset Nat} {N N' : Nat} (hX : X.Nodup) (hlt : ∀ i ∈ X, i < N)
    (heq : X' + D = X + C) (hC : C.Nodup) (hCf : ∀ i ∈ C, N ≤ i ∧ i < N') (hN : N ≤ N') :
    X'.Nodup ∧ ∀ i ∈ X', i < N' := by
  have hdisj : Disjoint X C :=
    Multiset.disjoint_left.2 fun hi hc => absurd (hlt _ hi) (not_lt.2 (hCf _ hc).1)
  have hle : X' ≤ X + C := heq ▸ Multiset.le_add_right X' D
  refine ⟨Multiset.nodup_of_le hle (Multiset.nodup_add.2 ⟨hX, hC, hdisj⟩), fun i hi => ?_⟩
  rcases Multiset.mem_add.1 (Multiset.mem_of_le hle hi) with h | h
  · exact (hlt i h).trans_le hN
  · exact (hCf i h).2

/-- What a call does to the ids: some tasks of the cleanup queue are dropped, and some tasks are
    created with fresh ids. -/
def Changes (k k' : Kernel n) : Prop :=
  ∃ dropped created, k'.ids + dropped = k.ids + created ∧
    (∀ i ∈ dropped, ∃ t ∈ k.shared.cleanupQueue, t.id = i) ∧ created.Nodup ∧
    ∀ i ∈ created, k.shared.nextTid ≤ i ∧ i < k'.shared.nextTid

/-- What every reachable kernel keeps: no two tasks share an id, and every id is below the
    counter; every CPU keeps `Scheduler.Wf`; and every claim that waits for its park is held by
    the zombie of exactly one CPU. -/
structure Wf (k : Kernel n) : Prop where
  nodup : k.ids.Nodup
  lt_nextTid : ∀ i ∈ k.ids, i < k.shared.nextTid
  shared : k.shared.Settled
  cpu : ∀ c, (k.cpus c).Wf k.shared
  awaits : ∀ r, (k.shared.slot r).awaitsPark = true → ∃ c, (k.cpus c).heldBy = some r
  heldBy_inj : ∀ c c' r, (k.cpus c).heldBy = some r → (k.cpus c').heldBy = some r → c = c'

theorem Wf.nodup_cpu (hk : k.Wf) (c : Fin n) : (k.cpus c).ids.Nodup :=
  Multiset.nodup_of_le (by rw [ids_eq_others k c, add_assoc]; exact Multiset.le_add_right _ _) hk.nodup

theorem Wf.changes (hk : k.Wf) {k' : Kernel n} (hc : Changes k k') (hnext : k.shared.nextTid ≤ k'.shared.nextTid) :
    k'.ids.Nodup ∧ ∀ i ∈ k'.ids, i < k'.shared.nextTid :=
  let ⟨_, _, heq, _, hcr, hcf⟩ := hc
  nodup_of_fresh hk.nodup hk.lt_nextTid heq hcr hcf hnext

/-- A call on one CPU keeps the kernel `Wf`, with every other CPU framed. -/
theorem Wf.onCpu (hk : k.Wf) (hs : Scheduler.CpuStep (k.cpus c) k.shared s' g') :
    (k.onCpu c (s', g')).Wf ∧ Changes k (k.onCpu c (s', g')) := by
  have hch : Changes k (k.onCpu c (s', g')) := by
    obtain ⟨dropped, created, hids, hdrop, hcr, hcf⟩ := hs.ids
    refine ⟨dropped, created, ?_, hdrop, hcr, hcf⟩
    calc (k.onCpu c (s', g')).ids + dropped
        = (s'.ids + g'.ids + dropped) + k.othersIds c := by rw [ids_onCpu]; abel
      _ = ((k.cpus c).ids + k.shared.ids + created) + k.othersIds c := by rw [hids]
      _ = k.ids + created := by rw [ids_eq_others k c]; abel
  -- the CPUs after the call: `c` runs `s'`, the others are as they were
  have hcpu : ∀ c', (k.onCpu c (s', g')).cpus c' = if c' = c then s' else k.cpus c' := fun c' => by
    simp only [Kernel.onCpu, Function.update_apply]
  -- a claim another CPU holds was held before, so it was not this CPU's
  have hother : ∀ c' r, c' ≠ c → (k.cpus c').heldBy = some r → (k.cpus c).heldBy ≠ some r :=
    fun c' r hne h h' => hne (hk.heldBy_inj c' c r h h')
  obtain ⟨hnodup, hlt⟩ := hk.changes hch hs.nextTid
  refine ⟨⟨hnodup, hlt, hs.wf.shared, fun c' => ?_, fun r hr => ?_, fun c₁ c₂ r h₁ h₂ => ?_⟩, hch⟩
  · rw [hcpu]
    split_ifs with hc'
    · exact hs.wf
    · have hw := hk.cpu c'
      exact ⟨hw.settled, hs.wf.shared, hw.idleOk, fun r hr =>
        (hs.awaits r).2 (.inl ⟨hw.held r hr, hother c' r hc' hr⟩)⟩
  · rcases (hs.awaits r).1 hr with ⟨hw, hne⟩ | hnew
    · obtain ⟨c', hc'⟩ := hk.awaits r hw
      have hne' : c' ≠ c := fun he => hne (he ▸ hc')
      exact ⟨c', by rw [hcpu, if_neg hne']; exact hc'⟩
    · exact ⟨c, by rw [hcpu, if_pos rfl]; exact hnew⟩
  · -- a claim the new zombie holds was free, or held by this CPU already
    rw [hcpu] at h₁ h₂
    have hfresh : ∀ c'', c'' ≠ c → (k.cpus c'').heldBy = some r → s'.heldBy = some r → False :=
      fun c'' hne hold hnew => by
        rcases hs.fresh r hnew with hfree | hmine
        · rw [(hk.cpu c'').held r hold] at hfree
          cases hfree
        · exact hother c'' r hne hold hmine
    split_ifs at h₁ h₂ with hc₁ hc₂ hc₂
    · exact hc₁.trans hc₂.symm
    · exact (hfresh c₂ hc₂ h₂ h₁).elim
    · exact (hfresh c₁ hc₁ h₁ h₂).elim
    · exact hk.heldBy_inj c₁ c₂ r h₁ h₂

/-- A call on the shared state alone keeps the kernel `Wf`. -/
theorem Wf.onShared (hk : k.Wf) (hs : SharedStep k.shared g') :
    (⟨k.cpus, g'⟩ : Kernel n).Wf ∧ Changes k ⟨k.cpus, g'⟩ := by
  have hch : Changes k ⟨k.cpus, g'⟩ := by
    obtain ⟨dropped, created, hids, hdrop, hcr, hcf⟩ := hs.ids
    refine ⟨dropped, created, ?_, hdrop, hcr, hcf⟩
    show ∑ c, (k.cpus c).ids + g'.ids + dropped = ∑ c, (k.cpus c).ids + k.shared.ids + created
    rw [add_assoc, hids, add_assoc]
  obtain ⟨hnodup, hlt⟩ := hk.changes hch hs.nextTid
  refine ⟨⟨hnodup, hlt, hs.settled, fun c' => ?_, fun r hr => hk.awaits r (by rwa [← hs.awaits]),
    hk.heldBy_inj⟩, hch⟩
  have hw := hk.cpu c'
  exact ⟨hw.settled, hs.settled, hw.idleOk, fun r hr => by rw [hs.awaits]; exact hw.held r hr⟩

/-- The claim a blocking task reserves, with its wake source fired before the park or not: the
    claim waits for its park, and nothing else changes. -/
theorem reserve_woken (g : Shared) (woken : Bool) {g₁ : Shared}
    (hg₁ : g₁ = if woken then g.reserve.2.unparkAndEnqueue g.reserve.1 else g.reserve.2) :
    g₁.tasks = g.tasks ∧
      (∀ q, (g₁.slot q).awaitsPark = true ↔ (g.slot q).awaitsPark = true ∨ q = g.waiting.length) ∧
      g₁.nextTid = g.nextTid ∧ (g.Settled → g₁.Settled) := by
  subst hg₁
  cases woken with
  | false => exact ⟨g.tasks_reserve, g.awaitsPark_reserve, rfl, Shared.Settled.reserve⟩
  | true =>
    rw [if_pos rfl]
    obtain ⟨ht, ha, hn, hS⟩ := Shared.unparkAndEnqueue_spec g.reserve.2 g.reserve.1
    exact ⟨ht.trans g.tasks_reserve, fun q => by rw [ha]; exact g.awaitsPark_reserve q, hn,
      fun hg => hS hg.reserve⟩

@[simp] theorem cpus_onCpu_self (k : Kernel n) (c : Fin n) (p : Scheduler × Shared) :
    (k.onCpu c p).cpus c = p.1 := by
  simp [onCpu]

/-- A task that blocks takes the park ticket of a fresh claim, and leaves its CPU in the same call,
    as the zombie to be parked on that claim. -/
theorem Wf.block (hk : k.Wf) (c : Fin n) (woken : Bool)
    (hc : (k.cpus c).idleTid.isSome ∧ (k.cpus c).NotIdle) :
    ∃ k', k.step (.block c woken) = .ok k' ∧ k'.Wf ∧ Changes k k' ∧
      (k'.cpus c).zombieTask = some ((k.cpus c).currentTask, .park k.shared.waiting.length) := by
  obtain ⟨ht, ha, hn, hS⟩ := reserve_woken k.shared woken rfl
  have hpark := (hk.cpu c).parkCurrent (hk.nodup_cpu c) hc (hS hk.shared) 0
    (by rw [add_zero, Shared.ids, Shared.ids, ht]) (by simp) ha k.shared.awaitsPark_fresh hn
  refine ⟨_, ?_, (hk.onCpu hpark.1).1, (hk.onCpu hpark.1).2, by rw [cpus_onCpu_self]; exact hpark.2⟩
  simp only [Kernel.step, Scheduler.blockCurrent_of_none (hk.cpu c).settled.current.1]
  rfl

/-- Every allowed call on a `Wf` kernel succeeds, with no panic, keeps `Wf`, and changes the ids
    only by dropping tasks of the cleanup queue and creating fresh ones. -/
theorem Wf.step (hk : k.Wf) {call : Call n} (hc : k.Allowed call) :
    ∃ k', k.step call = .ok k' ∧ k'.Wf ∧ Changes k k' := by
  cases call with
  | spawn => exact ⟨_, rfl, hk.onShared (SharedStep.spawn hk.shared)⟩
  | setIdle c => exact ⟨_, rfl, hk.onCpu ((hk.cpu c).setIdleTask hc)⟩
  | timer c act =>
    cases act with
    | deliver => exact ⟨_, rfl, hk.onCpu ((hk.cpu c).reschedule (hk.nodup_cpu c))⟩
    | stop => exact ⟨_, rfl, hk.onCpu ((hk.cpu c).timer_stop (hk.nodup_cpu c) hc).1⟩
    | terminate => exact ⟨_, rfl, hk.onCpu ((hk.cpu c).timer_terminate (hk.nodup_cpu c) hc).1⟩
  | block c woken =>
    obtain ⟨k', hstep, hw, hch, -⟩ := hk.block c woken hc
    exact ⟨k', hstep, hw, hch⟩
  | unpark r => exact ⟨_, rfl, hk.onShared (SharedStep.unpark hk.shared r)⟩
  | cleanupPark c =>
    obtain ⟨p, hp, hs⟩ := (hk.cpu c).cleanupPark (hk.nodup_cpu c) hc
    refine ⟨_, ?_, hk.onCpu hs⟩
    simp only [Kernel.step, hp]
    rfl
  | cleanupDrop => exact ⟨_, rfl, hk.onShared (SharedStep.cleanupDrop hk.shared)⟩

theorem ids_boot (n : Nat) : (boot n).ids = (Finset.univ : Finset (Fin n)).val.map Fin.val := by
  have hcpu : ∀ c : Fin n, ((boot n).cpus c).ids = {(c : Nat)} := fun c => by
    simp [boot, Scheduler.newCpuLocal, Scheduler.ids, Scheduler.tasks, Task.new]
  have hshared : (boot n).shared.ids = 0 := by
    simp [boot, Shared.ids, Shared.tasks, Shared.lotTasks]
  rw [ids, hshared, add_zero, Finset.sum_congr rfl fun c _ => hcpu c, Finset.sum_eq_multiset_sum]
  calc (Finset.univ.val.map fun c : Fin n => ({(c : Nat)} : Multiset Nat)).sum
      = ((Finset.univ.val.map Fin.val).map fun i => ({i} : Multiset Nat)).sum := by rw [Multiset.map_map]; rfl
    _ = _ := Multiset.sum_map_singleton _

/-- The kernel after boot: each CPU's task has the id of the CPU, and nothing else exists. -/
theorem boot_wf (n : Nat) : (boot n).Wf where
  nodup := by rw [ids_boot]; exact Multiset.Nodup.map Fin.val_injective Finset.univ.nodup
  lt_nextTid i hi := by
    rw [ids_boot, Multiset.mem_map] at hi
    obtain ⟨c, -, rfl⟩ := hi
    exact c.isLt
  shared := ⟨by simp [boot], by simp [boot], by simp [boot, Shared.lotTasks]⟩
  cpu c := ⟨⟨⟨rfl, rfl⟩, ⟨fun _ h => by simp [boot, Scheduler.newCpuLocal] at h,
      fun _ _ h => by simp [boot, Scheduler.newCpuLocal] at h⟩⟩,
    ⟨by simp [boot], by simp [boot], by simp [boot, Shared.lotTasks]⟩,
    ⟨fun _ => rfl, fun _ h => by simp [boot, Scheduler.newCpuLocal] at h⟩,
    fun _ h => by simp [boot, Scheduler.newCpuLocal, Scheduler.heldBy] at h⟩
  awaits r hr := by simp [boot, Shared.slot, Slot.awaitsPark] at hr
  heldBy_inj _ _ _ h := by simp [boot, Scheduler.newCpuLocal, Scheduler.heldBy] at h

/-- Every reachable kernel is `Wf`: by induction over the run, from `boot_wf` and `Wf.step`. -/
theorem reachable_wf (hk : k.Reachable) : k.Wf := by
  induction hk with
  | refl => exact boot_wf n
  | tail _ hstep ih =>
    obtain ⟨call, hc, he⟩ := hstep
    obtain ⟨k', hk', hw, -⟩ := ih.step hc
    obtain rfl := Except.ok.inj (he.symm.trans hk')
    exact hw

/-! ### Every run -/

/-- In every kernel that boot and allowed calls reach: no two tasks share an id; no task holds a
    park ticket, and a task is marked to terminate exactly when it is in the cleanup queue or a
    zombie on its way there; a claim waits for its park exactly when the zombie of one CPU, and
    only one, holds its ticket; and every CPU's idle task is on that CPU. -/
theorem reachable_safe (hk : k.Reachable) :
    k.ids.Nodup ∧ k.shared.Settled ∧ (∀ c, (k.cpus c).Settled) ∧
      (∀ r, (k.shared.slot r).awaitsPark = true ↔ ∃! c, (k.cpus c).heldBy = some r) ∧
      ∀ c, (k.cpus c).IdleOk := by
  have hw := reachable_wf hk
  refine ⟨hw.nodup, hw.shared, fun c => (hw.cpu c).settled,
    fun r => ⟨fun hr => ?_, fun ⟨c, hc, _⟩ => (hw.cpu c).held r hc⟩, fun c => (hw.cpu c).idleOk⟩
  obtain ⟨c, hc⟩ := hw.awaits r hr
  exact ⟨c, hc, fun c' hc' => hw.heldBy_inj c' c r hc' hc⟩

/-- After CPU `0` installs its idle task and its first task blocks: the zombie of CPU `0` holds
    the park ticket of a claim. -/
theorem reachable_safe_after_block :
    ∃ k', ((boot 1).onCpu 0 (((boot 1).cpus 0).setIdleTask (.new 1), (boot 1).shared.newTid.2)).step
        (.block 0 true) = .ok k' ∧
      (k'.ids.Nodup ∧ k'.shared.Settled ∧ (∀ c, (k'.cpus c).Settled) ∧
        (∀ r, (k'.shared.slot r).awaitsPark = true ↔ ∃! c, (k'.cpus c).heldBy = some r) ∧
        ∀ c, (k'.cpus c).IdleOk) :=
  ⟨_, rfl, reachable_safe (.tail (.single ⟨.setIdle 0, rfl, rfl⟩) ⟨.block 0 true, by decide, rfl⟩)⟩

/-- From every reachable kernel, every allowed call succeeds, with no panic, and loses no task:
    an id leaves only with a terminated task that the cleanup task drops from its queue, and an id
    that appears was never used before. -/
theorem step_keeps_tasks (hk : k.Reachable) {call : Call n} (hc : k.Allowed call) :
    ∃ k', k.step call = .ok k' ∧
      (∀ i ∈ k.ids, i ∈ k'.ids ∨ ∃ t ∈ k.shared.cleanupQueue, t.id = i ∧ t.shouldTerminate = true) ∧
      ∀ i ∈ k'.ids, i ∈ k.ids ∨ k.shared.nextTid ≤ i := by
  have hw := reachable_wf hk
  obtain ⟨k', hstep, -, dropped, created, heq, hdrop, -, hcf⟩ := hw.step hc
  refine ⟨k', hstep, fun i hi => ?_, fun i hi => ?_⟩
  · have hmem : i ∈ k'.ids + dropped := by
      rw [heq]
      exact Multiset.mem_add.2 (.inl hi)
    rcases Multiset.mem_add.1 hmem with h | h
    · exact .inl h
    · obtain ⟨t, ht, rfl⟩ := hdrop i h
      exact .inr ⟨t, ht, rfl, (hw.shared.cleanupQueue t ht).2⟩
  · have hmem : i ∈ k.ids + created := by
      rw [← heq]
      exact Multiset.mem_add.2 (.inl hi)
    rcases Multiset.mem_add.1 hmem with h | h
    · exact .inl h
    · exact .inr (hcf i h).1

theorem step_keeps_tasks_spawn :
    ∃ k', (boot 1).step .spawn = .ok k' ∧
      (∀ i ∈ (boot 1).ids, i ∈ k'.ids ∨
        ∃ t ∈ (boot 1).shared.cleanupQueue, t.id = i ∧ t.shouldTerminate = true) ∧
      ∀ i ∈ k'.ids, i ∈ (boot 1).ids ∨ (boot 1).shared.nextTid ≤ i :=
  step_keeps_tasks .refl trivial

/-- From every reachable kernel, a task that blocks leaves its CPU in the same call: it is the CPU's
    zombie, holding the park ticket of the claim it reserved, and that claim waits for its park. -/
theorem block_leaves_cpu (hk : k.Reachable) (c : Fin n) (woken : Bool)
    (hc : (k.cpus c).idleTid.isSome ∧ (k.cpus c).NotIdle) :
    ∃ k', k.step (.block c woken) = .ok k' ∧
      (k'.cpus c).zombieTask = some ((k.cpus c).currentTask, .park k.shared.waiting.length) ∧
      (k'.shared.slot k.shared.waiting.length).awaitsPark = true := by
  obtain ⟨k', hstep, hw, -, hz⟩ := (reachable_wf hk).block c woken hc
  refine ⟨k', hstep, hz, (hw.cpu c).held _ ?_⟩
  rw [Scheduler.heldBy, hz]
  rfl

theorem block_leaves_cpu_after_setIdle :
    ∃ k', ((boot 1).onCpu 0 (((boot 1).cpus 0).setIdleTask (.new 1), (boot 1).shared.newTid.2)).step
        (.block 0 true) = .ok k' ∧
      (k'.cpus 0).zombieTask = some (Task.new 0, .park 0) ∧ (k'.shared.slot 0).awaitsPark = true :=
  block_leaves_cpu (.single ⟨.setIdle 0, rfl, rfl⟩) 0 true (by decide)

/-- From every reachable kernel, a tick that stops or terminates the current task switches it off
    its CPU in the same call: as the zombie to be parked on a fresh claim, or to be sent to the
    cleanup queue. -/
theorem tick_leaves_cpu (hk : k.Reachable) (c : Fin n)
    (hc : (k.cpus c).idleTid.isSome ∧ (k.cpus c).NotIdle) :
    (∃ k', k.step (.timer c .stop) = .ok k' ∧
      (k'.cpus c).zombieTask = some ((k.cpus c).currentTask, .park k.shared.waiting.length)) ∧
    ∃ k', k.step (.timer c .terminate) = .ok k' ∧
      (k'.cpus c).zombieTask = some ({ (k.cpus c).currentTask with shouldTerminate := true }, .terminate) := by
  have hw := reachable_wf hk
  refine ⟨⟨_, rfl, ?_⟩, ⟨_, rfl, ?_⟩⟩
  · rw [cpus_onCpu_self]
    exact ((hw.cpu c).timer_stop (hw.nodup_cpu c) hc).2
  · rw [cpus_onCpu_self]
    exact ((hw.cpu c).timer_terminate (hw.nodup_cpu c) hc).2

theorem tick_leaves_cpu_after_setIdle :
    (∃ k', ((boot 1).onCpu 0 (((boot 1).cpus 0).setIdleTask (.new 1), (boot 1).shared.newTid.2)).step
        (.timer 0 .stop) = .ok k' ∧ (k'.cpus 0).zombieTask = some (Task.new 0, .park 0)) ∧
    ∃ k', ((boot 1).onCpu 0 (((boot 1).cpus 0).setIdleTask (.new 1), (boot 1).shared.newTid.2)).step
        (.timer 0 .terminate) = .ok k' ∧ (k'.cpus 0).zombieTask = some (⟨0, true, none⟩, .terminate) :=
  tick_leaves_cpu (.single ⟨.setIdle 0, rfl, rfl⟩) 0 (by decide)

end Kernel

end Muffin.Mtask
