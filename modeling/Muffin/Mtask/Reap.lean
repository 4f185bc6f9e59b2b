-- SUMMARY: The exec reap of a process as a protocol between its tasks: `reap_sibling_tasks` and `finish_reap` of the task that runs exec, the loop of `park_current_task`, the timer tick's `reap_current_if_requested` and `deliver_pending` with `request_stop_park`, the return of a syscall, `retire_task`, and signal generation, one lock-protected section or atomic access per step; with the invariants every interleaving keeps.
import Muffin.Syscall.Signal

/-!
# The exec reap

`execve` must leave the calling task the only live task of its process. It calls
`Process::reap_sibling_tasks`, which records the caller as the keeper in
`task_accounting.reap` and mirrors that in `reap_active`, resumes the tasks a
stop parked, wakes the tasks waiting in `park_current_task`, and waits until
`task_accounting.live` is one. Every other task finds the reap at its next check
of `reap_requested_for` (a timer tick from user mode, the return of a syscall,
the loop of `park_current_task`) and exits; the cleanup task drops it, and
`retire_task` wakes the keeper when the count reaches one.

`Process` holds the fields of the process that the protocol uses, the program
point of each task (`Pc`), and the claims of the parking lot: those handed out,
those whose ticket or waker fired, the ones a `wake_interruptible` took and has
still to wake, and those `SLEEPERS` holds. A claim stands for the pair of
tickets `reserve().split()` makes and the waker its unpark ticket becomes; a task
blocked on its park ticket runs again once the claim fired.

`Step` is one atomic step of one task or of the rest of the kernel: a section
under `task_accounting`, `signals` or `interruptible_wakers`, one access of
`reap_active`, a `reserve`, or a task going on once its claim fired. Tasks are
created by `register_task` at any time, which covers more runs than the kernel
makes (it creates a process's tasks before the process runs).

`Wf` is the invariant of every reachable state (`Reachable.wf`): one lemma per
kind of step, assembled in `Wf.step`. From it: a blocked keeper always has a
live sibling whose `retire_task` fires its waiter (`keeper_blocked_has_sibling`),
no task blocked in `park_current_task` is missed by the keeper's
`wake_interruptible` (`blocked_waiter_woken`), one task at a time reaps
(`reaping_unique`), `live` counts the tasks not dropped (`live_eq_card_live`),
and the unlocked read of `reap_active` agrees with the locked read of the reap
(`reapActive_mirrors_reap`).
-/

namespace Muffin.Mtask

open Muffin.Abi Muffin.Syscall

/-- `ReapState`: the task that runs exec, and the claim of the waker it waits on. -/
structure ReapState where
  keeper : Nat
  waiter : Option Nat
  deriving DecidableEq, Repr

/-- Where a task of the process is, between two of its atomic steps. `w` is the claim whose
    park ticket the task holds. -/
inductive Pc where
  /-- Running in user mode. -/
  | user
  /-- A timer tick from user mode read `reap_active` set: the locked read of
      `reap_requested_for` comes next. -/
  | tickSlow
  /-- The tick found no reap for the task: `deliver_pending` comes next. -/
  | tickDeliver
  /-- Parked by `request_stop_park`, with the unpark ticket of `w` in `stop_unpark`. -/
  | stopParked (w : Nat)
  /-- A syscall returned: `syscall_handler_impl` reads `reap_active` next. -/
  | sysRet
  | sysRetSlow
  /-- The head of the loop of `park_current_task`: `reap_requested_for` comes next. -/
  | waitTop
  | waitTopSlow
  /-- `should_wake()` comes next. -/
  | waitCond
  /-- `reserve()` comes next. -/
  | waitReserve
  /-- `sleep_until` comes next. -/
  | waitReserved (w : Nat)
  /-- `register_interruptible_waker` comes next. -/
  | waitRegister (w : Nat)
  /-- The second check, `should_wake() || reap_requested_for(tid)`, comes next. -/
  | waitRecheck (w : Nat)
  | waitRecheckSlow (w : Nat)
  /-- In `block_current` on the park ticket of `w`. -/
  | waitBlocked (w : Nat)
  /-- `clear_interruptible_waker` comes next. -/
  | waitClear
  /-- In `reap_sibling_tasks`: its first section under `task_accounting` comes next. -/
  | reapStart
  /-- `resume_stopped_tasks` comes next. -/
  | reapResume
  /-- `wake_interruptible` comes next. -/
  | reapWake
  /-- The head of the loop: the check of `live` comes next. -/
  | reapCheck
  | reapReserve
  /-- The section that wakes `w` or leaves it as the waiter comes next. -/
  | reapReserved (w : Nat)
  | reapBlocked (w : Nat)
  /-- `reap_sibling_tasks` returned `SoleLiveTask`. -/
  | sole
  /-- `finish_reap` cleared `reap_active`: clearing `reap` comes next. -/
  | finishing
  /-- `exec_reset` comes next. -/
  | execReset
  /-- `should_terminate` is set: the scheduler hands the task to the cleanup task. -/
  | exiting
  /-- Dropped by the cleanup task, or never created. -/
  | dropped
  deriving DecidableEq, Repr

/-- What `deliver_pending` does to the task it runs on. -/
inductive Delivery where
  | none
  | stopPark
  | terminate
  | handler
  deriving DecidableEq, Repr

/-- The fields of a `Process` that the reap reads and writes, the tasks of the process, and the
    claims of the parking lot. -/
structure Process where
  /-- `task_accounting.live`. -/
  live : Nat
  /-- `task_accounting.reap`. -/
  reap : Option ReapState
  /-- `reap_active`. -/
  reapActive : Bool
  /-- `signals.state`. -/
  signals : SignalState
  /-- `signals.stop_unpark`, by claim. -/
  stopUnpark : List Nat
  /-- `interruptible_wakers`: the task and the claim of its waker. -/
  interruptibleWakers : List (Nat × Nat)
  /-- The program point of each task; the ids from `tasks` on were never created. -/
  pc : Nat → Pc
  /-- The number of tasks created. -/
  tasks : Nat
  /-- The number of claims handed out. -/
  nextClaim : Nat
  /-- The claims whose unpark ticket or waker fired. -/
  fired : List Nat
  /-- The claims of the wakers a `wake_interruptible` took and has still to wake. -/
  taken : List Nat
  /-- The claims of the wakers in `SLEEPERS`. -/
  sleepers : List Nat

namespace Process

/-- `create_unscheduled`: the process with its main task, about to enter user mode. -/
def new : Process :=
  ⟨1, none, false, default, [], [], fun t => if t = 0 then .user else .dropped, 1, 0, [], [], []⟩

/-- Task `t` moves to `c`. -/
@[simp] def setPc (p : Process) (t : Nat) (c : Pc) : Process := { p with pc := Function.update p.pc t c }

/-- `wake(&waker)`, or `unpark_and_enqueue`, on the claim `w`: its ticket fires. -/
@[simp] def wake (p : Process) (w : Nat) : Process := { p with fired := w :: p.fired }

/-- `reserve()`: a fresh claim. -/
@[simp] def reserve (p : Process) : Nat × Process := (p.nextClaim, { p with nextClaim := p.nextClaim + 1 })

/-- `register_task`. -/
@[simp] def registerTask (p : Process) : Process := { p with live := p.live + 1 }

/-- `retire_task`: the count drops, and once it is one the waiter of the reap is taken and
    woken, still under the lock. -/
def retireTask (p : Process) : Process :=
  let live := p.live - 1
  match p.reap with
  | some ⟨keeper, some w⟩ =>
    if live = 1 then ({ p with live, reap := some ⟨keeper, none⟩ } : Process).wake w
    else { p with live }
  | _ => { p with live }

/-- The locked half of `reap_requested_for(tid)`: a reap whose keeper is another task. -/
def reapTargets (p : Process) (tid : Nat) : Bool :=
  match p.reap with
  | some r => r.keeper != tid
  | none => false

/-- The first section of `reap_sibling_tasks(keeper)`, under `task_accounting`: `none` when a
    reap of another task is under way and the caller exits; otherwise the reap, recorded when
    there was none, with `reap_active` set before the lock is dropped. -/
def reapEnter (p : Process) (keeper : Nat) : Option Process :=
  match p.reap with
  | some r => if r.keeper ≠ keeper then none else some p
  | none => some { p with reap := some ⟨keeper, none⟩, reapActive := true }

/-- `Signals::resume_stopped_tasks`: every stored unpark ticket fires. -/
@[simp] def resumeStoppedTasks (p : Process) : Process :=
  { p with fired := p.stopUnpark ++ p.fired, stopUnpark := [] }

/-- `Signals::store_stop_unpark`. -/
@[simp] def storeStopUnpark (p : Process) (w : Nat) : Process := { p with stopUnpark := p.stopUnpark ++ [w] }

/-- `wake_interruptible`: the wakers are taken under the lock and woken after it. -/
@[simp] def wakeInterruptible (p : Process) : Process :=
  { p with taken := p.interruptibleWakers.map Prod.snd ++ p.taken, interruptibleWakers := [] }

/-- `register_interruptible_waker`. -/
@[simp] def registerInterruptibleWaker (p : Process) (tid w : Nat) : Process :=
  { p with interruptibleWakers := p.interruptibleWakers ++ [(tid, w)] }

/-- `clear_interruptible_waker`: `retain(|(t, _)| *t != tid)`. -/
@[simp] def clearInterruptibleWaker (p : Process) (tid : Nat) : Process :=
  { p with interruptibleWakers := p.interruptibleWakers.filter fun e => e.1 != tid }

/-- The section under `task_accounting` in the loop of `reap_sibling_tasks`, once the waker of
    `w` exists: wake it at once when the caller is the last live task, or leave it as the
    waiter of the reap. -/
def setWaiter (p : Process) (w : Nat) : Process :=
  if p.live = 1 then p.wake w
  else match p.reap with
    | some r => { p with reap := some { r with waiter := some w } }
    | none => p

/-- The first half of `SoleLiveTask::finish_reap`: `reap_active.store(false)`. -/
@[simp] def finishReapStore (p : Process) : Process := { p with reapActive := false }

/-- The second half of `finish_reap`: `reap = None` under `task_accounting`. -/
@[simp] def finishReapLock (p : Process) : Process := { p with reap := none }

/-- `sleep_until`: the waker joins `SLEEPERS`. -/
@[simp] def sleepUntil (p : Process) (w : Nat) : Process := { p with sleepers := p.sleepers ++ [w] }

/-- The kernel's `SignalAccess::deliver` up to its `wake_interruptible`, under the signals lock:
    the signal is recorded, and a `Continue` or `Kill` that ends a stop resumes the stopped
    tasks. -/
def deliverSignal (p : Process) (signo : Signal) : Process :=
  let (effect, s) := p.signals.deliver signo
  let p := { p with signals := s }
  if effect.resumeTasks then p.resumeStoppedTasks else p

/-- The loop of `deliver_pending` under the signals guard: a stopped process parks the task;
    otherwise the deliverable signals are taken in turn, past the ignored ones, until one stops,
    terminates or enters a handler. The loop runs on `Signal.COUNT + 1` rounds of fuel. -/
def deliverPendingLoop : Nat → SignalState → Delivery × SignalState
  | 0, s => (.none, s)
  | fuel + 1, s =>
    if s.stopped then (.stopPark, s)
    else
      match s.takeNextDeliverable with
      | (none, s) => (.none, s)
      | (some signo, s) =>
        match s.disposition signo with
        | .ignore => deliverPendingLoop fuel s
        | .defaultStop => (.stopPark, s.setStopped true)
        | .defaultTerminate => (.terminate, s)
        | .handler action => (.handler, (s.applyHandlerEntry signo action).2)

/-- The tick's `deliver_pending` on task `tid` once `try_signals_write` got the guard, with
    `request_stop_park`, whose `try_reserve` finds a slot when `reserveOk`. A task in user mode
    holds no park ticket, so `set_park_reservation` succeeds. -/
def deliverPending (p : Process) (tid : Nat) (reserveOk : Bool) : Process :=
  let (d, s) := deliverPendingLoop (Signal.COUNT + 1) p.signals
  let p : Process := { p with signals := s }
  match d with
  | .stopPark =>
    if reserveOk then
      let (w, p) := p.reserve
      (p.storeStopUnpark w).setPc tid (.stopParked w)
    else p.setPc tid .user
  | .terminate => p.setPc tid .exiting
  | .none | .handler => p.setPc tid .user

/-- One atomic step of a task of the process, or of the rest of the kernel. -/
inductive Step : Process → Process → Prop
  /-- A task is created in the process: `register_task`. -/
  | register (p : Process) :
      Step p { p.registerTask.setPc p.tasks .user with tasks := p.tasks + 1 }
  /-- A timer tick from user mode: `reap_current_if_requested` reads `reap_active`. -/
  | tick (p : Process) (t : Nat) (h : p.pc t = .user) :
      Step p (p.setPc t (if p.reapActive then .tickSlow else .tickDeliver))
  /-- The locked read: a reap of another task terminates this one. -/
  | tickSlow (p : Process) (t : Nat) (h : p.pc t = .tickSlow) :
      Step p (p.setPc t (if p.reapTargets t then .exiting else .tickDeliver))
  /-- `try_signals_write` found the lock held: the tick delivers nothing. -/
  | deliverBusy (p : Process) (t : Nat) (h : p.pc t = .tickDeliver) : Step p (p.setPc t .user)
  | deliver (p : Process) (t : Nat) (reserveOk : Bool) (h : p.pc t = .tickDeliver) :
      Step p (p.deliverPending t reserveOk)
  /-- A task a stop parked runs again once its ticket fired. -/
  | stopResume (p : Process) (t w : Nat) (h : p.pc t = .stopParked w) (hw : w ∈ p.fired) :
      Step p (p.setPc t .user)
  /-- A syscall that waits in `park_current_task`. -/
  | syscallWait (p : Process) (t : Nat) (h : p.pc t = .user) : Step p (p.setPc t .waitTop)
  /-- `execve`, up to `reap_sibling_tasks`. -/
  | syscallExec (p : Process) (t : Nat) (h : p.pc t = .user) : Step p (p.setPc t .reapStart)
  /-- Any other syscall. -/
  | syscallOther (p : Process) (t : Nat) (h : p.pc t = .user) : Step p (p.setPc t .sysRet)
  | sysRet (p : Process) (t : Nat) (h : p.pc t = .sysRet) :
      Step p (p.setPc t (if p.reapActive then .sysRetSlow else .user))
  /-- `Task::exit_current` when a reap of another task is under way. -/
  | sysRetSlow (p : Process) (t : Nat) (h : p.pc t = .sysRetSlow) :
      Step p (p.setPc t (if p.reapTargets t then .exiting else .user))
  | waitTop (p : Process) (t : Nat) (h : p.pc t = .waitTop) :
      Step p (p.setPc t (if p.reapActive then .waitTopSlow else .waitCond))
  /-- `ParkOutcome::Interrupted` returns from the syscall. -/
  | waitTopSlow (p : Process) (t : Nat) (h : p.pc t = .waitTopSlow) :
      Step p (p.setPc t (if p.reapTargets t then .sysRet else .waitCond))
  /-- `should_wake()` returns `wake`; `ParkOutcome::Ready` returns from the syscall. -/
  | waitCond (p : Process) (t : Nat) (wake : Bool) (h : p.pc t = .waitCond) :
      Step p (p.setPc t (if wake then .sysRet else .waitReserve))
  | waitReserve (p : Process) (t : Nat) (h : p.pc t = .waitReserve) :
      Step p (p.reserve.2.setPc t (.waitReserved p.reserve.1))
  /-- `sleep_until` when the wait has a deadline. -/
  | waitSleep (p : Process) (t w : Nat) (deadline : Bool) (h : p.pc t = .waitReserved w) :
      Step p ((if deadline then p.sleepUntil w else p).setPc t (.waitRegister w))
  | waitRegister (p : Process) (t w : Nat) (h : p.pc t = .waitRegister w) :
      Step p ((p.registerInterruptibleWaker t w).setPc t (.waitRecheck w))
  /-- `should_wake()` returns `wake`; if not, `reap_requested_for` reads `reap_active`. -/
  | waitRecheck (p : Process) (t w : Nat) (wake : Bool) (h : p.pc t = .waitRecheck w) :
      Step p (if wake then (p.wake w).setPc t (.waitBlocked w)
        else p.setPc t (if p.reapActive then .waitRecheckSlow w else .waitBlocked w))
  | waitRecheckSlow (p : Process) (t w : Nat) (h : p.pc t = .waitRecheckSlow w) :
      Step p ((if p.reapTargets t then p.wake w else p).setPc t (.waitBlocked w))
  | waitResume (p : Process) (t w : Nat) (h : p.pc t = .waitBlocked w) (hw : w ∈ p.fired) :
      Step p (p.setPc t .waitClear)
  | waitClear (p : Process) (t : Nat) (h : p.pc t = .waitClear) :
      Step p ((p.clearInterruptibleWaker t).setPc t .waitTop)
  | reapStart (p : Process) (t : Nat) (h : p.pc t = .reapStart) :
      Step p (match p.reapEnter t with
        | some q => q.setPc t .reapResume
        | none => p.setPc t .exiting)
  | reapResume (p : Process) (t : Nat) (h : p.pc t = .reapResume) :
      Step p (p.resumeStoppedTasks.setPc t .reapWake)
  | reapWake (p : Process) (t : Nat) (h : p.pc t = .reapWake) :
      Step p (p.wakeInterruptible.setPc t .reapCheck)
  | reapCheck (p : Process) (t : Nat) (h : p.pc t = .reapCheck) :
      Step p (p.setPc t (if p.live = 1 then .sole else .reapReserve))
  | reapReserve (p : Process) (t : Nat) (h : p.pc t = .reapReserve) :
      Step p (p.reserve.2.setPc t (.reapReserved p.reserve.1))
  | reapArm (p : Process) (t w : Nat) (h : p.pc t = .reapReserved w) :
      Step p ((p.setWaiter w).setPc t (.reapBlocked w))
  | reapResumeBlocked (p : Process) (t w : Nat) (h : p.pc t = .reapBlocked w) (hw : w ∈ p.fired) :
      Step p (p.setPc t .reapCheck)
  /-- The exec goes on and calls `finish_reap`. -/
  | finishStore (p : Process) (t : Nat) (h : p.pc t = .sole) :
      Step p (p.finishReapStore.setPc t .finishing)
  /-- `setup_user_image` fails: `terminate_current`. -/
  | execFail (p : Process) (t : Nat) (h : p.pc t = .sole) : Step p (p.setPc t .exiting)
  | finishLock (p : Process) (t : Nat) (h : p.pc t = .finishing) :
      Step p (p.finishReapLock.setPc t .execReset)
  /-- `signals_write().exec_reset()`, and the return from `execve`. -/
  | execReset (p : Process) (t : Nat) (h : p.pc t = .execReset) :
      Step p ({ p with signals := p.signals.execReset }.setPc t .sysRet)
  /-- The cleanup task drops a terminated task: `retire_task`. -/
  | drop (p : Process) (t : Nat) (h : p.pc t = .exiting) : Step p (p.retireTask.setPc t .dropped)
  /-- A signal is sent to the process. -/
  | signal (p : Process) (signo : Signal) : Step p (p.deliverSignal signo)
  /-- A sender of a signal calls `wake_interruptible`. -/
  | wakeInterruptible (p : Process) : Step p p.wakeInterruptible
  /-- A `wake_interruptible` wakes one of the wakers it took. -/
  | fireTaken (p : Process) (w : Nat) (hw : w ∈ p.taken) :
      Step p (({ p with taken := p.taken.erase w } : Process).wake w)
  /-- `wake_expired_sleepers` removes an expired sleeper and wakes it. -/
  | fireSleeper (p : Process) (w : Nat) (hw : w ∈ p.sleepers) :
      Step p (({ p with sleepers := p.sleepers.erase w } : Process).wake w)

/-- The states the process reaches from its creation. -/
def Reachable (p : Process) : Prop := Relation.ReflTransGen Step new p

-- ---------------------------------------------------------------------------
-- Program points by role
-- ---------------------------------------------------------------------------

end Process

namespace Pc

/-- The program points of the keeper while its reap is recorded. -/
def Reaping : Pc → Prop
  | .reapResume | .reapWake | .reapCheck | .reapReserve | .reapReserved _ | .reapBlocked _
  | .sole | .finishing => True
  | _ => False

/-- The keeper's program points after its `wake_interruptible`, up to `finish_reap`. -/
def PastWake : Pc → Prop
  | .reapCheck | .reapReserve | .reapReserved _ | .reapBlocked _ | .sole => True
  | _ => False

/-- The program points of `park_current_task` at which the waker of `w` is registered. -/
def Registered (w : Nat) : Pc → Prop
  | .waitRecheck v | .waitRecheckSlow v | .waitBlocked v => v = w
  | _ => False

/-- The program points of a live task that no part of the invariant singles out. -/
def Plain : Pc → Prop
  | .user | .tickSlow | .tickDeliver | .stopParked _ | .sysRet | .sysRetSlow | .waitTop
  | .waitTopSlow | .waitCond | .waitReserve | .waitReserved _ | .waitRegister _ | .waitClear
  | .reapStart | .execReset | .exiting => True
  | _ => False

theorem PastWake.reaping {c : Pc} (h : c.PastWake) : c.Reaping := by
  cases c <;> simp_all [PastWake, Reaping]

theorem Plain.ne_dropped {c : Pc} (h : c.Plain) : c ≠ .dropped := by
  rintro rfl; exact h

theorem Plain.not_reaping {c : Pc} (h : c.Plain) : ¬ c.Reaping := by
  cases c <;> simp_all [Plain, Reaping]

theorem Plain.not_pastWake {c : Pc} (h : c.Plain) : ¬ c.PastWake :=
  fun h' => h.not_reaping h'.reaping

theorem Plain.not_registered {c : Pc} (h : c.Plain) (w : Nat) : ¬ c.Registered w := by
  cases c <;> simp_all [Plain, Registered]

theorem Reaping.ne_dropped {c : Pc} (h : c.Reaping) : c ≠ .dropped := by
  rintro rfl; exact h

/-- A task waits on one waker at a time. -/
theorem Registered.eq {c : Pc} {v w : Nat} (hv : c.Registered v) (hw : c.Registered w) : v = w := by
  cases c <;> simp_all [Registered]

theorem Registered.not_reaping {c : Pc} {w : Nat} (h : c.Registered w) : ¬ c.Reaping := by
  cases c <;> simp_all [Registered, Reaping]

theorem Registered.ne_dropped {c : Pc} {w : Nat} (h : c.Registered w) : c ≠ .dropped := by
  rintro rfl; exact h

theorem Registered.not_pastWake {c : Pc} {w : Nat} (h : c.Registered w) : ¬ c.PastWake :=
  fun h' => h.not_reaping h'.reaping

end Pc

namespace Process

variable {p q : Process} {t u w : Nat}

theorem pc_setPc (p : Process) (t : Nat) (c : Pc) (u : Nat) :
    (p.setPc t c).pc u = if u = t then c else p.pc u := by
  simp [Function.update_apply]

-- ---------------------------------------------------------------------------
-- The live tasks
-- ---------------------------------------------------------------------------

/-- The tasks created and not dropped: those `live` counts. -/
def liveTasks (p : Process) : Finset Nat := (Finset.range p.tasks).filter fun t => p.pc t ≠ .dropped

theorem mem_liveTasks : t ∈ p.liveTasks ↔ t < p.tasks ∧ p.pc t ≠ .dropped := by
  simp [liveTasks]

theorem liveTasks_congr (hpc : q.pc = p.pc) (ht : q.tasks = p.tasks) : q.liveTasks = p.liveTasks := by
  simp [liveTasks, hpc, ht]

/-- A move between two program points that are both live, or both not, keeps the live tasks. -/
theorem liveTasks_setPc {c : Pc} (h : p.pc t = .dropped ↔ c = .dropped) :
    (p.setPc t c).liveTasks = p.liveTasks := by
  ext u
  simp only [mem_liveTasks, pc_setPc]
  split_ifs with hu
  · subst hu; simp only [setPc, ne_eq, h]
  · rfl

theorem liveTasks_setPc_dropped (ht : t ∈ p.liveTasks) :
    (p.setPc t .dropped).liveTasks = p.liveTasks.erase t := by
  ext u
  simp only [Finset.mem_erase, mem_liveTasks, pc_setPc]
  split_ifs with hu
  · subst hu; simp
  · simp [hu]

theorem card_liveTasks_pos (ht : t ∈ p.liveTasks) : 1 ≤ p.liveTasks.card :=
  Finset.card_pos.mpr ⟨t, ht⟩

-- ---------------------------------------------------------------------------
-- The invariant
-- ---------------------------------------------------------------------------

/-- The accounting half of the invariant: the count of live tasks, the keeper, the mirror of the
    reap in `reap_active`, and the keeper's waiter. -/
structure Accounts (p : Process) : Prop where
  /-- No task beyond those created. -/
  created : ∀ t, p.tasks ≤ t → p.pc t = .dropped
  /-- `live` counts the tasks not dropped. -/
  live_eq : p.live = p.liveTasks.card
  /-- A task in the middle of an exec is the keeper of the reap. -/
  keeper : ∀ t, (p.pc t).Reaping → ∃ w, p.reap = some ⟨t, w⟩
  /-- `reap_active` mirrors `reap`, except between the two halves of `finish_reap`. -/
  active_isSome : p.reapActive = true → p.reap.isSome = true
  reap_active : ∀ r, p.reap = some r → p.reapActive = true ∨ p.pc r.keeper = .finishing
  finishing : ∀ t, p.pc t = .finishing → p.reapActive = false
  /-- The keeper sleeps only with its waker left as the waiter for the last `retire_task`, while
      another task is live. -/
  waiter : ∀ t w, p.pc t = .reapBlocked w → w ∉ p.fired → p.reap = some ⟨t, some w⟩ ∧ 2 ≤ p.live

/-- What every reachable state of the process keeps: the accounting, and the wakers of the tasks
    in `park_current_task`. -/
structure Wf (p : Process) : Prop extends p.Accounts where
  /-- A waker registered by `park_current_task` is still registered, taken by a
      `wake_interruptible`, or fired. -/
  registered : ∀ t w, (p.pc t).Registered w →
    w ∈ p.fired ∨ (t, w) ∈ p.interruptibleWakers ∨ w ∈ p.taken
  /-- Once the keeper woke the waiting tasks, a waker registered after it is fired at its task's
      second check, which is still to come. -/
  wokenAfter : ∀ r, p.reap = some r → (p.pc r.keeper).PastWake → ∀ t w,
    (t, w) ∈ p.interruptibleWakers → w ∈ p.fired ∨ p.pc t = .waitRecheck w ∨
      p.pc t = .waitRecheckSlow w

theorem Accounts.lt_tasks (hp : p.Accounts) (ht : p.pc t ≠ .dropped) : t < p.tasks := by
  by_contra h
  exact ht (hp.created t (Nat.le_of_not_lt h))

theorem Accounts.mem_liveTasks_of_ne (hp : p.Accounts) (ht : p.pc t ≠ .dropped) :
    t ∈ p.liveTasks :=
  Process.mem_liveTasks.mpr ⟨hp.lt_tasks ht, ht⟩

/-- A change of the shared state that leaves what the accounting reads alone, or only fires
    claims, keeps the accounting. -/
theorem Accounts.of_fired_subset (hp : p.Accounts) (hlive : q.live = p.live)
    (hreap : q.reap = p.reap) (hact : q.reapActive = p.reapActive) (hpc : q.pc = p.pc)
    (htasks : q.tasks = p.tasks) (hfired : p.fired ⊆ q.fired) : q.Accounts where
  created := by rw [hpc, htasks]; exact hp.created
  live_eq := by rw [hlive, liveTasks_congr hpc htasks]; exact hp.live_eq
  keeper := by rw [hpc, hreap]; exact hp.keeper
  active_isSome := by rw [hact, hreap]; exact hp.active_isSome
  reap_active := by rw [hreap, hact, hpc]; exact hp.reap_active
  finishing := by rw [hpc, hact]; exact hp.finishing
  waiter := by
    rw [hpc, hreap, hlive]
    intro t w ht hw
    exact hp.waiter t w ht (fun h => hw (hfired h))

/-- The same for the whole invariant, when the wakers and the claims taken stay as they are. -/
theorem Wf.of_fired_subset (hp : p.Wf) (hlive : q.live = p.live) (hreap : q.reap = p.reap)
    (hact : q.reapActive = p.reapActive) (hwak : q.interruptibleWakers = p.interruptibleWakers)
    (hpc : q.pc = p.pc) (htasks : q.tasks = p.tasks) (hfired : p.fired ⊆ q.fired)
    (htaken : q.taken = p.taken) : q.Wf where
  toAccounts := hp.toAccounts.of_fired_subset hlive hreap hact hpc htasks hfired
  registered := by
    rw [hpc, hwak, htaken]
    intro t w ht
    rcases hp.registered t w ht with h | h | h
    · exact .inl (hfired h)
    · exact .inr (.inl h)
    · exact .inr (.inr h)
  wokenAfter := by
    rw [hreap, hpc, hwak]
    intro r hr hk t w hm
    rcases hp.wokenAfter r hr hk t w hm with h | h | h
    · exact .inl (hfired h)
    · exact .inr (.inl h)
    · exact .inr (.inr h)

theorem Wf.wake (hp : p.Wf) (w : Nat) : (p.wake w).Wf :=
  hp.of_fired_subset rfl rfl rfl rfl rfl rfl (List.subset_cons_self w p.fired) rfl

/-- A task outside the reap moving to another program point outside it keeps the accounting. -/
theorem Accounts.setPc_task (hp : p.Accounts) {c : Pc} (ht : p.pc t ≠ .dropped)
    (htr : ¬ (p.pc t).Reaping) (hc : c ≠ .dropped) (hcr : ¬ c.Reaping) :
    (p.setPc t c).Accounts where
  created u hu := by
    have : u ≠ t := fun e => ht (e ▸ hp.created u hu)
    rw [pc_setPc, if_neg this]; exact hp.created u hu
  live_eq := by rw [liveTasks_setPc (iff_of_false ht hc)]; exact hp.live_eq
  keeper u hu := by
    rw [pc_setPc] at hu
    by_cases h : u = t
    · rw [if_pos h] at hu; exact absurd hu hcr
    · rw [if_neg h] at hu; exact hp.keeper u hu
  active_isSome := hp.active_isSome
  reap_active r hr := by
    rcases hp.reap_active r hr with h | h
    · exact .inl h
    · have : r.keeper ≠ t := fun e => htr (by rw [← e, h]; trivial)
      right; rw [pc_setPc, if_neg this]; exact h
  finishing u hu := by
    rw [pc_setPc] at hu
    by_cases h : u = t
    · rw [if_pos h] at hu; exact absurd (hu ▸ trivial) hcr
    · rw [if_neg h] at hu; exact hp.finishing u hu
  waiter u v hu hv := by
    rw [pc_setPc] at hu
    by_cases h : u = t
    · rw [if_pos h] at hu; exact absurd (hu ▸ trivial) hcr
    · rw [if_neg h] at hu; exact hp.waiter u v hu hv

/-- A task moving to a program point without a registered waker leaves every registered waker
    where it was. -/
theorem Wf.registered_setPc (hp : p.Wf) {c : Pc} (hc : ∀ v, ¬ c.Registered v) (u v : Nat)
    (hu : ((p.setPc t c).pc u).Registered v) :
    v ∈ p.fired ∨ (u, v) ∈ p.interruptibleWakers ∨ v ∈ p.taken := by
  rw [pc_setPc] at hu
  by_cases h : u = t
  · rw [if_pos h] at hu; exact absurd hu (hc v)
  · rw [if_neg h] at hu; exact hp.registered u v hu

/-- A task without a registered waker is at no second check, so its move leaves the tasks that
    `wokenAfter` finds there where they were. -/
theorem Wf.wokenAfter_setPc (hp : p.Wf) {c : Pc} {r : ReapState} (ht : ∀ v, ¬ (p.pc t).Registered v)
    (hr : p.reap = some r) (hk : (p.pc r.keeper).PastWake) (hm : (u, w) ∈ p.interruptibleWakers) :
    w ∈ p.fired ∨ (p.setPc t c).pc u = .waitRecheck w ∨ (p.setPc t c).pc u = .waitRecheckSlow w := by
  rcases hp.wokenAfter r hr hk u w hm with h | h | h
  · exact .inl h
  · have : u ≠ t := fun e => ht w (by rw [← e, h]; trivial)
    right; left; rw [pc_setPc, if_neg this]; exact h
  · have : u ≠ t := fun e => ht w (by rw [← e, h]; trivial)
    right; right; rw [pc_setPc, if_neg this]; exact h

/-- A task moving between two plain program points keeps the invariant. -/
theorem Wf.move (hp : p.Wf) {c : Pc} (ht : (p.pc t).Plain) (hc : c.Plain) : (p.setPc t c).Wf where
  toAccounts := hp.toAccounts.setPc_task ht.ne_dropped ht.not_reaping hc.ne_dropped hc.not_reaping
  registered := hp.registered_setPc hc.not_registered
  wokenAfter r hr hk u v hm := by
    rw [pc_setPc] at hk
    by_cases h : r.keeper = t
    · rw [if_pos h] at hk; exact absurd hk hc.not_pastWake
    · rw [if_neg h] at hk
      exact hp.wokenAfter_setPc ht.not_registered hr hk hm

-- ---------------------------------------------------------------------------
-- Steps of one task
-- ---------------------------------------------------------------------------

theorem liveTasks_register :
    ({ p.registerTask.setPc p.tasks .user with tasks := p.tasks + 1 } : Process).liveTasks =
      insert p.tasks p.liveTasks := by
  ext u
  simp only [Finset.mem_insert, mem_liveTasks, registerTask, setPc, Function.update_apply]
  by_cases hu : u = p.tasks
  · simp [hu]
  · simp only [hu, if_false, false_or]
    constructor
    · rintro ⟨h1, h2⟩; exact ⟨by omega, h2⟩
    · rintro ⟨h1, h2⟩; exact ⟨by omega, h2⟩

/-- `register_task` and the new task, in user mode. -/
theorem Wf.register (hp : p.Wf) :
    ({ p.registerTask.setPc p.tasks .user with tasks := p.tasks + 1 } : Process).Wf := by
  -- the new id was never used, so every fact about the old tasks carries over
  have hnew : p.pc p.tasks = .dropped := hp.created _ le_rfl
  have hne : ∀ {u}, p.pc u ≠ .dropped → u ≠ p.tasks := fun h e => h (e ▸ hnew)
  have hpc : ∀ u, ({ p.registerTask.setPc p.tasks .user with tasks := p.tasks + 1 } : Process).pc u =
      if u = p.tasks then .user else p.pc u := fun u => by simp [Function.update_apply]
  refine ⟨⟨?_, ?_, ?_, hp.active_isSome, ?_, ?_, ?_⟩, ?_, ?_⟩
  · intro u hu
    have hu' : p.tasks + 1 ≤ u := hu
    rw [hpc, if_neg (by omega)]
    exact hp.created u (by omega)
  · have hmem : p.tasks ∉ p.liveTasks := by simp [Process.mem_liveTasks]
    rw [liveTasks_register, Finset.card_insert_of_notMem hmem, ← hp.live_eq]; rfl
  · intro u hu
    rw [hpc] at hu
    by_cases h : u = p.tasks
    · rw [if_pos h] at hu; exact absurd hu (by simp [Pc.Reaping])
    · rw [if_neg h] at hu; exact hp.keeper u hu
  · intro r hr
    rcases hp.reap_active r hr with h | h
    · exact .inl h
    · right; rw [hpc, if_neg (hne (by simp [h]))]; exact h
  · intro u hu
    rw [hpc] at hu
    by_cases h : u = p.tasks
    · rw [if_pos h] at hu; cases hu
    · rw [if_neg h] at hu; exact hp.finishing u hu
  · intro u v hu hv
    rw [hpc] at hu
    by_cases h : u = p.tasks
    · rw [if_pos h] at hu; cases hu
    · rw [if_neg h] at hu
      obtain ⟨h1, h2⟩ := hp.waiter u v hu hv
      exact ⟨h1, by simp; omega⟩
  · intro u v hu
    rw [hpc] at hu
    by_cases h : u = p.tasks
    · rw [if_pos h] at hu; exact absurd hu (by simp [Pc.Registered])
    · rw [if_neg h] at hu; exact hp.registered u v hu
  · intro r hr hk u v hm
    rw [hpc] at hk
    by_cases h : r.keeper = p.tasks
    · rw [if_pos h] at hk; exact absurd hk (by simp [Pc.PastWake])
    · rw [if_neg h] at hk
      rcases hp.wokenAfter r hr hk u v hm with h' | h' | h'
      · exact .inl h'
      · right; left; rw [hpc, if_neg (hne (by simp [h']))]; exact h'
      · right; right; rw [hpc, if_neg (hne (by simp [h']))]; exact h'

-- ---------------------------------------------------------------------------
-- The loop of `park_current_task`
-- ---------------------------------------------------------------------------

/-- `register_interruptible_waker`, before the second check. -/
theorem Wf.waitRegister (hp : p.Wf) (ht : p.pc t = .waitRegister w) :
    ((p.registerInterruptibleWaker t w).setPc t (.waitRecheck w)).Wf where
  toAccounts :=
    (hp.toAccounts.of_fired_subset (q := p.registerInterruptibleWaker t w) rfl rfl rfl rfl rfl
      (List.Subset.refl _)).setPc_task (by simp [ht]) (by simp [ht, Pc.Reaping]) (by simp)
      (by simp [Pc.Reaping])
  registered u v hu := by
    rw [pc_setPc] at hu
    by_cases h : u = t
    · rw [if_pos h] at hu
      cases hu
      subst h; simp
    · rw [if_neg h] at hu
      rcases hp.registered u v hu with h' | h' | h'
      · exact .inl h'
      · right; left; simp [h']
      · right; right; exact h'
  wokenAfter r hr hk u v hm := by
    rw [pc_setPc] at hk
    by_cases h : r.keeper = t
    · rw [if_pos h] at hk; exact absurd hk (by simp [Pc.PastWake])
    · rw [if_neg h] at hk
      simp only [registerInterruptibleWaker, setPc, List.mem_append, List.mem_singleton,
        Prod.mk.injEq] at hm ⊢
      rcases hm with hm | ⟨rfl, rfl⟩
      · rcases hp.wokenAfter r hr hk u v hm with h' | h' | h'
        · exact .inl h'
        · have : u ≠ t := fun e => by rw [← e, h'] at ht; cases ht
          right; left; simp [this, h']
        · have : u ≠ t := fun e => by rw [← e, h'] at ht; cases ht
          right; right; simp [this, h']
      · right; left; simp

/-- A task moving between the program points of `park_current_task` at which its waker of `w` is
    registered keeps the invariant, when a keeper past its `wake_interruptible` finds it before
    its second check or with `w` fired. -/
theorem Wf.setPc_registered (hp : p.Wf) {c : Pc} (ht : (p.pc t).Registered w)
    (hc : c.Registered w)
    (hwoken : ∀ r, p.reap = some r → (p.pc r.keeper).PastWake →
      c = .waitRecheck w ∨ c = .waitRecheckSlow w ∨ w ∈ p.fired) :
    (p.setPc t c).Wf where
  toAccounts :=
    hp.toAccounts.setPc_task ht.ne_dropped ht.not_reaping hc.ne_dropped hc.not_reaping
  registered u v hu := by
    rw [pc_setPc] at hu
    by_cases h : u = t
    · rw [if_pos h] at hu
      subst h; rw [hu.eq hc]; exact hp.registered u w ht
    · rw [if_neg h] at hu; exact hp.registered u v hu
  wokenAfter r hr hk u v hm := by
    rw [pc_setPc] at hk
    by_cases h : r.keeper = t
    · rw [if_pos h] at hk; exact absurd hk hc.not_pastWake
    · rw [if_neg h] at hk
      rcases hp.wokenAfter r hr hk u v hm with h' | h' | h'
      · exact .inl h'
      all_goals
        rw [pc_setPc]
        by_cases hu : u = t
        · -- the moving task's entries are those of `w`
          subst hu
          have hvw : v = w := by rw [h'] at ht; exact ht
          subst hvw
          rw [if_pos rfl]
          rcases hwoken r hr hk with e | e | e
          · exact .inr (.inl e)
          · exact .inr (.inr e)
          · exact .inl e
        · rw [if_neg hu]; simp [h']

/-- The second check of `park_current_task`. -/
theorem Wf.waitRecheck (hp : p.Wf) (ht : p.pc t = .waitRecheck w) (b : Bool) :
    (if b then (p.wake w).setPc t (.waitBlocked w)
      else p.setPc t (if p.reapActive then .waitRecheckSlow w else .waitBlocked w)).Wf := by
  have hreg : (p.pc t).Registered w := by simp [ht, Pc.Registered]
  cases b with
  | true =>
    exact (hp.wake w).setPc_registered (by simpa using hreg) (by simp [Pc.Registered])
      (fun _ _ _ => .inr (.inr (by simp)))
  | false =>
    refine hp.setPc_registered hreg (by split <;> simp [Pc.Registered]) fun r hr hk => ?_
    -- a keeper past its wakes has `reap_active` set, so the check goes on to the locked read
    have hact : p.reapActive = true := by
      rcases hp.reap_active r hr with h | h
      · exact h
      · rw [h] at hk; exact absurd hk (by simp [Pc.PastWake])
    simp [hact]

/-- The locked read of the second check: a reap of another task wakes the task's own waker. -/
theorem Wf.waitRecheckSlow (hp : p.Wf) (ht : p.pc t = .waitRecheckSlow w) :
    ((if p.reapTargets t then p.wake w else p).setPc t (.waitBlocked w)).Wf := by
  have hreg : (p.pc t).Registered w := by simp [ht, Pc.Registered]
  by_cases htg : p.reapTargets t = true
  · rw [if_pos htg]
    exact (hp.wake w).setPc_registered (by simpa using hreg) (by simp [Pc.Registered])
      (fun _ _ _ => .inr (.inr (by simp)))
  · rw [if_neg htg]
    refine hp.setPc_registered hreg (by simp [Pc.Registered]) fun r hr hk => ?_
    -- the keeper is another task, so the read finds the reap
    have hne : r.keeper ≠ t := fun e => by rw [e, ht] at hk; exact hk
    exact absurd (by simp [reapTargets, hr, hne]) htg

/-- A task leaves `block_current` once its waker fired. -/
theorem Wf.leaveRegistered (hp : p.Wf) {c : Pc} (ht : (p.pc t).Registered w) (hw : w ∈ p.fired)
    (hc : c.Plain) : (p.setPc t c).Wf where
  toAccounts := hp.toAccounts.setPc_task ht.ne_dropped ht.not_reaping hc.ne_dropped hc.not_reaping
  registered := hp.registered_setPc hc.not_registered
  wokenAfter r hr hk u v hm := by
    rw [pc_setPc] at hk
    by_cases h : r.keeper = t
    · rw [if_pos h] at hk; exact absurd hk hc.not_pastWake
    · rw [if_neg h] at hk
      rcases hp.wokenAfter r hr hk u v hm with h' | h' | h'
      · exact .inl h'
      all_goals
        by_cases hu : u = t
        · -- an entry of the leaving task is one of `w`, which fired
          subst hu; rw [h'] at ht; exact .inl (ht ▸ hw)
        · rw [pc_setPc, if_neg hu]; simp [h']

/-- `clear_interruptible_waker` of a task none of whose wakers is registered. -/
theorem Wf.clearInterruptibleWaker (hp : p.Wf) (ht : ∀ v, ¬ (p.pc t).Registered v) :
    (p.clearInterruptibleWaker t).Wf where
  toAccounts := hp.toAccounts.of_fired_subset rfl rfl rfl rfl rfl (List.Subset.refl _)
  registered u v hu := by
    have hut : u ≠ t := fun e => ht v (e ▸ hu)
    rcases hp.registered u v hu with h | h | h
    · exact .inl h
    · right; left; simp [h, hut]
    · right; right; exact h
  wokenAfter r hr hk u v hm := by
    exact hp.wokenAfter r hr hk u v (List.mem_filter.mp hm).1

-- ---------------------------------------------------------------------------
-- The keeper
-- ---------------------------------------------------------------------------

/-- The keeper moving between program points of its reap keeps the accounting, when a move to
    `reapBlocked` leaves the waiter the invariant asks for. -/
theorem Accounts.setPc_keeper (hp : p.Accounts) {c : Pc} (ht : (p.pc t).Reaping)
    (htf : p.pc t ≠ .finishing) (hc : c ≠ .dropped) (hcf : c ≠ .finishing)
    (hcb : ∀ v, c = .reapBlocked v → v ∉ p.fired → p.reap = some ⟨t, some v⟩ ∧ 2 ≤ p.live) :
    (p.setPc t c).Accounts where
  created u hu := by
    have : u ≠ t := fun e => ht.ne_dropped (e ▸ hp.created u hu)
    rw [pc_setPc, if_neg this]; exact hp.created u hu
  live_eq := by rw [liveTasks_setPc (iff_of_false ht.ne_dropped hc)]; exact hp.live_eq
  keeper u hu := by
    rw [pc_setPc] at hu
    by_cases h : u = t
    · subst h; exact hp.keeper u ht
    · rw [if_neg h] at hu; exact hp.keeper u hu
  active_isSome := hp.active_isSome
  reap_active r hr := by
    rcases hp.reap_active r hr with h | h
    · exact .inl h
    · have : r.keeper ≠ t := fun e => htf (e ▸ h)
      right; rw [pc_setPc, if_neg this]; exact h
  finishing u hu := by
    rw [pc_setPc] at hu
    by_cases h : u = t
    · rw [if_pos h] at hu; exact absurd hu hcf
    · rw [if_neg h] at hu; exact hp.finishing u hu
  waiter u v hu hv := by
    rw [pc_setPc] at hu
    by_cases h : u = t
    · rw [if_pos h] at hu; subst h; exact hcb v hu hv
    · rw [if_neg h] at hu; exact hp.waiter u v hu hv

/-- The keeper's moves that keep the invariant: a move past `wake_interruptible` comes from
    there, or finds no waker registered. -/
theorem Wf.setPc_keeper (hp : p.Wf) {c : Pc} (ht : (p.pc t).Reaping)
    (htf : p.pc t ≠ .finishing) (hc : c ≠ .dropped) (hcf : c ≠ .finishing)
    (hcb : ∀ v, c = .reapBlocked v → v ∉ p.fired → p.reap = some ⟨t, some v⟩ ∧ 2 ≤ p.live)
    (hcr : ∀ v, ¬ c.Registered v)
    (hcw : c.PastWake → (p.pc t).PastWake ∨ p.interruptibleWakers = []) :
    (p.setPc t c).Wf where
  toAccounts := hp.toAccounts.setPc_keeper ht htf hc hcf hcb
  registered := hp.registered_setPc hcr
  wokenAfter r hr hk u v hm := by
    -- the keeper is never at the second check, so its own program point does not matter
    have hnot : ∀ v, ¬ (p.pc t).Registered v := fun v h => h.not_reaping ht
    rw [pc_setPc] at hk
    by_cases h : r.keeper = t
    · rw [if_pos h] at hk
      rcases hcw hk with hk' | hnil
      · exact hp.wokenAfter_setPc hnot hr (h ▸ hk') hm
      · simp only [setPc, hnil] at hm; cases hm
    · rw [if_neg h] at hk; exact hp.wokenAfter_setPc hnot hr hk hm

/-- `reap_sibling_tasks` records the reap, or finds its own. -/
theorem Wf.enterReap (hp : p.Wf) (ht : (p.pc t).Plain) (hr : ∃ w, p.reap = some ⟨t, w⟩)
    (ha : p.reapActive = true) : (p.setPc t .reapResume).Wf where
  toAccounts :=
    { created := fun u hu => by
        have : u ≠ t := fun e => ht.ne_dropped (e ▸ hp.created u hu)
        rw [pc_setPc, if_neg this]; exact hp.created u hu
      live_eq := by
        rw [liveTasks_setPc (iff_of_false ht.ne_dropped (by simp))]; exact hp.live_eq
      keeper := fun u hu => by
        rw [pc_setPc] at hu
        by_cases h : u = t
        · subst h; exact hr
        · rw [if_neg h] at hu; exact hp.keeper u hu
      active_isSome := hp.active_isSome
      reap_active := fun _ _ => .inl ha
      finishing := fun u hu => by
        rw [pc_setPc] at hu
        by_cases h : u = t
        · rw [if_pos h] at hu; cases hu
        · rw [if_neg h] at hu; exact hp.finishing u hu
      waiter := fun u v hu hv => by
        rw [pc_setPc] at hu
        by_cases h : u = t
        · rw [if_pos h] at hu; cases hu
        · rw [if_neg h] at hu; exact hp.waiter u v hu hv }
  registered := hp.registered_setPc fun _ h => h
  wokenAfter r hr' hk u v hm := by
    obtain ⟨w, hw⟩ := hr
    have hkt : r.keeper = t := by
      simp only [setPc, hw, Option.some.injEq] at hr'; rw [← hr']
    rw [hkt, pc_setPc, if_pos rfl] at hk
    exact absurd hk (by simp [Pc.PastWake])

/-- With no reap recorded, recording one for `t` keeps the invariant. -/
theorem Wf.recordReap (hp : p.Wf) (hnone : p.reap = none) (ht : ¬ (p.pc t).PastWake) :
    ({ p with reap := some ⟨t, none⟩, reapActive := true } : Process).Wf where
  -- with no reap, no task is at a program point of one
  created := hp.created
  live_eq := hp.live_eq
  keeper u hu := by obtain ⟨w, hw⟩ := hp.keeper u hu; rw [hnone] at hw; cases hw
  active_isSome _ := rfl
  reap_active _ _ := .inl rfl
  finishing u hu := by
    obtain ⟨w, hw⟩ := hp.keeper u (by rw [show p.pc u = .finishing from hu]; trivial)
    rw [hnone] at hw; cases hw
  waiter u v hu _ := by
    obtain ⟨w, hw⟩ := hp.keeper u (by rw [show p.pc u = .reapBlocked v from hu]; trivial)
    rw [hnone] at hw; cases hw
  registered := hp.registered
  wokenAfter r hr hk := by
    simp only [Option.some.injEq] at hr; subst hr; exact absurd hk ht

/-- The first section of `reap_sibling_tasks`. -/
theorem Wf.reapStart (hp : p.Wf) (ht : p.pc t = .reapStart) :
    (match p.reapEnter t with
      | some q => q.setPc t .reapResume
      | none => p.setPc t .exiting).Wf := by
  have hplain : (p.pc t).Plain := by simp [ht, Pc.Plain]
  unfold reapEnter
  rcases hr : p.reap with _ | r
  · -- no reap: the caller records its own
    have h₁ := hp.recordReap hr (t := t) (by simp [ht, Pc.PastWake])
    exact h₁.enterReap (by simpa using hplain) ⟨none, rfl⟩ rfl
  · by_cases hk : r.keeper ≠ t
    · dsimp only; rw [if_pos hk]; exact hp.move hplain (by simp [Pc.Plain])
    · dsimp only; rw [if_neg hk]
      have hkt : r.keeper = t := not_not.mp hk
      refine hp.enterReap hplain ⟨r.waiter, by rw [hr, ← hkt]⟩ ?_
      rcases hp.reap_active r hr with h | h
      · exact h
      · rw [hkt, ht] at h; cases h

/-- `setWaiter` keeps the keeper and the liveness of the reap, and leaves `w` fired or as the
    waiter. -/
theorem setWaiter_spec (hr : p.reap = some ⟨t, v⟩) (w : Nat) :
    (p.setWaiter w = p.wake w ∧ p.live = 1) ∨
      (p.setWaiter w = { p with reap := some ⟨t, some w⟩ } ∧ p.live ≠ 1) := by
  unfold setWaiter
  by_cases h : p.live = 1
  · left; simp [h]
  · right; simp [h, hr]

/-- The section that wakes the keeper's waker at once or leaves it as the waiter. -/
theorem Wf.reapArm (hp : p.Wf) (ht : p.pc t = .reapReserved w) :
    ((p.setWaiter w).setPc t (.reapBlocked w)).Wf := by
  have hR : (p.pc t).Reaping := by simp [ht, Pc.Reaping]
  obtain ⟨v, hr⟩ := hp.keeper t hR
  have hlive : 1 ≤ p.live := hp.live_eq ▸ card_liveTasks_pos (hp.mem_liveTasks_of_ne hR.ne_dropped)
  -- the keeper is `t`, so no task waits at `reapBlocked` on an unfired waker
  have hothers : ∀ u v, p.pc u = .reapBlocked v → v ∉ p.fired → u = t := fun u v hb hv => by
    obtain ⟨h1, -⟩ := hp.waiter u v hb hv
    rw [hr, Option.some.injEq, ReapState.mk.injEq] at h1
    exact h1.1.symm
  rcases setWaiter_spec hr w with ⟨he, h1⟩ | ⟨he, h1⟩
  · rw [he]
    refine (hp.wake w).setPc_keeper (by simpa using hR) (by simp [ht]) (by simp) (by simp)
      (fun v' hv' hf => ?_) (by simp [Pc.Registered]) (fun _ => .inl (by simp [ht, Pc.PastWake]))
    cases hv'; exact absurd (by simp) hf
  · rw [he]
    have hq : ({ p with reap := some ⟨t, some w⟩ } : Process).Wf := by
      refine ⟨⟨hp.created, hp.live_eq, fun u hu => ?_, fun _ => rfl, fun r' hr' => ?_,
        hp.finishing, fun u v' hu hv' => ?_⟩, hp.registered, fun r' hr' hk => ?_⟩
      · obtain ⟨w', hw'⟩ := hp.keeper u hu
        rw [hr, Option.some.injEq, ReapState.mk.injEq] at hw'
        exact ⟨some w, by simp [hw'.1]⟩
      · simp only [Option.some.injEq] at hr'; subst hr'
        rcases hp.reap_active _ hr with h | h
        · exact .inl h
        · exact .inr h
      · have hut := hothers u v' hu hv'
        rw [hut, ht] at hu; cases hu
      · simp only [Option.some.injEq] at hr'; subst hr'
        exact hp.wokenAfter _ hr hk
    refine hq.setPc_keeper (by simpa using hR) (by simp [ht]) (by simp) (by simp)
      (fun v' hv' _ => ?_) (by simp [Pc.Registered]) (fun _ => .inl (by simp [ht, Pc.PastWake]))
    cases hv'; exact ⟨rfl, by simp; omega⟩

/-- The first half of `finish_reap`. -/
theorem Wf.finishStore (hp : p.Wf) (ht : p.pc t = .sole) :
    (p.finishReapStore.setPc t .finishing).Wf := by
  have hR : (p.pc t).Reaping := by simp [ht, Pc.Reaping]
  obtain ⟨v, hr⟩ := hp.keeper t hR
  refine ⟨⟨?_, ?_, fun u hu => ?_, fun h => by simp at h, fun r' hr' => ?_, fun _ _ => by simp,
    fun u v' hu hv' => ?_⟩, fun u v' hu => ?_, fun r' hr' hk => ?_⟩
  · intro u hu
    have : u ≠ t := fun e => hR.ne_dropped (e ▸ hp.created u hu)
    simpa [Function.update_apply, this] using hp.created u hu
  · rw [show (p.finishReapStore.setPc t .finishing).liveTasks = p.liveTasks from
      (liveTasks_setPc (p := p.finishReapStore) (by simp [ht])).trans (liveTasks_congr rfl rfl)]
    exact hp.live_eq
  · by_cases h : u = t
    · subst h; exact ⟨v, hr⟩
    · simp only [finishReapStore, setPc, Function.update_apply, h, if_false] at hu
      simpa using hp.keeper u hu
  · simp only [finishReapStore, setPc] at hr' ⊢
    rw [hr, Option.some.injEq] at hr'; subst hr'
    right; simp
  · by_cases h : u = t
    · subst h; simp at hu
    · simp only [finishReapStore, setPc, Function.update_apply, h, if_false] at hu hv' ⊢
      exact hp.waiter u v' hu hv'
  · by_cases h : u = t
    · subst h; simp [Pc.Registered] at hu
    · simp only [finishReapStore, setPc, Function.update_apply, h, if_false] at hu ⊢
      exact hp.registered u v' hu
  · simp only [finishReapStore, setPc] at hr' hk
    rw [hr, Option.some.injEq] at hr'; subst hr'
    simp [Pc.PastWake] at hk

/-- The second half of `finish_reap`: with the reap cleared, no task is the keeper. -/
theorem Wf.finishLock (hp : p.Wf) (ht : p.pc t = .finishing) :
    (p.finishReapLock.setPc t .execReset).Wf := by
  have hR : (p.pc t).Reaping := by simp [ht, Pc.Reaping]
  obtain ⟨v, hr⟩ := hp.keeper t hR
  have hact : p.reapActive = false := hp.finishing t ht
  -- a keeper other than `t` would be recorded in the reap in place of `t`
  have hnot : ∀ u, u ≠ t → ¬ (p.pc u).Reaping := fun u hu hR' => by
    obtain ⟨v', hv'⟩ := hp.keeper u hR'
    rw [hr, Option.some.injEq, ReapState.mk.injEq] at hv'; exact hu hv'.1.symm
  have hpc : ∀ u, (p.finishReapLock.setPc t .execReset).pc u = if u = t then .execReset else p.pc u :=
    fun u => by simp [Function.update_apply]
  refine ⟨⟨?_, ?_, fun u hu => ?_, fun h => by simp [hact] at h, fun r' hr' => by simp at hr',
    fun _ _ => by simpa using hact, fun u v' hu _ => ?_⟩, fun u v' hu => ?_,
    fun r' hr' => by simp at hr'⟩
  · intro u hu
    have : u ≠ t := fun e => hR.ne_dropped (e ▸ hp.created u hu)
    rw [hpc, if_neg this]; exact hp.created u hu
  · rw [show (p.finishReapLock.setPc t .execReset).liveTasks = p.liveTasks from
      (liveTasks_setPc (p := p.finishReapLock) (by simp [ht])).trans (liveTasks_congr rfl rfl)]
    exact hp.live_eq
  · rw [hpc] at hu
    by_cases h : u = t
    · rw [if_pos h] at hu; exact absurd hu (by simp [Pc.Reaping])
    · rw [if_neg h] at hu; exact absurd hu (hnot u h)
  · rw [hpc] at hu
    by_cases h : u = t
    · rw [if_pos h] at hu; cases hu
    · rw [if_neg h] at hu; exact absurd (by simp [hu, Pc.Reaping]) (hnot u h)
  · rw [hpc] at hu
    by_cases h : u = t
    · rw [if_pos h] at hu; exact absurd hu (by simp [Pc.Registered])
    · rw [if_neg h] at hu; simpa using hp.registered u v' hu

-- ---------------------------------------------------------------------------
-- `retire_task`, signals and wakes
-- ---------------------------------------------------------------------------

/-- `retire_task` lowers the count and keeps everything the invariant reads but the reap's
    waiter and the fired tickets, which only grow. -/
theorem retireTask_spec (p : Process) :
    p.retireTask.live = p.live - 1 ∧ p.retireTask.reapActive = p.reapActive ∧
    p.retireTask.pc = p.pc ∧ p.retireTask.tasks = p.tasks ∧
    p.retireTask.interruptibleWakers = p.interruptibleWakers ∧ p.retireTask.taken = p.taken ∧
    p.retireTask.reap.map ReapState.keeper = p.reap.map ReapState.keeper ∧
    p.fired ⊆ p.retireTask.fired := by
  unfold retireTask
  rcases p.reap with _ | ⟨k, _ | w⟩
  · simp
  · simp
  · by_cases h : p.live - 1 = 1 <;> simp [h]

/-- A waiter that `retire_task` leaves unfired is still the waiter, and the count did not reach
    one. -/
theorem retireTask_waiter (hr : p.reap = some ⟨u, some w⟩) (hw : w ∉ p.retireTask.fired) :
    p.retireTask.reap = p.reap ∧ p.live - 1 ≠ 1 := by
  simp only [retireTask, hr] at hw ⊢
  by_cases h : p.live - 1 = 1
  · simp [h] at hw
  · simp [h]

/-- The `retire_task` that takes the count to one fires the waiter of the reap. -/
theorem retireTask_fires_waiter (hr : p.reap = some ⟨u, some w⟩) (h : p.live - 1 = 1) :
    w ∈ p.retireTask.fired := by
  simp [retireTask, hr, h]

/-- `retire_task` followed by the task's drop. -/
theorem Wf.drop (hp : p.Wf) (ht : p.pc t = .exiting) : (p.retireTask.setPc t .dropped).Wf := by
  obtain ⟨hlive, hact, hpc, htasks, hwak, htaken, hkeep, hfired⟩ := retireTask_spec p
  have hmem : t ∈ p.liveTasks := hp.mem_liveTasks_of_ne (by simp [ht])
  have hpc' : ∀ u, (p.retireTask.setPc t .dropped).pc u = if u = t then .dropped else p.pc u :=
    fun u => by rw [pc_setPc, hpc]
  -- every task still live is another than `t`, at its old program point
  have hat : ∀ {u c}, (p.retireTask.setPc t .dropped).pc u = c → c ≠ .dropped →
      p.pc u = c ∧ u ≠ t := fun {u c} h hc => by
    rw [hpc'] at h
    by_cases hu : u = t
    · rw [if_pos hu] at h; exact absurd h.symm hc
    · rw [if_neg hu] at h; exact ⟨h, hu⟩
  -- the reap keeps its keeper, in both directions
  have hkeeper : ∀ r, p.retireTask.reap = some r → ∃ r₀, p.reap = some r₀ ∧ r₀.keeper = r.keeper :=
    fun r hr => by
      rcases hp0 : p.reap with _ | r₀
      · rw [hr, hp0] at hkeep; cases hkeep
      · rw [hr, hp0] at hkeep; simp only [Option.map_some, Option.some.injEq] at hkeep
        exact ⟨r₀, rfl, hkeep.symm⟩
  have hkeeper' : ∀ r₀, p.reap = some r₀ → ∃ r, p.retireTask.reap = some r ∧ r₀.keeper = r.keeper :=
    fun r₀ hr₀ => by
      rcases hq : p.retireTask.reap with _ | r
      · rw [hq, hr₀] at hkeep; cases hkeep
      · rw [hq, hr₀] at hkeep; simp only [Option.map_some, Option.some.injEq] at hkeep
        exact ⟨r, rfl, hkeep.symm⟩
  refine ⟨⟨?_, ?_, fun u hu => ?_, fun h => ?_, fun r hr => ?_, fun u hu => ?_,
    fun u v hu hv => ?_⟩, fun u v hu => ?_, fun r hr hk u v hm => ?_⟩
  · intro u hu
    rw [hpc']; split_ifs
    · rfl
    · exact hp.created u (by simpa [htasks] using hu)
  · rw [show (p.retireTask.setPc t .dropped).live = p.live - 1 from hlive,
      show (p.retireTask.setPc t .dropped).liveTasks = p.liveTasks.erase t from
        (liveTasks_congr (p := p.setPc t .dropped) (by simp [hpc]) (by simp [htasks])).trans
          (liveTasks_setPc_dropped hmem),
      Finset.card_erase_of_mem hmem, hp.live_eq]
  · rw [(hat rfl hu.ne_dropped).1.symm] at hu
    obtain ⟨w, hw⟩ := hp.keeper u hu
    obtain ⟨⟨k, w'⟩, hr, hk⟩ := hkeeper' _ hw
    exact ⟨w', by simp only [setPc, hr, show u = k from hk]⟩
  · have e := congrArg Option.isSome hkeep
    simp only [Option.isSome_map] at e
    simp only [setPc, e]
    exact hp.active_isSome (by rwa [← hact])
  · obtain ⟨r₀, hr₀, hk⟩ := hkeeper r hr
    rcases hp.reap_active r₀ hr₀ with h | h
    · exact .inl (by simpa [hact] using h)
    · right
      have : r.keeper ≠ t := fun e => by rw [hk, e, ht] at h; cases h
      rw [hpc', if_neg this, ← hk]; exact h
  · exact hact.trans (hp.finishing u (hat hu (by simp)).1)
  · have hv' : v ∉ p.fired := fun h => hv (hfired h)
    obtain ⟨h1, h2⟩ := hp.waiter u v (hat hu (by simp)).1 hv'
    obtain ⟨e1, e2⟩ := retireTask_waiter h1 hv
    refine ⟨e1.trans h1, ?_⟩
    rw [show (p.retireTask.setPc t .dropped).live = p.live - 1 from hlive]
    omega
  · rw [(hat rfl hu.ne_dropped).1.symm] at hu
    rcases hp.registered u v hu with h' | h' | h'
    · exact .inl (hfired h')
    · right; left; simpa [hwak] using h'
    · right; right; simpa [htaken] using h'
  · obtain ⟨r₀, hr₀, hk'⟩ := hkeeper r hr
    have hkt : r.keeper ≠ t := fun e => by
      rw [hpc', if_pos e] at hk; exact hk
    rw [hpc', if_neg hkt, ← hk'] at hk
    have hm' : (u, v) ∈ p.interruptibleWakers := by simpa [hwak] using hm
    rcases hp.wokenAfter r₀ hr₀ hk u v hm' with h' | h' | h'
    · exact .inl (hfired h')
    · have : u ≠ t := fun e => by rw [e, ht] at h'; cases h'
      right; left; rw [hpc', if_neg this]; exact h'
    · have : u ≠ t := fun e => by rw [e, ht] at h'; cases h'
      right; right; rw [hpc', if_neg this]; exact h'

/-- A signal sent to the process only records it and resumes stopped tasks. -/
theorem Wf.deliverSignal (hp : p.Wf) (signo : Signal) : (p.deliverSignal signo).Wf := by
  unfold Process.deliverSignal
  rcases p.signals.deliver signo with ⟨e, s⟩
  dsimp only
  split
  · exact hp.of_fired_subset rfl rfl rfl rfl rfl rfl (List.subset_append_right _ _) rfl
  · exact hp.of_fired_subset rfl rfl rfl rfl rfl rfl (List.Subset.refl _) rfl

/-- `deliver_pending` changes only the signal state, and its `request_stop_park` the stop
    tickets; the task goes on at a plain program point. -/
theorem Wf.deliverPending (hp : p.Wf) (ht : p.pc t = .tickDeliver) (reserveOk : Bool) :
    (p.deliverPending t reserveOk).Wf := by
  unfold Process.deliverPending
  rcases deliverPendingLoop (Signal.COUNT + 1) p.signals with ⟨d, s⟩
  have hq : ({ p with signals := s } : Process).Wf :=
    hp.of_fired_subset rfl rfl rfl rfl rfl rfl (List.Subset.refl _) rfl
  have hplain : (({ p with signals := s } : Process).pc t).Plain := by simp [ht, Pc.Plain]
  cases d with
  | stopPark =>
    cases reserveOk with
    | false => exact hq.move hplain trivial
    | true =>
      -- `request_stop_park` takes a fresh claim and stores its ticket
      have hq' : (({ p with signals := s } : Process).reserve.2.storeStopUnpark p.nextClaim).Wf :=
        hq.of_fired_subset rfl rfl rfl rfl rfl rfl (List.Subset.refl _) rfl
      exact hq'.move (t := t) (c := .stopParked p.nextClaim) (by simp [ht, Pc.Plain]) trivial
  | none | terminate | handler => exact hq.move hplain trivial

/-- `wake_interruptible` takes every registered waker. -/
theorem Wf.wakeInterruptible (hp : p.Wf) : p.wakeInterruptible.Wf where
  toAccounts := hp.toAccounts.of_fired_subset rfl rfl rfl rfl rfl (List.Subset.refl _)
  registered u v hu := by
    rcases hp.registered u v hu with h | h | h
    · exact .inl h
    · right; right; exact List.mem_append_left _ (List.mem_map.mpr ⟨(u, v), h, rfl⟩)
    · right; right; exact List.mem_append_right _ h
  wokenAfter _ _ _ _ _ hm := by cases hm

/-- A taken waker fires. -/
theorem Wf.fireTaken (hp : p.Wf) (w : Nat) :
    (({ p with taken := p.taken.erase w } : Process).wake w).Wf where
  toAccounts := hp.toAccounts.of_fired_subset rfl rfl rfl rfl rfl (List.subset_cons_self _ _)
  registered u v hu := by
    rcases hp.registered u v hu with h | h | h
    · exact .inl (List.mem_cons_of_mem _ h)
    · exact .inr (.inl h)
    · by_cases hv : v = w
      · exact .inl (by simp [hv])
      · exact .inr (.inr (List.mem_erase_of_ne hv |>.mpr h))
  wokenAfter r hr hk u v hm := by
    rcases hp.wokenAfter r hr hk u v hm with h | h | h
    · exact .inl (List.mem_cons_of_mem _ h)
    · exact .inr (.inl h)
    · exact .inr (.inr h)

/-- The keeper moving past `reap_sibling_tasks`'s own lock sections, at program points that are
    not `reapBlocked`, neither leaving nor entering the wakes. -/
theorem Wf.keeperStep (hp : p.Wf) {c : Pc} (ht : (p.pc t).Reaping) (htf : p.pc t ≠ .finishing)
    (hc : c.Reaping ∨ c = .exiting) (hcf : c ≠ .finishing) (hcb : ∀ v, c ≠ .reapBlocked v)
    (hcw : c.PastWake → (p.pc t).PastWake) : (p.setPc t c).Wf :=
  hp.setPc_keeper ht htf (by rcases hc with h | rfl; exacts [h.ne_dropped, by simp]) hcf
    (fun v hv => absurd hv (hcb v))
    (fun v h => by rcases hc with h' | rfl; exacts [h.not_reaping h', h])
    (fun h => .inl (hcw h))

-- ---------------------------------------------------------------------------
-- Whole runs
-- ---------------------------------------------------------------------------

theorem new_wf : new.Wf := by
  -- task `0` is the only one, in user mode
  have hpc : ∀ t, new.pc t = .user ∨ new.pc t = .dropped := fun t => by
    by_cases h : t = 0 <;> simp [new, h]
  refine ⟨⟨fun t ht => ?_, by decide, fun t ht => ?_, (fun h => by cases h),
    (fun _ h => by cases h), fun t ht => ?_, fun t w ht _ => ?_⟩, fun t w ht => ?_,
    (fun _ h => by cases h)⟩
  · have : t ≠ 0 := by have : 1 ≤ t := ht; omega
    simp [new, this]
  all_goals rcases hpc t with h | h <;> simp [h, Pc.Reaping, Pc.Registered] at ht

/-- Every step keeps the invariant. -/
theorem Wf.step (hp : p.Wf) (hs : Step p q) : q.Wf := by
  cases hs with
  | register => exact hp.register
  | tick t h => exact hp.move (by simp [h, Pc.Plain]) (by split <;> trivial)
  | tickSlow t h => exact hp.move (by simp [h, Pc.Plain]) (by split <;> trivial)
  | deliverBusy t h => exact hp.move (by simp [h, Pc.Plain]) trivial
  | deliver t b h => exact hp.deliverPending h b
  | stopResume t w h => exact hp.move (by simp [h, Pc.Plain]) trivial
  | syscallWait t h => exact hp.move (by simp [h, Pc.Plain]) trivial
  | syscallExec t h => exact hp.move (by simp [h, Pc.Plain]) trivial
  | syscallOther t h => exact hp.move (by simp [h, Pc.Plain]) trivial
  | sysRet t h => exact hp.move (by simp [h, Pc.Plain]) (by split <;> trivial)
  | sysRetSlow t h => exact hp.move (by simp [h, Pc.Plain]) (by split <;> trivial)
  | waitTop t h => exact hp.move (by simp [h, Pc.Plain]) (by split <;> trivial)
  | waitTopSlow t h => exact hp.move (by simp [h, Pc.Plain]) (by split <;> trivial)
  | waitCond t b h => exact hp.move (by simp [h, Pc.Plain]) (by split <;> trivial)
  | waitReserve t h =>
    exact (hp.of_fired_subset (q := p.reserve.2) rfl rfl rfl rfl rfl rfl (List.Subset.refl _)
      rfl).move (by simp [h, Pc.Plain]) trivial
  | waitSleep t w b h =>
    have hq : (if b then p.sleepUntil w else p).Wf := by
      split
      · exact hp.of_fired_subset rfl rfl rfl rfl rfl rfl (List.Subset.refl _) rfl
      · exact hp
    exact hq.move (by split <;> simp [h, Pc.Plain]) trivial
  | waitRegister t w h => exact hp.waitRegister h
  | waitRecheck t w b h => exact hp.waitRecheck h b
  | waitRecheckSlow t w h => exact hp.waitRecheckSlow h
  | waitResume t w h hw => exact hp.leaveRegistered (by simp [h, Pc.Registered]) hw trivial
  | waitClear t h =>
    exact (hp.clearInterruptibleWaker (by simp [h, Pc.Registered])).move
      (by simp [h, Pc.Plain]) trivial
  | reapStart t h => exact hp.reapStart h
  | reapResume t h =>
    exact (hp.of_fired_subset (q := p.resumeStoppedTasks) rfl rfl rfl rfl rfl rfl
      (List.subset_append_right _ _) rfl).keeperStep (by simp [h, Pc.Reaping]) (by simp [h])
      (.inl trivial) (by simp) (by simp) (by simp [Pc.PastWake])
  | reapWake t h =>
    exact hp.wakeInterruptible.setPc_keeper (by simp [h, Pc.Reaping]) (by simp [h]) (by simp)
      (by simp) (by simp) (by simp [Pc.Registered]) (fun _ => .inr rfl)
  | reapCheck t h =>
    exact hp.keeperStep (by simp [h, Pc.Reaping]) (by simp [h]) (.inl (by split <;> trivial))
      (by split <;> simp) (by split <;> simp) (fun _ => by simp [h, Pc.PastWake])
  | reapReserve t h =>
    exact (hp.of_fired_subset (q := p.reserve.2) rfl rfl rfl rfl rfl rfl (List.Subset.refl _)
      rfl).keeperStep (by simp [h, Pc.Reaping]) (by simp [h]) (.inl trivial) (by simp) (by simp)
      (fun _ => by simp [h, Pc.PastWake])
  | reapArm t w h => exact hp.reapArm h
  | reapResumeBlocked t w h hw =>
    exact hp.keeperStep (by simp [h, Pc.Reaping]) (by simp [h]) (.inl trivial) (by simp)
      (by simp) (fun _ => by simp [h, Pc.PastWake])
  | finishStore t h => exact hp.finishStore h
  | execFail t h =>
    exact hp.keeperStep (by simp [h, Pc.Reaping]) (by simp [h]) (.inr rfl) (by simp) (by simp)
      (fun h' => absurd h' (by simp [Pc.PastWake]))
  | finishLock t h => exact hp.finishLock h
  | execReset t h =>
    exact (hp.of_fired_subset (q := { p with signals := p.signals.execReset }) rfl rfl rfl rfl rfl
      rfl (List.Subset.refl _) rfl).move (by simp [h, Pc.Plain]) trivial
  | drop t h => exact hp.drop h
  | signal signo => exact hp.deliverSignal signo
  | wakeInterruptible => exact hp.wakeInterruptible
  | fireTaken w _ => exact hp.fireTaken w
  | fireSleeper w _ =>
    exact hp.of_fired_subset rfl rfl rfl rfl rfl rfl (List.subset_cons_self _ _) rfl

/-- Every reachable state keeps the invariant. -/
theorem Reachable.wf (hp : p.Reachable) : p.Wf := by
  induction hp with
  | refl => exact new_wf
  | tail _ hs ih => exact ih.step hs

-- ---------------------------------------------------------------------------
-- Every run
-- ---------------------------------------------------------------------------

/-- Task `1` blocks in `park_current_task` while task `0` execs: the keeper takes the waker of
    task `1` in its `wake_interruptible` and blocks on its own waiter. -/
def execWhileWaiting : Process :=
  let p₁ : Process := { new.registerTask.setPc new.tasks .user with tasks := new.tasks + 1 }
  let p₂ := p₁.setPc 1 .waitTop
  let p₃ := p₂.setPc 1 (if p₂.reapActive then .waitTopSlow else .waitCond)
  let p₄ := p₃.setPc 1 (if false then .sysRet else .waitReserve)
  let p₅ := p₄.reserve.2.setPc 1 (.waitReserved p₄.reserve.1)
  let p₆ := (if false then p₅.sleepUntil 0 else p₅).setPc 1 (.waitRegister 0)
  let p₇ := (p₆.registerInterruptibleWaker 1 0).setPc 1 (.waitRecheck 0)
  let p₈ := if false then (p₇.wake 0).setPc 1 (.waitBlocked 0)
    else p₇.setPc 1 (if p₇.reapActive then .waitRecheckSlow 0 else .waitBlocked 0)
  let p₉ := p₈.setPc 0 .reapStart
  let p₁₀ := match p₉.reapEnter 0 with
    | some q => q.setPc 0 .reapResume
    | none => p₉.setPc 0 .exiting
  let p₁₁ := p₁₀.resumeStoppedTasks.setPc 0 .reapWake
  let p₁₂ := p₁₁.wakeInterruptible.setPc 0 .reapCheck
  let p₁₃ := p₁₂.setPc 0 (if p₁₂.live = 1 then .sole else .reapReserve)
  let p₁₄ := p₁₃.reserve.2.setPc 0 (.reapReserved p₁₃.reserve.1)
  (p₁₄.setWaiter 1).setPc 0 (.reapBlocked 1)

theorem reachable_execWhileWaiting : execWhileWaiting.Reachable :=
  .tail (.tail (.tail (.tail (.tail (.tail (.tail (.tail (.tail (.tail (.tail (.tail (.tail
    (.tail (.tail .refl (.register _)) (.syscallWait _ 1 rfl)) (.waitTop _ 1 rfl))
    (.waitCond _ 1 false rfl)) (.waitReserve _ 1 rfl)) (.waitSleep _ 1 0 false rfl))
    (.waitRegister _ 1 0 rfl)) (.waitRecheck _ 1 0 false rfl)) (.syscallExec _ 0 rfl))
    (.reapStart _ 0 rfl)) (.reapResume _ 0 rfl)) (.reapWake _ 0 rfl)) (.reapCheck _ 0 rfl))
    (.reapReserve _ 0 rfl)) (.reapArm _ 0 1 rfl)

/-- The keeper of an exec never sleeps on a waker that nothing will fire: while its waker has
    not fired, it is the waiter of the reap, the count is at least two, another task of the
    process is live, and the `retire_task` that brings the count to one fires the waker. -/
theorem keeper_blocked_has_sibling (hp : p.Reachable) (ht : p.pc t = .reapBlocked w)
    (hw : w ∉ p.fired) :
    p.reap = some ⟨t, some w⟩ ∧ 2 ≤ p.live ∧ (∃ u ≠ t, p.pc u ≠ .dropped) ∧
      (p.live = 2 → w ∈ p.retireTask.fired) := by
  have hwf := hp.wf
  obtain ⟨hr, hlive⟩ := hwf.waiter t w ht hw
  -- two live tasks, so one besides the keeper
  obtain ⟨u, hu, hut⟩ := Finset.exists_mem_ne (hwf.live_eq ▸ hlive : 1 < p.liveTasks.card) t
  exact ⟨hr, hlive, ⟨u, hut, (mem_liveTasks.mp hu).2⟩,
    fun h2 => retireTask_fires_waiter hr (by omega)⟩

theorem keeper_blocked_has_sibling_exec :
    execWhileWaiting.reap = some ⟨0, some 1⟩ ∧ 2 ≤ execWhileWaiting.live ∧
      (∃ u ≠ 0, execWhileWaiting.pc u ≠ .dropped) ∧
      (execWhileWaiting.live = 2 → 1 ∈ execWhileWaiting.retireTask.fired) :=
  keeper_blocked_has_sibling reachable_execWhileWaiting rfl (by decide)

/-- No task waiting in `park_current_task` is lost to an exec: once the keeper is past its
    `wake_interruptible`, the waker of every task blocked in the wait has fired, or is held by a
    `wake_interruptible` that fires it. -/
theorem blocked_waiter_woken (hp : p.Reachable) (hr : p.reap = some r)
    (hk : (p.pc r.keeper).PastWake) (ht : p.pc t = .waitBlocked w) : w ∈ p.fired ∨ w ∈ p.taken := by
  have hwf := hp.wf
  rcases hwf.registered t w (by simp [ht, Pc.Registered]) with h | h | h
  · exact .inl h
  · -- a waker still registered is one whose task has its second check to come
    rcases hwf.wokenAfter r hr hk t w h with h' | h' | h'
    · exact .inl h'
    · rw [ht] at h'; cases h'
    · rw [ht] at h'; cases h'
  · exact .inr h

theorem blocked_waiter_woken_exec : 0 ∈ execWhileWaiting.fired ∨ 0 ∈ execWhileWaiting.taken :=
  blocked_waiter_woken reachable_execWhileWaiting (r := ⟨0, some 1⟩) (t := 1) rfl trivial rfl

/-- At most one task of the process is in the middle of an exec's reap: a second `execve` finds
    the reap of the first and exits. -/
theorem reaping_unique (hp : p.Reachable) (ht : (p.pc t).Reaping) (hu : (p.pc u).Reaping) :
    t = u := by
  have hwf := hp.wf
  obtain ⟨v, hv⟩ := hwf.keeper t ht
  obtain ⟨v', hv'⟩ := hwf.keeper u hu
  rw [hv, Option.some.injEq, ReapState.mk.injEq] at hv'
  exact hv'.1

/-- A third task, created while task `0` reaps, calls `execve`: `reap_sibling_tasks` finds the
    reap of task `0` and the caller exits. -/
def secondExec : Process :=
  let p₁ : Process :=
    { execWhileWaiting.registerTask.setPc execWhileWaiting.tasks .user with
      tasks := execWhileWaiting.tasks + 1 }
  let p₂ := p₁.setPc 2 .reapStart
  match p₂.reapEnter 2 with
  | some q => q.setPc 2 .reapResume
  | none => p₂.setPc 2 .exiting

theorem reachable_secondExec : secondExec.Reachable :=
  .tail (.tail (.tail reachable_execWhileWaiting (.register _)) (.syscallExec _ 2 rfl))
    (.reapStart _ 2 rfl)

theorem reaping_unique_exec :
    secondExec.pc 2 = .exiting ∧ ∀ u, (secondExec.pc u).Reaping → u = 0 :=
  ⟨rfl, fun _ hu => reaping_unique reachable_secondExec (u := 0) hu trivial⟩

/-- `register_task` and `retire_task` keep `live` equal to the number of tasks of the process
    that are not yet dropped. -/
theorem live_eq_card_live (hp : p.Reachable) :
    p.live = ((Finset.range p.tasks).filter fun t => p.pc t ≠ .dropped).card :=
  hp.wf.live_eq

theorem live_eq_card_live_exec :
    execWhileWaiting.live =
      ((Finset.range execWhileWaiting.tasks).filter fun t => execWhileWaiting.pc t ≠ .dropped).card :=
  live_eq_card_live reachable_execWhileWaiting

/-- The unlocked read of `reap_active` in `reap_requested_for` agrees with the locked read of the
    reap: when it is set a reap is recorded, and when it is clear the locked read finds a reap of
    another task only in the window between the two halves of `finish_reap`. -/
theorem reapActive_mirrors_reap (hp : p.Reachable) :
    (p.reapActive = true → p.reap.isSome = true) ∧
      (p.reapActive = false → p.reapTargets t = true →
        ∃ r, p.reap = some r ∧ p.pc r.keeper = .finishing) := by
  have hwf := hp.wf
  refine ⟨hwf.active_isSome, fun ha ht => ?_⟩
  rcases hr : p.reap with _ | r
  · simp [reapTargets, hr] at ht
  · rcases hwf.reap_active r hr with h | h
    · rw [ha] at h; cases h
    · exact ⟨r, rfl, h⟩

theorem reapActive_mirrors_reap_exec :
    (execWhileWaiting.reapActive = true → execWhileWaiting.reap.isSome = true) ∧
      (execWhileWaiting.reapActive = false → execWhileWaiting.reapTargets 1 = true →
        ∃ r, execWhileWaiting.reap = some r ∧ execWhileWaiting.pc r.keeper = .finishing) :=
  reapActive_mirrors_reap reachable_execWhileWaiting

end Process

end Muffin.Mtask
