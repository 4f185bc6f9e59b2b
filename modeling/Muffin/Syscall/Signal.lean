-- SUMMARY: The per-process signal state of `kernel_syscall::signal` and its nine mutators, each as the Rust code computes it.
import Muffin.Abi.Signal

/-!
# Per-process signal state

`SignalState` holds the installed actions, the pending and blocked masks and
the stopped flag of one process. Every method that takes `&mut self` becomes a
function returning the new state next to its result; a method that fails
leaves the state as it was, so its model returns the new state only on
success.

`SignalState.Op` lists the mutators, and `SignalState.step` applies one of
them. A run from `SignalState::default()` is a fold of `step` over a list of
operations.
-/

namespace Muffin.Syscall

open Muffin.Abi

/-- `Disposition`: what delivering a signal does, after the installed action and
    the default-action table are combined. -/
inductive Disposition where
  | ignore
  | defaultTerminate
  | defaultStop
  | handler (action : SigAction)
  deriving DecidableEq, Repr

/-- `DeliverEffect`: whether a stopped process must be resumed. -/
structure DeliverEffect where
  resumeTasks : Bool
  deriving DecidableEq, Repr

/-- `SignalState`. The action array is indexed by `number - 1`. -/
structure SignalState where
  actions : Vector SigAction Signal.COUNT
  pending : SigSet
  blocked : SigSet
  stopped : Bool

/-- `SignalState::default()`: default actions, nothing pending or blocked. -/
instance : Inhabited SignalState := ⟨⟨Vector.replicate Signal.COUNT default, 0, 0, false⟩⟩

/-- `KILL_STOP_MASK`: the two signals that can be neither blocked nor caught. -/
def KILL_STOP_MASK : SigSet := Signal.kill.bit ||| Signal.stop.bit

namespace SignalState

/-- `SignalState::index`: `(signo.number() - 1) as usize`. -/
def index (signo : Signal) : Fin Signal.COUNT :=
  ⟨signo.number - 1, by have := signo.number_le_COUNT; have := signo.number_pos; omega⟩

/-- `SignalState::action`. -/
def action (s : SignalState) (signo : Signal) : SigAction := s.actions[index signo]

/-- `SignalState::signals_in`: the signals whose bit is set in `mask`, by number. -/
def signalsIn (mask : SigSet) : List Signal :=
  (List.range Signal.COUNT).filterMap fun i =>
    if mask &&& 1#64 <<< i != 0 then (Signal.tryFrom (i + 1 : Nat)).toOption else none

/-- `SignalState::set_pending`, with the stop/continue mutual discard. -/
def setPending (s : SignalState) (signo : Signal) : SignalState :=
  let pending := s.pending ||| signo.bit
  if STOP_SIGNALS_MASK &&& signo.bit != 0 then
    { s with pending := pending &&& ~~~Signal.continue.bit }
  else if signo == .continue then
    { s with pending := pending &&& ~~~STOP_SIGNALS_MASK }
  else
    { s with pending := pending }

/-- `SignalState::deliver`: generation-time delivery. `Continue` and `Kill` end a stop. -/
def deliver (s : SignalState) (signo : Signal) : DeliverEffect × SignalState :=
  let s := s.setPending signo
  if (signo == .continue || signo == .kill) && s.stopped then
    (⟨true⟩, { s with stopped := false })
  else
    (⟨false⟩, s)

/-- `SignalState::take_next_deliverable`: the lowest-numbered pending, unblocked signal,
    whose pending bit is cleared. -/
def takeNextDeliverable (s : SignalState) : Option Signal × SignalState :=
  let deliverable := s.pending &&& ~~~s.blocked
  if deliverable == 0 then
    (none, s)
  else
    match Signal.tryFrom ((deliverable.ctz.toNat : Int) + 1) with
    | .ok signo => (some signo, { s with pending := s.pending &&& ~~~signo.bit })
    | .error _ => (none, s)

/-- `SignalState::disposition`: `Kill` always terminates. -/
def disposition (s : SignalState) (signo : Signal) : Disposition :=
  if signo == .kill then
    .defaultTerminate
  else
    let action := s.action signo
    if action.handler.isIgnore then
      .ignore
    else if action.handler.isDefault then
      match defaultAction signo with
      | .ignore => .ignore
      | .terminate => .defaultTerminate
      | .stop => .defaultStop
    else
      .handler action

/-- `SignalState::has_fatal_deliverable`. -/
def hasFatalDeliverable (s : SignalState) : Bool :=
  let deliverable := s.pending &&& ~~~s.blocked
  (signalsIn deliverable).any fun sig =>
    match s.disposition sig with
    | .defaultTerminate => true
    | _ => false

/-- `SignalState::has_interrupting_deliverable`: a handler or a default termination. -/
def hasInterruptingDeliverable (s : SignalState) : Bool :=
  let deliverable := s.pending &&& ~~~s.blocked
  (signalsIn deliverable).any fun sig =>
    match s.disposition sig with
    | .handler _ | .defaultTerminate => true
    | _ => false

/-- `SignalState::sigaction`: install `new` when given and return the previous action.
    `Kill` and `Stop`, a custom handler without restorer and `SIGINFO` are refused. -/
def sigaction (s : SignalState) (signo : Signal) (new : Option SigAction) :
    Except Errno (SigAction × SignalState) :=
  let old := s.action signo
  match new with
  | none => .ok (old, s)
  | some new =>
    if signo == .kill || signo == .stop then
      .error EINVAL
    else
      let isCustom := !new.handler.isDefault && !new.handler.isIgnore
      if isCustom && new.restorer == 0 then
        .error EINVAL
      else if new.flags.contains SaFlags.SIGINFO then
        .error EINVAL
      else
        .ok (old, { s with actions := s.actions.set (index signo) new })

/-- `SignalState::exec_reset`: ignored signals stay ignored, every other action falls back
    to the default. -/
def execReset (s : SignalState) : SignalState :=
  { s with actions := s.actions.map fun action =>
      if !action.handler.isIgnore then default else action }

/-- `SignalState::sigprocmask`: apply a mask change and return the previous mask. -/
def sigprocmask (s : SignalState) (how : SigMaskHow) (set : Option SigSet) :
    Except Errno (SigSet × SignalState) :=
  let old := s.blocked
  match set with
  | none => .ok (old, s)
  | some set =>
    let blocked :=
      match how with
      | .block => s.blocked ||| set
      | .unblock => s.blocked &&& ~~~set
      | .setMask => set
    .ok (old, { s with blocked := blocked &&& ~~~KILL_STOP_MASK })

/-- `SignalState::set_blocked_raw`: the mask restored by `sigreturn`. -/
def setBlockedRaw (s : SignalState) (set : SigSet) : SignalState :=
  { s with blocked := set &&& ~~~KILL_STOP_MASK }

/-- `SignalState::apply_handler_entry`: block the action's mask and, unless `NODEFER`, the
    signal itself; reset the action when `RESETHAND`. Returns the old mask. -/
def applyHandlerEntry (s : SignalState) (signo : Signal) (action : SigAction) :
    SigSet × SignalState :=
  let oldBlocked := s.blocked
  let blocked := s.blocked ||| action.mask
  let blocked := if !action.flags.contains SaFlags.NODEFER then blocked ||| signo.bit else blocked
  let blocked := blocked &&& ~~~KILL_STOP_MASK
  let actions :=
    if action.flags.contains SaFlags.RESETHAND then s.actions.set (index signo) default
    else s.actions
  (oldBlocked, { s with blocked := blocked, actions := actions })

/-- `SignalState::set_stopped`. -/
def setStopped (s : SignalState) (stopped : Bool) : SignalState :=
  { s with stopped := stopped }

/-- The mutators of `SignalState`, with the arguments user space or the kernel may pass. -/
inductive Op where
  | deliver (signo : Signal)
  | setPending (signo : Signal)
  | takeNextDeliverable
  | sigaction (signo : Signal) (new : Option SigAction)
  | sigprocmask (how : SigMaskHow) (set : Option SigSet)
  | setBlockedRaw (set : SigSet)
  | applyHandlerEntry (signo : Signal) (action : SigAction)
  | execReset
  | setStopped (stopped : Bool)

/-- One mutator call. A refused `sigaction` leaves the state unchanged. -/
def step (s : SignalState) : Op → SignalState
  | .deliver signo => (s.deliver signo).2
  | .setPending signo => s.setPending signo
  | .takeNextDeliverable => s.takeNextDeliverable.2
  | .sigaction signo new =>
    match s.sigaction signo new with
    | .ok (_, s') => s'
    | .error _ => s
  | .sigprocmask how set =>
    match s.sigprocmask how set with
    | .ok (_, s') => s'
    | .error _ => s
  | .setBlockedRaw set => s.setBlockedRaw set
  | .applyHandlerEntry signo action => (s.applyHandlerEntry signo action).2
  | .execReset => s.execReset
  | .setStopped stopped => s.setStopped stopped

end SignalState

end Muffin.Syscall
