-- SUMMARY: `sys_kill` and `distribute_signal` of the syscall crate over an arbitrary process table and permission check: which processes get the signal, with what, and what the call returns.
import Muffin.Abi.Signal

/-!
# `kill`

`sys_kill` reads the kernel through three access traits: the caller's
`Identity`, the process table (`all_processes`, in the order the kernel iterates
it) and `check_permission`. Its one effect is `SignalAccess::deliver`, so a run
is modelled in `StateM` over the list of deliveries made so far; the process
table and the permission check are arbitrary, as the trait objects are.

A broadcast or a process-group kill folds over the selected processes with
`distribute_signal`, whose accumulator starts at `ESRCH`, becomes `EPERM` on a
refusal while nothing was delivered, and stays `Ok(0)` once something was.
-/

namespace Muffin.Syscall

open Muffin.Abi

/-- `ProcessId`: a `u64`. -/
structure ProcessId where
  val : Nat
  deriving DecidableEq, Repr

/-- `ProcessId::is_root`. -/
def ProcessId.isRoot (pid : ProcessId) : Bool := pid.val == 0

/-- `Identity`: who is calling. -/
structure Identity where
  processId : ProcessId
  userId : Nat
  processGroupId : ProcessId
  deriving DecidableEq, Repr

/-- `Capability`. -/
inductive Capability where
  | signal
  | debug
  | priority
  deriving DecidableEq, Repr

/-- `SigInfoField`, with the variant `kill` fills in. -/
inductive SigInfoField where
  | none
  | kill (pid : ProcessId) (uid : Nat)
  deriving DecidableEq, Repr

/-- `SigInfo`. -/
structure SigInfo where
  signo : Signal
  code : Int
  errno : Int
  info : SigInfoField
  deriving DecidableEq, Repr

/-- A process as `ProcessAccess` shows it. -/
structure ProcessInfo where
  processId : ProcessId
  processGroupId : ProcessId
  deriving DecidableEq, Repr

/-- What `sys_kill` reads of the kernel: the caller, the process table in iteration order, and
    `check_permission`. -/
structure KillAccess where
  identity : Identity
  allProcesses : List ProcessInfo
  checkPermission : ProcessId → Capability → Except Errno Unit

/-- `SignalTarget`. -/
inductive SignalTarget where
  | broadcastAll
  | specificProcess (pid : ProcessId)
  | processGroup (pgid : ProcessId)
  deriving DecidableEq, Repr

/-- The deliveries made so far, in order. -/
abbrev Deliveries := List (ProcessId × SigInfo)

namespace KillAccess

/-- `ProcessesAccess::process_by_id`. -/
def processById (cx : KillAccess) (pid : ProcessId) : Option ProcessInfo :=
  cx.allProcesses.find? fun p => p.processId == pid

/-- `ProcessesAccess::processes_in_group`. -/
def processesInGroup (cx : KillAccess) (pgid : ProcessId) : List ProcessInfo :=
  cx.allProcesses.filter fun p => p.processGroupId == pgid

/-- `SignalAccess::deliver`. -/
def deliver (pid : ProcessId) (info : SigInfo) : StateM Deliveries Unit :=
  modify (· ++ [(pid, info)])

/-- One step of `distribute_signal`'s fold. -/
def distributeStep (cx : KillAccess) (signal : SigInfo) (state : Except Errno Nat) (proc : ProcessInfo) :
    StateM Deliveries (Except Errno Nat) :=
  match cx.checkPermission proc.processId .signal with
  | .ok _ => do
    deliver proc.processId signal
    pure (.ok 0)
  | .error _ => pure (if state.isOk then state else .error EPERM)

/-- `distribute_signal(cx, iter, signal)`. -/
def distributeSignal (cx : KillAccess) (procs : List ProcessInfo) (signal : SigInfo) :
    StateM Deliveries (Except Errno Nat) :=
  procs.foldlM (cx.distributeStep signal) (.error ESRCH)

/-- `sys_kill(cx, target, signal)`. -/
def sysKill (cx : KillAccess) (target : SignalTarget) (signal : Signal) :
    StateM Deliveries (Except Errno Nat) := do
  let ⟨currentPid, currentUid, currentPgid⟩ := cx.identity
  let info : SigInfo := ⟨signal, 0, 0, .kill currentPid currentUid⟩
  match target with
  | .specificProcess pid =>
    let some proc := cx.processById pid | return .error ESRCH
    match cx.checkPermission proc.processId .signal with
    | .error e => return .error e
    | .ok _ =>
      deliver pid info
      return .ok 0
  | .broadcastAll => cx.distributeSignal cx.allProcesses info
  | .processGroup processGroupId =>
    let effectivePgid := if processGroupId.isRoot then currentPgid else processGroupId
    cx.distributeSignal (cx.processesInGroup effectivePgid) info

/-! ## What `distribute_signal` does -/

/-- Whether `check_permission` lets the caller signal `proc`. -/
def permitted (cx : KillAccess) (proc : ProcessInfo) : Bool :=
  (cx.checkPermission proc.processId .signal).isOk

/-- What `distribute_signal`'s accumulator ends at from `state`: `Ok(0)` once something was
    delivered; otherwise the start, which a refusal turns into `EPERM` unless it is `Ok`. -/
def distributeOutcome (cx : KillAccess) (procs : List ProcessInfo) (state : Except Errno Nat) :
    Except Errno Nat :=
  if procs.any cx.permitted then .ok 0
  else if procs = [] then state
  else if state.isOk then state else .error EPERM

section Distribute

variable (cx : KillAccess) (signal : SigInfo)

/-- One step delivers to a permitted process and answers `Ok(0)`; a refused one leaves the
    deliveries and keeps an `Ok`, or answers `EPERM`. -/
theorem distributeStep_run (state : Except Errno Nat) (proc : ProcessInfo) (log : Deliveries) :
    (cx.distributeStep signal state proc).run log =
      if cx.permitted proc then (.ok 0, log ++ [(proc.processId, signal)])
      else (if state.isOk then state else .error EPERM, log) := by
  unfold distributeStep permitted
  cases cx.checkPermission proc.processId .signal <;> rfl

/-- Once `Ok(0)`, always `Ok(0)`. -/
theorem distributeOutcome_ok (procs : List ProcessInfo) : cx.distributeOutcome procs (.ok 0) = .ok 0 := by
  unfold distributeOutcome
  split_ifs with _ _ hok
  · rfl
  · rfl
  · rfl
  · exact absurd rfl hok

/-- A delivery makes the outcome `Ok(0)`. -/
theorem distributeOutcome_cons_permitted {proc : ProcessInfo} (hp : cx.permitted proc = true)
    (procs : List ProcessInfo) (state : Except Errno Nat) :
    cx.distributeOutcome (proc :: procs) state = .ok 0 := by
  simp [distributeOutcome, hp]

/-- A refusal passes on the accumulator it leaves. -/
theorem distributeOutcome_cons_refused {proc : ProcessInfo} (hp : cx.permitted proc = false)
    (procs : List ProcessInfo) (state : Except Errno Nat) :
    cx.distributeOutcome (proc :: procs) state =
      cx.distributeOutcome procs (if state.isOk then state else .error EPERM) := by
  unfold distributeOutcome
  cases state <;> by_cases hany : procs.any cx.permitted <;> by_cases hnil : procs = [] <;>
    simp [hp, hany, hnil, Except.isOk, Except.toBool]

/-- The fold from any accumulator, by induction on the processes with the accumulator and the
    deliveries free: it ends at `distributeOutcome`, having delivered to the permitted processes
    in order. -/
theorem foldlM_distributeStep_run (procs : List ProcessInfo) (state : Except Errno Nat) (log : Deliveries) :
    (procs.foldlM (cx.distributeStep signal) state).run log =
      (cx.distributeOutcome procs state, log ++ (procs.filter cx.permitted).map fun p => (p.processId, signal)) := by
  induction procs generalizing state log with
  | nil =>
    simp [distributeOutcome]
    rfl
  | cons proc procs ih =>
    rw [List.foldlM_cons, StateT.run_bind, distributeStep_run]
    by_cases hp : cx.permitted proc
    · simp only [hp, if_true]
      show ((procs.foldlM (cx.distributeStep signal) (.ok 0)).run _) = _
      rw [ih, distributeOutcome_ok, distributeOutcome_cons_permitted cx hp]
      simp [hp]
    · simp only [hp, Bool.false_eq_true, if_false]
      show ((procs.foldlM (cx.distributeStep signal) _).run _) = _
      rw [ih, distributeOutcome_cons_refused cx (Bool.eq_false_iff.mpr hp)]
      simp [hp]

/-- `distribute_signal` delivers to the permitted processes in order and answers `Ok(0)` when it
    delivered, `ESRCH` when there was nobody, and `EPERM` otherwise. -/
theorem distributeSignal_run (procs : List ProcessInfo) (log : Deliveries) :
    (cx.distributeSignal procs signal).run log =
      (if procs.any cx.permitted then .ok 0 else if procs = [] then .error ESRCH else .error EPERM,
        log ++ (procs.filter cx.permitted).map fun p => (p.processId, signal)) := by
  rw [distributeSignal, foldlM_distributeStep_run]
  rfl

end Distribute

/-- What a broadcast or process-group kill of the selected processes `sel` does: it delivers
    `info` to each selected process the caller may signal, in table order, and to nobody else; it
    answers `Ok(0)` when it delivered, `EPERM` when it selected processes but may signal none, and
    `ESRCH` when it selected none. -/
structure KillOutcome (cx : KillAccess) (sel : List ProcessInfo) (info : SigInfo)
    (r : Except Errno Nat × Deliveries) : Prop where
  deliveries : r.2 = (sel.filter cx.permitted).map fun p => (p.processId, info)
  ok_iff : r.1 = .ok 0 ↔ r.2 ≠ []
  eperm_iff : r.1 = .error EPERM ↔ sel ≠ [] ∧ r.2 = []
  esrch_iff : r.1 = .error ESRCH ↔ sel = []

theorem killOutcome_distributeSignal (cx : KillAccess) (sel : List ProcessInfo) (info : SigInfo) :
    KillOutcome cx sel info ((cx.distributeSignal sel info).run []) := by
  rw [distributeSignal_run, List.nil_append]
  have hdeliv : ((sel.filter cx.permitted).map fun p => (p.processId, info)) = [] ↔
      sel.any cx.permitted = false := by
    simp [List.filter_eq_nil_iff]
  -- the three answers are distinct
  have hokPerm : (Except.ok 0 : Except Errno Nat) ≠ .error EPERM := by decide
  have hokSrch : (Except.ok 0 : Except Errno Nat) ≠ .error ESRCH := by decide
  have hpermSrch : (Except.error EPERM : Except Errno Nat) ≠ .error ESRCH := by decide
  by_cases hany : sel.any cx.permitted
  · -- something was delivered
    have hd : ((sel.filter cx.permitted).map fun p => (p.processId, info)) ≠ [] := by
      rw [Ne, hdeliv, hany]
      decide
    have hsel : sel ≠ [] := by
      rintro rfl
      simp at hany
    rw [if_pos hany]
    exact ⟨rfl, iff_of_true rfl hd, iff_of_false hokPerm (fun h => hd h.2), iff_of_false hokSrch hsel⟩
  · have hd := hdeliv.mpr (Bool.eq_false_iff.mpr hany)
    rw [if_neg hany]
    by_cases hnil : sel = []
    · rw [if_pos hnil]
      exact ⟨rfl, iff_of_false (Ne.symm hokSrch) (not_not.mpr hd), iff_of_false hpermSrch.symm
        (fun h => h.1 hnil), iff_of_true rfl hnil⟩
    · rw [if_neg hnil]
      exact ⟨rfl, iff_of_false (Ne.symm hokPerm) (not_not.mpr hd), iff_of_true rfl ⟨hnil, hd⟩,
        iff_of_false hpermSrch hnil⟩

/-- The target `sys_kill` was called with is read only through which processes it selects. -/
theorem sysKill_broadcastAll (cx : KillAccess) (signal : Signal) :
    cx.sysKill .broadcastAll signal =
      cx.distributeSignal cx.allProcesses ⟨signal, 0, 0, .kill cx.identity.processId cx.identity.userId⟩ :=
  rfl

theorem sysKill_processGroup (cx : KillAccess) (signal : Signal) (g : ProcessId) :
    cx.sysKill (.processGroup g) signal =
      cx.distributeSignal (cx.allProcesses.filter fun p =>
          p.processGroupId == if g.val = 0 then cx.identity.processGroupId else g)
        ⟨signal, 0, 0, .kill cx.identity.processId cx.identity.userId⟩ := by
  simp [sysKill, processesInGroup, ProcessId.isRoot]


/-- A kill of one process answers `ESRCH` when no process has its pid, and otherwise what
    `check_permission` says about the pid. -/
theorem sysKill_specificProcess_fst (cx : KillAccess) (signal : Signal) (pid : ProcessId) :
    ((cx.sysKill (.specificProcess pid) signal).run []).1 =
      if cx.allProcesses.any (fun p => p.processId == pid) then
        (match cx.checkPermission pid .signal with
          | .ok _ => .ok 0
          | .error e => .error e)
      else .error ESRCH := by
  obtain ⟨⟨currentPid, currentUid, currentPgid⟩, procs, check⟩ := cx
  simp only [sysKill, processById]
  cases hfind : procs.find? (fun p => p.processId == pid) with
  | none =>
    rw [List.find?_eq_none] at hfind
    have hany : procs.any (fun p => p.processId == pid) = false := by
      simpa using hfind
    rw [hany]
    rfl
  | some proc =>
    have hpid : proc.processId = pid := by simpa using List.find?_some hfind
    have hany : procs.any (fun p => p.processId == pid) = true :=
      List.any_eq_true.mpr ⟨proc, List.mem_of_find?_eq_some hfind, by simp [hpid]⟩
    rw [hany, if_pos rfl]
    dsimp only
    rw [hpid]
    cases check pid .signal <;> rfl

/-- Reordering the processes changes no answer of `distribute_signal`. -/
theorem distributeSignal_perm_fst (cx : KillAccess) {sel sel' : List ProcessInfo} (h : sel.Perm sel')
    (info : SigInfo) :
    ((cx.distributeSignal sel info).run []).1 = ((cx.distributeSignal sel' info).run []).1 := by
  have hany : sel.any cx.permitted = sel'.any cx.permitted := by
    rw [Bool.eq_iff_iff, List.any_eq_true, List.any_eq_true]
    exact ⟨fun ⟨x, hx, hp⟩ => ⟨x, h.mem_iff.mp hx, hp⟩, fun ⟨x, hx, hp⟩ => ⟨x, h.mem_iff.mpr hx, hp⟩⟩
  have hnil : sel = [] ↔ sel' = [] := by
    rw [← List.length_eq_zero_iff, ← List.length_eq_zero_iff, h.length_eq]
  rw [distributeSignal_run, distributeSignal_run]
  dsimp only
  rw [hany]
  by_cases h₀ : sel = []
  · rw [if_pos h₀, if_pos (hnil.mp h₀)]
  · rw [if_neg h₀, if_neg (mt hnil.mpr h₀)]

/-- `sys_kill`'s answer does not depend on the order of the process table. -/
theorem sysKill_perm_fst (cx : KillAccess) {procs : List ProcessInfo} (h : procs.Perm cx.allProcesses)
    (target : SignalTarget) (signal : Signal) :
    ((({ cx with allProcesses := procs } : KillAccess).sysKill target signal).run []).1 =
      ((cx.sysKill target signal).run []).1 := by
  cases target with
  | broadcastAll =>
    rw [sysKill_broadcastAll, sysKill_broadcastAll]
    exact distributeSignal_perm_fst cx h _
  | processGroup g =>
    rw [sysKill_processGroup, sysKill_processGroup]
    exact distributeSignal_perm_fst cx (h.filter _) _
  | specificProcess pid =>
    rw [sysKill_specificProcess_fst, sysKill_specificProcess_fst]
    have hany : procs.any (fun p => p.processId == pid) = cx.allProcesses.any (fun p => p.processId == pid) := by
      rw [Bool.eq_iff_iff, List.any_eq_true, List.any_eq_true]
      exact ⟨fun ⟨x, hx, hp⟩ => ⟨x, h.mem_iff.mp hx, hp⟩, fun ⟨x, hx, hp⟩ => ⟨x, h.mem_iff.mpr hx, hp⟩⟩
    exact congrArg (fun b => if b = true then _ else _) hany

/-- `sys_kill` with a broadcast or a process-group target, for any caller, process table and
    permission check: it delivers the caller's `SigInfo` to every selected process it may signal,
    once each and to nobody else; it answers as `KillOutcome` says; and reordering the process
    table changes no answer. -/
theorem sysKill_broadcast_group (cx : KillAccess) (signal : Signal) :
    let info : SigInfo := ⟨signal, 0, 0, .kill cx.identity.processId cx.identity.userId⟩
    KillOutcome cx cx.allProcesses info ((cx.sysKill .broadcastAll signal).run []) ∧
    (∀ g : ProcessId, KillOutcome cx (cx.allProcesses.filter fun p =>
        p.processGroupId == if g.val = 0 then cx.identity.processGroupId else g) info
      ((cx.sysKill (.processGroup g) signal).run [])) ∧
    ∀ procs : List ProcessInfo, procs.Perm cx.allProcesses → ∀ target : SignalTarget,
      ((({ cx with allProcesses := procs } : KillAccess).sysKill target signal).run []).1 =
        ((cx.sysKill target signal).run []).1 := by
  intro info
  refine ⟨?_, fun g => ?_, fun procs h target => sysKill_perm_fst cx h target signal⟩
  · rw [sysKill_broadcastAll]
    exact killOutcome_distributeSignal cx _ info
  · rw [sysKill_processGroup]
    exact killOutcome_distributeSignal cx _ info

end KillAccess

end Muffin.Syscall
