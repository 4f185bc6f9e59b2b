-- SUMMARY: The masks and actions of every reachable signal state: Kill and Stop stay unblockable and uncatchable, pending holds only defined signals and never Continue with a stop signal.
import Muffin.Syscall.Signal

/-!
# Invariant of the signal state

`SignalState.Wf` collects what every state reached from `SignalState::default()`
satisfies, whatever masks and actions user space passes: the blocked mask has
neither the `Kill` nor the `Stop` bit, the pending mask only holds bits of the
27 signals and never `Continue` next to a stop signal, and the actions of `Kill`
and `Stop` are the default. Each mutator keeps it (`Wf.step`), so every run
does (`Wf.run`). A state that satisfies it cannot shield a pending `Kill`, and
`take_next_deliverable` hands out its deliverable signals lowest number first,
each once.
-/

namespace Muffin.Syscall

open Muffin.Abi

-- ---------------------------------------------------------------------------
-- The masks as sets of bit positions
-- ---------------------------------------------------------------------------

theorem KILL_STOP_MASK_bitSet : KILL_STOP_MASK.bitSet = {13, 9} := by
  simp [KILL_STOP_MASK, Signal.number]

theorem STOP_SIGNALS_MASK_bitSet : STOP_SIGNALS_MASK.bitSet = {17, 16, 15, 13} := by
  simp [STOP_SIGNALS_MASK, Signal.number]

/-- A signal's bit meets a mask exactly when its position is one of the mask's. -/
theorem and_bit_ne_zero_iff {m : SigSet} {s : Signal} :
    m &&& s.bit ≠ 0#64 ↔ s.number - 1 ∈ m.bitSet := by
  have := s.number_le_COUNT
  exact BitVec.and_twoPow_ne_zero_iff (by simp only [Signal.COUNT] at this; omega)

namespace SignalState

-- ---------------------------------------------------------------------------
-- What each mutator changes
-- ---------------------------------------------------------------------------

@[simp] theorem setPending_actions (s : SignalState) (signo : Signal) :
    (s.setPending signo).actions = s.actions := by
  unfold setPending
  split <;> (try split) <;> rfl

@[simp] theorem setPending_blocked (s : SignalState) (signo : Signal) :
    (s.setPending signo).blocked = s.blocked := by
  unfold setPending
  split <;> (try split) <;> rfl

/-- `deliver` is `set_pending` followed by an update of the stopped flag only. -/
theorem deliver_snd (s : SignalState) (signo : Signal) :
    ∃ stopped, (s.deliver signo).2 = { s.setPending signo with stopped := stopped } := by
  unfold deliver
  dsimp only
  split
  · exact ⟨false, rfl⟩
  · exact ⟨(s.setPending signo).stopped, rfl⟩

/-- `take_next_deliverable` at most clears one pending bit. -/
theorem takeNextDeliverable_snd (s : SignalState) :
    (∃ signo : Signal, s.takeNextDeliverable.2 = { s with pending := s.pending &&& ~~~signo.bit }) ∨
      s.takeNextDeliverable.2 = s := by
  unfold takeNextDeliverable
  dsimp only
  split
  · exact .inr rfl
  · split
    · exact .inl ⟨_, rfl⟩
    · exact .inr rfl

theorem action_set_ne {s : SignalState} {signo other : Signal} (a : SigAction)
    (h : other ≠ signo) :
    ({ s with actions := s.actions.set (index signo) a (index signo).isLt } : SignalState).action other =
      s.action other := by
  have hne : (index signo).val ≠ (index other).val := by
    intro heq
    apply h
    apply Signal.number_injective
    have := other.number_pos
    have := signo.number_pos
    simp only [index] at heq
    omega
  simp [action, Fin.getElem_fin, Vector.getElem_set_ne _ _ hne]

theorem action_set_self (s : SignalState) (signo : Signal) (a : SigAction) :
    ({ s with actions := s.actions.set (index signo) a (index signo).isLt } : SignalState).action signo = a := by
  simp [action, Fin.getElem_fin]

-- ---------------------------------------------------------------------------
-- The invariant
-- ---------------------------------------------------------------------------

/-- The invariant of reachable signal states, on bit positions: `Kill` is bit 9, `Stop`
    bit 13, `Continue` bit 4. -/
structure Wf (s : SignalState) : Prop where
  blocked_disjoint : Disjoint s.blocked.bitSet KILL_STOP_MASK.bitSet
  pending_lt : ∀ i ∈ s.pending.bitSet, i < Signal.COUNT
  cont_stop : Signal.continue.number - 1 ∈ s.pending.bitSet →
    Disjoint s.pending.bitSet STOP_SIGNALS_MASK.bitSet
  kill_action : s.action .kill = default
  stop_action : s.action .stop = default

theorem wf_default : Wf default where
  blocked_disjoint := by simp [default]
  pending_lt := by simp [default]
  cont_stop := by simp [default]
  kill_action := by simp [action, default, Fin.getElem_fin]
  stop_action := by simp [action, default, Fin.getElem_fin]


/-- The invariant survives clearing pending bits, replacing the blocked mask by one that
    leaves `Kill` and `Stop` unblocked, and any change of the other actions. It never reads
    the stopped flag. -/
theorem Wf.of_pending_subset {s t : SignalState} (h : Wf s)
    (hp : t.pending.bitSet ⊆ s.pending.bitSet)
    (hb : Disjoint t.blocked.bitSet KILL_STOP_MASK.bitSet)
    (hk : t.action .kill = default) (hs : t.action .stop = default) : Wf t where
  blocked_disjoint := hb
  pending_lt := fun i hi => h.pending_lt i (hp hi)
  cont_stop := fun hc => (h.cont_stop (hp hc)).mono_left hp
  kill_action := hk
  stop_action := hs

/-- A state with the masks and the actions of a well-formed state is well formed. -/
theorem Wf.of_eq {s t : SignalState} (h : Wf s) (hp : t.pending = s.pending)
    (hb : t.blocked = s.blocked) (ha : t.actions = s.actions) : Wf t :=
  h.of_pending_subset (hp ▸ subset_rfl) (hb ▸ h.blocked_disjoint)
    (by simpa [action, ha] using h.kill_action) (by simpa [action, ha] using h.stop_action)

-- ---------------------------------------------------------------------------
-- Each mutator keeps the invariant
-- ---------------------------------------------------------------------------

/-- The pending mask after `set_pending` only gained the delivered signal. -/
theorem setPending_pending_subset (s : SignalState) (signo : Signal) :
    (s.setPending signo).pending.bitSet ⊆ s.pending.bitSet ∪ {signo.number - 1} := by
  have hor : (s.pending ||| signo.bit).bitSet = s.pending.bitSet ∪ {signo.number - 1} := by
    simp
  unfold setPending
  dsimp only
  split
  · exact hor ▸ BitVec.bitSet_and_not_subset _ _
  · split
    · exact hor ▸ BitVec.bitSet_and_not_subset _ _
    · exact hor.le

/-- The stop/continue discard of `set_pending` keeps `Continue` apart from the stop family. -/
theorem setPending_cont_stop {s : SignalState} (h : Wf s) (signo : Signal) :
    Signal.continue.number - 1 ∈ (s.setPending signo).pending.bitSet →
      Disjoint (s.setPending signo).pending.bitSet STOP_SIGNALS_MASK.bitSet := by
  unfold setPending
  dsimp only
  split
  case isTrue =>
    -- a stop signal clears `Continue`, so the premise fails
    intro hc
    exact absurd hc (Set.disjoint_left.mp (BitVec.disjoint_and_not _ _) · (by simp))
  case isFalse hstop =>
    split
    case isTrue => exact fun _ => BitVec.disjoint_and_not _ _
    case isFalse hcont =>
      -- any other signal is outside both `Continue` and the stop family
      have hs : signo.number - 1 ∉ STOP_SIGNALS_MASK.bitSet := by
        simpa [and_bit_ne_zero_iff] using hstop
      have hc : signo.number - 1 ≠ Signal.continue.number - 1 := by
        intro heq
        apply hcont
        have := signo.number_pos
        simp [Signal.number_injective (by simp [Signal.number] at heq ⊢; omega :
          signo.number = Signal.continue.number)]
      intro hmem
      simp only [BitVec.bitSet_or, Signal.bitSet_bit, Set.mem_union,
        Set.mem_singleton_iff] at hmem ⊢
      rw [Set.disjoint_union_left, Set.disjoint_singleton_left]
      exact ⟨h.cont_stop (hmem.resolve_right (Ne.symm hc)), hs⟩

theorem Wf.setPending {s : SignalState} (h : Wf s) (signo : Signal) :
    Wf (s.setPending signo) where
  blocked_disjoint := by simpa using h.blocked_disjoint
  pending_lt := by
    intro i hi
    rcases setPending_pending_subset s signo hi with hi | hi
    · exact h.pending_lt i hi
    · have := signo.number_le_COUNT
      have := signo.number_pos
      simp only [Set.mem_singleton_iff] at hi
      omega
  cont_stop := setPending_cont_stop h signo
  kill_action := by simpa [action] using h.kill_action
  stop_action := by simpa [action] using h.stop_action

theorem Wf.deliver {s : SignalState} (h : Wf s) (signo : Signal) : Wf (s.deliver signo).2 := by
  obtain ⟨stopped, hs⟩ := deliver_snd s signo
  rw [hs]
  exact (h.setPending signo).of_eq rfl rfl rfl

theorem Wf.takeNextDeliverable {s : SignalState} (h : Wf s) : Wf s.takeNextDeliverable.2 := by
  rcases takeNextDeliverable_snd s with ⟨signo, hs⟩ | hs
  · rw [hs]
    exact h.of_pending_subset (BitVec.bitSet_and_not_subset _ _) h.blocked_disjoint
      h.kill_action h.stop_action
  · rw [hs]
    exact h

theorem Wf.sigaction {s s' : SignalState} (h : Wf s) {signo : Signal} {new : Option SigAction}
    {old : SigAction} (hs : s.sigaction signo new = .ok (old, s')) : Wf s' := by
  unfold SignalState.sigaction at hs
  dsimp only at hs
  split at hs
  · cases hs
    exact h
  · split at hs
    · cases hs
    · -- only an action other than `Kill` and `Stop` is replaced
      rename_i hks
      simp only [Bool.or_eq_true, beq_iff_eq, not_or] at hks
      split at hs
      · cases hs
      · split at hs
        · cases hs
        · cases hs
          refine h.of_pending_subset subset_rfl h.blocked_disjoint ?_ ?_
          · rw [action_set_ne _ (Ne.symm hks.1)]
            exact h.kill_action
          · rw [action_set_ne _ (Ne.symm hks.2)]
            exact h.stop_action

theorem Wf.sigprocmask {s s' : SignalState} (h : Wf s) {how : SigMaskHow}
    {set : Option SigSet} {old : SigSet} (hs : s.sigprocmask how set = .ok (old, s')) : Wf s' := by
  unfold SignalState.sigprocmask at hs
  split at hs
  · cases hs
    exact h
  · cases hs
    exact h.of_pending_subset subset_rfl (BitVec.disjoint_and_not _ _) h.kill_action
      h.stop_action

theorem Wf.setBlockedRaw {s : SignalState} (h : Wf s) (set : SigSet) :
    Wf (s.setBlockedRaw set) :=
  h.of_pending_subset subset_rfl (BitVec.disjoint_and_not _ _) h.kill_action h.stop_action

/-- Entering a handler either leaves an action alone or, under `RESETHAND`, resets it. -/
theorem applyHandlerEntry_action (s : SignalState) (signo : Signal) (act : SigAction)
    (sig : Signal) :
    (s.applyHandlerEntry signo act).2.action sig = default ∨
      (s.applyHandlerEntry signo act).2.action sig = s.action sig := by
  unfold SignalState.applyHandlerEntry
  dsimp only
  split
  · by_cases hsig : sig = signo
    · subst hsig
      exact .inl (action_set_self _ _ _)
    · exact .inr (action_set_ne _ hsig)
  · exact .inr rfl

/-- `RESETHAND` writes the default action, which is what `Kill` and `Stop` already hold. -/
theorem Wf.applyHandlerEntry {s : SignalState} (h : Wf s) (signo : Signal) (act : SigAction) :
    Wf (s.applyHandlerEntry signo act).2 := by
  have hdef : ∀ sig, s.action sig = default →
      (s.applyHandlerEntry signo act).2.action sig = default := by
    intro sig hsig
    rcases applyHandlerEntry_action s signo act sig with hd | hd
    · exact hd
    · exact hd.trans hsig
  exact h.of_pending_subset subset_rfl (BitVec.disjoint_and_not _ _) (hdef _ h.kill_action)
    (hdef _ h.stop_action)

/-- `exec_reset` maps the default action of `Kill` and `Stop` to itself. -/
theorem Wf.execReset {s : SignalState} (h : Wf s) : Wf s.execReset := by
  have hmap : ∀ sig, s.action sig = default → s.execReset.action sig = default := by
    intro sig hsig
    simp only [SignalState.execReset, action, Fin.getElem_fin, Vector.getElem_map] at hsig ⊢
    simp [hsig, SigHandler.isIgnore, SigHandler.DEFAULT, SigHandler.IGNORE]
  exact h.of_pending_subset subset_rfl h.blocked_disjoint (hmap _ h.kill_action)
    (hmap _ h.stop_action)

theorem Wf.setStopped {s : SignalState} (h : Wf s) (stopped : Bool) :
    Wf (s.setStopped stopped) :=
  h.of_eq rfl rfl rfl

/-- One mutator call keeps the invariant. -/
theorem Wf.step {s : SignalState} (h : Wf s) : ∀ op, Wf (s.step op)
  | .deliver signo => h.deliver signo
  | .setPending signo => h.setPending signo
  | .takeNextDeliverable => h.takeNextDeliverable
  | .sigaction signo new => by
    rcases hs : s.sigaction signo new with e | ⟨old, s'⟩
    · simpa [SignalState.step, hs] using h
    · simpa [SignalState.step, hs] using h.sigaction hs
  | .sigprocmask how set => by
    rcases hs : s.sigprocmask how set with e | ⟨old, s'⟩
    · simpa [SignalState.step, hs] using h
    · simpa [SignalState.step, hs] using h.sigprocmask hs
  | .setBlockedRaw set => h.setBlockedRaw set
  | .applyHandlerEntry signo act => h.applyHandlerEntry signo act
  | .execReset => h.execReset
  | .setStopped stopped => h.setStopped stopped

/-- Every run of mutators keeps the invariant, by induction on the list of calls. -/
theorem Wf.run {s : SignalState} (h : Wf s) (ops : List Op) :
    Wf (ops.foldl SignalState.step s) := by
  induction ops generalizing s with
  | nil => exact h
  | cons op ops ih => exact ih (h.step op)

-- ---------------------------------------------------------------------------
-- A pending `Kill` is always deliverable
-- ---------------------------------------------------------------------------

/-- `signals_in` lists exactly the signals whose bit is set. -/
theorem mem_signalsIn {mask : SigSet} {sig : Signal} :
    sig ∈ signalsIn mask ↔ sig.number - 1 ∈ mask.bitSet := by
  have hpos := sig.number_pos
  have hle := sig.number_le_COUNT
  simp only [Signal.COUNT] at hle
  unfold signalsIn
  simp only [List.mem_filterMap, List.mem_range]
  constructor
  · rintro ⟨i, hi, hsome⟩
    split at hsome
    case isTrue hbit =>
      have htry : Signal.tryFrom ((i + 1 : Nat) : Int) = .ok sig := by
        cases ht : Signal.tryFrom ((i + 1 : Nat) : Int) <;>
          simp_all [Except.toOption]
      have hn := Signal.number_of_tryFrom htry
      have hi' : sig.number - 1 = i := by omega
      rw [hi']
      simp only [Signal.COUNT] at hi
      exact (BitVec.and_twoPow_ne_zero_iff (by omega)).mp (by simpa [BitVec.twoPow] using hbit)
    case isFalse => cases hsome
  · intro hmem
    refine ⟨sig.number - 1, by simp only [Signal.COUNT]; omega, ?_⟩
    have hbit : mask &&& 1#64 <<< (sig.number - 1) ≠ 0#64 :=
      (BitVec.and_twoPow_ne_zero_iff (by omega)).mpr hmem
    have hnum : ((sig.number - 1 + 1 : Nat) : Int) = sig.number := by omega
    simp [hbit, hnum, Except.toOption]

theorem disposition_kill (s : SignalState) : s.disposition .kill = .defaultTerminate := rfl

/-- Under the invariant a pending `Kill` is deliverable: it cannot be blocked. -/
theorem Wf.kill_mem_deliverable {s : SignalState} (h : Wf s)
    (hk : s.pending &&& Signal.kill.bit ≠ 0#64) :
    Signal.kill.number - 1 ∈ (s.pending &&& ~~~s.blocked).bitSet := by
  have hnb : Signal.kill.number - 1 ∉ s.blocked.bitSet := fun hb =>
    Set.disjoint_left.mp h.blocked_disjoint hb (by simp [KILL_STOP_MASK_bitSet, Signal.number])
  simp only [BitVec.bitSet_and, BitVec.bitSet_not, Set.mem_inter_iff, Set.mem_sdiff, Set.mem_Iio]
  exact ⟨and_bit_ne_zero_iff.mp hk, by simp [Signal.number], hnb⟩

theorem Wf.hasFatalDeliverable_of_kill {s : SignalState} (h : Wf s)
    (hk : s.pending &&& Signal.kill.bit ≠ 0#64) : s.hasFatalDeliverable = true := by
  unfold hasFatalDeliverable
  rw [List.any_eq_true]
  exact ⟨.kill, mem_signalsIn.mpr (h.kill_mem_deliverable hk), by rw [disposition_kill]⟩

theorem Wf.hasInterruptingDeliverable_of_kill {s : SignalState} (h : Wf s)
    (hk : s.pending &&& Signal.kill.bit ≠ 0#64) : s.hasInterruptingDeliverable = true := by
  unfold hasInterruptingDeliverable
  rw [List.any_eq_true]
  exact ⟨.kill, mem_signalsIn.mpr (h.kill_mem_deliverable hk), by rw [disposition_kill]⟩

/-- With nothing deliverable, `take_next_deliverable` returns `None` and changes nothing. -/
theorem takeNextDeliverable_of_eq_zero {s : SignalState} (hd : s.pending &&& ~~~s.blocked = 0#64) :
    s.takeNextDeliverable = (none, s) := by
  unfold takeNextDeliverable
  simp [hd]

/-- Under the invariant, with some deliverable bit, `take_next_deliverable` returns the signal of
    the lowest deliverable bit and clears that bit of the pending mask. -/
theorem Wf.takeNextDeliverable_eq {s : SignalState} (h : Wf s) (hd : s.pending &&& ~~~s.blocked ≠ 0#64) :
    ∃ signo : Signal, signo.number - 1 = (s.pending &&& ~~~s.blocked).ctz.toNat ∧
      s.takeNextDeliverable = (some signo, { s with pending := s.pending &&& ~~~signo.bit }) := by
  have hctz := BitVec.ctz_mem_bitSet hd
  -- the lowest deliverable bit is a pending one, so it names a signal
  have hlt : (s.pending &&& ~~~s.blocked).ctz.toNat < Signal.COUNT :=
    h.pending_lt _ (BitVec.bitSet_and_not_subset _ _ hctz)
  obtain ⟨signo, hsig⟩ := Signal.tryFrom_ok_iff.mpr
    (⟨by omega, by omega⟩ : 1 ≤ ((s.pending &&& ~~~s.blocked).ctz.toNat : Int) + 1 ∧
      ((s.pending &&& ~~~s.blocked).ctz.toNat : Int) + 1 ≤ Signal.COUNT)
  have hnum := Signal.number_of_tryFrom hsig
  refine ⟨signo, by omega, ?_⟩
  unfold SignalState.takeNextDeliverable
  simp [hd, hsig]

/-- With some deliverable bit, `take_next_deliverable` returns a signal: the lowest
    deliverable bit is a pending one, so it is below `COUNT` and names a signal. -/
theorem Wf.takeNextDeliverable_isSome {s : SignalState} (h : Wf s)
    (hd : s.pending &&& ~~~s.blocked ≠ 0#64) : s.takeNextDeliverable.1.isSome = true := by
  obtain ⟨signo, -, htake⟩ := h.takeNextDeliverable_eq hd
  rw [htake]
  rfl

/-- Every state reached from `SignalState::default()` by any sequence of mutator calls keeps
    `Kill` and `Stop` unblocked, holds only the 27 signal bits pending, never holds `Continue`
    pending with a stop signal, and keeps the default action for `Kill` and `Stop`; so a
    pending `Kill` is fatal, interrupting and taken by `take_next_deliverable`, whatever mask
    user space installed. -/
theorem run_signalState_kill_unshieldable (ops : List Op) :
    let s := ops.foldl SignalState.step default
    s.blocked &&& KILL_STOP_MASK = 0#64 ∧
    s.pending.bitSet ⊆ Set.Iio Signal.COUNT ∧
    ¬ (s.pending &&& Signal.continue.bit ≠ 0#64 ∧ s.pending &&& STOP_SIGNALS_MASK ≠ 0#64) ∧
    s.action .kill = default ∧ s.action .stop = default ∧
    (s.pending &&& Signal.kill.bit ≠ 0#64 →
      s.hasFatalDeliverable = true ∧ s.hasInterruptingDeliverable = true ∧
      s.takeNextDeliverable.1.isSome = true) := by
  intro s
  have h : Wf s := wf_default.run ops
  refine ⟨BitVec.and_eq_zero_iff_disjoint.mpr h.blocked_disjoint, h.pending_lt, ?_,
    h.kill_action, h.stop_action, fun hk => ⟨h.hasFatalDeliverable_of_kill hk,
      h.hasInterruptingDeliverable_of_kill hk, h.takeNextDeliverable_isSome ?_⟩⟩
  · rintro ⟨hc, hstop⟩
    exact hstop (BitVec.and_eq_zero_iff_disjoint.mpr (h.cont_stop (and_bit_ne_zero_iff.mp hc)))
  · intro hz
    have := h.kill_mem_deliverable hk
    rw [hz] at this
    simp at this

-- ---------------------------------------------------------------------------
-- Taking the deliverable signals in order
-- ---------------------------------------------------------------------------

/-- Clearing a pending bit clears it from the deliverable mask. -/
theorem deliverable_clear (s : SignalState) (signo : Signal) :
    (s.pending &&& ~~~signo.bit) &&& ~~~s.blocked = (s.pending &&& ~~~s.blocked) &&& ~~~signo.bit := by
  ac_rfl

/-- `signals_in` lists its signals by increasing number. -/
theorem signalsIn_pairwise (mask : SigSet) :
    (signalsIn mask).Pairwise (fun a b => a.number < b.number) := by
  unfold signalsIn
  refine List.Pairwise.filterMap _ ?_ List.pairwise_lt_range
  intro i j hij a ha b hb
  -- the signal found at index `i` is the one numbered `i + 1`
  have hnum : ∀ {k : Nat} {sig : Signal},
      sig ∈ (if mask &&& 1#64 <<< k != 0 then (Signal.tryFrom (k + 1 : Nat)).toOption else none) →
      sig.number = k + 1 := by
    intro k sig hk
    split at hk
    · cases ht : Signal.tryFrom ((k + 1 : Nat) : Int) with
      | error e =>
        rw [ht] at hk
        cases hk
      | ok t =>
        rw [ht] at hk
        cases hk
        have := Signal.number_of_tryFrom ht
        omega
    · cases hk
  rw [hnum ha, hnum hb]
  omega

/-- Two lists of signals, each by increasing number, with the same signals are equal. -/
theorem eq_of_pairwise_number {l₁ l₂ : List Signal} (h₁ : l₁.Pairwise (fun a b => a.number < b.number))
    (h₂ : l₂.Pairwise (fun a b => a.number < b.number)) (h : ∀ sig, sig ∈ l₁ ↔ sig ∈ l₂) : l₁ = l₂ := by
  have hnum : l₁.map Signal.number = l₂.map Signal.number := by
    refine List.Pairwise.eq_of_mem_iff (r := (· < ·)) (List.pairwise_map.mpr h₁) (List.pairwise_map.mpr h₂) ?_
    intro n
    simp only [List.mem_map]
    exact ⟨fun ⟨sig, hs, hn⟩ => ⟨sig, (h sig).mp hs, hn⟩, fun ⟨sig, hs, hn⟩ => ⟨sig, (h sig).mpr hs, hn⟩⟩
  exact List.map_injective_iff.mpr Signal.number_injective hnum

/-- The signals of a mask are its lowest one, then those of the mask without it. -/
theorem signalsIn_eq_cons {mask : SigSet} {signo : Signal} (hmem : signo.number - 1 ∈ mask.bitSet)
    (hmin : ∀ i ∈ mask.bitSet, signo.number - 1 ≤ i) :
    signalsIn mask = signo :: signalsIn (mask &&& ~~~signo.bit) := by
  have hpos := signo.number_pos
  refine eq_of_pairwise_number (signalsIn_pairwise _) ?_ ?_
  · refine List.pairwise_cons.mpr ⟨fun t ht => ?_, signalsIn_pairwise _⟩
    rw [mem_signalsIn] at ht
    simp only [BitVec.bitSet_and, BitVec.bitSet_not, Signal.bitSet_bit, Set.mem_inter_iff,
      Set.mem_sdiff, Set.mem_singleton_iff] at ht
    have := hmin _ ht.1
    omega
  · intro t
    simp only [List.mem_cons, mem_signalsIn, BitVec.bitSet_and, BitVec.bitSet_not, Signal.bitSet_bit,
      Set.mem_inter_iff, Set.mem_sdiff, Set.mem_Iio, Set.mem_singleton_iff]
    constructor
    · intro ht
      by_cases heq : t = signo
      · exact .inl heq
      · refine .inr ⟨ht, BitVec.lt_of_mem_bitSet ht, fun hn => heq (Signal.number_injective ?_)⟩
        have := t.number_pos
        omega
    · rintro (rfl | ⟨ht, -, -⟩)
      · exact hmem
      · exact ht

/-- A mask with no bit has no signals. -/
theorem signalsIn_zero : signalsIn 0#64 = [] :=
  List.eq_nil_iff_forall_not_mem.mpr fun sig hsig => by simpa using mem_signalsIn.mp hsig

/-- `n` calls of `take_next_deliverable` with nothing in between: what each returned. -/
def takeRepeatedly : Nat → SignalState → List (Option Signal)
  | 0, _ => []
  | n + 1, s => s.takeNextDeliverable.1 :: takeRepeatedly n s.takeNextDeliverable.2

/-- Repeated calls return the deliverable signals in the order `signals_in` lists them, then
    `None`, by induction on the number of calls: each call takes the lowest deliverable signal,
    which is the head of that list, and leaves the rest of it. -/
theorem Wf.takeRepeatedly_eq {s : SignalState} (h : Wf s) (n : Nat) :
    takeRepeatedly n s =
      ((signalsIn (s.pending &&& ~~~s.blocked)).map some ++ List.replicate n none).take n := by
  induction n generalizing s with
  | zero => rfl
  | succ n ih =>
    by_cases hd : s.pending &&& ~~~s.blocked = 0#64
    · rw [takeRepeatedly, takeNextDeliverable_of_eq_zero hd, ih h, hd, signalsIn_zero]
      simp [List.replicate_succ]
    · obtain ⟨signo, hnum, htake⟩ := h.takeNextDeliverable_eq hd
      have hnext := ih h.takeNextDeliverable
      rw [htake] at hnext
      have hcons := @signalsIn_eq_cons (s.pending &&& ~~~s.blocked) signo
        (hnum ▸ BitVec.ctz_mem_bitSet hd) (fun i hi => hnum ▸ BitVec.ctz_le_of_mem_bitSet hi)
      rw [takeRepeatedly, htake, hnext, deliverable_clear, hcons]
      -- the `n` calls after the first see at most `n` of the `None`s
      simp only [List.map_cons, List.cons_append, List.take_succ_cons, List.take_append,
        List.take_replicate]
      congr 3
      omega

/-- In every state reached from `SignalState::default()`, `take_next_deliverable` returns `None`
    exactly when nothing is deliverable, and otherwise the lowest-numbered deliverable signal,
    clearing its pending bit and nothing else. Called again and again with nothing in between,
    it returns the deliverable signals by increasing number, each once, and then `None`. -/
theorem run_takeNextDeliverable_lowest (ops : List Op) :
    let s := ops.foldl SignalState.step default
    (s.takeNextDeliverable.1 = none ↔ s.pending &&& ~~~s.blocked = 0#64) ∧
    (∀ signo, s.takeNextDeliverable.1 = some signo →
      signo.number - 1 ∈ (s.pending &&& ~~~s.blocked).bitSet ∧
      (∀ t : Signal, t.number - 1 ∈ (s.pending &&& ~~~s.blocked).bitSet → signo.number ≤ t.number) ∧
      s.takeNextDeliverable.2 = { s with pending := s.pending &&& ~~~signo.bit }) ∧
    (∀ n, takeRepeatedly n s =
      ((signalsIn (s.pending &&& ~~~s.blocked)).map some ++ List.replicate n none).take n) ∧
    (∀ t, t ∈ signalsIn (s.pending &&& ~~~s.blocked) ↔
      t.number - 1 ∈ (s.pending &&& ~~~s.blocked).bitSet) ∧
    (signalsIn (s.pending &&& ~~~s.blocked)).Pairwise (fun a b => a.number < b.number) := by
  intro s
  have h : Wf s := wf_default.run ops
  refine ⟨⟨fun hnone => ?_, fun hd => by rw [takeNextDeliverable_of_eq_zero hd]⟩, ?_,
    h.takeRepeatedly_eq, fun _ => mem_signalsIn, signalsIn_pairwise _⟩
  · by_contra hd
    obtain ⟨signo, -, htake⟩ := h.takeNextDeliverable_eq hd
    rw [htake] at hnone
    cases hnone
  · intro signo hsome
    by_cases hd : s.pending &&& ~~~s.blocked = 0#64
    · rw [takeNextDeliverable_of_eq_zero hd] at hsome
      cases hsome
    obtain ⟨signo', hnum, htake⟩ := h.takeNextDeliverable_eq hd
    rw [htake] at hsome ⊢
    cases hsome
    refine ⟨hnum ▸ BitVec.ctz_mem_bitSet hd, fun t ht => ?_, rfl⟩
    have hle := BitVec.ctz_le_of_mem_bitSet ht
    have := t.number_pos
    omega

end SignalState

end Muffin.Syscall
