-- SUMMARY: The handoff protocol of the parking lot: rights are never duplicated or lost, the two sides of a claim agree on who got the value, a slot is recycled once, and a waker fires once.
import Muffin.Park.Lot

/-!
# The handoff protocol of the parking lot

Every claim `r` of a slot comes with one park right and one unpark right. The
objects of the system hold them: a reservation holds both, the tickets, the
losing halves of `park` and `unpark`, the cells and the shared pointer of a
waker hold one each. `Lot.Inv` says that the state byte of the claim's slot
tells exactly where the claim stands:

* `Reserved`: both rights are held once, nothing returned yet;
* `Occupied`: `park` returned `Ok(())` with the cell holding its value, only the
  unpark right is left;
* `Unparked`: `unpark` returned `None`, only the park right is left;
* `Empty`, or the slot claimed again since: no right is left, and either
  nothing was returned or the two results are one of the two handoffs.

Each step keeps the invariant, so every reachable lot satisfies it
(`Lot.Inv.reachable`), and the protocol properties follow from it.
-/

namespace Muffin.Park

variable {α : Type}

-- ---------------------------------------------------------------------------
-- Counting rights
-- ---------------------------------------------------------------------------

namespace Obj

/-- The park rights of claim `r` that an object holds. -/
def parkRights (r : Ref) : Obj α → Nat
  | .reservation r' | .parkTicket r' | .parkFailed r' => if r' = r then 1 else 0
  | .parkCell (some r') => if r' = r then 1 else 0
  | _ => 0

/-- The unpark rights of claim `r` that an object holds. -/
def unparkRights (r : Ref) : Obj α → Nat
  | .reservation r' | .unparkTicket r' _ | .unparkTaking r' _ => if r' = r then 1 else 0
  | .wakerPtr _ (some r') | .unparkCell (some r') => if r' = r then 1 else 0
  | _ => 0

/-- The claims an object refers to. -/
def refs : Obj α → List Ref
  | .reservation r | .parkTicket r | .unparkTicket r _ | .parkFailed r | .unparkTaking r _ => [r]
  | .wakerPtr _ (some r) | .parkCell (some r) | .unparkCell (some r) => [r]
  | _ => []

/-- The shared pointer of waker `w`, while it still points at a slot. -/
def armed (w : Nat) : Obj α → Nat
  | .wakerPtr w' (some _) => if w' = w then 1 else 0
  | _ => 0

/-- A call of waker `w` between its pointer swap and its return. -/
def firing (w : Nat) : Obj α → Nat
  | .unparkTicket _ (some w') | .unparkTaking _ (some w') => if w' = w then 1 else 0
  | _ => 0

/-- Every claim an object refers to is one it holds a right of. -/
theorem rights_pos_of_mem_refs {o : Obj α} {r : Ref} (h : r ∈ o.refs) :
    0 < o.parkRights r + o.unparkRights r := by
  cases o with
  | wakerPtr w p => cases p <;> simp_all [refs, parkRights, unparkRights]
  | parkCell p => cases p <;> simp_all [refs, parkRights, unparkRights]
  | unparkCell p => cases p <;> simp_all [refs, parkRights, unparkRights]
  | _ => simp_all [refs, parkRights, unparkRights]

end Obj

namespace Lot

/-- How many park rights of claim `r` are live. -/
def parkRights (σ : Lot α) (r : Ref) : Nat := (σ.objs.map (Obj.parkRights r)).sum

/-- How many unpark rights of claim `r` are live. -/
def unparkRights (σ : Lot α) (r : Ref) : Nat := (σ.objs.map (Obj.unparkRights r)).sum

/-- How many pointers of waker `w` still point at a slot. -/
def armed (σ : Lot α) (w : Nat) : Nat := (σ.objs.map (Obj.armed w)).sum

/-- How many calls of waker `w` are between their swap and their return. -/
def firing (σ : Lot α) (w : Nat) : Nat := (σ.objs.map (Obj.firing w)).sum

theorem le_parkRights {σ : Lot α} {o : Obj α} (h : o ∈ σ.objs) (r : Ref) :
    o.parkRights r ≤ σ.parkRights r :=
  Multiset.le_sum_of_mem (Multiset.mem_map_of_mem _ h)

theorem le_unparkRights {σ : Lot α} {o : Obj α} (h : o ∈ σ.objs) (r : Ref) :
    o.unparkRights r ≤ σ.unparkRights r :=
  Multiset.le_sum_of_mem (Multiset.mem_map_of_mem _ h)

-- ---------------------------------------------------------------------------
-- The invariant
-- ---------------------------------------------------------------------------

/-- The two ways both sides of claim `r` can return: `park` left its value and `unpark`
    took it, or `unpark` came first and `park` got its own value back. -/
def Handoff (σ : Lot α) (r : Ref) : Prop :=
  (∃ v, σ.parked r = some v ∧ σ.parkResult r = some .ok ∧ σ.unparkResult r = some (some v)) ∨
  (∃ v, σ.parked r = some v ∧ σ.parkResult r = some (.unparked v) ∧ σ.unparkResult r = some none)

/-- Both sides of claim `r` returned with a handoff, or neither returned. -/
def Settled (σ : Lot α) (r : Ref) : Prop :=
  (σ.parkResult r = none ∧ σ.unparkResult r = none) ∨ σ.Handoff r

/-- Where claim `r` stands: the state of its slot while the slot still belongs to it,
    `Empty` once the slot was claimed again. -/
def phase (σ : Lot α) (r : Ref) : State :=
  if (σ.slots r.slot).claim = r.claim then (σ.slots r.slot).state else .empty

/-- The rights and results of claim `r` in each phase. -/
def RefInv (σ : Lot α) (r : Ref) : Prop :=
  match σ.phase r with
  | .empty => σ.parkRights r = 0 ∧ σ.unparkRights r = 0 ∧ σ.Settled r
  | .reserved => σ.parkRights r = 1 ∧ σ.unparkRights r = 1 ∧
      σ.parkResult r = none ∧ σ.unparkResult r = none
  | .occupied => σ.parkRights r = 0 ∧ σ.unparkRights r = 1 ∧
      σ.parkResult r = some .ok ∧ σ.unparkResult r = none ∧
      σ.parked r = some (σ.slots r.slot).value
  | .unparked => σ.parkRights r = 1 ∧ σ.unparkRights r = 0 ∧
      σ.parkResult r = none ∧ σ.unparkResult r = some none

/-- The invariant of every reachable lot. -/
structure Inv (σ : Lot α) : Prop where
  ref : ∀ r, σ.RefInv r
  claim_lt : ∀ i, (σ.slots i).claim < σ.claims
  fresh : ∀ r : Ref, σ.claims ≤ r.claim → σ.parkResult r = none ∧ σ.unparkResult r = none
  failed : ∀ r, .parkFailed r ∈ σ.objs →
    σ.phase r = .unparked ∧ σ.parked r = some (σ.slots r.slot).value
  taking : ∀ r w, .unparkTaking r w ∈ σ.objs → σ.phase r = .occupied
  ptr_lt : ∀ w p, .wakerPtr w p ∈ σ.objs → w < σ.wakers
  hits : ∀ w, σ.wakeHits w + σ.armed w ≤ 1
  fired : ∀ w, σ.wakeSome w + σ.firing w ≤ σ.wakeHits w
  fresh_waker : ∀ w, σ.wakers ≤ w → σ.wakeHits w = 0

theorem inv_init [Inhabited α] : Inv (init : Lot α) where
  ref := by
    intro r
    by_cases h : r.claim = 0 <;>
      simp [RefInv, phase, init, parkRights, unparkRights, Settled, h, eq_comm]
  claim_lt := by simp [init]
  fresh := by simp [init]
  failed := by simp [init]
  taking := by simp [init]
  ptr_lt := by simp [init]
  hits := by simp [init, armed]
  fired := by simp [init, firing]
  fresh_waker := by simp [init]

-- ---------------------------------------------------------------------------
-- Reading the invariant of one claim
-- ---------------------------------------------------------------------------

@[simp] theorem setSlot_slots (σ : Lot α) (i : Nat) (s : Slot α) :
    (σ.setSlot i s).slots = Function.update σ.slots i s := rfl
@[simp] theorem setSlot_objs (σ : Lot α) (i : Nat) (s : Slot α) :
    (σ.setSlot i s).objs = σ.objs := rfl
@[simp] theorem setSlot_claims (σ : Lot α) (i : Nat) (s : Slot α) :
    (σ.setSlot i s).claims = σ.claims := rfl
@[simp] theorem setSlot_parked (σ : Lot α) (i : Nat) (s : Slot α) :
    (σ.setSlot i s).parked = σ.parked := rfl
@[simp] theorem setSlot_parkResult (σ : Lot α) (i : Nat) (s : Slot α) :
    (σ.setSlot i s).parkResult = σ.parkResult := rfl
@[simp] theorem setSlot_unparkResult (σ : Lot α) (i : Nat) (s : Slot α) :
    (σ.setSlot i s).unparkResult = σ.unparkResult := rfl
@[simp] theorem setSlot_wakers (σ : Lot α) (i : Nat) (s : Slot α) :
    (σ.setSlot i s).wakers = σ.wakers := rfl
@[simp] theorem setSlot_wakeHits (σ : Lot α) (i : Nat) (s : Slot α) :
    (σ.setSlot i s).wakeHits = σ.wakeHits := rfl
@[simp] theorem setSlot_wakeSome (σ : Lot α) (i : Nat) (s : Slot α) :
    (σ.setSlot i s).wakeSome = σ.wakeSome := rfl

/-- A claim that has not ended owns its slot. -/
theorem claim_eq_of_phase_ne_empty {σ : Lot α} {r : Ref} (h : σ.phase r ≠ .empty) :
    (σ.slots r.slot).claim = r.claim := by
  unfold phase at h
  split at h
  · assumption
  · exact absurd rfl h

/-- Two claims of one slot are never both under way. -/
theorem eq_of_phase_ne_empty {σ : Lot α} {r r' : Ref} (h : σ.phase r ≠ .empty)
    (h' : σ.phase r' ≠ .empty) (hs : r.slot = r'.slot) : r = r' := by
  have hc := claim_eq_of_phase_ne_empty h
  have hc' := claim_eq_of_phase_ne_empty h'
  rw [hs] at hc
  cases r
  cases r'
  simp_all

theorem phase_of_claim_eq {σ : Lot α} {r : Ref} (h : (σ.slots r.slot).claim = r.claim) :
    σ.phase r = (σ.slots r.slot).state := by
  simp [phase, h]

/-- Rewriting one slot with its claim kept moves no claim but those of that slot. -/
theorem phase_setSlot_of_ne {σ : Lot α} {i : Nat} {s : Slot α} {r : Ref}
    (hc : s.claim = (σ.slots i).claim) (hr : r.slot ≠ i ∨ (σ.slots i).claim ≠ r.claim) :
    (σ.setSlot i s).phase r = σ.phase r := by
  unfold phase
  by_cases hi : r.slot = i
  · subst hi
    simp only [setSlot_slots, Function.update_self, hc]
    rcases hr with hr | hr
    · exact absurd rfl hr
    · simp [hr]
  · simp [Function.update_of_ne hi]

theorem phase_setSlot_self {σ : Lot α} {r : Ref} {s : Slot α}
    (hc : s.claim = r.claim) : (σ.setSlot r.slot s).phase r = s.state := by
  simp [phase, hc]

/-- What the invariant of a claim says while its park right is live. -/
theorem RefInv.of_park {σ : Lot α} {r : Ref} (h : σ.RefInv r) (hp : 0 < σ.parkRights r) :
    (σ.phase r = .reserved ∧ σ.parkRights r = 1 ∧ σ.unparkRights r = 1 ∧
      σ.parkResult r = none ∧ σ.unparkResult r = none) ∨
    (σ.phase r = .unparked ∧ σ.parkRights r = 1 ∧ σ.unparkRights r = 0 ∧
      σ.parkResult r = none ∧ σ.unparkResult r = some none) := by
  unfold RefInv at h
  split at h <;> rename_i hph
  · omega
  · exact .inl ⟨hph, h⟩
  · omega
  · exact .inr ⟨hph, h⟩

/-- What the invariant of a claim says while its unpark right is live. -/
theorem RefInv.of_unpark {σ : Lot α} {r : Ref} (h : σ.RefInv r) (hu : 0 < σ.unparkRights r) :
    (σ.phase r = .reserved ∧ σ.parkRights r = 1 ∧ σ.unparkRights r = 1 ∧
      σ.parkResult r = none ∧ σ.unparkResult r = none) ∨
    (σ.phase r = .occupied ∧ σ.parkRights r = 0 ∧ σ.unparkRights r = 1 ∧
      σ.parkResult r = some .ok ∧ σ.unparkResult r = none ∧
      σ.parked r = some (σ.slots r.slot).value) := by
  unfold RefInv at h
  split at h <;> rename_i hph
  · omega
  · exact .inl ⟨hph, h⟩
  · exact .inr ⟨hph, h⟩
  · omega

/-- A claim with a live right has not ended. -/
theorem RefInv.phase_ne_empty {σ : Lot α} {r : Ref} (h : σ.RefInv r)
    (hr : 0 < σ.parkRights r + σ.unparkRights r) : σ.phase r ≠ .empty := by
  intro he
  unfold RefInv at h
  rw [he] at h
  omega

/-- The invariant of a claim depends only on its phase, on its slot's value while
    occupied, and on its own rights and results. -/
theorem RefInv.frame {σ σ' : Lot α} {r : Ref} (h : σ.RefInv r)
    (hphase : σ'.phase r = σ.phase r)
    (hval : σ.phase r = .occupied → (σ'.slots r.slot).value = (σ.slots r.slot).value)
    (hp : σ'.parkRights r = σ.parkRights r) (hu : σ'.unparkRights r = σ.unparkRights r)
    (hpr : σ'.parkResult r = σ.parkResult r) (hur : σ'.unparkResult r = σ.unparkResult r)
    (hparked : σ'.parked r = σ.parked r) : σ'.RefInv r := by
  unfold RefInv Settled Handoff at h ⊢
  rw [hphase, hp, hu, hpr, hur, hparked]
  cases hph : σ.phase r <;> rw [hph] at h
  · exact h
  · exact h
  · rw [hval hph]
    exact h
  · exact h

-- ---------------------------------------------------------------------------
-- Steps that only move rights between objects
-- ---------------------------------------------------------------------------

/-- When no slot and no result changes and every claim keeps its number of rights, every
    claim keeps its invariant. -/
theorem Inv.ref_of_moved {σ σ' : Lot α} (h : σ.Inv) (hs : σ'.slots = σ.slots)
    (hp : ∀ r, σ'.parkRights r = σ.parkRights r) (hu : ∀ r, σ'.unparkRights r = σ.unparkRights r)
    (hpr : σ'.parkResult = σ.parkResult) (hur : σ'.unparkResult = σ.unparkResult)
    (hparked : σ'.parked = σ.parked) (r : Ref) : σ'.RefInv r := by
  have hphase : σ'.phase r = σ.phase r := by simp [phase, hs]
  exact (h.ref r).frame hphase (by simp [hs]) (hp r) (hu r) (by rw [hpr]) (by rw [hur])
    (by rw [hparked])

/-- A step that moves rights between objects, creates no failed `park`, no waker and no
    armed pointer, and fires no waker keeps the invariant. -/
theorem Inv.of_moved {σ σ' : Lot α} (h : σ.Inv) (hs : σ'.slots = σ.slots)
    (hc : σ'.claims = σ.claims) (hw : σ'.wakers = σ.wakers)
    (hp : ∀ r, σ'.parkRights r = σ.parkRights r) (hu : ∀ r, σ'.unparkRights r = σ.unparkRights r)
    (hpr : σ'.parkResult = σ.parkResult) (hur : σ'.unparkResult = σ.unparkResult)
    (hparked : σ'.parked = σ.parked) (hhits : σ'.wakeHits = σ.wakeHits)
    (hsome : σ'.wakeSome = σ.wakeSome)
    (harmed : ∀ w, σ'.armed w = σ.armed w) (hfiring : ∀ w, σ'.firing w = σ.firing w)
    (hfailed : ∀ r, .parkFailed r ∈ σ'.objs → .parkFailed r ∈ σ.objs)
    (htaking : ∀ r w, .unparkTaking r w ∈ σ'.objs → σ.phase r = .occupied)
    (hptr : ∀ w p, .wakerPtr w p ∈ σ'.objs → .wakerPtr w p ∈ σ.objs) : σ'.Inv where
  ref := h.ref_of_moved hs hp hu hpr hur hparked
  claim_lt := by rw [hs, hc]; exact h.claim_lt
  fresh := by rw [hc, hpr, hur]; exact h.fresh
  failed := by
    intro r hr
    have hphase : σ'.phase r = σ.phase r := by simp [phase, hs]
    rw [hphase, hs, hparked]
    exact h.failed r (hfailed r hr)
  taking := by
    intro r w hr
    have hphase : σ'.phase r = σ.phase r := by simp [phase, hs]
    rw [hphase]
    exact htaking r w hr
  ptr_lt := fun w p hr => hw ▸ h.ptr_lt w p (hptr w p hr)
  hits := fun w => by rw [hhits, harmed]; exact h.hits w
  fired := fun w => by rw [hsome, hfiring, hhits]; exact h.fired w
  fresh_waker := fun w hle => by rw [hhits]; exact h.fresh_waker w (hw ▸ hle)

theorem Inv.split {σ : Lot α} (h : σ.Inv) {r : Ref} {rest : Multiset (Obj α)}
    (ho : σ.objs = .reservation r ::ₘ rest) :
    Inv { σ with objs := .parkTicket r ::ₘ .unparkTicket r none ::ₘ rest } := by
  refine h.of_moved rfl rfl rfl ?_ ?_ rfl rfl rfl rfl rfl ?_ ?_ ?_ ?_ ?_
  · intro r'
    simp [parkRights, ho, Obj.parkRights]
  · intro r'
    simp [unparkRights, ho, Obj.unparkRights]
  · intro w
    simp [armed, ho, Obj.armed]
  · intro w
    simp [firing, ho, Obj.firing]
  · intro r' hr
    simp only [Multiset.mem_cons, reduceCtorEq, false_or] at hr
    simp [ho, hr]
  · intro r' w hr
    simp only [Multiset.mem_cons, reduceCtorEq, false_or] at hr
    exact h.taking r' w (by simp [ho, hr])
  · intro w p hr
    simp only [Multiset.mem_cons, reduceCtorEq, false_or] at hr
    simp [ho, hr]

theorem Inv.unparkLose {σ : Lot α} (h : σ.Inv) {r : Ref} {w : Option Nat}
    {rest : Multiset (Obj α)} (ho : σ.objs = .unparkTicket r w ::ₘ rest)
    (hcas : (σ.slots r.slot).unparkCas.1 = false) :
    Inv { σ with objs := .unparkTaking r w ::ₘ rest } := by
  -- the ticket's right keeps the claim under way, and a slot not `Reserved` is `Occupied`
  have hmem : Obj.unparkTicket r w ∈ σ.objs := by simp [ho]
  have hu : 0 < σ.unparkRights r :=
    lt_of_lt_of_le (by simp [Obj.unparkRights]) (le_unparkRights hmem r)
  have hocc : σ.phase r = .occupied := by
    rcases (h.ref r).of_unpark hu with ⟨hph, -⟩ | ⟨hph, -⟩
    · rw [phase_of_claim_eq (claim_eq_of_phase_ne_empty (by simp [hph]))] at hph
      simp [Slot.unparkCas, hph] at hcas
    · exact hph
  refine h.of_moved rfl rfl rfl ?_ ?_ rfl rfl rfl rfl rfl ?_ ?_ ?_ ?_ ?_
  · intro r'
    simp [parkRights, ho, Obj.parkRights]
  · intro r'
    simp [unparkRights, ho, Obj.unparkRights]
  · intro w'
    simp [armed, ho, Obj.armed]
  · intro w'
    cases w <;> simp [firing, ho, Obj.firing]
  · intro r' hr
    simp only [Multiset.mem_cons, reduceCtorEq, false_or] at hr
    simp [ho, hr]
  · intro r' w' hr
    simp only [Multiset.mem_cons, Obj.unparkTaking.injEq] at hr
    rcases hr with ⟨rfl, -⟩ | hr
    · exact hocc
    · exact h.taking r' w' (by simp [ho, hr])
  · intro w' p hr
    simp only [Multiset.mem_cons, reduceCtorEq, false_or] at hr
    simp [ho, hr]

/-- Objects that hold no right and point at nothing: a new empty cell, a waker clone. -/
theorem Inv.cons_inert {σ : Lot α} (h : σ.Inv) {o : Obj α}
    (ho : o = .parkCell none ∨ o = .unparkCell none ∨ ∃ w, o = .waker w) :
    Inv { σ with objs := o ::ₘ σ.objs } := by
  refine h.of_moved rfl rfl rfl ?_ ?_ rfl rfl rfl rfl rfl ?_ ?_ ?_ ?_ ?_
  · intro r'
    rcases ho with rfl | rfl | ⟨w, rfl⟩ <;> simp [parkRights, Obj.parkRights]
  · intro r'
    rcases ho with rfl | rfl | ⟨w, rfl⟩ <;> simp [unparkRights, Obj.unparkRights]
  · intro w'
    rcases ho with rfl | rfl | ⟨w, rfl⟩ <;> simp [armed, Obj.armed]
  · intro w'
    rcases ho with rfl | rfl | ⟨w, rfl⟩ <;> simp [firing, Obj.firing]
  · intro r' hr
    rcases ho with rfl | rfl | ⟨w, rfl⟩ <;> simpa using hr
  · intro r' w' hr
    exact h.taking r' w' (by rcases ho with rfl | rfl | ⟨w, rfl⟩ <;> simpa using hr)
  · intro w' p hr
    rcases ho with rfl | rfl | ⟨w, rfl⟩ <;> simpa using hr

@[simp] theorem cellPut_fst_eq_true {held : Option Ref} {r : Ref} :
    (cellPut held r).1 = true ↔ held = none := by
  cases held <;> simp [cellPut]

theorem Inv.parkCellPut {σ : Lot α} (h : σ.Inv) {r : Ref} {held : Option Ref}
    {rest : Multiset (Obj α)} (ho : σ.objs = .parkTicket r ::ₘ .parkCell held ::ₘ rest)
    (hput : (cellPut held r).1 = true) :
    Inv { σ with objs := .parkCell (cellPut held r).2 ::ₘ rest } := by
  obtain rfl := cellPut_fst_eq_true.1 hput
  refine h.of_moved rfl rfl rfl ?_ ?_ rfl rfl rfl rfl rfl ?_ ?_ ?_ ?_ ?_
  · intro r'
    simp [parkRights, ho, Obj.parkRights, cellPut]
  · intro r'
    simp [unparkRights, ho, Obj.unparkRights, cellPut]
  · intro w'
    simp [armed, ho, Obj.armed]
  · intro w'
    simp [firing, ho, Obj.firing]
  · intro r' hr
    simp only [Multiset.mem_cons, reduceCtorEq, false_or] at hr
    simp [ho, hr]
  · intro r' w' hr
    simp only [Multiset.mem_cons, reduceCtorEq, false_or] at hr
    exact h.taking r' w' (by simp [ho, hr])
  · intro w' p hr
    simp only [Multiset.mem_cons, reduceCtorEq, false_or] at hr
    simp [ho, hr]

theorem Inv.parkCellPutReservation {σ : Lot α} (h : σ.Inv) {r : Ref} {held : Option Ref}
    {rest : Multiset (Obj α)} (ho : σ.objs = .reservation r ::ₘ .parkCell held ::ₘ rest)
    (hput : (cellPut held r).1 = true) :
    Inv { σ with objs := .unparkTicket r none ::ₘ .parkCell (cellPut held r).2 ::ₘ rest } := by
  obtain rfl := cellPut_fst_eq_true.1 hput
  refine h.of_moved rfl rfl rfl ?_ ?_ rfl rfl rfl rfl rfl ?_ ?_ ?_ ?_ ?_
  · intro r'
    simp [parkRights, ho, Obj.parkRights, cellPut]
  · intro r'
    simp [unparkRights, ho, Obj.unparkRights, cellPut]
  · intro w'
    simp [armed, ho, Obj.armed]
  · intro w'
    simp [firing, ho, Obj.firing]
  · intro r' hr
    simp only [Multiset.mem_cons, reduceCtorEq, false_or] at hr
    simp [ho, hr]
  · intro r' w' hr
    simp only [Multiset.mem_cons, reduceCtorEq, false_or] at hr
    exact h.taking r' w' (by simp [ho, hr])
  · intro w' p hr
    simp only [Multiset.mem_cons, reduceCtorEq, false_or] at hr
    simp [ho, hr]

theorem Inv.parkCellTake {σ : Lot α} (h : σ.Inv) {r : Ref} {rest : Multiset (Obj α)}
    (ho : σ.objs = .parkCell (some r) ::ₘ rest) :
    Inv { σ with objs := .parkTicket r ::ₘ .parkCell (cellTake (some r)).2 ::ₘ rest } := by
  refine h.of_moved rfl rfl rfl ?_ ?_ rfl rfl rfl rfl rfl ?_ ?_ ?_ ?_ ?_
  · intro r'
    simp [parkRights, ho, Obj.parkRights, cellTake]
  · intro r'
    simp [unparkRights, ho, Obj.unparkRights, cellTake]
  · intro w'
    simp [armed, ho, Obj.armed]
  · intro w'
    simp [firing, ho, Obj.firing]
  · intro r' hr
    simp only [Multiset.mem_cons, reduceCtorEq, false_or] at hr
    simp [ho, hr]
  · intro r' w' hr
    simp only [Multiset.mem_cons, reduceCtorEq, false_or] at hr
    exact h.taking r' w' (by simp [ho, hr])
  · intro w' p hr
    simp only [Multiset.mem_cons, reduceCtorEq, false_or] at hr
    simp [ho, hr]

theorem Inv.unparkCellPutReservation {σ : Lot α} (h : σ.Inv) {r : Ref} {held : Option Ref}
    {rest : Multiset (Obj α)} (ho : σ.objs = .reservation r ::ₘ .unparkCell held ::ₘ rest)
    (hput : (cellPut held r).1 = true) :
    Inv { σ with objs := .parkTicket r ::ₘ .unparkCell (cellPut held r).2 ::ₘ rest } := by
  obtain rfl := cellPut_fst_eq_true.1 hput
  refine h.of_moved rfl rfl rfl ?_ ?_ rfl rfl rfl rfl rfl ?_ ?_ ?_ ?_ ?_
  · intro r'
    simp [parkRights, ho, Obj.parkRights, cellPut]
  · intro r'
    simp [unparkRights, ho, Obj.unparkRights, cellPut]
  · intro w'
    simp [armed, ho, Obj.armed]
  · intro w'
    simp [firing, ho, Obj.firing]
  · intro r' hr
    simp only [Multiset.mem_cons, reduceCtorEq, false_or] at hr
    simp [ho, hr]
  · intro r' w' hr
    simp only [Multiset.mem_cons, reduceCtorEq, false_or] at hr
    exact h.taking r' w' (by simp [ho, hr])
  · intro w' p hr
    simp only [Multiset.mem_cons, reduceCtorEq, false_or] at hr
    simp [ho, hr]

theorem Inv.unparkCellTake {σ : Lot α} (h : σ.Inv) {r : Ref} {rest : Multiset (Obj α)}
    (ho : σ.objs = .unparkCell (some r) ::ₘ rest) :
    Inv { σ with
      objs := .unparkTicket r none ::ₘ .unparkCell (cellTake (some r)).2 ::ₘ rest } := by
  refine h.of_moved rfl rfl rfl ?_ ?_ rfl rfl rfl rfl rfl ?_ ?_ ?_ ?_ ?_
  · intro r'
    simp [parkRights, ho, Obj.parkRights, cellTake]
  · intro r'
    simp [unparkRights, ho, Obj.unparkRights, cellTake]
  · intro w'
    simp [armed, ho, Obj.armed]
  · intro w'
    simp [firing, ho, Obj.firing]
  · intro r' hr
    simp only [Multiset.mem_cons, reduceCtorEq, false_or] at hr
    simp [ho, hr]
  · intro r' w' hr
    simp only [Multiset.mem_cons, reduceCtorEq, false_or] at hr
    exact h.taking r' w' (by simp [ho, hr])
  · intro w' p hr
    simp only [Multiset.mem_cons, reduceCtorEq, false_or] at hr
    simp [ho, hr]

-- ---------------------------------------------------------------------------
-- Steps of the owner of one claim
-- ---------------------------------------------------------------------------

/-- A step of the holder of a right of claim `r`: it rewrites the slot of `r` and keeps its
    claim, and it touches the rights, the results and the value of no other claim. -/
structure OwnerStep (σ σ' : Lot α) (r : Ref) (s : Slot α) : Prop where
  live : σ.phase r ≠ .empty
  slots : σ'.slots = Function.update σ.slots r.slot s
  claim : s.claim = r.claim
  claims : σ'.claims = σ.claims
  parkRights : ∀ r', r' ≠ r → σ'.parkRights r' = σ.parkRights r'
  unparkRights : ∀ r', r' ≠ r → σ'.unparkRights r' = σ.unparkRights r'
  parkResult : ∀ r', r' ≠ r → σ'.parkResult r' = σ.parkResult r'
  unparkResult : ∀ r', r' ≠ r → σ'.unparkResult r' = σ.unparkResult r'
  parked : ∀ r', r' ≠ r → σ'.parked r' = σ.parked r'

namespace OwnerStep

variable {σ σ' : Lot α} {r r' : Ref} {s : Slot α}

theorem phase_self (hs : OwnerStep σ σ' r s) : σ'.phase r = s.state := by
  simp [phase, hs.slots, hs.claim]

/-- Another claim of the same slot has ended on both sides of the step. -/
theorem phase_of_ne (hs : OwnerStep σ σ' r s) (hne : r' ≠ r) : σ'.phase r' = σ.phase r' := by
  have hown := claim_eq_of_phase_ne_empty hs.live
  unfold phase
  rw [hs.slots]
  by_cases hsl : r'.slot = r.slot
  · have hcl : r.claim ≠ r'.claim := fun hc => hne (by cases r; cases r'; simp_all)
    simp [hsl, hs.claim, hown, hcl]
  · simp [Function.update_of_ne hsl]

/-- A claim under way other than `r` sits on another slot, which the step leaves alone. -/
theorem slot_of_ne (hs : OwnerStep σ σ' r s) (hne : r' ≠ r) (hlive : σ.phase r' ≠ .empty) :
    σ'.slots r'.slot = σ.slots r'.slot := by
  have hsl : r'.slot ≠ r.slot := fun hsl => hne (eq_of_phase_ne_empty hlive hs.live hsl)
  simp [hs.slots, Function.update_of_ne hsl]

theorem refInv_of_ne (hs : OwnerStep σ σ' r s) (h : σ.Inv) (hne : r' ≠ r) : σ'.RefInv r' :=
  (h.ref r').frame (hs.phase_of_ne hne)
    (fun hocc => by rw [hs.slot_of_ne hne (by simp [hocc])])
    (hs.parkRights r' hne) (hs.unparkRights r' hne) (hs.parkResult r' hne)
    (hs.unparkResult r' hne) (hs.parked r' hne)

theorem claim_lt (hs : OwnerStep σ σ' r s) (h : σ.Inv) (i : Nat) :
    (σ'.slots i).claim < σ'.claims := by
  rw [hs.slots, hs.claims]
  by_cases hi : i = r.slot
  · subst hi
    simp only [Function.update_self, hs.claim]
    exact claim_eq_of_phase_ne_empty hs.live ▸ h.claim_lt r.slot
  · rw [Function.update_of_ne hi]
    exact h.claim_lt i

/-- The claim of the step was handed out, so no fresh claim is `r`. -/
theorem fresh (hs : OwnerStep σ σ' r s) (h : σ.Inv) (r' : Ref) (hle : σ'.claims ≤ r'.claim) :
    σ'.parkResult r' = none ∧ σ'.unparkResult r' = none := by
  have hne : r' ≠ r := by
    rintro rfl
    have hlt := claim_eq_of_phase_ne_empty hs.live ▸ h.claim_lt r'.slot
    rw [hs.claims] at hle
    omega
  rw [hs.parkResult r' hne, hs.unparkResult r' hne]
  exact h.fresh r' (hs.claims ▸ hle)

theorem failed_of_ne (hs : OwnerStep σ σ' r s) (h : σ.Inv) (hne : r' ≠ r)
    (hmem : .parkFailed r' ∈ σ.objs) :
    σ'.phase r' = .unparked ∧ σ'.parked r' = some (σ'.slots r'.slot).value := by
  obtain ⟨hph, hval⟩ := h.failed r' hmem
  rw [hs.phase_of_ne hne, hs.parked r' hne, hs.slot_of_ne hne (by simp [hph])]
  exact ⟨hph, hval⟩

theorem taking_of_ne (hs : OwnerStep σ σ' r s) (h : σ.Inv) (hne : r' ≠ r) (w : Option Nat)
    (hmem : .unparkTaking r' w ∈ σ.objs) : σ'.phase r' = .occupied := by
  rw [hs.phase_of_ne hne]
  exact h.taking r' w hmem

end OwnerStep

/-- What a step of an owner must still show: the invariant of its own claim, the objects
    it leaves behind, and the wakers. -/
theorem Inv.of_owner {σ σ' : Lot α} {r : Ref} {s : Slot α} (h : σ.Inv)
    (hs : OwnerStep σ σ' r s) (href : σ'.RefInv r)
    (hfailed : ∀ r', .parkFailed r' ∈ σ'.objs →
      σ'.phase r' = .unparked ∧ σ'.parked r' = some (σ'.slots r'.slot).value)
    (htaking : ∀ r' w, .unparkTaking r' w ∈ σ'.objs → σ'.phase r' = .occupied)
    (hptr : ∀ w p, .wakerPtr w p ∈ σ'.objs → w < σ'.wakers)
    (hhits : ∀ w, σ'.wakeHits w + σ'.armed w ≤ 1)
    (hfired : ∀ w, σ'.wakeSome w + σ'.firing w ≤ σ'.wakeHits w)
    (hfresh : ∀ w, σ'.wakers ≤ w → σ'.wakeHits w = 0) : σ'.Inv where
  ref r' := by
    by_cases hne : r' = r
    · exact hne ▸ href
    · exact hs.refInv_of_ne h hne
  claim_lt := hs.claim_lt h
  fresh := hs.fresh h
  failed := hfailed
  taking := htaking
  ptr_lt := hptr
  hits := hhits
  fired := hfired
  fresh_waker := hfresh

-- ---------------------------------------------------------------------------
-- Counting the rights around one object
-- ---------------------------------------------------------------------------

theorem parkRights_eq_cons {σ : Lot α} {o : Obj α} {rest : Multiset (Obj α)}
    (ho : σ.objs = o ::ₘ rest) (r : Ref) :
    σ.parkRights r = o.parkRights r + (rest.map (Obj.parkRights r)).sum := by
  simp [parkRights, ho]

theorem unparkRights_eq_cons {σ : Lot α} {o : Obj α} {rest : Multiset (Obj α)}
    (ho : σ.objs = o ::ₘ rest) (r : Ref) :
    σ.unparkRights r = o.unparkRights r + (rest.map (Obj.unparkRights r)).sum := by
  simp [unparkRights, ho]

theorem firing_eq_cons {σ : Lot α} {o : Obj α} {rest : Multiset (Obj α)}
    (ho : σ.objs = o ::ₘ rest) (w : Nat) :
    σ.firing w = o.firing w + (rest.map (Obj.firing w)).sum := by
  simp [firing, ho]

theorem armed_eq_cons {σ : Lot α} {o : Obj α} {rest : Multiset (Obj α)}
    (ho : σ.objs = o ::ₘ rest) (w : Nat) :
    σ.armed w = o.armed w + (rest.map (Obj.armed w)).sum := by
  simp [armed, ho]

theorem parkRights_ge_two {σ : Lot α} {o o' : Obj α} {rest : Multiset (Obj α)}
    (ho : σ.objs = o ::ₘ rest) (hmem : o' ∈ rest) (r : Ref) :
    o.parkRights r + o'.parkRights r ≤ σ.parkRights r := by
  rw [parkRights_eq_cons ho]
  exact Nat.add_le_add_left (Multiset.le_sum_of_mem (Multiset.mem_map_of_mem _ hmem)) _

theorem unparkRights_ge_two {σ : Lot α} {o o' : Obj α} {rest : Multiset (Obj α)}
    (ho : σ.objs = o ::ₘ rest) (hmem : o' ∈ rest) (r : Ref) :
    o.unparkRights r + o'.unparkRights r ≤ σ.unparkRights r := by
  rw [unparkRights_eq_cons ho]
  exact Nat.add_le_add_left (Multiset.le_sum_of_mem (Multiset.mem_map_of_mem _ hmem)) _

-- ---------------------------------------------------------------------------
-- The steps of the owners
-- ---------------------------------------------------------------------------

theorem Inv.release {σ : Lot α} (h : σ.Inv) {r : Ref} {rest : Multiset (Obj α)}
    (ho : σ.objs = .reservation r ::ₘ rest) :
    Inv { σ.setSlot r.slot (σ.slots r.slot).release with objs := rest } := by
  -- a reservation holds both rights: the claim is `Reserved` and holds no other right
  have hp := parkRights_eq_cons ho r
  have hu := unparkRights_eq_cons ho r
  simp only [Obj.parkRights, Obj.unparkRights, if_true] at hp hu
  obtain ⟨hph, hp1, hu1, hpr, hur⟩ := ((h.ref r).of_park (by omega)).resolve_right
    (fun ⟨_, _, hu0, _⟩ => by omega)
  have hlive : σ.phase r ≠ .empty := by simp [hph]
  have hs : OwnerStep σ { σ.setSlot r.slot (σ.slots r.slot).release with objs := rest } r
      (σ.slots r.slot).release :=
    { live := hlive
      slots := rfl
      claim := claim_eq_of_phase_ne_empty hlive
      claims := rfl
      parkRights := fun r' hne => by simp [parkRights, ho, Obj.parkRights, Ne.symm hne]
      unparkRights := fun r' hne => by simp [unparkRights, ho, Obj.unparkRights, Ne.symm hne]
      parkResult := fun _ _ => rfl
      unparkResult := fun _ _ => rfl
      parked := fun _ _ => rfl }
  refine h.of_owner hs ?_ ?_ ?_ ?_ ?_ ?_ h.fresh_waker
  · unfold RefInv
    rw [hs.phase_self]
    simp only [Slot.release]
    refine ⟨by simp [parkRights]; omega, by simp [unparkRights]; omega, .inl ⟨hpr, hur⟩⟩
  · intro r' hmem
    have hne : r' ≠ r := by
      rintro rfl
      simp [(h.failed r' (by simp [ho, hmem])).1] at hph
    exact hs.failed_of_ne h hne (by simp [ho, hmem])
  · intro r' w hmem
    have hne : r' ≠ r := by
      rintro rfl
      simp [h.taking r' w (by simp [ho, hmem])] at hph
    exact hs.taking_of_ne h hne w (by simp [ho, hmem])
  · intro w p hmem
    exact h.ptr_lt w p (by simp [ho, hmem])
  · intro w
    have := h.hits w
    simp [armed, ho, Obj.armed] at this ⊢
    exact this
  · intro w
    have := h.fired w
    simp [firing, ho, Obj.firing] at this ⊢
    exact this

/-- A claim under way is in the state of its slot. -/
theorem phase_eq_state {σ : Lot α} {r : Ref} (h : σ.phase r ≠ .empty) :
    σ.phase r = (σ.slots r.slot).state :=
  phase_of_claim_eq (claim_eq_of_phase_ne_empty h)

theorem Inv.parkOk {σ : Lot α} (h : σ.Inv) {r : Ref} {v : α} {rest : Multiset (Obj α)}
    {s : Slot α} (ho : σ.objs = .parkTicket r ::ₘ rest)
    (hcas : (σ.slots r.slot).parkCas v = (true, s)) :
    Inv { σ.setSlot r.slot s with
      objs := rest, parked := Function.update σ.parked r (some v),
      parkResult := Function.update σ.parkResult r (some .ok) } := by
  obtain ⟨hst, hs'⟩ := Slot.parkCas_eq_true hcas
  have hp := parkRights_eq_cons ho r
  have hu := unparkRights_eq_cons ho r
  simp only [Obj.parkRights, Obj.unparkRights, if_true] at hp hu
  -- the exchange succeeded, so the claim was `Reserved`, not `Unparked`
  obtain ⟨hph, hp1, hu1, hpr, hur⟩ := ((h.ref r).of_park (by omega)).resolve_right
    (fun ⟨hph, _⟩ => by rw [phase_eq_state (by simp [hph]), hst] at hph; cases hph)
  have hlive : σ.phase r ≠ .empty := by simp [hph]
  have hs : OwnerStep σ { σ.setSlot r.slot s with
      objs := rest, parked := Function.update σ.parked r (some v),
      parkResult := Function.update σ.parkResult r (some .ok) } r s :=
    { live := hlive
      slots := rfl
      claim := by rw [hs']; exact claim_eq_of_phase_ne_empty hlive
      claims := rfl
      parkRights := fun r' hne => by simp [parkRights, ho, Obj.parkRights, Ne.symm hne]
      unparkRights := fun r' hne => by simp [unparkRights, ho, Obj.unparkRights]
      parkResult := fun r' hne => Function.update_of_ne hne _ _
      unparkResult := fun _ _ => rfl
      parked := fun r' hne => Function.update_of_ne hne _ _ }
  refine h.of_owner hs ?_ ?_ ?_ ?_ ?_ ?_ h.fresh_waker
  · unfold RefInv
    rw [hs.phase_self, hs']
    refine ⟨by simp [parkRights]; omega, by simp [unparkRights]; omega, by simp, hur, by simp⟩
  · intro r' hmem
    have hne : r' ≠ r := by
      rintro rfl
      simp [(h.failed r' (by simp [ho, hmem])).1] at hph
    exact hs.failed_of_ne h hne (by simp [ho, hmem])
  · intro r' w hmem
    have hne : r' ≠ r := by
      rintro rfl
      simp [h.taking r' w (by simp [ho, hmem])] at hph
    exact hs.taking_of_ne h hne w (by simp [ho, hmem])
  · intro w p hmem
    exact h.ptr_lt w p (by simp [ho, hmem])
  · intro w
    have := h.hits w
    simp [armed, ho, Obj.armed] at this ⊢
    exact this
  · intro w
    have := h.fired w
    simp [firing, ho, Obj.firing] at this ⊢
    exact this

theorem Inv.parkLose {σ : Lot α} (h : σ.Inv) {r : Ref} {v : α} {rest : Multiset (Obj α)}
    {s : Slot α} (ho : σ.objs = .parkTicket r ::ₘ rest)
    (hcas : (σ.slots r.slot).parkCas v = (false, s)) :
    Inv { σ.setSlot r.slot s with
      objs := .parkFailed r ::ₘ rest, parked := Function.update σ.parked r (some v) } := by
  obtain ⟨hst, hs'⟩ := Slot.parkCas_eq_false hcas
  have hp := parkRights_eq_cons ho r
  simp only [Obj.parkRights, if_true] at hp
  -- the exchange failed, so `unpark` got there first: the claim is `Unparked`
  obtain ⟨hph, hp1, hu0, hpr, hur⟩ := ((h.ref r).of_park (by omega)).resolve_left
    (fun ⟨hph, _⟩ => hst (by rw [← phase_eq_state (by simp [hph]), hph]))
  have hlive : σ.phase r ≠ .empty := by simp [hph]
  have hs : OwnerStep σ { σ.setSlot r.slot s with
      objs := .parkFailed r ::ₘ rest, parked := Function.update σ.parked r (some v) } r s :=
    { live := hlive
      slots := rfl
      claim := by rw [hs']; exact claim_eq_of_phase_ne_empty hlive
      claims := rfl
      parkRights := fun r' hne => by simp [parkRights, ho, Obj.parkRights]
      unparkRights := fun r' hne => by simp [unparkRights, ho, Obj.unparkRights]
      parkResult := fun _ _ => rfl
      unparkResult := fun _ _ => rfl
      parked := fun r' hne => Function.update_of_ne hne _ _ }
  have hph' : Lot.phase { σ.setSlot r.slot s with
      objs := .parkFailed r ::ₘ rest, parked := Function.update σ.parked r (some v) } r =
      .unparked := by
    rw [hs.phase_self, hs', ← phase_eq_state hlive, hph]
  refine h.of_owner hs ?_ ?_ ?_ ?_ ?_ ?_ h.fresh_waker
  · unfold RefInv
    rw [hph']
    refine ⟨by simp [parkRights, Obj.parkRights]; omega, ?_, hpr, hur⟩
    simpa [unparkRights, ho, Obj.unparkRights] using hu0
  · intro r' hmem
    by_cases hne : r' = r
    · subst hne
      exact ⟨hph', by simp [hs']⟩
    · simp only [Multiset.mem_cons, Obj.parkFailed.injEq, hne, false_or] at hmem
      exact hs.failed_of_ne h hne (by simp [ho, hmem])
  · intro r' w hmem
    have hmem' : Obj.unparkTaking r' w ∈ σ.objs := by simpa [ho] using hmem
    have hne : r' ≠ r := by
      rintro rfl
      simp [h.taking r' w hmem'] at hph
    exact hs.taking_of_ne h hne w hmem'
  · intro w p hmem
    exact h.ptr_lt w p (by simpa [ho] using hmem)
  · intro w
    have := h.hits w
    simp [armed, ho, Obj.armed] at this ⊢
    exact this
  · intro w
    have := h.fired w
    simp [firing, ho, Obj.firing] at this ⊢
    exact this

theorem Inv.parkFinish {σ : Lot α} (h : σ.Inv) {r : Ref} {rest : Multiset (Obj α)}
    (ho : σ.objs = .parkFailed r ::ₘ rest) :
    Inv { σ.setSlot r.slot (σ.slots r.slot).release with
      objs := rest,
      parkResult := Function.update σ.parkResult r
        (some (.unparked (σ.slots r.slot).value)) } := by
  obtain ⟨hph, hval⟩ := h.failed r (by simp [ho])
  have hp := parkRights_eq_cons ho r
  have hu := unparkRights_eq_cons ho r
  simp only [Obj.parkRights, Obj.unparkRights, if_true] at hp hu
  have href := h.ref r
  unfold RefInv at href
  rw [hph] at href
  obtain ⟨hp1, hu0, hpr, hur⟩ := href
  have hlive : σ.phase r ≠ .empty := by simp [hph]
  have hs : OwnerStep σ { σ.setSlot r.slot (σ.slots r.slot).release with
      objs := rest,
      parkResult := Function.update σ.parkResult r
        (some (.unparked (σ.slots r.slot).value)) } r (σ.slots r.slot).release :=
    { live := hlive
      slots := rfl
      claim := claim_eq_of_phase_ne_empty hlive
      claims := rfl
      parkRights := fun r' hne => by simp [parkRights, ho, Obj.parkRights, Ne.symm hne]
      unparkRights := fun r' hne => by simp [unparkRights, ho, Obj.unparkRights]
      parkResult := fun r' hne => Function.update_of_ne hne _ _
      unparkResult := fun _ _ => rfl
      parked := fun _ _ => rfl }
  refine h.of_owner hs ?_ ?_ ?_ ?_ ?_ ?_ h.fresh_waker
  · -- `park` read back its own value: the second handoff
    unfold RefInv
    rw [hs.phase_self]
    refine ⟨by simp [parkRights]; omega, by simp [unparkRights]; omega, ?_⟩
    exact .inr (.inr ⟨_, hval, by simp, hur⟩)
  · intro r' hmem
    have hne : r' ≠ r := by
      rintro rfl
      have := parkRights_ge_two ho hmem r'
      simp [Obj.parkRights] at this
      omega
    exact hs.failed_of_ne h hne (by simp [ho, hmem])
  · intro r' w hmem
    have hne : r' ≠ r := by
      rintro rfl
      simp [h.taking r' w (by simp [ho, hmem])] at hph
    exact hs.taking_of_ne h hne w (by simp [ho, hmem])
  · intro w p hmem
    exact h.ptr_lt w p (by simp [ho, hmem])
  · intro w
    have := h.hits w
    simp [armed, ho, Obj.armed] at this ⊢
    exact this
  · intro w
    have := h.fired w
    simp [firing, ho, Obj.firing] at this ⊢
    exact this

theorem Inv.unparkNone {σ : Lot α} (h : σ.Inv) {r : Ref} {w : Option Nat}
    {rest : Multiset (Obj α)} {s : Slot α} (ho : σ.objs = .unparkTicket r w ::ₘ rest)
    (hcas : (σ.slots r.slot).unparkCas = (true, s)) :
    Inv { σ.setSlot r.slot s with
      objs := rest, unparkResult := Function.update σ.unparkResult r (some none) } := by
  obtain ⟨hst, hs'⟩ := Slot.unparkCas_eq_true hcas
  have hp := parkRights_eq_cons ho r
  have hu := unparkRights_eq_cons ho r
  simp only [Obj.parkRights, Obj.unparkRights, if_true] at hp hu
  -- the exchange succeeded, so `park` has not run: the claim is `Reserved`
  obtain ⟨hph, hp1, hu1, hpr, hur⟩ := ((h.ref r).of_unpark (by omega)).resolve_right
    (fun ⟨hph, _⟩ => by rw [phase_eq_state (by simp [hph]), hst] at hph; cases hph)
  have hlive : σ.phase r ≠ .empty := by simp [hph]
  have hs : OwnerStep σ { σ.setSlot r.slot s with
      objs := rest, unparkResult := Function.update σ.unparkResult r (some none) } r s :=
    { live := hlive
      slots := rfl
      claim := by rw [hs']; exact claim_eq_of_phase_ne_empty hlive
      claims := rfl
      parkRights := fun r' hne => by simp [parkRights, ho, Obj.parkRights]
      unparkRights := fun r' hne => by simp [unparkRights, ho, Obj.unparkRights, Ne.symm hne]
      parkResult := fun _ _ => rfl
      unparkResult := fun r' hne => Function.update_of_ne hne _ _
      parked := fun _ _ => rfl }
  refine h.of_owner hs ?_ ?_ ?_ ?_ ?_ ?_ h.fresh_waker
  · unfold RefInv
    rw [hs.phase_self, hs']
    exact ⟨by simp [parkRights]; omega, by simp [unparkRights]; omega, hpr, by simp⟩
  · intro r' hmem
    have hne : r' ≠ r := by
      rintro rfl
      simp [(h.failed r' (by simp [ho, hmem])).1] at hph
    exact hs.failed_of_ne h hne (by simp [ho, hmem])
  · intro r' w' hmem
    have hne : r' ≠ r := by
      rintro rfl
      simp [h.taking r' w' (by simp [ho, hmem])] at hph
    exact hs.taking_of_ne h hne w' (by simp [ho, hmem])
  · intro w' p hmem
    exact h.ptr_lt w' p (by simp [ho, hmem])
  · intro w'
    have := h.hits w'
    simp [armed, ho, Obj.armed] at this ⊢
    exact this
  · -- a waker's call that ends here returned `None`: its firing count only drops
    intro w'
    have := h.fired w'
    rw [firing_eq_cons ho] at this
    simp only [firing, setSlot_wakeSome, setSlot_wakeHits]
    omega

theorem Inv.unparkFinish {σ : Lot α} (h : σ.Inv) {r : Ref} {w : Option Nat}
    {rest : Multiset (Obj α)} (ho : σ.objs = .unparkTaking r w ::ₘ rest) :
    Inv { σ.setSlot r.slot (σ.slots r.slot).release with
      objs := rest,
      unparkResult := Function.update σ.unparkResult r (some (some (σ.slots r.slot).value)),
      wakeSome := match w with
        | some w => Function.update σ.wakeSome w (σ.wakeSome w + 1)
        | none => σ.wakeSome } := by
  have hph := h.taking r w (by simp [ho])
  have hu := unparkRights_eq_cons ho r
  simp only [Obj.unparkRights, if_true] at hu
  have href := h.ref r
  unfold RefInv at href
  rw [hph] at href
  obtain ⟨hp0, hu1, hpr, hur, hparked⟩ := href
  have hlive : σ.phase r ≠ .empty := by simp [hph]
  have hs : OwnerStep σ { σ.setSlot r.slot (σ.slots r.slot).release with
      objs := rest,
      unparkResult := Function.update σ.unparkResult r (some (some (σ.slots r.slot).value)),
      wakeSome := match w with
        | some w => Function.update σ.wakeSome w (σ.wakeSome w + 1)
        | none => σ.wakeSome } r (σ.slots r.slot).release :=
    { live := hlive
      slots := rfl
      claim := claim_eq_of_phase_ne_empty hlive
      claims := rfl
      parkRights := fun r' hne => by simp [parkRights, ho, Obj.parkRights]
      unparkRights := fun r' hne => by simp [unparkRights, ho, Obj.unparkRights, Ne.symm hne]
      parkResult := fun _ _ => rfl
      unparkResult := fun r' hne => Function.update_of_ne hne _ _
      parked := fun _ _ => rfl }
  refine h.of_owner hs ?_ ?_ ?_ ?_ ?_ ?_ h.fresh_waker
  · -- `unpark` took the value `park` left: the first handoff
    unfold RefInv
    rw [hs.phase_self]
    refine ⟨?_, by simp [unparkRights]; omega, .inr (.inl ⟨_, hparked, hpr, by simp⟩)⟩
    simpa [parkRights, ho, Obj.parkRights] using hp0
  · intro r' hmem
    have hne : r' ≠ r := by
      rintro rfl
      simp [(h.failed r' (by simp [ho, hmem])).1] at hph
    exact hs.failed_of_ne h hne (by simp [ho, hmem])
  · intro r' w' hmem
    have hne : r' ≠ r := by
      rintro rfl
      have := unparkRights_ge_two ho hmem r'
      simp [Obj.unparkRights] at this
      omega
    exact hs.taking_of_ne h hne w' (by simp [ho, hmem])
  · intro w' p hmem
    exact h.ptr_lt w' p (by simp [ho, hmem])
  · intro w'
    have := h.hits w'
    simp [armed, ho, Obj.armed] at this ⊢
    exact this
  · -- the call that returns `Some` leaves the firing calls of its waker for the returned ones
    intro w'
    have := h.fired w'
    rw [firing_eq_cons ho] at this
    simp only [firing, setSlot_wakeHits]
    rcases w with _ | w
    · have hf : (Obj.unparkTaking r none : Obj α).firing w' = 0 := rfl
      simp only
      omega
    · have hf : (Obj.unparkTaking r (some w) : Obj α).firing w' = if w = w' then 1 else 0 := rfl
      by_cases hw : w = w'
      · subst hw
        simp only [hf, if_true, Function.update_self] at this ⊢
        omega
      · simp only [hf, hw, if_false, Function.update_of_ne (Ne.symm hw)] at this ⊢
        omega

-- ---------------------------------------------------------------------------
-- Claims and wakers
-- ---------------------------------------------------------------------------

/-- Every claim of an `Empty` slot has ended. -/
theorem phase_eq_empty_of_state {σ : Lot α} {r : Ref} (h : (σ.slots r.slot).state = .empty) :
    σ.phase r = .empty := by
  simp [phase, h]

theorem Inv.claim {σ : Lot α} (h : σ.Inv) {i : Nat} {s : Slot α}
    (hcas : (σ.slots i).claimCas σ.claims = some s) :
    Inv { σ.setSlot i s with
      objs := .reservation ⟨i, σ.claims⟩ ::ₘ σ.objs, claims := σ.claims + 1 } := by
  obtain ⟨hst, rfl⟩ := Slot.claimCas_eq_some hcas
  -- the slot is `Empty`, so each of its earlier claims has ended and the new one is fresh
  have hended : ∀ r : Ref, r.slot = i → σ.phase r = .empty := fun r hr =>
    phase_eq_empty_of_state (hr ▸ hst)
  have hphase : ∀ r : Ref, r ≠ ⟨i, σ.claims⟩ →
      Lot.phase { σ.setSlot i { σ.slots i with state := .reserved, claim := σ.claims } with
        objs := .reservation ⟨i, σ.claims⟩ ::ₘ σ.objs, claims := σ.claims + 1 } r =
      σ.phase r := by
    intro r hne
    by_cases hr : r.slot = i
    · have hcl : σ.claims ≠ r.claim := fun hc => hne (by cases r; simp_all)
      rw [hended r hr]
      simp [phase, hr, hcl]
    · simp [phase, Function.update_of_ne hr]
  have hslot : ∀ r : Ref, σ.phase r ≠ .empty →
      (Function.update σ.slots i { σ.slots i with state := .reserved, claim := σ.claims })
        r.slot = σ.slots r.slot := fun r hr =>
    Function.update_of_ne (fun hi => hr (hended r hi)) _ _
  have hnew : σ.phase ⟨i, σ.claims⟩ = .empty := hended _ rfl
  have hp : ∀ r, r ≠ ⟨i, σ.claims⟩ → Obj.parkRights r (.reservation ⟨i, σ.claims⟩ : Obj α) = 0 :=
    fun r hne => by simp [Obj.parkRights, Ne.symm hne]
  have hu : ∀ r, r ≠ ⟨i, σ.claims⟩ →
      Obj.unparkRights r (.reservation ⟨i, σ.claims⟩ : Obj α) = 0 :=
    fun r hne => by simp [Obj.unparkRights, Ne.symm hne]
  refine ⟨fun r => ?_, fun j => ?_, fun r hr => ?_, fun r hmem => ?_, fun r w hmem => ?_,
    fun w p hmem => ?_, fun w => ?_, fun w => ?_, h.fresh_waker⟩
  · by_cases hne : r = ⟨i, σ.claims⟩
    · -- the new claim: both rights, nothing returned
      subst hne
      have href := h.ref ⟨i, σ.claims⟩
      unfold RefInv at href
      rw [hnew] at href
      obtain ⟨hp0, hu0, -⟩ := href
      obtain ⟨hpr, hur⟩ := h.fresh ⟨i, σ.claims⟩ le_rfl
      unfold RefInv
      rw [show Lot.phase _ ⟨i, σ.claims⟩ = .reserved by simp [phase]]
      refine ⟨?_, ?_, hpr, hur⟩
      · simpa [parkRights, Obj.parkRights] using hp0
      · simpa [unparkRights, Obj.unparkRights] using hu0
    · refine (h.ref r).frame (hphase r hne) (fun hocc => by simp [hslot r (by simp [hocc])])
        ?_ ?_ rfl rfl rfl
      · simp [parkRights, hp r hne]
      · simp [unparkRights, hu r hne]
  · by_cases hj : j = i
    · subst hj
      simp
    · simpa [Function.update_of_ne hj] using Nat.lt_succ_of_lt (h.claim_lt j)
  · exact h.fresh r (by simp at hr; omega)
  · have hmem' : Obj.parkFailed r ∈ σ.objs := by simpa using hmem
    obtain ⟨hph, hval⟩ := h.failed r hmem'
    have hne : r ≠ ⟨i, σ.claims⟩ := by rintro rfl; simp [hnew] at hph
    refine ⟨(hphase r hne).trans hph, ?_⟩
    simpa [hslot r (by simp [hph])] using hval
  · have hmem' : Obj.unparkTaking r w ∈ σ.objs := by simpa using hmem
    have hph := h.taking r w hmem'
    have hne : r ≠ ⟨i, σ.claims⟩ := by rintro rfl; simp [hnew] at hph
    exact (hphase r hne).trans hph
  · exact h.ptr_lt w p (by simpa using hmem)
  · simpa [armed, Obj.armed] using h.hits w
  · simpa [firing, Obj.firing] using h.fired w

/-- No pointer of a waker not yet created is armed. -/
theorem Inv.armed_eq_zero {σ : Lot α} (h : σ.Inv) {w : Nat} (hw : σ.wakers ≤ w) :
    σ.armed w = 0 := by
  refine Multiset.sum_eq_zero fun n hn => ?_
  obtain ⟨o, ho, rfl⟩ := Multiset.mem_map.1 hn
  cases o with
  | wakerPtr w' p =>
    have hlt := h.ptr_lt w' p ho
    cases p with
    | none => rfl
    | some r => simp [Obj.armed]; omega
  | _ => rfl

theorem Inv.intoWaker {σ : Lot α} (h : σ.Inv) {r : Ref} {rest : Multiset (Obj α)}
    (ho : σ.objs = .unparkTicket r none ::ₘ rest) :
    Inv { σ with
      objs := .waker σ.wakers ::ₘ .wakerPtr σ.wakers (some r) ::ₘ rest,
      wakers := σ.wakers + 1 } := by
  have hfresh := h.armed_eq_zero (le_refl σ.wakers)
  rw [armed_eq_cons ho] at hfresh
  refine ⟨h.ref_of_moved rfl (fun r' => ?_) (fun r' => ?_) rfl rfl rfl, h.claim_lt, h.fresh,
    fun r' hmem => h.failed r' (by simpa [ho] using hmem),
    fun r' w hmem => h.taking r' w (by simpa [ho] using hmem),
    fun w p hmem => ?_, fun w => ?_, fun w => ?_,
    fun w hw => h.fresh_waker w (by simp at hw; omega)⟩
  · simp [parkRights, ho, Obj.parkRights]
  · simp [unparkRights, ho, Obj.unparkRights]
  · simp only [Multiset.mem_cons, reduceCtorEq, false_or, Obj.wakerPtr.injEq] at hmem
    rcases hmem with ⟨rfl, -⟩ | hmem
    · simp
    · exact Nat.lt_succ_of_lt (h.ptr_lt w p (by simp [ho, hmem]))
  · -- the new pointer is the only armed one of the new waker, which has not fired
    have hhits := h.hits w
    rw [armed_eq_cons ho] at hhits
    simp only [armed, Multiset.map_cons, Multiset.sum_cons]
    by_cases hw : σ.wakers = w
    · subst hw
      simp only [Obj.armed, if_true, h.fresh_waker _ le_rfl] at hfresh ⊢
      omega
    · simp only [Obj.armed, hw, if_false] at hhits ⊢
      omega
  · simpa [firing, ho, Obj.firing] using h.fired w

theorem Inv.wake {σ : Lot α} (h : σ.Inv) {w : Nat} {p : Option Ref} {rest : Multiset (Obj α)}
    (ho : σ.objs = .wakerPtr w p ::ₘ rest) :
    Inv { σ with
      objs := .wakerPtr w (cellTake p).2 ::ₘ
        (match (cellTake p).1 with
         | some r => .unparkTicket r (some w) ::ₘ rest
         | none => rest),
      wakeHits := match (cellTake p).1 with
        | some _ => Function.update σ.wakeHits w (σ.wakeHits w + 1)
        | none => σ.wakeHits } := by
  have hlt := h.ptr_lt w p (by simp [ho])
  cases p with
  | none =>
    -- a null pointer: the call returns `None` and nothing changes
    simp only [cellTake]
    rw [← ho]
    exact h
  | some r =>
    -- the swap hands the unpark right to this call, which is now firing
    simp only [cellTake]
    refine ⟨h.ref_of_moved rfl (fun r' => ?_) (fun r' => ?_) rfl rfl rfl, h.claim_lt, h.fresh,
      fun r' hmem => h.failed r' (by simpa [ho] using hmem),
      fun r' w' hmem => h.taking r' w' (by simpa [ho] using hmem),
      fun w' p' hmem => ?_, fun w' => ?_, fun w' => ?_, fun w' hw => ?_⟩
    · simp [parkRights, ho, Obj.parkRights]
    · simp [unparkRights, ho, Obj.unparkRights]
    · simp only [Multiset.mem_cons, reduceCtorEq, false_or, Obj.wakerPtr.injEq] at hmem
      rcases hmem with ⟨rfl, -⟩ | hmem
      · exact hlt
      · exact h.ptr_lt w' p' (by simp [ho, hmem])
    · have hhits := h.hits w'
      rw [armed_eq_cons ho] at hhits
      simp only [armed, Multiset.map_cons, Multiset.sum_cons]
      by_cases hw : w = w'
      · subst hw
        simp only [Obj.armed, if_true, Function.update_self] at hhits ⊢
        omega
      · simp only [Obj.armed, hw, if_false, Function.update_of_ne (Ne.symm hw)] at hhits ⊢
        omega
    · have hfired := h.fired w'
      rw [firing_eq_cons ho] at hfired
      simp only [firing, Multiset.map_cons, Multiset.sum_cons]
      by_cases hw : w = w'
      · subst hw
        simp only [Obj.firing, if_true, Function.update_self] at hfired ⊢
        omega
      · simp only [Obj.firing, hw, if_false, Function.update_of_ne (Ne.symm hw)] at hfired ⊢
        omega
    · have hne : w ≠ w' := by simp at hw; omega
      simpa [Function.update_of_ne (Ne.symm hne)] using h.fresh_waker w' hw

-- ---------------------------------------------------------------------------
-- Every reachable lot
-- ---------------------------------------------------------------------------

theorem Inv.step {σ σ' : Lot α} (h : σ.Inv) (hstep : Step σ σ') : σ'.Inv := by
  cases hstep with
  | claim i s hcas => exact h.claim hcas
  | release r rest ho => exact h.release ho
  | split r rest ho => exact h.split ho
  | parkOk r v rest s ho hcas => exact h.parkOk ho hcas
  | parkLose r v rest s ho hcas => exact h.parkLose ho hcas
  | parkFinish r rest ho => exact h.parkFinish ho
  | unparkNone r w rest s ho hcas => exact h.unparkNone ho hcas
  | unparkLose r w rest ho hcas => exact h.unparkLose ho hcas
  | unparkFinish r w rest ho => exact h.unparkFinish ho
  | intoWaker r rest ho => exact h.intoWaker ho
  | cloneWaker w _ => exact h.cons_inert (.inr (.inr ⟨w, rfl⟩))
  | wake w p rest _ ho => exact h.wake ho
  | newParkCell => exact h.cons_inert (.inl rfl)
  | newUnparkCell => exact h.cons_inert (.inr (.inl rfl))
  | parkCellPut r held rest ho hput => exact h.parkCellPut ho hput
  | parkCellPutReservation r held rest ho hput => exact h.parkCellPutReservation ho hput
  | parkCellTake r rest ho => exact h.parkCellTake ho
  | unparkCellPutReservation r held rest ho hput => exact h.unparkCellPutReservation ho hput
  | unparkCellTake r rest ho => exact h.unparkCellTake ho
  -- a refused put leaves the lot as it was
  | parkCellPutRefused _ _ _ _ _ => exact h
  | parkCellPutReservationRefused _ _ _ _ _ => exact h
  | unparkCellPutReservationRefused _ _ _ _ _ => exact h

theorem Inv.reachable [Inhabited α] {σ : Lot α} (hσ : σ.Reachable) : σ.Inv := by
  induction hσ with
  | refl => exact inv_init
  | tail _ hstep ih => exact ih.step hstep

/-- A live park right means `park` has not returned. -/
theorem Inv.parkResult_eq_none {σ : Lot α} (h : σ.Inv) {r : Ref} (hp : 0 < σ.parkRights r) :
    σ.parkResult r = none := by
  rcases (h.ref r).of_park hp with ⟨-, -, -, hpr, -⟩ | ⟨-, -, -, hpr, -⟩ <;> exact hpr

/-- A live unpark right means `unpark` has not returned. -/
theorem Inv.unparkResult_eq_none {σ : Lot α} (h : σ.Inv) {r : Ref}
    (hu : 0 < σ.unparkRights r) : σ.unparkResult r = none := by
  rcases (h.ref r).of_unpark hu with ⟨-, -, -, -, hur⟩ | ⟨-, -, -, -, hur, -⟩ <;> exact hur

theorem Inv.parkResult_eq_none_of_mem {σ : Lot α} (h : σ.Inv) {r : Ref} {o : Obj α}
    (hmem : o ∈ σ.objs) (ho : o.parkRights r = 1) : σ.parkResult r = none :=
  h.parkResult_eq_none (lt_of_lt_of_le (by omega) (le_parkRights hmem r))

theorem Inv.unparkResult_eq_none_of_mem {σ : Lot α} (h : σ.Inv) {r : Ref} {o : Obj α}
    (hmem : o ∈ σ.objs) (ho : o.unparkRights r = 1) : σ.unparkResult r = none :=
  h.unparkResult_eq_none (lt_of_lt_of_le (by omega) (le_unparkRights hmem r))

/-- A step writes a result only of a side that has not returned: what `park` returned
    never changes. -/
theorem Inv.step_parkResult {σ σ' : Lot α} (h : σ.Inv) (hstep : Step σ σ') {r : Ref}
    (hr : σ.parkResult r ≠ none) : σ'.parkResult r = σ.parkResult r := by
  cases hstep with
  | parkOk r' v rest s ho hcas =>
    have hnone : σ.parkResult r' = none :=
      h.parkResult_eq_none_of_mem (by simp [ho] : Obj.parkTicket r' ∈ σ.objs)
      (by simp [Obj.parkRights])
    have hne : r ≠ r' := by rintro rfl; exact hr hnone
    exact Function.update_of_ne hne _ _
  | parkFinish r' rest ho =>
    have hnone : σ.parkResult r' = none :=
      h.parkResult_eq_none_of_mem (by simp [ho] : Obj.parkFailed r' ∈ σ.objs)
      (by simp [Obj.parkRights])
    have hne : r ≠ r' := by rintro rfl; exact hr hnone
    exact Function.update_of_ne hne _ _
  | _ => rfl

/-- What `unpark` returned never changes. -/
theorem Inv.step_unparkResult {σ σ' : Lot α} (h : σ.Inv) (hstep : Step σ σ') {r : Ref}
    (hr : σ.unparkResult r ≠ none) : σ'.unparkResult r = σ.unparkResult r := by
  cases hstep with
  | unparkNone r' w rest s ho hcas =>
    have hnone : σ.unparkResult r' = none := h.unparkResult_eq_none_of_mem
      (by simp [ho] : Obj.unparkTicket r' w ∈ σ.objs) (by simp [Obj.unparkRights])
    have hne : r ≠ r' := by rintro rfl; exact hr hnone
    exact Function.update_of_ne hne _ _
  | unparkFinish r' w rest ho =>
    have hnone : σ.unparkResult r' = none := h.unparkResult_eq_none_of_mem
      (by simp [ho] : Obj.unparkTaking r' w ∈ σ.objs) (by simp [Obj.unparkRights])
    have hne : r ≠ r' := by rintro rfl; exact hr hnone
    exact Function.update_of_ne hne _ _
  | _ => rfl

/-- A claim with a live right owns a slot that is not `Empty`, so no claim of that slot
    can succeed. -/
theorem Inv.owner_of_live {σ : Lot α} (h : σ.Inv) {r : Ref}
    (hr : 0 < σ.parkRights r + σ.unparkRights r) :
    (σ.slots r.slot).claim = r.claim ∧ ∀ n, (σ.slots r.slot).claimCas n = none := by
  have hlive := (h.ref r).phase_ne_empty hr
  refine ⟨claim_eq_of_phase_ne_empty hlive, fun n => ?_⟩
  have hst : (σ.slots r.slot).state ≠ .empty := by rwa [← phase_eq_state hlive]
  simp [Slot.claimCas, hst]

/-- Once both sides returned, they returned one of the two handoffs, the claim has ended
    and none of its rights is left. -/
theorem Inv.handoff_of_returned {σ : Lot α} (h : σ.Inv) {r : Ref} (hp : σ.parkResult r ≠ none)
    (hu : σ.unparkResult r ≠ none) :
    σ.Handoff r ∧ σ.phase r = .empty ∧ σ.parkRights r = 0 ∧ σ.unparkRights r = 0 := by
  have href := h.ref r
  unfold RefInv at href
  split at href <;> rename_i hph
  · obtain ⟨hp0, hu0, hset⟩ := href
    exact ⟨hset.resolve_left fun ⟨hpr, _⟩ => hp hpr, hph, hp0, hu0⟩
  · exact absurd href.2.2.1 hp
  · exact absurd href.2.2.2.1 hu
  · exact absurd href.2.2.1 hp

/-- No right is lost or duplicated: each claim has at most one right of each side, and while
    the claim is under way, a side holds its right exactly until it returns. -/
theorem Inv.rights_exact {σ : Lot α} (h : σ.Inv) (r : Ref) :
    σ.parkRights r ≤ 1 ∧ σ.unparkRights r ≤ 1 ∧
    (σ.phase r ≠ .empty → (σ.parkRights r = 1 ↔ σ.parkResult r = none) ∧
      (σ.unparkRights r = 1 ↔ σ.unparkResult r = none)) := by
  have href := h.ref r
  unfold RefInv at href
  split at href <;> rename_i hph
  · exact ⟨by omega, by omega, fun hne => absurd hph hne⟩
  · obtain ⟨hp1, hu1, hpr, hur⟩ := href
    simp [hp1, hu1, hpr, hur]
  · obtain ⟨hp0, hu1, hpr, hur, -⟩ := href
    simp [hp0, hu1, hpr, hur]
  · obtain ⟨hp1, hu0, hpr, hur⟩ := href
    simp [hp1, hu0, hpr, hur]

/-- Of all calls of the clones of one waker, at most one finds the slot and at most one
    returns `Some`. -/
theorem Inv.wake_once {σ : Lot α} (h : σ.Inv) (w : Nat) :
    σ.wakeHits w ≤ 1 ∧ σ.wakeSome w ≤ 1 := by
  have hhits := h.hits w
  have hfired := h.fired w
  omega

/-- Two different objects of the lot can be offered together: they head its multiset. -/
theorem objs_eq_cons_cons {σ : Lot α} {a b : Obj α} (hab : a ≠ b) (ha : a ∈ σ.objs)
    (hb : b ∈ σ.objs) : ∃ rest, σ.objs = a ::ₘ b ::ₘ rest := by
  obtain ⟨rest₁, h₁⟩ := Multiset.exists_cons_of_mem ha
  have hb' : b ∈ rest₁ := by
    rw [h₁, Multiset.mem_cons] at hb
    exact hb.resolve_left (Ne.symm hab)
  obtain ⟨rest₂, h₂⟩ := Multiset.exists_cons_of_mem hb'
  exact ⟨rest₂, by rw [h₁, h₂]⟩

/-- A cell that holds a ticket refuses every `put` and `put_reservation`: the refusal is a step
    that leaves the lot as it was, the offer going back to the caller. -/
theorem refused_of_full {σ : Lot α} {r r' : Ref} :
    (Obj.parkCell (some r') ∈ σ.objs →
      (Obj.parkTicket r ∈ σ.objs → Step σ σ) ∧ (Obj.reservation r ∈ σ.objs → Step σ σ)) ∧
    (Obj.unparkCell (some r') ∈ σ.objs → Obj.reservation r ∈ σ.objs → Step σ σ) := by
  refine ⟨fun hc => ⟨fun ht => ?_, fun ht => ?_⟩, fun hc ht => ?_⟩
  · obtain ⟨rest, h⟩ := objs_eq_cons_cons (by simp) ht hc
    exact .parkCellPutRefused σ r (some r') rest h rfl
  · obtain ⟨rest, h⟩ := objs_eq_cons_cons (by simp) ht hc
    exact .parkCellPutReservationRefused σ r (some r') rest h rfl
  · obtain ⟨rest, h⟩ := objs_eq_cons_cons (by simp) ht hc
    exact .unparkCellPutReservationRefused σ r (some r') rest h rfl

theorem reachable_parkingLot_handoff [Inhabited α] {σ : Lot α} (hσ : σ.Reachable) :
    (∀ r, 0 < σ.parkRights r + σ.unparkRights r →
      (σ.slots r.slot).claim = r.claim ∧ ∀ n, (σ.slots r.slot).claimCas n = none) ∧
    (∀ r, σ.parkResult r ≠ none → σ.unparkResult r ≠ none →
      σ.Handoff r ∧ σ.phase r = .empty ∧ σ.parkRights r = 0 ∧ σ.unparkRights r = 0) ∧
    (∀ σ', Step σ σ' → ∀ r,
      (σ.parkResult r ≠ none → σ'.parkResult r = σ.parkResult r) ∧
      (σ.unparkResult r ≠ none → σ'.unparkResult r = σ.unparkResult r)) ∧
    (∀ w, σ.wakeHits w ≤ 1 ∧ σ.wakeSome w ≤ 1) ∧
    (∀ r, σ.parkRights r ≤ 1 ∧ σ.unparkRights r ≤ 1 ∧
      (σ.phase r ≠ .empty → (σ.parkRights r = 1 ↔ σ.parkResult r = none) ∧
        (σ.unparkRights r = 1 ↔ σ.unparkResult r = none))) ∧
    (∀ r r', (Obj.parkCell (some r') ∈ σ.objs →
        (Obj.parkTicket r ∈ σ.objs → Step σ σ) ∧ (Obj.reservation r ∈ σ.objs → Step σ σ)) ∧
      (Obj.unparkCell (some r') ∈ σ.objs → Obj.reservation r ∈ σ.objs → Step σ σ)) := by
  have h := Inv.reachable hσ
  exact ⟨fun r => h.owner_of_live, fun r => h.handoff_of_returned,
    fun σ' hstep r => ⟨h.step_parkResult hstep, h.step_unparkResult hstep⟩,
    h.wake_once, h.rights_exact, fun _ _ => refused_of_full⟩

/-- A run of one claim of slot 0 of a lot of `Nat`s: `reserve`, `split`, `park(7)`, and an
    `unpark` that loses its exchange and takes the value. -/
theorem parkingLot_handoff_run :
    ∃ σ : Lot Nat, σ.Reachable ∧ σ.parkResult ⟨0, 1⟩ = some .ok ∧
      σ.unparkResult ⟨0, 1⟩ = some (some 7) ∧ σ.Handoff ⟨0, 1⟩ := by
  have hstart : (init : Lot Nat).Reachable := Relation.ReflTransGen.refl
  have hrun := ((((hstart.tail
    (Step.claim _ 0 ⟨.reserved, 0, 1⟩ rfl)).tail
    (Step.split _ ⟨0, 1⟩ 0 rfl)).tail
    (Step.parkOk _ ⟨0, 1⟩ 7 {.unparkTicket ⟨0, 1⟩ none} ⟨.occupied, 7, 1⟩ rfl rfl)).tail
    (Step.unparkLose _ ⟨0, 1⟩ none 0 rfl rfl)).tail
    (Step.unparkFinish _ ⟨0, 1⟩ none 0 rfl)
  refine ⟨_, hrun, by simp, by simp, ?_⟩
  exact ((reachable_parkingLot_handoff hrun).2.1 ⟨0, 1⟩ (by simp) (by simp)).1

end Lot

end Muffin.Park
