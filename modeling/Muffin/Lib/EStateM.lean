-- SUMMARY: Rules for what a run of an `EStateM` computation does to its state on every outcome: the final state, relations a run moves the state along, and how they compose.
import Mathlib

/-!
# Runs of state-and-error computations

Code whose effects stay when it returns early (a Rust function that has
written some state and then returns `Err`) is modelled in `EStateM ε σ`, whose
failures keep the state they reached. `finalState x s` is the state a run of
`x` from `s` ends in, whether it succeeded or failed, and `Moves R x` says that
every run of `x` moves the state along the relation `R`.

For a reflexive and transitive `R` the rules below compose: `pure`, `get` and
`throw` move nothing, `bind` chains two moves, and a `get` whose continuation
moves from the state it read moves from there.
-/

namespace EStateM

variable {ε σ α β : Type}

/-- The state a run of `x` from `s` ends in, on success or on failure. -/
def finalState (x : EStateM ε σ α) (s : σ) : σ :=
  match x.run s with
  | .ok _ s' => s'
  | .error _ s' => s'

/-- The value a run of `x` from `s` returns, if it succeeds. -/
def value? (x : EStateM ε σ α) (s : σ) : Option α :=
  match x.run s with
  | .ok a _ => some a
  | .error _ _ => none

/-- Every run of `x` moves the state along `R`. -/
def Moves (R : σ → σ → Prop) (x : EStateM ε σ α) : Prop := ∀ s, R s (finalState x s)

theorem finalState_bind (x : EStateM ε σ α) (f : α → EStateM ε σ β) (s : σ) :
    finalState (x >>= f) s =
      match x.run s with
      | .ok a s' => finalState (f a) s'
      | .error _ s' => s' := by
  unfold finalState
  simp only [run_bind]
  cases x.run s <;> rfl

@[simp] theorem finalState_pure (a : α) (s : σ) : finalState (pure a : EStateM ε σ α) s = s := rfl

@[simp] theorem finalState_get (s : σ) : finalState (get : EStateM ε σ σ) s = s := rfl

@[simp] theorem finalState_set (s s' : σ) : finalState (set s' : EStateM ε σ PUnit) s = s' := rfl

@[simp] theorem finalState_throw (e : ε) (s : σ) :
    finalState (throw e : EStateM ε σ α) s = s := rfl

theorem finalState_get_bind (f : σ → EStateM ε σ β) (s : σ) :
    finalState (get >>= f) s = finalState (f s) s := rfl

theorem finalState_set_bind (s' : σ) (f : PUnit → EStateM ε σ β) (s : σ) :
    finalState (set s' >>= f) s = finalState (f ⟨⟩) s' := rfl

/-- Run `x` on the part `view s` of a larger state and put the part it ends in back with
    `update`, on both outcomes. -/
def focus {τ : Type} (view : σ → τ) (update : σ → τ → σ) (x : EStateM ε τ α) : EStateM ε σ α :=
  fun s =>
    match x.run (view s) with
    | .ok a t => .ok a (update s t)
    | .error e t => .error e (update s t)

theorem run_focus_ok {τ : Type} {view : σ → τ} {update : σ → τ → σ} {x : EStateM ε τ α} {s : σ}
    {a : α} {t : τ} (h : x.run (view s) = .ok a t) : (focus view update x).run s = .ok a (update s t) := by
  show (match x.run (view s) with
    | .ok a t => EStateM.Result.ok a (update s t)
    | .error e t => .error e (update s t)) = _
  rw [h]

theorem run_focus_error {τ : Type} {view : σ → τ} {update : σ → τ → σ} {x : EStateM ε τ α} {s : σ}
    {e : ε} {t : τ} (h : x.run (view s) = .error e t) :
    (focus view update x).run s = .error e (update s t) := by
  show (match x.run (view s) with
    | .ok a t => EStateM.Result.ok a (update s t)
    | .error e t => .error e (update s t)) = _
  rw [h]

/-- A successful run of a focused computation is a successful run on the part. -/
theorem run_focus_eq_ok {τ : Type} {view : σ → τ} {update : σ → τ → σ} {x : EStateM ε τ α} {s s' : σ}
    {a : α} (h : (focus view update x).run s = .ok a s') : ∃ t, x.run (view s) = .ok a t ∧ s' = update s t := by
  change (match x.run (view s) with
    | .ok a t => EStateM.Result.ok a (update s t)
    | .error e t => .error e (update s t)) = _ at h
  split at h <;> rename_i a' t ht
  · cases h
    exact ⟨t, ht, rfl⟩
  · cases h

/-- Every successful run of `x` returns a value that satisfies `P`. -/
def Returns (P : α → Prop) (x : EStateM ε σ α) : Prop :=
  ∀ s, match x.run s with
    | .ok a _ => P a
    | .error _ _ => True

/-- A successful run of `x >>= f` is a successful run of `x` and then one of `f`. -/
theorem run_bind_eq_ok {x : EStateM ε σ α} {f : α → EStateM ε σ β} {s s'' : σ} {b : β}
    (h : (x >>= f).run s = .ok b s'') : ∃ a s', x.run s = .ok a s' ∧ (f a).run s' = .ok b s'' := by
  rw [run_bind] at h
  split at h
  · exact ⟨_, _, ‹_›, h⟩
  · cases h

/-- A failing run of `x >>= f` failed in `x`, or in `f` after a successful run of `x`. -/
theorem run_bind_eq_error {x : EStateM ε σ α} {f : α → EStateM ε σ β} {s s'' : σ} {e : ε}
    (h : (x >>= f).run s = .error e s'') :
    x.run s = .error e s'' ∨ ∃ a s', x.run s = .ok a s' ∧ (f a).run s' = .error e s'' := by
  rw [run_bind] at h
  split at h
  · exact .inr ⟨_, _, ‹_›, h⟩
  · cases h
    exact .inl ‹_›

theorem run_bind_of_run_ok {x : EStateM ε σ α} {f : α → EStateM ε σ β} {s s' : σ} {a : α}
    (h : x.run s = .ok a s') : (x >>= f).run s = (f a).run s' := by
  rw [run_bind, h]

theorem run_bind_of_run_error {x : EStateM ε σ α} {f : α → EStateM ε σ β} {s s' : σ} {e : ε}
    (h : x.run s = .error e s') : (x >>= f).run s = .error e s' := by
  rw [run_bind, h]

theorem run_get_bind {f : σ → EStateM ε σ β} {s : σ} : (get >>= f).run s = (f s).run s := rfl

theorem run_set_bind {s' : σ} {f : PUnit → EStateM ε σ β} {s : σ} :
    (set s' >>= f).run s = (f ⟨⟩).run s' := rfl

theorem run_modify_bind {g : σ → σ} {f : PUnit → EStateM ε σ β} {s : σ} :
    (modify g >>= f).run s = (f ⟨⟩).run (g s) := rfl

/-- A run that succeeds continues from the state it reached. -/
theorem finalState_bind_of_run_ok {x : EStateM ε σ α} {f : α → EStateM ε σ β} {s s' : σ} {a : α}
    (h : x.run s = .ok a s') : finalState (x >>= f) s = finalState (f a) s' := by
  rw [finalState_bind, h]

section Rules

variable {R : σ → σ → Prop}

theorem Moves.pure [Std.Refl R] (a : α) : Moves R (pure a : EStateM ε σ α) :=
  fun s => refl_of R s

theorem Moves.throw [Std.Refl R] (e : ε) : Moves R (throw e : EStateM ε σ α) :=
  fun s => refl_of R s

theorem Moves.bind [Std.Refl R] [IsTrans σ R] {x : EStateM ε σ α} {f : α → EStateM ε σ β}
    (hx : Moves R x) (hf : ∀ a, Moves R (f a)) : Moves R (x >>= f) := by
  intro s
  rw [finalState_bind]
  have hxs := hx s
  unfold finalState at hxs
  split <;> rename_i hrun <;> rw [hrun] at hxs
  · exact trans_of R hxs (hf _ _)
  · exact hxs

theorem Moves.get_bind {f : σ → EStateM ε σ β} (hf : ∀ s, R s (finalState (f s) s)) :
    Moves R (get >>= f) := hf

theorem Moves.seq [Std.Refl R] [IsTrans σ R] {x : EStateM ε σ PUnit} {y : EStateM ε σ β}
    (hx : Moves R x) (hy : Moves R y) : Moves R (x >>= fun _ => y) :=
  hx.bind fun _ => hy

/-- A `set` to a state the relation reaches, followed by a move. -/
theorem Moves.set_bind [IsTrans σ R] {s s' : σ} {f : PUnit → EStateM ε σ β} (hs : R s s')
    (hf : Moves R (f ⟨⟩)) : R s (finalState (set s' >>= f) s) :=
  trans_of R hs (hf s')

theorem Moves.of_modify {f : σ → σ} (hf : ∀ s, R s (f s)) : Moves R (modify f : EStateM ε σ PUnit) :=
  hf

/-- A `modify` to a state the relation reaches, followed by a move. -/
theorem Moves.modify_bind [IsTrans σ R] {s : σ} {f : σ → σ} {g : PUnit → EStateM ε σ β} (hf : R s (f s))
    (hg : Moves R (g ⟨⟩)) : R s (finalState (modify f >>= g) s) :=
  trans_of R hf (hg (f s))

theorem Moves.ite {c : Prop} [Decidable c] {x y : EStateM ε σ α} (hx : Moves R x) (hy : Moves R y) :
    Moves R (if c then x else y) := by
  split
  · exact hx
  · exact hy

theorem Moves.mono {R' : σ → σ → Prop} (h : ∀ s s', R s s' → R' s s') {x : EStateM ε σ α}
    (hx : Moves R x) : Moves R' x :=
  fun s => h _ _ (hx s)

/-- A computation that leaves the state as it found it moves along every reflexive relation. -/
theorem Moves.of_eq [Std.Refl R] {x : EStateM ε σ α} (hx : Moves (· = ·) x) : Moves R x :=
  hx.mono fun s _ h => h ▸ refl_of R s

/-- `bind` where the continuation moves only from the values `x` returns, those that satisfy
    `P`. -/
theorem Moves.bind_returns [Std.Refl R] [IsTrans σ R] {P : α → Prop} {x : EStateM ε σ α}
    {f : α → EStateM ε σ β} (hx : Moves R x) (hP : Returns P x) (hf : ∀ a, P a → Moves R (f a)) :
    Moves R (x >>= f) := by
  intro s
  rw [finalState_bind]
  have hxs := hx s
  have hPs := hP s
  unfold finalState at hxs
  split <;> rename_i hrun <;> rw [hrun] at hxs hPs
  · exact trans_of R hxs (hf _ hPs _)
  · exact hxs

/-- The state of a successful run is one the relation reaches. -/
theorem Moves.of_run_ok {x : EStateM ε σ α} (hx : Moves R x) {s t : σ} {a : α}
    (h : x.run s = .ok a t) : R s t := by
  have hs := hx s
  unfold finalState at hs
  rwa [h] at hs

/-- The state of a failed run is one the relation reaches. -/
theorem Moves.of_run_error {x : EStateM ε σ α} (hx : Moves R x) {s t : σ} {e : ε}
    (h : x.run s = .error e t) : R s t := by
  have hs := hx s
  unfold finalState at hs
  rwa [h] at hs

/-- A `mapM` of computations that each move along `R` moves along `R`. -/
theorem Moves.mapM [Std.Refl R] [IsTrans σ R] {f : α → EStateM ε σ β} (hf : ∀ a, Moves R (f a)) :
    ∀ l : List α, Moves R (l.mapM f)
  | [] => Moves.pure _
  | a :: l => by
    rw [List.mapM_cons]
    exact (hf a).bind fun _ => (Moves.mapM hf l).bind fun _ => Moves.pure _

/-- Every value of a successful `mapM` of computations that leave the state as it is is the value
    of one of them, run from the first state. -/
theorem mem_of_run_mapM_ok {f : α → EStateM ε σ β} (hf : ∀ a, Moves (· = ·) (f a)) {s s' : σ} :
    ∀ {l : List α} {bs : List β}, (l.mapM f).run s = .ok bs s' → ∀ b ∈ bs, ∃ a ∈ l, (f a).run s = .ok b s
  | [], bs, h, b, hb => by
    cases h
    cases hb
  | a :: l, bs, h, b, hb => by
    rw [List.mapM_cons] at h
    obtain ⟨b₀, s₁, hb₀, hrest⟩ := run_bind_eq_ok h
    obtain rfl := (hf a).of_run_ok hb₀
    obtain ⟨bs', s₂, hbs', hpure⟩ := run_bind_eq_ok hrest
    cases hpure
    rcases List.mem_cons.1 hb with rfl | hb'
    · exact ⟨a, List.mem_cons_self, hb₀⟩
    · obtain ⟨a', ha', hrun⟩ := mem_of_run_mapM_ok hf hbs' b hb'
      exact ⟨a', List.mem_cons_of_mem a ha', hrun⟩

end Rules

-- ---------------------------------------------------------------------------
-- Refinement
-- ---------------------------------------------------------------------------

section Refinement

variable {τ : Type} {R : σ → τ → Prop}

/-- Two runs end alike: with the same value, or with the same error, in states related by
    `R`. -/
def ResultRel (R : σ → τ → Prop) : EStateM.Result ε σ α → EStateM.Result ε τ α → Prop
  | .ok a s, .ok b t => a = b ∧ R s t
  | .error e s, .error e' t => e = e' ∧ R s t
  | _, _ => False

/-- `x` refines `y` along `R`: run from related states, the two end alike. -/
def Refines (R : σ → τ → Prop) (x : EStateM ε σ α) (y : EStateM ε τ α) : Prop :=
  ∀ s t, R s t → ResultRel R (x.run s) (y.run t)

theorem Refines.pure (a : α) : Refines R (pure a : EStateM ε σ α) (pure a) :=
  fun _ _ h => ⟨rfl, h⟩

theorem Refines.throw (e : ε) : Refines R (throw e : EStateM ε σ α) (throw e) :=
  fun _ _ h => ⟨rfl, h⟩

/-- Refinement is compositional: the refining computations, chained as the refined ones are,
    refine the chain. -/
theorem Refines.bind {x : EStateM ε σ α} {y : EStateM ε τ α} {f : α → EStateM ε σ β}
    {g : α → EStateM ε τ β} (hx : Refines R x y) (hf : ∀ a, Refines R (f a) (g a)) :
    Refines R (x >>= f) (y >>= g) := by
  intro s t hst
  have hend := hx s t hst
  cases hxs : x.run s with
  | ok a s' =>
    cases hyt : y.run t with
    | ok b t' =>
      rw [hxs, hyt] at hend
      obtain ⟨rfl, hrel⟩ := hend
      rw [run_bind_of_run_ok hxs, run_bind_of_run_ok hyt]
      exact hf a s' t' hrel
    | error e t' =>
      rw [hxs, hyt] at hend
      exact hend.elim
  | error e s' =>
    cases hyt : y.run t with
    | ok b t' =>
      rw [hxs, hyt] at hend
      exact hend.elim
    | error e' t' =>
      rw [hxs, hyt] at hend
      obtain ⟨rfl, hrel⟩ := hend
      rw [run_bind_of_run_error hxs, run_bind_of_run_error hyt]
      exact ⟨rfl, hrel⟩

/-- A refined run that returns: the refining run returns the same value, in a related state. -/
theorem Refines.run_ok {x : EStateM ε σ α} {y : EStateM ε τ α} (hxy : Refines R x y) {s : σ}
    {t t' : τ} {a : α} (hst : R s t) (hy : y.run t = .ok a t') :
    ∃ s', x.run s = .ok a s' ∧ R s' t' := by
  have hend := hxy s t hst
  rw [hy] at hend
  cases hxs : x.run s with
  | ok b s' =>
    rw [hxs] at hend
    obtain ⟨rfl, hrel⟩ := hend
    exact ⟨s', rfl, hrel⟩
  | error e s' =>
    rw [hxs] at hend
    exact hend.elim

/-- A refined run that fails: the refining run fails the same way, in a related state. -/
theorem Refines.run_error {x : EStateM ε σ α} {y : EStateM ε τ α} (hxy : Refines R x y) {s : σ}
    {t t' : τ} {e : ε} (hst : R s t) (hy : y.run t = .error e t') :
    ∃ s', x.run s = .error e s' ∧ R s' t' := by
  have hend := hxy s t hst
  rw [hy] at hend
  cases hxs : x.run s with
  | ok b s' =>
    rw [hxs] at hend
    exact hend.elim
  | error e' s' =>
    rw [hxs] at hend
    obtain ⟨rfl, hrel⟩ := hend
    exact ⟨s', rfl, hrel⟩

/-- Refining runs end in related states, whether they return or fail. -/
theorem Refines.finalState {x : EStateM ε σ α} {y : EStateM ε τ α} (hxy : Refines R x y)
    {s : σ} {t : τ} (hst : R s t) : R (finalState x s) (finalState y t) := by
  have hend := hxy s t hst
  unfold EStateM.finalState
  split <;> split <;> simp_all [ResultRel]

end Refinement

end EStateM

namespace Except

variable {ε α β : Type}

@[simp] theorem ok_bind {a : α} {f : α → Except ε β} : (Except.ok a >>= f) = f a := rfl

@[simp] theorem error_bind {e : ε} {f : α → Except ε β} : (Except.error e >>= f) = .error e := rfl

/-- A bind that succeeded: so did the computation it started with. -/
theorem bind_eq_ok {x : Except ε α} {f : α → Except ε β} {b : β} :
    x >>= f = .ok b ↔ ∃ a, x = .ok a ∧ f a = .ok b := by
  cases x <;> simp [bind, Except.bind]

end Except
