-- SUMMARY: Runs of a step function that can fail, as `List.foldlM` in `Except`: the inputs a run allows along an abstract run, and the rule that a step which simulates a total abstract step makes every allowed run succeed and simulate the abstract run.
import Muffin.Lib.EStateM

/-!
# Runs of a step that can fail

A component whose calls can panic is a step `σ → ι → Except ε σ`, and a run of
calls is `List.foldlM` of it. Its purpose is often a simpler machine that cannot
fail: a total step `τ → ι → τ` on abstract states. A relation `R` between the two
is a simulation when every call that the abstract state allows succeeds on every
related concrete state and leads to a state related to the abstract successor.
`foldlM_simulates` lifts that one-step fact to every run whose inputs are each
allowed in the abstract state they meet (`AllowedAlong`): such a run never fails,
and it ends related to the abstract run.
-/

namespace Run

variable {ε σ τ ι : Type}

/-- Every input of the list is allowed, by `P`, in the abstract state that it meets when the
    abstract step `f` runs the inputs before it. -/
def AllowedAlong (f : τ → ι → τ) (P : τ → ι → Prop) : τ → List ι → Prop
  | _, [] => True
  | a, x :: xs => P a x ∧ AllowedAlong f P (f a x) xs

instance decidableAllowedAlong {f : τ → ι → τ} {P : τ → ι → Prop} [∀ a x, Decidable (P a x)] :
    ∀ a xs, Decidable (AllowedAlong f P a xs)
  | _, [] => isTrue trivial
  | a, x :: xs =>
    haveI := decidableAllowedAlong (f := f) (P := P) (f a x) xs
    inferInstanceAs (Decidable (P a x ∧ AllowedAlong f P (f a x) xs))

/-- Inputs that every state allows are allowed along every run. -/
theorem allowedAlong_of_forall {f : τ → ι → τ} {P : τ → ι → Prop} (h : ∀ a x, P a x) :
    ∀ (a : τ) (xs : List ι), AllowedAlong f P a xs
  | _, [] => trivial
  | a, x :: xs => ⟨h a x, allowedAlong_of_forall h (f a x) xs⟩

/-- A run allowed under a stronger condition is allowed under a weaker one. -/
theorem AllowedAlong.mono {f : τ → ι → τ} {P Q : τ → ι → Prop} (h : ∀ a x, P a x → Q a x) :
    ∀ {a : τ} {xs : List ι}, AllowedAlong f P a xs → AllowedAlong f Q a xs
  | _, [], _ => trivial
  | _, _ :: _, ⟨hx, hxs⟩ => ⟨h _ _ hx, AllowedAlong.mono h hxs⟩

/-- Allowedness that reads only a projection of the abstract state, which the abstract step
    advances on its own, can be checked on the projected run. -/
theorem allowedAlong_of_proj {υ : Type} {f : τ → ι → τ} {g : υ → ι → υ} {P : τ → ι → Prop}
    {Q : υ → ι → Prop} (π : τ → υ) (hf : ∀ a x, π (f a x) = g (π a) x)
    (hP : ∀ a x, Q (π a) x → P a x) :
    ∀ {a : τ} {xs : List ι}, AllowedAlong g Q (π a) xs → AllowedAlong f P a xs
  | _, [], _ => trivial
  | a, x :: xs, ⟨hx, hxs⟩ => ⟨hP a x hx, allowedAlong_of_proj π hf hP (a := f a x) (by rw [hf]; exact hxs)⟩

section Simulation

variable {step : σ → ι → Except ε σ} {f : τ → ι → τ} {R : σ → τ → Prop} {P : τ → ι → Prop}

/-- The simulation rule: a step that, from related states, succeeds on every allowed input and
    stays related to the abstract step makes every allowed run succeed and end related to the
    abstract run. -/
theorem foldlM_simulates (hstep : ∀ s a x, R s a → P a x → ∃ s', step s x = .ok s' ∧ R s' (f a x)) :
    ∀ {xs : List ι} {s : σ} {a : τ}, R s a → AllowedAlong f P a xs →
      ∃ s', xs.foldlM step s = .ok s' ∧ R s' (xs.foldl f a)
  | [], s, _, hR, _ => ⟨s, rfl, hR⟩
  | x :: xs, s, a, hR, ⟨hx, hxs⟩ => by
    obtain ⟨s₁, hs₁, hR₁⟩ := hstep s a x hR hx
    obtain ⟨s', hs', hR'⟩ := foldlM_simulates hstep hR₁ hxs
    refine ⟨s', ?_, hR'⟩
    rw [List.foldlM_cons, hs₁, Except.ok_bind, hs']

end Simulation

end Run
