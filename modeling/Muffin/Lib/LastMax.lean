-- SUMMARY: The last of the greatest: the element of a list that passes a test with the greatest key and stands after every other one of that key, and the one-pass scan that finds it by keeping the best so far and giving way on a tie.
import Mathlib

/-!
# The last of the greatest

A loop that walks a list and keeps the best element so far, replacing it by
every element that passes its test with a key at least as great, ends with the
last of the passing elements whose key is greatest. Every passing element
before it has a key no greater, and every passing element after it a smaller
one. `IsLastMaxBy p key l a` says this of `a`.

The scan is `foldl` of `lastMaxStep`, whose state is the value kept and its key.
It finds the last of the greatest (`foldl_lastMaxStep_of_isLastMaxBy`), which
exists as soon as one element passes (`exists_isLastMaxBy`), and it keeps
nothing when none does: `foldl_lastMaxStep_eq_some_iff` puts the three
together.
-/

namespace List

variable {α β κ : Type*} [LinearOrder κ] {p : α → Bool} {key : α → κ} {val : α → β}

/-- `a` passes `p`, stands after every passing element of `l` whose key is as great, and before
    only passing elements with a smaller key. -/
def IsLastMaxBy (p : α → Bool) (key : α → κ) (l : List α) (a : α) : Prop :=
  ∃ pre post, l = pre ++ a :: post ∧ p a ∧ (∀ b ∈ pre, p b → key b ≤ key a) ∧
    ∀ b ∈ post, p b → key b < key a

/-- One round of the scan: `x` takes the place of the value kept when it passes and nothing is
    kept yet or its key is at least the kept one's. -/
def lastMaxStep (p : α → Bool) (key : α → κ) (val : α → β) (s : Option β × κ) (x : α) :
    Option β × κ :=
  if p x && (s.1.isNone || decide (s.2 ≤ key x)) then (some (val x), key x) else s

theorem IsLastMaxBy.mem {l : List α} {a : α} (h : IsLastMaxBy p key l a) : a ∈ l := by
  obtain ⟨pre, post, rfl, -⟩ := h
  exact mem_append_right pre mem_cons_self

/-- The last of the greatest has the greatest key of all the passing elements. -/
theorem IsLastMaxBy.key_le {l : List α} {a : α} (h : IsLastMaxBy p key l a) :
    ∀ b ∈ l, p b → key b ≤ key a := by
  obtain ⟨pre, post, rfl, -, hpre, hpost⟩ := h
  intro b hb hpb
  rcases mem_append.1 hb with hb | hb
  · exact hpre b hb hpb
  · rcases mem_cons.1 hb with rfl | hb
    · exact le_refl _
    · exact le_of_lt (hpost b hb hpb)

/-- An element that fails, or passes with a key below the kept one's, leaves the scan as it is. -/
theorem lastMaxStep_eq_self {s : Option β × κ} {x : α} (h : p x → s.1.isSome ∧ key x < s.2) :
    lastMaxStep p key val s x = s := by
  unfold lastMaxStep
  rw [if_neg]
  cases hpx : p x with
  | false => simp
  | true =>
    obtain ⟨hs, hlt⟩ := h hpx
    simp [Option.isNone_iff_eq_none, Option.isSome_iff_ne_none.1 hs, not_le.2 hlt]

theorem foldl_lastMaxStep_eq_self {s : Option β × κ} :
    ∀ {l : List α}, (∀ b ∈ l, p b → s.1.isSome ∧ key b < s.2) →
      l.foldl (lastMaxStep p key val) s = s
  | [], _ => rfl
  | x :: l, h => by
    rw [foldl_cons, lastMaxStep_eq_self (h x mem_cons_self),
      foldl_lastMaxStep_eq_self fun b hb => h b (mem_cons_of_mem x hb)]

/-- After any list the scan keeps what it started with, or the value and key of a passing
    element. -/
theorem foldl_lastMaxStep_cases :
    ∀ (l : List α) (s : Option β × κ), l.foldl (lastMaxStep p key val) s = s ∨
      ∃ b ∈ l, p b ∧ l.foldl (lastMaxStep p key val) s = (some (val b), key b)
  | [], s => .inl rfl
  | x :: l, s => by
    rw [foldl_cons]
    -- the round at `x` either keeps `s` or takes `x`; the rest of the list starts from there
    have hx : lastMaxStep p key val s x = s ∨ p x ∧ lastMaxStep p key val s x = (some (val x), key x) := by
      unfold lastMaxStep
      split_ifs with h
      · exact .inr ⟨(Bool.and_eq_true _ _ ▸ h).1, rfl⟩
      · exact .inl rfl
    rcases foldl_lastMaxStep_cases l (lastMaxStep p key val s x) with hl | ⟨b, hb, hpb, hl⟩
    · rw [hl]
      rcases hx with hx | ⟨hpx, hx⟩
      · exact .inl hx
      · exact .inr ⟨x, mem_cons_self, hpx, hx⟩
    · exact .inr ⟨b, mem_cons_of_mem x hb, hpb, hl⟩

/-- The scan from nothing ends with the value and key of the last of the greatest. -/
theorem foldl_lastMaxStep_of_isLastMaxBy {l : List α} {a : α} (h : IsLastMaxBy p key l a) (k : κ) :
    l.foldl (lastMaxStep p key val) (none, k) = (some (val a), key a) := by
  obtain ⟨pre, post, rfl, hpa, hpre, hpost⟩ := h
  rw [foldl_append, foldl_cons]
  -- before `a` the scan keeps nothing or a passing element of `pre`, whose key is at most `a`'s
  have hat : lastMaxStep p key val (pre.foldl (lastMaxStep p key val) (none, k)) a =
      (some (val a), key a) := by
    rcases foldl_lastMaxStep_cases pre (none, k) with hs | ⟨b, hb, hpb, hs⟩
    · rw [hs]
      simp [lastMaxStep, hpa]
    · rw [hs]
      simp [lastMaxStep, hpa, hpre b hb hpb]
  rw [hat]
  exact foldl_lastMaxStep_eq_self fun b hb hpb => ⟨rfl, hpost b hb hpb⟩

/-- A list with a passing element has a last of the greatest. -/
theorem exists_isLastMaxBy : ∀ {l : List α}, (∃ b ∈ l, p b) → ∃ a, IsLastMaxBy p key l a
  | x :: l, ⟨b, hb, hpb⟩ => by
    by_cases hl : ∃ c ∈ l, p c
    · obtain ⟨a, ha⟩ := exists_isLastMaxBy hl
      by_cases hx : p x ∧ key a < key x
      · -- `x` outranks the last of the greatest of `l`, and so every passing element after it
        exact ⟨x, [], l, rfl, hx.1, by simp, fun c hc hpc => lt_of_le_of_lt (ha.key_le c hc hpc) hx.2⟩
      · obtain ⟨pre, post, rfl, hpa, hpre, hpost⟩ := ha
        refine ⟨a, x :: pre, post, rfl, hpa, ?_, hpost⟩
        rintro c hc hpc
        rcases mem_cons.1 hc with rfl | hc
        · exact not_lt.1 fun hlt => hx ⟨hpc, hlt⟩
        · exact hpre c hc hpc
    · -- nothing in `l` passes, so the passing element is `x`
      have hpx : p x := by
        rcases mem_cons.1 hb with rfl | hb
        · exact hpb
        · exact absurd ⟨b, hb, hpb⟩ hl
      exact ⟨x, [], l, rfl, hpx, by simp, fun c hc hpc => absurd ⟨c, hc, hpc⟩ hl⟩

/-- The scan from nothing ends with a value exactly when that is the value of the last of the
    greatest. -/
theorem foldl_lastMaxStep_eq_some_iff {l : List α} {k : κ} {v : β} :
    (l.foldl (lastMaxStep p key val) (none, k)).1 = some v ↔ ∃ a, IsLastMaxBy p key l a ∧ val a = v := by
  constructor
  · intro h
    by_cases hl : ∃ b ∈ l, p b
    · obtain ⟨a, ha⟩ : ∃ a, IsLastMaxBy p key l a := exists_isLastMaxBy hl
      rw [foldl_lastMaxStep_of_isLastMaxBy ha] at h
      exact ⟨a, ha, Option.some.inj h⟩
    · rw [foldl_lastMaxStep_eq_self fun b hb hpb => absurd ⟨b, hb, hpb⟩ hl] at h
      cases h
  · rintro ⟨a, ha, rfl⟩
    rw [foldl_lastMaxStep_of_isLastMaxBy ha]

end List
