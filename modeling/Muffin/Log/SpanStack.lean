-- SUMMARY: The stack of entered spans that each flow keeps (`SpanStack`: push, remove, top, at most 16 entries and a count of the dropped ones), proved to follow the unbounded stack of the spans the flow has entered and not yet exited over every run of enters and exits.
import Muffin.Lib.Slice
import Muffin.Lib.Run

/-!
# The span stack of a flow

`SpanStack` is the subscriber's record of the spans one flow (a task, in the
kernel) has entered, innermost last. It holds at most `SPAN_STACK_DEPTH` ids in a
fixed array; an enter beyond that only counts a dropped entry, and an exit of a
span it does not hold gives one back. The source says what this is for: while
nothing is dropped, the top is the innermost entered span.

The abstract stack is the one without a bound (`ideal`): an enter appends the
span, an exit takes out its innermost entry, as tracing's guards may be dropped
out of order. `Follows s I` relates the two: the entries of `s` are a sublist of
`I` (in order, with gaps), and they and the dropped count number exactly the
spans of `I`. Every push and every remove of a span the flow has entered keeps
it (`push_follows`, `remove_follows`), so the rule of `Muffin.Lib.Run` carries it
through every run that tracing can make (`run_follows_entered`). From it: the
stack never panics and never holds more than 16 ids, its top is the innermost
entered span as long as nothing is dropped, and it is empty again once the flow
has exited every span. A flow that never has more than 16 spans entered keeps
all of them (`run_entries_of_shallow`).
-/

namespace Muffin.Log

open Rust Rust.Slice

/-- `SPAN_STACK_DEPTH`. -/
def SPAN_STACK_DEPTH : Nat := 16

/-- `SpanStack`: the spans one flow has entered, innermost last. The counters are `usize`;
    `dropped` would need `2 ^ 64` nested enters to wrap. -/
structure SpanStack where
  ids : List UInt64
  len : Nat
  /-- Entries lost to overflow. -/
  dropped : Nat
  deriving DecidableEq, Repr

namespace SpanStack

/-- `SpanStack::new`. -/
def new : SpanStack := ⟨List.replicate SPAN_STACK_DEPTH 0, 0, 0⟩

/-- `SpanStack::push`. -/
def push (s : SpanStack) (id : UInt64) : Except Panic SpanStack :=
  if s.len < SPAN_STACK_DEPTH then do
    let ids ← setIndex s.ids s.len id
    pure { s with ids, len := s.len + 1 }
  else
    pure { s with dropped := s.dropped + 1 }

/-- `SpanStack::remove`: takes out the topmost entry equal to `id`, or gives back a dropped one. -/
def remove (s : SpanStack) (id : UInt64) : Except Panic SpanStack := do
  let some idx := rposition (← range s.ids 0 s.len) (· == id)
    | pure { s with dropped := s.dropped - 1 }  -- `saturating_sub(1)`
  let ids ← copyWithin s.ids (idx + 1) s.len idx
  let some len := checkedSub s.len 1 | throw ⟨"attempt to subtract with overflow"⟩
  pure { s with ids, len }

/-- `SpanStack::top`. -/
def top (s : SpanStack) : Except Panic (Option UInt64) :=
  match checkedSub s.len 1 with
  | none => pure none
  | some last => some <$> index s.ids last

/-- The entries the stack tracks, innermost last: `ids[..len]`. -/
def entries (s : SpanStack) : List UInt64 := s.ids.take s.len

/-- The shape every stack keeps: the array has its fixed length and `len` stays inside it. -/
structure Wf (s : SpanStack) : Prop where
  length_ids : s.ids.length = SPAN_STACK_DEPTH
  len_le : s.len ≤ SPAN_STACK_DEPTH

theorem new_wf : new.Wf := ⟨List.length_replicate, Nat.zero_le _⟩

@[simp] theorem new_entries : new.entries = [] := rfl

theorem Wf.length_entries {s : SpanStack} (h : s.Wf) : s.entries.length = s.len := by
  rw [entries, List.length_take, h.length_ids, Nat.min_eq_left h.len_le]

-- ---------------------------------------------------------------------------
-- One call at a time
-- ---------------------------------------------------------------------------

variable {s : SpanStack} {id : UInt64}

/-- A push below the bound appends the span. -/
theorem push_of_lt (id : UInt64) (h : s.Wf) (hlt : s.len < SPAN_STACK_DEPTH) :
    ∃ s', s.push id = .ok s' ∧ s'.Wf ∧ s'.entries = s.entries ++ [id] ∧ s'.dropped = s.dropped := by
  have hi : s.len < s.ids.length := h.length_ids ▸ hlt
  refine ⟨{ s with ids := s.ids.set s.len id, len := s.len + 1 }, ?_, ⟨?_, hlt⟩, ?_, rfl⟩
  · rw [push, if_pos hlt, setIndex_of_lt hi, Except.ok_bind]
    rfl
  · rw [List.length_set, h.length_ids]
  · exact take_succ_set hi

/-- A push at the bound only counts a dropped entry. -/
theorem push_of_full (hfull : ¬ s.len < SPAN_STACK_DEPTH) :
    s.push id = .ok { s with dropped := s.dropped + 1 } :=
  if_neg hfull

/-- The innermost entry equal to `id`, taken out of a list. -/
def eraseLast (id : UInt64) (l : List UInt64) : List UInt64 := (l.reverse.erase id).reverse

/-- A remove of a tracked span takes out its innermost entry; of another span, it gives back a
    dropped entry (none when there is none). -/
theorem remove_spec (id : UInt64) (h : s.Wf) :
    ∃ s', s.remove id = .ok s' ∧ s'.Wf ∧
      (id ∈ s.entries ∧ s'.entries = eraseLast id s.entries ∧ s'.dropped = s.dropped ∨
        id ∉ s.entries ∧ s'.entries = s.entries ∧ s'.dropped = s.dropped - 1) := by
  have hlen : s.len ≤ s.ids.length := h.length_ids ▸ h.len_le
  have hrange : range s.ids 0 s.len = .ok s.entries := by
    rw [range_of_le (Nat.zero_le _) hlen, extract_zero]
    rfl
  cases hpos : rposition s.entries (· == id) with
  | none =>
    have hnot : id ∉ s.entries := fun hid => by
      simpa using rposition_eq_none_iff.1 hpos id hid
    refine ⟨{ s with dropped := s.dropped - 1 }, ?_, ⟨h.length_ids, h.len_le⟩, .inr ⟨hnot, rfl, rfl⟩⟩
    rw [remove, hrange, Except.ok_bind]
    simp only [hpos]
    rfl
  | some idx =>
    -- `rposition` found the entry at `idx < len`, so the stack is not empty
    have hidx : idx < s.len := by
      obtain ⟨hlt, -⟩ := rposition_lt hpos
      rwa [h.length_entries] at hlt
    obtain ⟨ids, hcopy, hlength, htake⟩ := copyWithin_succ hidx hlen
    refine ⟨{ s with ids, len := s.len - 1 }, ?_, ⟨hlength.trans h.length_ids, (Nat.sub_le _ _).trans h.len_le⟩,
      .inl ⟨?_, ?_, rfl⟩⟩
    · rw [remove, hrange, Except.ok_bind]
      simp only [hpos, hcopy, Except.ok_bind, checkedSub_of_le (by omega : 1 ≤ s.len)]
      rfl
    · exact mem_of_rposition hpos
    · rw [entries, htake]
      exact eraseIdx_rposition hpos

/-- `top` reads the innermost tracked entry. -/
theorem top_eq (h : s.Wf) : s.top = .ok s.entries.getLast? := by
  have hlen := h.length_entries
  cases hn : s.len with
  | zero =>
    rw [hn] at hlen
    rw [top, hn, checkedSub_eq_none.2 Nat.zero_lt_one, List.getLast?_eq_none_iff.2 (List.length_eq_zero_iff.1 hlen)]
    rfl
  | succ n =>
    have hi : n < s.ids.length := by
      have := h.length_ids ▸ h.len_le
      omega
    rw [top, hn, checkedSub_of_le (Nat.le_add_left 1 n), Nat.add_sub_cancel]
    dsimp only
    rw [index_of_lt hi, List.getLast?_eq_getElem?, hlen, hn, Nat.add_sub_cancel, entries, hn,
      List.getElem?_take_of_lt (Nat.lt_succ_self n), List.getElem?_eq_getElem hi]
    rfl

-- ---------------------------------------------------------------------------
-- The unbounded stack
-- ---------------------------------------------------------------------------

/-- What the subscriber does to a flow's stack: `enter` pushes a span, `exit` removes it. -/
inductive Call where
  | push (id : UInt64)
  | remove (id : UInt64)
  deriving DecidableEq, Repr

/-- One call on the stack. -/
def call (s : SpanStack) : Call → Except Panic SpanStack
  | .push id => s.push id
  | .remove id => s.remove id

/-- The stack with no bound: an enter appends the span, an exit takes out its innermost entry. -/
def ideal (I : List UInt64) : Call → List UInt64
  | .push id => I ++ [id]
  | .remove id => eraseLast id I

/-- The calls tracing makes on a flow's stack: the flow exits only spans it has entered and not
    yet exited. -/
def Entered (I : List UInt64) : Call → Prop
  | .push _ => True
  | .remove id => id ∈ I

instance : ∀ I c, Decidable (Entered I c)
  | _, .push _ => isTrue trivial
  | I, .remove id => inferInstanceAs (Decidable (id ∈ I))

theorem eraseLast_sublist_eraseLast {l₁ l₂ : List UInt64} (h : List.Sublist l₁ l₂) :
    List.Sublist (eraseLast id l₁) (eraseLast id l₂) :=
  (h.reverse.erase id).reverse

theorem length_eraseLast_of_mem {l : List UInt64} (h : id ∈ l) :
    (eraseLast id l).length = l.length - 1 := by
  rw [eraseLast, List.length_reverse, List.length_erase_of_mem (List.mem_reverse.2 h),
    List.length_reverse]

theorem eraseLast_of_not_mem {l : List UInt64} (h : id ∉ l) : eraseLast id l = l := by
  rw [eraseLast, List.erase_of_not_mem (fun h' => h (List.mem_reverse.1 h')), List.reverse_reverse]

/-- `s` follows the unbounded stack `I`: its entries are `I` with gaps, and they and the dropped
    entries number the spans of `I`. -/
structure Follows (s : SpanStack) (I : List UInt64) : Prop where
  wf : s.Wf
  sublist : List.Sublist s.entries I
  count : s.entries.length + s.dropped = I.length

theorem new_follows : new.Follows [] := ⟨new_wf, List.Sublist.slnil, rfl⟩

/-- With nothing dropped, the entries are the whole unbounded stack. -/
theorem Follows.entries_eq {I : List UInt64} (h : s.Follows I) (h0 : s.dropped = 0) :
    s.entries = I :=
  h.sublist.eq_of_length (by have := h.count; omega)

theorem push_follows (id : UInt64) {I : List UInt64} (h : s.Follows I) :
    ∃ s', s.push id = .ok s' ∧ s'.Follows (I ++ [id]) := by
  by_cases hlt : s.len < SPAN_STACK_DEPTH
  · obtain ⟨s', hpush, hwf, hentries, hdropped⟩ := push_of_lt id h.wf hlt
    refine ⟨s', hpush, hwf, hentries ▸ h.sublist.append (List.Sublist.refl [id]), ?_⟩
    have hcount := h.count
    rw [hentries, hdropped, List.length_append, List.length_append]
    omega
  · refine ⟨_, push_of_full hlt, ⟨h.wf.length_ids, h.wf.len_le⟩,
      h.sublist.trans (List.sublist_append_left I [id]), ?_⟩
    have hcount := h.count
    show s.entries.length + (s.dropped + 1) = (I ++ [id]).length
    rw [List.length_append, List.length_singleton]
    omega

/-- The exit of an entered span keeps the relation: a tracked entry goes with it, or else a
    dropped one, which there must be since the span is entered but not tracked. -/
theorem remove_follows {I : List UInt64} (h : s.Follows I) (hid : id ∈ I) :
    ∃ s', s.remove id = .ok s' ∧ s'.Follows (eraseLast id I) := by
  obtain ⟨s', hremove, hwf, ⟨hmem, hentries, hdropped⟩ | ⟨hnot, hentries, hdropped⟩⟩ :=
    remove_spec id h.wf
  · refine ⟨s', hremove, hwf, hentries ▸ eraseLast_sublist_eraseLast h.sublist, ?_⟩
    have hpos : 0 < s.entries.length := List.length_pos_of_mem hmem
    have hcount := h.count
    rw [hentries, hdropped, length_eraseLast_of_mem hmem, length_eraseLast_of_mem hid]
    omega
  · refine ⟨s', hremove, hwf, ?_, ?_⟩
    · rw [hentries, ← eraseLast_of_not_mem hnot]
      exact eraseLast_sublist_eraseLast h.sublist
    · -- the entries miss `id`, so they are not all of `I`: some entry was dropped
      have hlt : s.entries.length < I.length := by
        refine lt_of_le_of_ne h.sublist.length_le fun heq => hnot ?_
        rw [h.sublist.eq_of_length heq]
        exact hid
      have hcount := h.count
      rw [hentries, hdropped, length_eraseLast_of_mem hid]
      omega

theorem call_follows (s : SpanStack) (I : List UInt64) (c : Call) (h : s.Follows I) (hc : Entered I c) :
    ∃ s', s.call c = .ok s' ∧ s'.Follows (ideal I c) := by
  cases c with
  | push id => exact push_follows id h
  | remove id => exact remove_follows h hc

-- ---------------------------------------------------------------------------
-- Runs
-- ---------------------------------------------------------------------------

/-- Over every run of enters and exits that tracing can make on a new stack (each exit of a span
    the flow has entered and not yet exited), no call panics, the stack tracks at most 16 spans,
    which are the entered spans in order with gaps, and the tracked and dropped entries number
    the entered spans. So while nothing is dropped, `top` is the innermost entered span, and once
    every span is exited the stack is empty again. -/
theorem run_follows_entered (calls : List Call) (hcalls : Run.AllowedAlong ideal Entered [] calls) :
    ∃ s, calls.foldlM call new = .ok s ∧ s.len ≤ SPAN_STACK_DEPTH ∧
      List.Sublist s.entries (calls.foldl ideal []) ∧
      s.entries.length + s.dropped = (calls.foldl ideal []).length ∧
      (s.dropped = 0 → s.top = .ok (calls.foldl ideal []).getLast?) ∧
      (calls.foldl ideal [] = [] → s.len = 0 ∧ s.dropped = 0) := by
  obtain ⟨s, hrun, hf⟩ := Run.foldlM_simulates call_follows new_follows hcalls
  refine ⟨s, hrun, hf.wf.len_le, hf.sublist, hf.count, fun h0 => ?_, fun hnil => ?_⟩
  · rw [top_eq hf.wf, hf.entries_eq h0]
  · have hcount := hf.count
    rw [hnil, List.length_nil, hf.wf.length_entries] at hcount
    omega

theorem run_follows_entered_enter_exit :
    Run.AllowedAlong ideal Entered [] [.push 1, .push 2, .remove 1] ∧
      ∃ s, [Call.push 1, .push 2, .remove 1].foldlM call new = .ok s ∧ s.len ≤ SPAN_STACK_DEPTH ∧
        List.Sublist s.entries ([Call.push 1, .push 2, .remove 1].foldl ideal []) ∧
        s.entries.length + s.dropped = ([Call.push 1, .push 2, .remove 1].foldl ideal []).length ∧
        (s.dropped = 0 → s.top = .ok ([Call.push 1, .push 2, .remove 1].foldl ideal []).getLast?) ∧
        ([Call.push 1, .push 2, .remove 1].foldl ideal [] = [] → s.len = 0 ∧ s.dropped = 0) :=
  ⟨by decide, run_follows_entered _ (by decide)⟩

/-- The calls of a flow that never has more than `SPAN_STACK_DEPTH` spans entered at once. -/
def Shallow (I : List UInt64) : Call → Prop
  | .push _ => I.length < SPAN_STACK_DEPTH
  | .remove id => id ∈ I

instance : ∀ I c, Decidable (Shallow I c)
  | I, .push _ => inferInstanceAs (Decidable (I.length < SPAN_STACK_DEPTH))
  | I, .remove id => inferInstanceAs (Decidable (id ∈ I))

/-- A flow that never has more than 16 spans entered at once drops nothing: its stack tracks
    exactly the spans it has entered and not exited, so `top` is always the innermost one. -/
theorem run_entries_of_shallow (calls : List Call) (hcalls : Run.AllowedAlong ideal Shallow [] calls) :
    ∃ s, calls.foldlM call new = .ok s ∧ s.entries = calls.foldl ideal [] ∧ s.dropped = 0 ∧
      s.top = .ok (calls.foldl ideal []).getLast? := by
  -- the relation carried is `Follows` with nothing dropped
  have hstep : ∀ (s : SpanStack) I c, (s.Follows I ∧ s.dropped = 0) → Shallow I c →
      ∃ s', s.call c = .ok s' ∧ (s'.Follows (ideal I c) ∧ s'.dropped = 0) := by
    rintro s I c ⟨hf, h0⟩ hc
    have hentries := hf.entries_eq h0
    cases c with
    | push id =>
      have hlt : s.len < SPAN_STACK_DEPTH := by
        rw [← hf.wf.length_entries, hentries]
        exact hc
      obtain ⟨s', hpush, -, -, hdropped⟩ := push_of_lt id hf.wf hlt
      obtain ⟨s'', hpush', hf'⟩ := push_follows id hf
      obtain rfl : s' = s'' := Except.ok.inj (hpush.symm.trans hpush')
      exact ⟨s', hpush, hf', hdropped.trans h0⟩
    | remove id =>
      obtain ⟨s', hremove, -, ⟨-, -, hdropped⟩ | ⟨hnot, -⟩⟩ := remove_spec id hf.wf
      · obtain ⟨s'', hremove', hf'⟩ := remove_follows hf hc
        obtain rfl : s' = s'' := Except.ok.inj (hremove.symm.trans hremove')
        exact ⟨s', hremove, hf', hdropped.trans h0⟩
      · exact absurd (hentries ▸ hc) hnot
  obtain ⟨s, hrun, hf, h0⟩ := Run.foldlM_simulates hstep ⟨new_follows, rfl⟩ hcalls
  exact ⟨s, hrun, hf.entries_eq h0, h0, by rw [top_eq hf.wf, hf.entries_eq h0]⟩

theorem run_entries_of_shallow_nested :
    Run.AllowedAlong ideal Shallow [] [.push 1, .push 2, .remove 2] ∧
      ∃ s, [Call.push 1, .push 2, .remove 2].foldlM call new = .ok s ∧
        s.entries = [Call.push 1, .push 2, .remove 2].foldl ideal [] ∧ s.dropped = 0 ∧
        s.top = .ok ([Call.push 1, .push 2, .remove 2].foldl ideal []).getLast? :=
  ⟨by decide, run_entries_of_shallow _ (by decide)⟩

end SpanStack

end Muffin.Log
