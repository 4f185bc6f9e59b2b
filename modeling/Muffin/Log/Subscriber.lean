-- SUMMARY: The subscriber's span bookkeeping: `FixedBuf` with its truncating `write_str`, the span pool of live spans (`SpanPool`: insert, get_mut, remove, ids from `next_id`) and the span calls `new_span`, `record`, `clone_span`, `enter`, `exit`, `try_close` and `current_span`; over every run of pool calls, a span's life: live while references are open, closed once, with a record of its whole life.
import Muffin.Lib.Utf8
import Muffin.Log.SpanStack
import Muffin.Log.Spec

/-!
# The span subscriber

`SpanSubscriber` keeps every live span in a fixed pool of `MAX_SPANS` slots,
searched linearly by id, and renders a span's fields and close label into
fixed buffers that truncate at character boundaries, so that logging never
allocates. This module models those three pieces as the source has them.

* `FixedBuf N` is `N` bytes and a length. `write_str` copies the longest
  prefix of whole characters that fits in the bytes left (`writeStr_holds`), so
  the bytes written are always whole characters and `as_str` never needs its
  fallback (`writeStrs_asStr`).
* `SpanPool` is a list of `MAX_SPANS` optional spans and the next id. Each call
  of the subscriber that names a span (`record`, `clone_span`, `enter`, `exit`,
  `try_close`) finds it with `get_mut` and changes it through the closure the
  source passes, which is a function on `SpanData` here (`SpanData.enter`, ...).
  A span is created by `new_span` with one reference, and closed by the
  `try_close` that drops its last one, which renders its close record.
* The calls that read a flow's stack (`enter`, `exit`, `current_span`) use
  `Muffin.Log.SpanStack`.

Each subscriber call runs its pool part under the pool lock and its stack part
under the flow's own lock, so every interleaving of calls from all flows is a
sequence of pool calls (`PoolCall`) and of stack calls, which commute across
flows. The theorems are over every sequence of pool calls. The rendering of
records into text (`write_record`, `write_duration`, `level_style`) is not
modelled: a close is the `Closed` value that it renders.

The pool keeps `SpanPool.Wf` under every call while the clock does not go back.
Against it, `Life` is what one span's handles say of it: the references open,
and the records it has rendered. `Lives` relates a run to the life of one span,
and `newSpan_lifecycle` follows every run from `new_span` on: the span stays in
the pool exactly while it has references, and the one close record it renders,
at the close of its last reference, carries busy and idle times that add up to
its whole life.
-/

namespace Muffin.Log

open Rust Rust.Slice Str

/-- `MAX_SPANS`: live spans tracked at once. -/
def MAX_SPANS : Nat := 64

/-- `FIELDS_CAP`: rendered fields per span. -/
def FIELDS_CAP : Nat := 256

/-- `LABEL_CAP`: rendered close label per span. -/
def LABEL_CAP : Nat := 256

-- ---------------------------------------------------------------------------
-- Fixed buffers
-- ---------------------------------------------------------------------------

/-- `FixedBuf<N>`: `N` bytes, of which the first `len` are written. -/
structure FixedBuf (N : Nat) where
  buf : List UInt8
  len : Nat
  deriving DecidableEq, Repr

namespace FixedBuf

variable {N : Nat}

/-- `FixedBuf::new`. -/
def new : FixedBuf N := ⟨List.replicate N 0, 0⟩

/-- `FixedBuf::as_str`: the written bytes as a string, or `""` if they were not UTF-8. -/
def asStr (b : FixedBuf N) : Except Panic (List Char) := do
  pure ((fromUtf8 (← range b.buf 0 b.len)).getD [])

/-- `FixedBuf::is_empty`. -/
def isEmpty (b : FixedBuf N) : Bool := b.len == 0

/-- The loop of `write_str` that backs `take` off until it ends a whole character:
    `while take > 0 && !s.is_char_boundary(take) { take -= 1 }`. -/
def backOff (s : List Char) : Nat → Nat
  | 0 => 0
  | take + 1 => if isCharBoundary s (take + 1) then take + 1 else backOff s take

/-- `<FixedBuf<N> as Write>::write_str`. -/
def writeStr (b : FixedBuf N) (s : List Char) : Except Panic (FixedBuf N) := do
  let some remaining := checkedSub N b.len | throw ⟨"attempt to subtract with overflow"⟩
  let take := backOff s (min (asBytes s).length remaining)
  -- `self.buf[self.len..self.len + take]` is indexed before `s.as_bytes()[..take]`
  let _ ← range b.buf b.len (b.len + take)
  let buf ← copyFromSlice b.buf b.len (b.len + take) (← range (asBytes s) 0 take)
  pure ⟨buf, b.len + take⟩

/-- The buffer holds the bytes of `cs`: `buf[..len]` is their encoding, inside the `N` bytes. -/
structure Holds (b : FixedBuf N) (cs : List Char) : Prop where
  length_buf : b.buf.length = N
  len_eq : b.len = byteLen cs
  len_le : b.len ≤ N
  take_buf : b.buf.take b.len = asBytes cs

theorem new_holds : (new : FixedBuf N).Holds [] :=
  ⟨List.length_replicate, rfl, Nat.zero_le N, List.take_zero⟩

theorem backOff_le (s : List Char) : ∀ t, backOff s t ≤ t
  | 0 => le_refl 0
  | t + 1 => by
    unfold backOff
    split
    · exact le_refl _
    · exact (backOff_le s t).trans (Nat.le_succ t)

theorem isCharBoundary_backOff (s : List Char) : ∀ t, isCharBoundary s (backOff s t) = true
  | 0 => rfl
  | t + 1 => by
    unfold backOff
    split
    · assumption
    · exact isCharBoundary_backOff s t

/-- The loop stops at the greatest boundary up to where it starts. -/
theorem le_backOff {s : List Char} {i : Nat} (hi : isCharBoundary s i = true) :
    ∀ {t : Nat}, i ≤ t → i ≤ backOff s t
  | 0, h => h
  | t + 1, h => by
    unfold backOff
    split
    · exact h
    · -- `t + 1` ends no whole character, so the boundary `i` lies below it
      rename_i hnot
      have hne : i ≠ t + 1 := fun heq => hnot (heq ▸ hi)
      exact le_backOff hi (by omega)

/-- `write_str` keeps the longest prefix of whole characters that fits in the bytes left. -/
theorem backOff_eq_byteLen_fitting (s : List Char) (r : Nat) :
    backOff s (min (byteLen s) r) = byteLen (fitting r s) :=
  le_antisymm
    (le_byteLen_fitting (isCharBoundary_backOff s _) ((backOff_le s _).trans (Nat.min_le_right _ _)))
    (le_backOff (isCharBoundary_byteLen_fitting r s)
      (le_min (byteLen_fitting_le_byteLen r s) (byteLen_fitting_le r s)))

/-- A write appends the longest prefix of whole characters of `s` that fits in the bytes left. -/
theorem writeStr_holds {b : FixedBuf N} {cs : List Char} (h : b.Holds cs) (s : List Char) :
    ∃ b', b.writeStr s = .ok b' ∧ b'.Holds (cs ++ fitting (N - b.len) s) := by
  obtain ⟨k, hk⟩ : ∃ k, byteLen (fitting (N - b.len) s) = k := ⟨_, rfl⟩
  have hroom : k ≤ N - b.len := hk ▸ byteLen_fitting_le _ _
  have hks : k ≤ byteLen s := hk ▸ byteLen_fitting_le_byteLen _ _
  have hbuf : b.len + k ≤ b.buf.length := by
    have := h.len_le
    rw [h.length_buf]
    omega
  have hsrc : range (asBytes s) 0 k = .ok (asBytes (fitting (N - b.len) s)) := by
    rw [range_of_le (Nat.zero_le k) (by rw [length_asBytes]; exact hks), extract_zero, ← hk,
      take_asBytes_fitting]
  have hlen : (asBytes (fitting (N - b.len) s)).length = b.len + k - b.len := by
    rw [length_asBytes, hk, Nat.add_sub_cancel_left]
  refine ⟨⟨b.buf.take b.len ++ asBytes (fitting (N - b.len) s) ++ b.buf.drop (b.len + k), b.len + k⟩,
    ?_, ⟨?_, ?_, ?_, ?_⟩⟩
  · rw [writeStr, checkedSub_of_le h.len_le]
    dsimp only
    rw [length_asBytes, backOff_eq_byteLen_fitting, hk, range_of_le (Nat.le_add_right _ _) hbuf,
      Except.ok_bind, hsrc, Except.ok_bind, copyFromSlice_of_le (Nat.le_add_right _ _) hbuf hlen]
    rfl
  · have := h.len_le
    simp only [List.length_append, List.length_take, List.length_drop, length_asBytes, hk,
      h.length_buf]
    omega
  · rw [byteLen_append, hk, h.len_eq]
  · show b.len + k ≤ N
    have := h.len_le
    omega
  · have hfront : (b.buf.take b.len ++ asBytes (fitting (N - b.len) s)).length = b.len + k := by
      rw [List.length_append, List.length_take, length_asBytes, hk, Nat.min_eq_left (by omega)]
    rw [← hfront, List.take_left, h.take_buf, asBytes_append]

/-- `as_str` reads back the characters a buffer holds: never its fallback. -/
theorem asStr_of_holds {b : FixedBuf N} {cs : List Char} (h : b.Holds cs) : b.asStr = .ok cs := by
  rw [asStr, range_of_le (Nat.zero_le _) (by rw [h.length_buf]; exact h.len_le), Except.ok_bind,
    extract_zero,
    h.take_buf, fromUtf8_asBytes]
  rfl

/-- The characters a buffer of `N` bytes holds after the writes before `s`, and then `s`: each
    write adds the longest prefix of whole characters that fits in the bytes left. -/
def written (N : Nat) (cs s : List Char) : List Char := cs ++ fitting (N - byteLen cs) s

/-- A run of writes from a buffer that holds `cs` never panics and leaves it holding what
    `written` says. -/
theorem writeStrs_holds {b : FixedBuf N} {cs : List Char} (h : b.Holds cs) (ss : List (List Char)) :
    ∃ b', ss.foldlM writeStr b = .ok b' ∧ b'.Holds (ss.foldl (written N) cs) := by
  have hstep : ∀ (b : FixedBuf N) (cs : List Char) (s : List Char), b.Holds cs → True →
      ∃ b', b.writeStr s = .ok b' ∧ b'.Holds (written N cs s) := by
    intro b cs s h _
    obtain ⟨b', hb', h'⟩ := writeStr_holds h s
    rw [written, ← h.len_eq]
    exact ⟨b', hb', h'⟩
  exact Run.foldlM_simulates hstep h (Run.allowedAlong_of_forall (fun _ _ => trivial) cs ss)

/-- Over every sequence of writes into a new buffer, no write panics, the buffer never holds more
    than `N` bytes, and `as_str` returns exactly the longest prefix of whole characters of each
    string that fitted in the bytes left when it was written: the bytes are always whole
    characters, so `as_str` never falls back to `""`. -/
theorem writeStrs_asStr (N : Nat) (ss : List (List Char)) :
    ∃ b, ss.foldlM writeStr (new : FixedBuf N) = .ok b ∧ b.len ≤ N ∧
      b.len = byteLen (ss.foldl (written N) []) ∧ b.asStr = .ok (ss.foldl (written N) []) := by
  obtain ⟨b, hrun, h⟩ := writeStrs_holds new_holds ss
  exact ⟨b, hrun, h.len_le, h.len_eq, asStr_of_holds h⟩

end FixedBuf

-- ---------------------------------------------------------------------------
-- Spans
-- ---------------------------------------------------------------------------

/-- A span's `Metadata`, as the subscriber reads it: its name, level and target. -/
structure Meta where
  name : String
  level : Level
  target : String
  deriving DecidableEq, Repr

/-- A field of a span or an event, as a visitor sees it: its name and the pieces that the
    formatting of its value writes (one, for a `&str`). -/
structure Field where
  name : String
  value : List (List Char)
  deriving DecidableEq, Repr

/-- What `FieldVisitor` writes for a field: nothing for `message`, and otherwise the pieces of
    `" \x1b[2m{}=\x1b[0m{value}"`. -/
def FieldVisitor.pieces (f : Field) : List (List Char) :=
  if f.name = "message" then [] else [" \x1b[2m".toList, f.name.toList, "=\x1b[0m".toList] ++ f.value

/-- `record` of some fields through a `FieldVisitor` into a buffer. -/
def recordFields {N : Nat} (out : FixedBuf N) (fields : List Field) : Except Panic (FixedBuf N) :=
  (fields.flatMap FieldVisitor.pieces).foldlM FixedBuf.writeStr out

/-- `SpanData`: a live span. The times are `u64` nanoseconds; `refs` is a `usize` that counts the
    span's handles, which cannot reach `2 ^ 64`. -/
structure SpanData where
  id : UInt64
  metadata : Meta
  fields : FixedBuf FIELDS_CAP
  refs : Nat
  busy : Nat
  idle : Nat
  last : Nat
  deriving DecidableEq, Repr

/-- What a closed span's record renders: its metadata, its label and its busy and idle times. -/
structure Closed where
  metadata : Meta
  label : FixedBuf LABEL_CAP
  busy : Nat
  idle : Nat
  deriving DecidableEq, Repr

namespace SpanData

/-- `record` on a live span: the new fields are rendered after the old ones. -/
def record (d : SpanData) (fields : List Field) : Except Panic SpanData := do
  pure { d with fields := ← recordFields d.fields fields }

/-- `clone_span` on a live span. -/
def cloneSpan (d : SpanData) : SpanData := { d with refs := d.refs + 1 }

/-- `enter` on a live span: the time since its last transition was idle. -/
def enter (d : SpanData) (now : Nat) : Except Panic SpanData := do
  let some idle := checkedAdd d.idle (now - d.last) | throw ⟨"attempt to add with overflow"⟩
  pure { d with idle, last := now }

/-- `exit` on a live span: the time since its last transition was busy. -/
def exit (d : SpanData) (now : Nat) : Except Panic SpanData := do
  let some busy := checkedAdd d.busy (now - d.last) | throw ⟨"attempt to add with overflow"⟩
  pure { d with busy, last := now }

/-- `SpanData::write_label`: the name, then the fields in dim parentheses if there are any. -/
def writeLabel (d : SpanData) (out : FixedBuf LABEL_CAP) : Except Panic (FixedBuf LABEL_CAP) := do
  let out ← out.writeStr d.metadata.name.toList
  if d.fields.isEmpty then
    pure out
  else
    ["\x1b[2m(\x1b[0m".toList, Str.trimStart (← d.fields.asStr), "\x1b[2m)\x1b[0m".toList].foldlM
      FixedBuf.writeStr out

/-- `try_close` on a live span: one reference fewer; when that was the last one, the idle time up
    to now, the label, and the values of the close record. -/
def release (d : SpanData) (now : Nat) : Except Panic (SpanData × Option Closed) := do
  let d := { d with refs := d.refs - 1 }
  if 0 < d.refs then
    return (d, none)
  let some idle := checkedAdd d.idle (now - d.last) | throw ⟨"attempt to add with overflow"⟩
  let d := { d with idle }
  let label ← d.writeLabel FixedBuf.new
  pure (d, some ⟨d.metadata, label, d.busy, d.idle⟩)

end SpanData

-- ---------------------------------------------------------------------------
-- The pool
-- ---------------------------------------------------------------------------

/-- `SpanPool`: the live spans in `MAX_SPANS` slots, and the id of the next span. -/
structure SpanPool where
  slots : List (Option SpanData)
  nextId : UInt64
  deriving DecidableEq, Repr

namespace SpanPool

/-- `SpanPool::new`. -/
def new : SpanPool := ⟨List.replicate MAX_SPANS none, 1⟩

/-- `SpanPool::insert`: into the first free slot; a full pool drops the span. -/
def insert (p : SpanPool) (data : SpanData) : SpanPool :=
  match p.slots.findIdx? Option.isNone with
  | some i => { p with slots := p.slots.set i (some data) }
  | none => p

/-- The slot of the first live span with this id. -/
def slotOf (p : SpanPool) (id : UInt64) : Option Nat :=
  p.slots.findIdx? fun slot => slot.any (·.id == id)

/-- `SpanPool::get_mut`: the first live span with this id, with its slot. -/
def getMut (p : SpanPool) (id : UInt64) : Option (Nat × SpanData) := do
  let i ← p.slotOf id
  let data ← p.slots[i]?.join
  pure (i, data)

/-- A span written back into its slot, as through the `&mut` that `get_mut` returns. -/
def setSlot (p : SpanPool) (i : Nat) (data : SpanData) : SpanPool :=
  { p with slots := p.slots.set i (some data) }

/-- `SpanPool::remove`. -/
def remove (p : SpanPool) (id : UInt64) : SpanPool :=
  match p.slotOf id with
  | some i => { p with slots := p.slots.set i none }
  | none => p

/-- `if let Some(data) = pool.get_mut(id) { f(data) }`. -/
def modify (p : SpanPool) (id : UInt64) (f : SpanData → Except Panic SpanData) : Except Panic SpanPool :=
  match p.getMut id with
  | some (i, data) => do pure (p.setSlot i (← f data))
  | none => pure p

/-- The pool part of `new_span`: the span takes the next id, which skips 0 when it wraps, and
    the first free slot, with one reference and no time spent. -/
def newSpan (p : SpanPool) (metadata : Meta) (fields : FixedBuf FIELDS_CAP) (now : Nat) :
    SpanPool × UInt64 :=
  let id := p.nextId
  let nextId := p.nextId + 1
  let nextId := if nextId = 0 then 1 else nextId
  ({ p with nextId }.insert ⟨id, metadata, fields, 1, 0, 0, now⟩, id)

/-- The pool part of `try_close`: the span loses a reference, and leaves the pool with its close
    record when that was the last one. -/
def tryClose (p : SpanPool) (id : UInt64) (now : Nat) : Except Panic (SpanPool × Option Closed) :=
  match p.getMut id with
  | none => pure (p, none)
  | some (i, data) => do
    let (data, closed) ← data.release now
    match closed with
    | none => pure (p.setSlot i data, none)
    | some c => pure ((p.setSlot i data).remove id, some c)

end SpanPool

-- ---------------------------------------------------------------------------
-- The subscriber's calls
-- ---------------------------------------------------------------------------

namespace SpanSubscriber

/-- `SpanSubscriber::enabled`. -/
def enabled (f : Filter) (metadata : Meta) : Except Panic Bool := f.enabled metadata.target metadata.level

/-- `SpanSubscriber::max_level_hint`. -/
def maxLevelHint (f : Filter) : Option LevelFilter := some f.max

/-- `SpanSubscriber::new_span`: the fields are rendered before the pool is locked. -/
def newSpan (pool : SpanPool) (metadata : Meta) (fields : List Field) (now : Nat) :
    Except Panic (SpanPool × UInt64) := do
  let fields ← recordFields FixedBuf.new fields
  pure (pool.newSpan metadata fields now)

/-- `SpanSubscriber::record`. -/
def record (pool : SpanPool) (id : UInt64) (fields : List Field) : Except Panic SpanPool :=
  pool.modify id (·.record fields)

/-- `SpanSubscriber::clone_span`. -/
def cloneSpan (pool : SpanPool) (id : UInt64) : Except Panic SpanPool :=
  pool.modify id fun d => pure d.cloneSpan

/-- `SpanSubscriber::enter`: the span's idle time in the pool, then a push on the flow's stack,
    if the environment keeps one for the flow. -/
def enter (pool : SpanPool) (stack : Option SpanStack) (id : UInt64) (now : Nat) :
    Except Panic (SpanPool × Option SpanStack) := do
  let pool ← pool.modify id (·.enter now)
  let stack ← stack.mapM (·.push id)
  pure (pool, stack)

/-- `SpanSubscriber::exit`. -/
def exit (pool : SpanPool) (stack : Option SpanStack) (id : UInt64) (now : Nat) :
    Except Panic (SpanPool × Option SpanStack) := do
  let pool ← pool.modify id (·.exit now)
  let stack ← stack.mapM (·.remove id)
  pure (pool, stack)

/-- `SpanSubscriber::try_close`: whether the span closed, and the record it renders. -/
def tryClose (pool : SpanPool) (id : UInt64) (now : Nat) :
    Except Panic (SpanPool × Bool × Option Closed) := do
  let (pool, closed) ← pool.tryClose id now
  pure (pool, closed.isSome, closed)

/-- `SpanSubscriber::current_span`: the top of the flow's stack, if the pool still holds it. -/
def currentSpan (pool : SpanPool) (stack : Option SpanStack) : Except Panic (Option (UInt64 × Meta)) := do
  let some (some id) ← stack.mapM SpanStack.top | pure none
  pure ((pool.getMut id).map fun (_, d) => (id, d.metadata))

end SpanSubscriber

-- ---------------------------------------------------------------------------
-- The filter as the subscriber uses it
-- ---------------------------------------------------------------------------

/-- The subscriber's `max_level_hint` bounds every level that its `enabled` passes, for the filter
    that `parse` builds from any input: `tracing` skips the callsites above the hint without
    asking `enabled`, and loses nothing by it. -/
theorem enabled_le_maxLevelHint (s : String) :
    ∃ f, Filter.parse s = .ok f ∧ ∀ m : Meta, SpanSubscriber.enabled f m = .ok true →
      ∃ hint, SpanSubscriber.maxLevelHint f = some hint ∧ m.level.toFilter ≤ hint := by
  obtain ⟨f, hparse, hwf, hread, hmax⟩ := parseBytes_spec s.toUTF8.toList
  refine ⟨f, hparse, fun m hm => ⟨f.max, rfl, ?_⟩⟩
  obtain ⟨b, hb, hiff⟩ := enabledBytes_decides hwf m.target.toUTF8.toList m.level
  have htrue : b = true := by
    have hm' : f.enabledBytes m.target.toUTF8.toList m.level = .ok true := hm
    rw [hb] at hm'
    exact Except.ok.inj hm'
  -- the directive that decides the target allows the level, and it is one of the filter's
  obtain ⟨r, hr, hle⟩ := hiff.1 htrue
  calc m.level.toFilter ≤ r.level := hle
    _ ≤ maxLevel ((f.directives.take f.count).map (Directive.read f.buf)) := le_maxLevel hr.mem
    _ = f.max := by rw [hread, hmax]

-- ---------------------------------------------------------------------------
-- What each call does to a live span
-- ---------------------------------------------------------------------------

/-- Fields recorded into a buffer of whole characters leave it one. -/
theorem recordFields_holds {N : Nat} {b : FixedBuf N} {cs : List Char} (h : b.Holds cs)
    (fields : List Field) : ∃ b', recordFields b fields = .ok b' ∧ ∃ cs', b'.Holds cs' := by
  obtain ⟨b', hb', h'⟩ := FixedBuf.writeStrs_holds h (fields.flatMap FieldVisitor.pieces)
  exact ⟨b', hb', _, h'⟩

namespace SpanData

/-- What a live span keeps while the clock reads at least `t`: an open reference, busy and idle
    times that fit before its last transition, which is no later than `t`, and fields of whole
    characters. -/
structure Ok (t : Nat) (d : SpanData) : Prop where
  refs_pos : 0 < d.refs
  busy_add_idle_le : d.busy + d.idle ≤ d.last
  last_le : d.last ≤ t
  fields_holds : ∃ cs, d.fields.Holds cs

variable {d : SpanData} {t now : Nat}

theorem Ok.mono (h : d.Ok t) {t' : Nat} (ht : t ≤ t') : d.Ok t' :=
  ⟨h.refs_pos, h.busy_add_idle_le, h.last_le.trans ht, h.fields_holds⟩

/-- `record` changes only the fields. -/
theorem record_ok (h : d.Ok t) (fields : List Field) :
    ∃ b, d.record fields = .ok { d with fields := b } ∧ ({ d with fields := b } : SpanData).Ok t := by
  obtain ⟨cs, hcs⟩ := h.fields_holds
  obtain ⟨b, hb, cs', hb'⟩ := recordFields_holds hcs fields
  refine ⟨b, ?_, h.refs_pos, h.busy_add_idle_le, h.last_le, cs', hb'⟩
  rw [record, hb]
  rfl

theorem Ok.cloneSpan (h : d.Ok t) : d.cloneSpan.Ok t :=
  ⟨Nat.succ_pos _, h.busy_add_idle_le, h.last_le, h.fields_holds⟩

/-- While the clock has not gone back, `enter` adds the time since the last transition to the idle
    time, and the sum stays below the clock, so it cannot overflow. -/
theorem enter_eq (h : d.Ok t) (hnow : t ≤ now) (hlt : now < U64_LIMIT) :
    d.enter now = .ok { d with idle := d.idle + (now - d.last), last := now } := by
  have hsum := h.busy_add_idle_le
  have hlast := h.last_le
  rw [enter, checkedAdd_of_lt (by omega)]
  rfl

/-- `exit` adds the time since the last transition to the busy time. -/
theorem exit_eq (h : d.Ok t) (hnow : t ≤ now) (hlt : now < U64_LIMIT) :
    d.exit now = .ok { d with busy := d.busy + (now - d.last), last := now } := by
  have hsum := h.busy_add_idle_le
  have hlast := h.last_le
  rw [exit, checkedAdd_of_lt (by omega)]
  rfl

theorem Ok.enter (h : d.Ok t) (hnow : t ≤ now) :
    ({ d with idle := d.idle + (now - d.last), last := now } : SpanData).Ok now := by
  have hsum := h.busy_add_idle_le
  have hlast := h.last_le
  exact ⟨h.refs_pos, by dsimp only; omega, le_refl now, h.fields_holds⟩

theorem Ok.exit (h : d.Ok t) (hnow : t ≤ now) :
    ({ d with busy := d.busy + (now - d.last), last := now } : SpanData).Ok now := by
  have hsum := h.busy_add_idle_le
  have hlast := h.last_le
  exact ⟨h.refs_pos, by dsimp only; omega, le_refl now, h.fields_holds⟩

/-- The label of a span whose fields are whole characters renders without a panic. -/
theorem writeLabel_ok (h : ∃ cs, d.fields.Holds cs) : ∃ label, d.writeLabel FixedBuf.new = .ok label := by
  obtain ⟨cs, hcs⟩ := h
  obtain ⟨out, hout, hholds⟩ :=
    FixedBuf.writeStr_holds (FixedBuf.new_holds (N := LABEL_CAP)) d.metadata.name.toList
  unfold writeLabel
  rw [hout, Except.ok_bind]
  split
  · exact ⟨out, rfl⟩
  · rw [FixedBuf.asStr_of_holds hcs, Except.ok_bind]
    obtain ⟨label, hlabel, -⟩ := FixedBuf.writeStrs_holds hholds
      ["\x1b[2m(\x1b[0m".toList, Str.trimStart cs, "\x1b[2m)\x1b[0m".toList]
    exact ⟨label, hlabel⟩

/-- A close that leaves references open only drops one. -/
theorem release_of_lt (h : 1 < d.refs) : d.release now = .ok ({ d with refs := d.refs - 1 }, none) := by
  rw [release, if_pos (by dsimp only; omega)]
  rfl

/-- The close of the last reference adds the idle time up to now, which cannot overflow, and
    renders the close record. -/
theorem release_of_eq_one (h : d.Ok t) (hone : d.refs = 1) (hnow : t ≤ now) (hlt : now < U64_LIMIT) :
    ∃ label, d.release now = .ok ({ d with refs := 0, idle := d.idle + (now - d.last) },
      some ⟨d.metadata, label, d.busy, d.idle + (now - d.last)⟩) := by
  have hsum := h.busy_add_idle_le
  have hlast := h.last_le
  obtain ⟨label, hlabel⟩ := writeLabel_ok (d := { d with refs := 0, idle := d.idle + (now - d.last) })
    h.fields_holds
  refine ⟨label, ?_⟩
  rw [release, if_neg (by dsimp only; omega)]
  dsimp only
  rw [hone, checkedAdd_of_lt (by omega)]
  dsimp only
  rw [hlabel]
  rfl

end SpanData

-- ---------------------------------------------------------------------------
-- Finding a span
-- ---------------------------------------------------------------------------

namespace SpanPool

variable {p : SpanPool} {x id : UInt64} {i : Nat} {d : SpanData}

/-- The live span with this id, as `get_mut` finds it. -/
def span? (p : SpanPool) (id : UInt64) : Option SpanData := (p.getMut id).map Prod.snd

theorem getMut_eq_some_iff : p.getMut x = some (i, d) ↔ p.slotOf x = some i ∧ p.slots[i]? = some (some d) := by
  simp only [getMut, Option.bind_eq_bind, Option.bind_eq_some_iff, Option.join_eq_some_iff,
    Option.pure_def, Option.some.injEq, Prod.mk.injEq]
  constructor
  · rintro ⟨j, hj, e, he, rfl, rfl⟩
    exact ⟨hj, he⟩
  · rintro ⟨hi, hd⟩
    exact ⟨i, hi, d, hd, rfl, rfl⟩

/-- `slotOf` finds a slot whose span has the id, after only slots with no such span. -/
theorem slotOf_eq_some_iff : p.slotOf x = some i ↔
    (∃ d, p.slots[i]? = some (some d) ∧ d.id = x) ∧
      ∀ j < i, ∀ e, p.slots[j]? = some (some e) → e.id ≠ x := by
  unfold slotOf
  rw [Rust.Slice.findIdx?_eq_some_iff]
  constructor
  · rintro ⟨⟨slot, hslot, hx⟩, hbefore⟩
    obtain ⟨d, rfl, hd⟩ := (Option.any_eq_true _ _).1 hx
    refine ⟨⟨d, hslot, eq_of_beq hd⟩, fun j hj e he hex => ?_⟩
    have := hbefore j hj _ he
    simp [hex] at this
  · rintro ⟨⟨d, hd, hx⟩, hbefore⟩
    refine ⟨⟨some d, hd, by simp [hx]⟩, fun j hj slot hslot => ?_⟩
    cases slot with
    | none => rfl
    | some e => simpa using hbefore j hj e hslot

theorem getMut_eq_some_iff' : p.getMut x = some (i, d) ↔
    p.slots[i]? = some (some d) ∧ d.id = x ∧ ∀ j < i, ∀ e, p.slots[j]? = some (some e) → e.id ≠ x := by
  rw [getMut_eq_some_iff, slotOf_eq_some_iff]
  constructor
  · rintro ⟨⟨⟨d', hd', hx⟩, hbefore⟩, hd⟩
    rw [hd, Option.some.injEq, Option.some.injEq] at hd'
    exact ⟨hd, hd' ▸ hx, hbefore⟩
  · rintro ⟨hd, hx, hbefore⟩
    exact ⟨⟨⟨d, hd, hx⟩, hbefore⟩, hd⟩

/-- `get_mut` finds nothing exactly when no live span has the id. -/
theorem getMut_eq_none_iff : p.getMut x = none ↔ ∀ d, some d ∈ p.slots → d.id ≠ x := by
  constructor
  · intro h d hd hx
    have hsome : p.slotOf x ≠ none := by
      unfold slotOf
      rw [ne_eq, List.findIdx?_eq_none_iff]
      intro hall
      have := hall (some d) hd
      simp [hx] at this
    obtain ⟨j, hj⟩ := Option.ne_none_iff_exists'.1 hsome
    obtain ⟨⟨e, he, -⟩, -⟩ := slotOf_eq_some_iff.1 hj
    rw [getMut_eq_some_iff.2 ⟨hj, he⟩] at h
    cases h
  · intro h
    cases hg : p.getMut x with
    | none => rfl
    | some r =>
      obtain ⟨he, hx, -⟩ := getMut_eq_some_iff'.1 hg
      exact absurd hx (h r.2 (List.mem_of_getElem? he))

/-- Two pools whose searches for an id stop at the same slot, which holds the same in both, give
    the same `get_mut`. -/
theorem getMut_congr {q : SpanPool} (hs : q.slotOf x = p.slotOf x)
    (hj : ∀ j, p.slotOf x = some j → q.slots[j]? = p.slots[j]?) : q.getMut x = p.getMut x := by
  unfold getMut
  rw [hs]
  cases h : p.slotOf x with
  | none => rfl
  | some j => simp only [Option.bind_eq_bind, Option.bind_some, hj j h]

/-- The live spans have distinct ids. -/
def Unique (p : SpanPool) : Prop :=
  ∀ (i j : Nat) (d e : SpanData), p.slots[i]? = some (some d) → p.slots[j]? = some (some e) →
    d.id = e.id → i = j

/-- Writing a span back where `get_mut` found it, with its id, changes what `get_mut` finds for that
    id only. -/
theorem getMut_setSlot {d' : SpanData} (hget : p.getMut id = some (i, d)) (hid : d'.id = id)
    (x : UInt64) : (p.setSlot i d').getMut x = if x = id then some (i, d') else p.getMut x := by
  obtain ⟨hd, hdid, -⟩ := getMut_eq_some_iff'.1 hget
  have hi : i < p.slots.length := (List.getElem?_eq_some_iff.1 hd).1
  -- the slot keeps a span with the same id, so every search by id stops where it did
  have hslot : ∀ y, (p.setSlot i d').slotOf y = p.slotOf y := fun y =>
    Rust.Slice.findIdx?_set_of_eq fun a ha => by
      rw [hd, Option.some.injEq] at ha
      subst ha
      simp [hid, hdid]
  split
  · rename_i hx
    subst hx
    exact getMut_eq_some_iff.2 ⟨(hslot x).trans (getMut_eq_some_iff.1 hget).1, List.getElem?_set_self hi⟩
  · rename_i hx
    refine getMut_congr (hslot x) fun j hj => List.getElem?_set_ne fun hij => hx ?_
    obtain ⟨⟨e, he, hex⟩, -⟩ := slotOf_eq_some_iff.1 hj
    rw [← hij, hd, Option.some.injEq, Option.some.injEq] at he
    rw [← hex, ← he, hdid]

/-- Removing a span takes its id, and only its id, out of what `get_mut` finds. -/
theorem getMut_remove (hu : p.Unique) (hget : p.getMut id = some (i, d)) (x : UInt64) :
    (p.remove id).getMut x = if x = id then none else p.getMut x := by
  obtain ⟨hd, hdid, -⟩ := getMut_eq_some_iff'.1 hget
  have hi : i < p.slots.length := (List.getElem?_eq_some_iff.1 hd).1
  have hremove : p.remove id = { p with slots := p.slots.set i none } := by
    rw [remove, (getMut_eq_some_iff.1 hget).1]
  rw [hremove]
  split
  · -- the removed slot held the only span with the id
    rename_i hx
    subst hx
    refine getMut_eq_none_iff.2 fun e he hex => ?_
    obtain ⟨j, hj⟩ := List.getElem?_of_mem he
    by_cases hij : j = i
    · rw [hij, List.getElem?_set_self hi] at hj
      cases hj
    · rw [List.getElem?_set_ne (Ne.symm hij)] at hj
      exact hij (hu j i e d hj hd (hex.trans hdid.symm))
  · rename_i hx
    have hslot : ({ p with slots := p.slots.set i none } : SpanPool).slotOf x = p.slotOf x :=
      Rust.Slice.findIdx?_set_of_eq fun a ha => by
        rw [hd, Option.some.injEq] at ha
        subst ha
        simp [hdid, Ne.symm hx]
    refine getMut_congr hslot fun j hj => List.getElem?_set_ne fun hij => hx ?_
    obtain ⟨⟨e, he, hex⟩, -⟩ := slotOf_eq_some_iff.1 hj
    rw [← hij, hd, Option.some.injEq, Option.some.injEq] at he
    rw [← hex, ← he, hdid]

/-- Inserting a span with a new id adds it, in the first free slot if there is one, and changes
    nothing else that `get_mut` finds. -/
theorem getMut_insert {data : SpanData} (hfresh : ∀ e, some e ∈ p.slots → e.id ≠ data.id)
    (x : UInt64) : (p.insert data).getMut x =
      if x = data.id then (p.slots.findIdx? Option.isNone).map (·, data) else p.getMut x := by
  cases hk : p.slots.findIdx? Option.isNone with
  | none =>
    rw [insert, hk]
    dsimp only
    split
    · rename_i hx
      subst hx
      exact getMut_eq_none_iff.2 hfresh
    · rfl
  | some k =>
    obtain ⟨⟨slot, hslot, hnone⟩, -⟩ := Rust.Slice.findIdx?_eq_some_iff.1 hk
    rw [Option.isNone_iff_eq_none] at hnone
    subst hnone
    have hkl : k < p.slots.length := (List.getElem?_eq_some_iff.1 hslot).1
    rw [insert, hk]
    dsimp only
    split
    · rename_i hx
      subst hx
      refine getMut_eq_some_iff'.2 ⟨List.getElem?_set_self hkl, rfl, fun j hj e he => ?_⟩
      rw [List.getElem?_set_ne (by omega)] at he
      exact hfresh e (List.mem_of_getElem? he)
    · rename_i hx
      have hslot' : ({ p with slots := p.slots.set k (some data) } : SpanPool).slotOf x = p.slotOf x :=
        Rust.Slice.findIdx?_set_of_eq fun a ha => by
          rw [hslot, Option.some.injEq] at ha
          subst ha
          simp [Ne.symm hx]
      refine getMut_congr hslot' fun j hj => List.getElem?_set_ne fun hkj => ?_
      obtain ⟨⟨e, he, -⟩, -⟩ := slotOf_eq_some_iff.1 hj
      rw [← hkj, hslot] at he
      cases he

theorem slot_setSlot {d' e : SpanData} {j : Nat} (h : (p.setSlot i d').slots[j]? = some (some e)) :
    j = i ∧ e = d' ∨ j ≠ i ∧ p.slots[j]? = some (some e) := by
  by_cases hji : j = i
  · subst hji
    have hi : j < p.slots.length := by
      have := (List.getElem?_eq_some_iff.1 h).1
      rwa [setSlot, List.length_set] at this
    rw [setSlot, List.getElem?_set_self hi, Option.some.injEq, Option.some.injEq] at h
    exact .inl ⟨rfl, h.symm⟩
  · rw [setSlot, List.getElem?_set_ne (Ne.symm hji)] at h
    exact .inr ⟨hji, h⟩

theorem mem_setSlot {d' e : SpanData} (h : some e ∈ (p.setSlot i d').slots) : e = d' ∨ some e ∈ p.slots := by
  rcases List.mem_or_eq_of_mem_set h with h | h
  · exact .inr h
  · exact .inl (Option.some.inj h)

-- ---------------------------------------------------------------------------
-- What every pool keeps
-- ---------------------------------------------------------------------------

/-- What every pool keeps while the clock reads at least `t`: its `MAX_SPANS` slots, live spans
    with distinct ids below the next one, each keeping `SpanData.Ok`, and a clock below `2 ^ 64`. -/
structure Wf (t : Nat) (p : SpanPool) : Prop where
  length_slots : p.slots.length = MAX_SPANS
  unique : p.Unique
  lt_nextId : ∀ d, some d ∈ p.slots → d.id.toNat < p.nextId.toNat
  ok : ∀ d, some d ∈ p.slots → d.Ok t
  clock_lt : t < U64_LIMIT

theorem new_wf : new.Wf 0 where
  length_slots := List.length_replicate
  unique := fun _ _ d _ hi => by
    have := List.mem_of_getElem? hi
    simp [new] at this
  lt_nextId := fun d hd => by simp [new] at hd
  ok := fun d hd => by simp [new] at hd
  clock_lt := by unfold U64_LIMIT; positivity

variable {t : Nat}

/-- A later clock, still a `u64`, keeps the invariant. -/
theorem Wf.mono (h : p.Wf t) {t' : Nat} (ht : t ≤ t') (ht' : t' < U64_LIMIT) : p.Wf t' :=
  ⟨h.length_slots, h.unique, h.lt_nextId, fun e he => (h.ok e he).mono ht, ht'⟩

/-- Writing back a span with its id that keeps `Ok` at a later clock keeps the invariant. -/
theorem Wf.setSlot (h : p.Wf t) (hget : p.getMut id = some (i, d)) {d' : SpanData} (hid : d'.id = id)
    {t' : Nat} (hok : d'.Ok t') (ht : t ≤ t') (ht' : t' < U64_LIMIT) : (p.setSlot i d').Wf t' := by
  obtain ⟨hd, hdid, -⟩ := getMut_eq_some_iff'.1 hget
  refine ⟨by rw [SpanPool.setSlot, List.length_set, h.length_slots], ?_, ?_, ?_, ht'⟩
  · intro j k e e' hj hk he
    rcases slot_setSlot hj with ⟨hji, rfl⟩ | ⟨-, hj'⟩ <;>
      rcases slot_setSlot hk with ⟨hki, rfl⟩ | ⟨-, hk'⟩
    · rw [hji, hki]
    · rw [hji]
      exact h.unique _ _ d e' hd hk' (hdid.trans (hid.symm.trans he))
    · rw [hki]
      exact h.unique _ _ e d hj' hd (he.trans (hid.trans hdid.symm))
    · exact h.unique _ _ e e' hj' hk' he
  · intro e he
    rcases mem_setSlot he with rfl | he
    · rw [hid, ← hdid]
      exact h.lt_nextId d (List.mem_of_getElem? hd)
    · exact h.lt_nextId e he
  · intro e he
    rcases mem_setSlot he with rfl | he
    · exact hok
    · exact (h.ok e he).mono ht

/-- Removing a span keeps the invariant. -/
theorem Wf.remove (h : p.Wf t) (hget : p.getMut id = some (i, d)) : (p.remove id).Wf t := by
  have hremove : p.remove id = { p with slots := p.slots.set i none } := by
    rw [SpanPool.remove, (getMut_eq_some_iff.1 hget).1]
  -- every live slot of the new pool was live before
  have hslot : ∀ (j : Nat) (e : SpanData), (p.slots.set i none)[j]? = some (some e) →
      p.slots[j]? = some (some e) := by
    intro j e hj
    by_cases hij : i = j
    · subst hij
      by_cases hlt : i < p.slots.length
      · rw [List.getElem?_set_self hlt] at hj
        cases hj
      · rw [List.getElem?_eq_none (by rw [List.length_set]; omega)] at hj
        cases hj
    · rwa [List.getElem?_set_ne hij] at hj
  have hmem : ∀ e, some e ∈ p.slots.set i none → some e ∈ p.slots := fun e he => by
    obtain ⟨j, hj⟩ := List.getElem?_of_mem he
    exact List.mem_of_getElem? (hslot j e hj)
  rw [hremove]
  exact ⟨by rw [List.length_set, h.length_slots],
    fun j k e e' hj hk he => h.unique j k e e' (hslot j e hj) (hslot k e' hk) he,
    fun e he => h.lt_nextId e (hmem e he), fun e he => h.ok e (hmem e he), h.clock_lt⟩

theorem insert_nextId (q : SpanPool) (data : SpanData) : (q.insert data).nextId = q.nextId := by
  unfold insert
  split <;> rfl

/-- Inserting a span with a new id below the next one, that keeps `Ok`, keeps the invariant. -/
theorem Wf.insert (h : p.Wf t) {data : SpanData} (hlt : data.id.toNat < p.nextId.toNat)
    (hfresh : ∀ e, some e ∈ p.slots → e.id ≠ data.id) {t' : Nat} (hok : data.Ok t') (ht : t ≤ t')
    (ht' : t' < U64_LIMIT) : (p.insert data).Wf t' := by
  cases hk : p.slots.findIdx? Option.isNone with
  | none =>
    rw [SpanPool.insert, hk]
    exact h.mono ht ht'
  | some k =>
    rw [SpanPool.insert, hk]
    obtain ⟨⟨slot, hslot, hnone⟩, -⟩ := Rust.Slice.findIdx?_eq_some_iff.1 hk
    rw [Option.isNone_iff_eq_none] at hnone
    subst hnone
    -- the span goes into the free slot `k`, as `setSlot` would write it
    show (p.setSlot k data).Wf t'
    refine ⟨by rw [SpanPool.setSlot, List.length_set, h.length_slots], ?_, ?_, ?_, ht'⟩
    · intro j j' e e' hj hj' he
      rcases slot_setSlot hj with ⟨hjk, rfl⟩ | ⟨-, hj₁⟩ <;>
        rcases slot_setSlot hj' with ⟨hjk', rfl⟩ | ⟨-, hj₂⟩
      · rw [hjk, hjk']
      · exact absurd he.symm (hfresh e' (List.mem_of_getElem? hj₂))
      · exact absurd he (hfresh e (List.mem_of_getElem? hj₁))
      · exact h.unique _ _ e e' hj₁ hj₂ he
    · intro e he
      rcases mem_setSlot he with rfl | he
      · exact hlt
      · exact h.lt_nextId e he
    · intro e he
      rcases mem_setSlot he with rfl | he
      · exact hok
      · exact (h.ok e he).mono ht

/-- `id.wrapping_add(1)`, or 1 where that wraps to 0, is one more than `id` below the top. -/
theorem toNat_succ_id {n : UInt64} (hn : n.toNat + 1 < U64_LIMIT) :
    (if n + 1 = 0 then 1 else n + 1).toNat = n.toNat + 1 := by
  have hadd : (n + 1).toNat = n.toNat + 1 := by
    rw [UInt64.toNat_add, UInt64.toNat_one]
    exact Nat.mod_eq_of_lt hn
  have hne : n + 1 ≠ 0 := fun h0 => by
    have := congrArg UInt64.toNat h0
    rw [hadd, UInt64.toNat_zero] at this
    omega
  rw [if_neg hne, hadd]

/-- The next id after `new_span`, when it does not wrap. -/
theorem newSpan_nextId (hn : p.nextId.toNat + 1 < U64_LIMIT) (m : Meta) (fields : FixedBuf FIELDS_CAP)
    (now : Nat) : (p.newSpan m fields now).1.nextId.toNat = p.nextId.toNat + 1 := by
  unfold SpanPool.newSpan
  rw [insert_nextId]
  exact toNat_succ_id hn

/-- `new_span` keeps the invariant while the ids do not wrap: the new span takes an id above every
    live one. -/
theorem Wf.newSpan (h : p.Wf t) (hn : p.nextId.toNat + 1 < U64_LIMIT) (m : Meta)
    {fields : FixedBuf FIELDS_CAP} {cs : List Char} (hf : fields.Holds cs) {now : Nat} (hnow : t ≤ now)
    (hlt : now < U64_LIMIT) : (p.newSpan m fields now).1.Wf now := by
  have hsucc := toNat_succ_id hn
  unfold SpanPool.newSpan
  dsimp only
  -- the pool with its next id moved on keeps the invariant, and the new id lies above every live one
  have hq : Wf t { p with nextId := if p.nextId + 1 = 0 then 1 else p.nextId + 1 } :=
    ⟨h.length_slots, h.unique, fun e he => by have := h.lt_nextId e he; dsimp only; omega, h.ok,
      h.clock_lt⟩
  refine hq.insert (by dsimp only; omega) (fun e he heq => ?_) ?_ hnow hlt
  · have := h.lt_nextId e he
    rw [heq] at this
    exact Nat.lt_irrefl _ this
  · exact ⟨Nat.one_pos, Nat.zero_le now, le_refl now, cs, hf⟩

-- ---------------------------------------------------------------------------
-- One call on the pool
-- ---------------------------------------------------------------------------

theorem modify_of_getMut {f : SpanData → Except Panic SpanData} (hget : p.getMut id = some (i, d))
    {d' : SpanData} (hf : f d = .ok d') : p.modify id f = .ok (p.setSlot i d') := by
  rw [modify, hget]
  dsimp only
  rw [hf]
  rfl

theorem modify_of_none {f : SpanData → Except Panic SpanData} (hget : p.getMut id = none) :
    p.modify id f = .ok p := by
  rw [modify, hget]
  rfl

theorem tryClose_of_none {now : Nat} (hget : p.getMut id = none) : p.tryClose id now = .ok (p, none) := by
  rw [SpanPool.tryClose, hget]
  rfl

theorem tryClose_of_lt {now : Nat} (hget : p.getMut id = some (i, d)) (h : 1 < d.refs) :
    p.tryClose id now = .ok (p.setSlot i { d with refs := d.refs - 1 }, none) := by
  rw [SpanPool.tryClose, hget]
  dsimp only
  rw [SpanData.release_of_lt h]
  rfl

theorem tryClose_of_eq_one {now : Nat} (hget : p.getMut id = some (i, d)) (hok : d.Ok t)
    (hone : d.refs = 1) (hnow : t ≤ now) (hlt : now < U64_LIMIT) :
    ∃ label, p.tryClose id now =
      .ok ((p.setSlot i { d with refs := 0, idle := d.idle + (now - d.last) }).remove id,
        some ⟨d.metadata, label, d.busy, d.idle + (now - d.last)⟩) := by
  obtain ⟨label, hrel⟩ := SpanData.release_of_eq_one hok hone hnow hlt
  refine ⟨label, ?_⟩
  rw [SpanPool.tryClose, hget]
  dsimp only
  rw [hrel]
  rfl

end SpanPool

/-- The part of a subscriber call that runs under the pool lock, with the clock it read. -/
inductive PoolCall where
  | newSpan (metadata : Meta) (fields : List Field) (now : Nat)
  | record (id : UInt64) (fields : List Field)
  | cloneSpan (id : UInt64)
  | enter (id : UInt64) (now : Nat)
  | exit (id : UInt64) (now : Nat)
  | tryClose (id : UInt64) (now : Nat)
  deriving DecidableEq, Repr

namespace PoolCall

/-- The span a call names; `new_span` names none yet. -/
def target : PoolCall → Option UInt64
  | .newSpan .. => none
  | .record id _ | .cloneSpan id | .enter id _ | .exit id _ | .tryClose id _ => some id

/-- The clock after a call: the time it read, if it reads one. -/
def clock (t : Nat) : PoolCall → Nat
  | .newSpan _ _ now | .enter _ now | .exit _ now | .tryClose _ now => now
  | .record .. | .cloneSpan _ => t

/-- The ids a call hands out. -/
def creates : PoolCall → Nat
  | .newSpan .. => 1
  | _ => 0

/-- The clock and the count of ids handed out, after a call. -/
def advance (s : Nat × Nat) (c : PoolCall) : Nat × Nat := (c.clock s.1, s.2 + c.creates)

/-- A call on a clock that does not go back and stays a `u64`, that hands out an id only while the
    next one does not wrap. -/
def Allowed (s : Nat × Nat) (c : PoolCall) : Prop :=
  s.1 ≤ c.clock s.1 ∧ c.clock s.1 < U64_LIMIT ∧ s.2 + c.creates < U64_LIMIT

instance (s : Nat × Nat) (c : PoolCall) : Decidable (Allowed s c) :=
  inferInstanceAs (Decidable (_ ∧ _ ∧ _))

end PoolCall

namespace SpanPool

/-- One pool call: the pool after it, and the close record it renders. -/
def call (p : SpanPool) : PoolCall → Except Panic (SpanPool × Option Closed)
  | .newSpan m fields now => do pure ((← SpanSubscriber.newSpan p m fields now).1, none)
  | .record id fields => do pure (← SpanSubscriber.record p id fields, none)
  | .cloneSpan id => do pure (← SpanSubscriber.cloneSpan p id, none)
  | .enter id now => do pure (← p.modify id (·.enter now), none)
  | .exit id now => do pure (← p.modify id (·.exit now), none)
  | .tryClose id now => p.tryClose id now

/-- A call in a run: the pool after it, and the close records so far, each with the id of the span
    it closes. -/
def runStep (s : SpanPool × List (UInt64 × Closed)) (c : PoolCall) :
    Except Panic (SpanPool × List (UInt64 × Closed)) := do
  let (p, out) ← s.1.call c
  pure (p, s.2 ++ (c.target.bind fun id => out.map (id, ·)).toList)

end SpanPool

-- ---------------------------------------------------------------------------
-- The life of one span
-- ---------------------------------------------------------------------------

namespace SpanPool

variable {p : SpanPool} {x id : UInt64} {i t : Nat} {d : SpanData}

theorem span?_eq_some_iff : p.span? x = some d ↔ ∃ i, p.getMut x = some (i, d) := by
  simp [span?]

theorem span?_setSlot {d' : SpanData} (hget : p.getMut id = some (i, d)) (hid : d'.id = id)
    (x : UInt64) : (p.setSlot i d').span? x = if x = id then some d' else p.span? x := by
  rw [span?, getMut_setSlot hget hid]
  split <;> rfl

theorem span?_remove (hu : p.Unique) (hget : p.getMut id = some (i, d)) (x : UInt64) :
    (p.remove id).span? x = if x = id then none else p.span? x := by
  rw [span?, getMut_remove hu hget]
  split <;> rfl

theorem remove_nextId (p : SpanPool) (id : UInt64) : (p.remove id).nextId = p.nextId := by
  unfold SpanPool.remove
  split <;> rfl

/-- `remove` after a span is written back with its id clears the slot it was found in. -/
theorem remove_setSlot {d' : SpanData} (hget : p.getMut id = some (i, d)) (hid : d'.id = id) :
    (p.setSlot i d').remove id = p.remove id := by
  have hslot : (p.setSlot i d').slotOf id = some i :=
    (getMut_eq_some_iff.1 ((getMut_setSlot hget hid id).trans (if_pos rfl))).1
  rw [SpanPool.remove, hslot, SpanPool.remove, (getMut_eq_some_iff.1 hget).1]
  simp only [setSlot, List.set_set]

/-- `new_span` adds the span under the next id if a slot is free, and changes nothing else that
    `get_mut` finds. -/
theorem span?_newSpan (h : p.Wf t) (m : Meta) (fields : FixedBuf FIELDS_CAP) (now : Nat) (x : UInt64) :
    (p.newSpan m fields now).1.span? x =
      if x = p.nextId then (if none ∈ p.slots then some ⟨p.nextId, m, fields, 1, 0, 0, now⟩ else none)
      else p.span? x := by
  -- the live spans all have ids below the next one
  have hfresh : ∀ e, some e ∈ p.slots → e.id ≠ p.nextId := fun e he heq => by
    have := h.lt_nextId e he
    rw [heq] at this
    exact Nat.lt_irrefl _ this
  unfold SpanPool.newSpan span?
  rw [getMut_insert hfresh]
  split
  · have hfree : (p.slots.findIdx? Option.isNone).isSome = decide (none ∈ p.slots) := by
      rw [List.findIdx?_isSome, List.any_eq, decide_eq_decide]
      simp
    cases hk : p.slots.findIdx? Option.isNone with
    | none =>
      rw [hk] at hfree
      rw [if_neg (by simpa using hfree.symm)]
      rfl
    | some k =>
      rw [hk] at hfree
      rw [if_pos (by simpa using hfree.symm)]
      rfl
  · rfl

end SpanPool

/-- The close records of a run that are for the span `x`. -/
def recordsOf (x : UInt64) (recs : List (UInt64 × Closed)) : List Closed :=
  recs.filterMap fun r => if r.1 = x then some r.2 else none

/-- The life of one span as its handles see it: the references open on it, and the lengths, busy
    and idle time together, of the close records rendered for it. -/
structure Life where
  refs : Nat
  records : List Nat
  deriving DecidableEq, Repr

namespace Life

/-- A pool call as the life of the span `x`, created at `born`, sees it: a clone of it while it is
    live opens a reference, a close drops one, and the close of the last one records the time
    from `born` to that close. -/
def step (x : UInt64) (born : Nat) (l : Life) : PoolCall → Life
  | .cloneSpan id => if id = x ∧ 0 < l.refs then { l with refs := l.refs + 1 } else l
  | .tryClose id now =>
    if id ≠ x then l
    else if l.refs = 1 then ⟨0, l.records ++ [now - born]⟩
    else { l with refs := l.refs - 1 }
  | _ => l

/-- A life has closed at most once, and only with no references left. -/
def ClosedOnce (l : Life) : Prop := l.records = [] ∨ ∃ r, l.records = [r] ∧ l.refs = 0

variable {x : UInt64} {born : Nat} {l : Life}

theorem ClosedOnce.step (h : l.ClosedOnce) (c : PoolCall) : (l.step x born c).ClosedOnce := by
  cases c with
  | cloneSpan id =>
    simp only [Life.step]
    split
    · rename_i hlive
      -- a life with references open has not closed
      rcases h with h | ⟨r, -, h0⟩
      · exact .inl h
      · exact absurd h0 (Nat.pos_iff_ne_zero.1 hlive.2)
    · exact h
  | tryClose id now =>
    simp only [Life.step]
    split
    · exact h
    · split
      · rename_i hone
        rcases h with h | ⟨r, -, h0⟩
        · exact .inr ⟨now - born, by rw [h]; rfl, rfl⟩
        · omega
      · rcases h with h | ⟨r, hr, h0⟩
        · exact .inl h
        · exact .inr ⟨r, hr, by dsimp only; omega⟩
  | newSpan _ _ _ | record _ _ | enter _ _ | exit _ _ => exact h

/-- A close of a life with no references left changes nothing. -/
theorem step_tryClose_of_refs_eq_zero (h : l.refs = 0) (id : UInt64) (now : Nat) :
    l.step x born (.tryClose id now) = l := by
  obtain ⟨refs, records⟩ := l
  dsimp only at h
  subst h
  simp [Life.step]

/-- A span closes at most once in every run. -/
theorem closedOnce_run (h : l.ClosedOnce) (calls : List PoolCall) :
    (calls.foldl (Life.step x born) l).ClosedOnce :=
  List.foldlRecOn calls (Life.step x born) h fun _ hb c _ => hb.step c

theorem length_records_le_one (h : l.ClosedOnce) : l.records.length ≤ 1 := by
  rcases h with h | ⟨r, h, -⟩ <;> simp [h]

end Life

/-- How the pool holds the span `x` of a life with `refs` references, created at `born` with
    metadata `m`: not at all when none are open, and otherwise with that many references, its
    metadata, and busy and idle times that add up to the time from `born` to its last transition. -/
def Tracks (born : Nat) (m : Meta) (refs : Nat) : Option SpanData → Prop
  | none => refs = 0
  | some d => d.refs = refs ∧ d.metadata = m ∧ d.busy + d.idle + born = d.last

theorem tracks_none {born : Nat} {m : Meta} {refs : Nat} : Tracks born m refs none ↔ refs = 0 :=
  Iff.rfl

theorem tracks_some {born : Nat} {m : Meta} {refs : Nat} {d : SpanData} :
    Tracks born m refs (some d) ↔ d.refs = refs ∧ d.metadata = m ∧ d.busy + d.idle + born = d.last :=
  Iff.rfl

/-- How a run's pool and records stand to the life of the span `x`, with the clock and the next
    id that the abstract run counts: the pool keeps its invariant at the clock, its next id is the
    count and lies above `x`, it holds `x` as `Tracks` says, and the records for `x` carry its
    metadata and the life's lengths. -/
structure Lives (x : UInt64) (born : Nat) (m : Meta) (s : SpanPool × List (UInt64 × Closed))
    (a : (Nat × Nat) × Life) : Prop where
  wf : s.1.Wf a.1.1
  nextId_eq : s.1.nextId.toNat = a.1.2
  lt_nextId : x.toNat < a.1.2
  tracks : Tracks born m a.2.refs (s.1.span? x)
  records_eq : (recordsOf x s.2).map (fun c => c.busy + c.idle) = a.2.records
  metadata_eq : ∀ c ∈ recordsOf x s.2, c.metadata = m

theorem recordsOf_append_self (x : UInt64) (recs : List (UInt64 × Closed)) (c : Closed) :
    recordsOf x (recs ++ [(x, c)]) = recordsOf x recs ++ [c] := by
  simp [recordsOf]

theorem recordsOf_append_of_ne {x id : UInt64} (hx : id ≠ x) (recs : List (UInt64 × Closed)) (c : Closed) :
    recordsOf x (recs ++ [(id, c)]) = recordsOf x recs := by
  simp [recordsOf, hx]

section Lives

variable {x : UInt64} {born : Nat} {m : Meta} {p : SpanPool} {recs : List (UInt64 × Closed)}
  {t n : Nat} {l : Life}

/-- A call that renders no close record leaves the records as they are. -/
theorem runStep_of_call {c : PoolCall} {p' : SpanPool} (h : p.call c = .ok (p', none)) :
    SpanPool.runStep (p, recs) c = .ok (p', recs) := by
  rw [SpanPool.runStep, h]
  cases c.target <;> simp

/-- `new_span` renders its fields into whole characters before it takes the pool. -/
theorem call_newSpan (m : Meta) (fields : List Field) (now : Nat) :
    ∃ (fb : FixedBuf FIELDS_CAP) (cs : List Char), fb.Holds cs ∧
      p.call (.newSpan m fields now) = .ok ((p.newSpan m fb now).1, none) := by
  obtain ⟨fb, hfb, cs, hcs⟩ := recordFields_holds (FixedBuf.new_holds (N := FIELDS_CAP)) fields
  refine ⟨fb, cs, hcs, ?_⟩
  rw [SpanPool.call, SpanSubscriber.newSpan, hfb]
  rfl

/-- What the relation says of `x`, read through what `get_mut` finds for it. -/
theorem Lives.tracks_getMut (h : Lives x born m (p, recs) ((t, n), l)) {r : Option (Nat × SpanData)}
    (hget : p.getMut x = r) : Tracks born m l.refs (r.map Prod.snd) := by
  have htr := h.tracks
  rwa [SpanPool.span?, hget] at htr

/-- A call that changes a live span through `f`, which keeps its id and keeps it `Ok` at the new
    clock, keeps the relation to a life that changes only for a live `x`, as `f` changes it. -/
theorem Lives.modify (h : Lives x born m (p, recs) ((t, n), l)) (id : UInt64)
    (f : SpanData → Except Panic SpanData) (l' : Life) {t' : Nat} (ht : t ≤ t') (ht' : t' < U64_LIMIT)
    (hf : ∀ d, d.Ok t → ∃ d', f d = .ok d' ∧ d'.id = d.id ∧ d'.Ok t' ∧
      (id = x → Tracks born m l.refs (some d) → Tracks born m l'.refs (some d')))
    (hl : id ≠ x ∨ l.refs = 0 → l' = l) (hrec : l'.records = l.records) :
    ∃ p', p.modify id f = .ok p' ∧ Lives x born m (p', recs) ((t', n), l') := by
  cases hget : p.getMut id with
  | none =>
    -- nothing changes: the call names another span, or `x`, gone with no references left
    have hl' : l' = l := by
      refine hl ?_
      by_cases hx : id = x
      · subst hx
        exact .inr (h.tracks_getMut hget)
      · exact .inl hx
    subst hl'
    exact ⟨p, SpanPool.modify_of_none hget, h.wf.mono ht ht', h.nextId_eq, h.lt_nextId, h.tracks,
      h.records_eq, h.metadata_eq⟩
  | some r =>
    obtain ⟨i, d⟩ := r
    obtain ⟨hd, hdid, -⟩ := SpanPool.getMut_eq_some_iff'.1 hget
    obtain ⟨d', hfd, hid, hok, htr⟩ := hf d (h.wf.ok d (List.mem_of_getElem? hd))
    have hid' : d'.id = id := hid.trans hdid
    refine ⟨p.setSlot i d', SpanPool.modify_of_getMut hget hfd, h.wf.setSlot hget hid' hok ht ht',
      h.nextId_eq, h.lt_nextId, ?_, h.records_eq.trans hrec.symm, h.metadata_eq⟩
    show Tracks born m l'.refs ((p.setSlot i d').span? x)
    rw [SpanPool.span?_setSlot hget hid']
    split
    · rename_i hx
      subst hx
      exact htr rfl (h.tracks_getMut hget)
    · rename_i hx
      rw [hl (.inl (Ne.symm hx))]
      exact h.tracks

/-- `new_span` hands out the next id, which is not `x`, and leaves `x` as it was. -/
theorem Lives.newSpan (h : Lives x born m (p, recs) ((t, n), l)) (m' : Meta) (fields : List Field)
    {now : Nat} (hnow : t ≤ now) (hlt : now < U64_LIMIT) (hn : n + 1 < U64_LIMIT) :
    ∃ p', p.call (.newSpan m' fields now) = .ok (p', none) ∧ Lives x born m (p', recs) ((now, n + 1), l) := by
  obtain ⟨fb, cs, hcs, hcall⟩ := call_newSpan (p := p) m' fields now
  have hwf : p.Wf t := h.wf
  have hnext : p.nextId.toNat = n := h.nextId_eq
  have hxn : x.toNat < n := h.lt_nextId
  have hx : x ≠ p.nextId := fun hx => by
    rw [hx] at hxn
    omega
  refine ⟨_, hcall, hwf.newSpan (by omega) m' hcs hnow hlt, ?_, ?_, ?_, h.records_eq, h.metadata_eq⟩
  · show (p.newSpan m' fb now).1.nextId.toNat = n + 1
    rw [SpanPool.newSpan_nextId (by omega)]
    omega
  · show x.toNat < n + 1
    omega
  · show Tracks born m l.refs ((p.newSpan m' fb now).1.span? x)
    rw [SpanPool.span?_newSpan h.wf, if_neg hx]
    exact h.tracks

/-- `try_close` drops a reference of a live span, and the close of the last one of `x` renders
    the record that the life predicts: its metadata, and the time since `born`. -/
theorem Lives.tryClose (h : Lives x born m (p, recs) ((t, n), l)) (id : UInt64) {now : Nat}
    (hnow : t ≤ now) (hlt : now < U64_LIMIT) :
    ∃ s', SpanPool.runStep (p, recs) (.tryClose id now) = .ok s' ∧
      Lives x born m s' ((now, n), l.step x born (.tryClose id now)) := by
  cases hget : p.getMut id with
  | none =>
    -- the span is gone: its life has no references, and nothing changes
    have hl : l.step x born (.tryClose id now) = l := by
      by_cases hx : id = x
      · subst hx
        exact Life.step_tryClose_of_refs_eq_zero (h.tracks_getMut hget) id now
      · simp [Life.step, hx]
    rw [hl]
    refine ⟨(p, recs), runStep_of_call ?_, h.wf.mono hnow hlt, h.nextId_eq, h.lt_nextId, h.tracks,
      h.records_eq, h.metadata_eq⟩
    rw [SpanPool.call, SpanPool.tryClose_of_none hget]
  | some r =>
    obtain ⟨i, d⟩ := r
    obtain ⟨hd, hdid, -⟩ := SpanPool.getMut_eq_some_iff'.1 hget
    have hok : d.Ok t := h.wf.ok d (List.mem_of_getElem? hd)
    -- what the life knows of `d` when it is `x`
    have htrx : id = x → d.refs = l.refs ∧ d.metadata = m ∧ d.busy + d.idle + born = d.last := by
      rintro rfl
      exact h.tracks_getMut hget
    rcases Nat.lt_or_ge 1 d.refs with hgt | hle
    · -- references stay open
      have hid' : ({ d with refs := d.refs - 1 } : SpanData).id = id := hdid
      have hok' : ({ d with refs := d.refs - 1 } : SpanData).Ok now :=
        ⟨by dsimp only; omega, hok.busy_add_idle_le, hok.last_le.trans hnow, hok.fields_holds⟩
      refine ⟨(p.setSlot i { d with refs := d.refs - 1 }, recs),
        runStep_of_call (by rw [SpanPool.call, SpanPool.tryClose_of_lt hget hgt]),
        h.wf.setSlot hget hid' hok' hnow hlt, h.nextId_eq, h.lt_nextId, ?_, ?_, h.metadata_eq⟩
      · show Tracks born m (l.step x born (.tryClose id now)).refs
          ((p.setSlot i { d with refs := d.refs - 1 }).span? x)
        rw [SpanPool.span?_setSlot hget hid']
        split
        · rename_i hx
          subst hx
          obtain ⟨hr, hm, hsum⟩ := htrx rfl
          have hl : l.step x born (.tryClose x now) = { l with refs := l.refs - 1 } := by
            simp [Life.step]
            omega
          rw [hl]
          exact ⟨by dsimp only; omega, hm, hsum⟩
        · rename_i hx
          simpa [Life.step, Ne.symm hx] using h.tracks
      · have hrec : (l.step x born (.tryClose id now)).records = l.records := by
          simp only [Life.step]
          split
          · rfl
          · rename_i hx
            have := (htrx (not_not.1 hx)).1
            rw [if_neg (by omega)]
        exact h.records_eq.trans hrec.symm
    · -- the last reference closes: the span leaves the pool with its record
      have hone : d.refs = 1 := by have := hok.refs_pos; omega
      obtain ⟨label, hclose⟩ := SpanPool.tryClose_of_eq_one hget hok hone hnow hlt
      have hid' : ({ d with refs := 0, idle := d.idle + (now - d.last) } : SpanData).id = id := hdid
      rw [SpanPool.remove_setSlot hget hid'] at hclose
      have hwf : (p.remove id).Wf now := (h.wf.remove hget).mono hnow hlt
      refine ⟨(p.remove id, recs ++ [(id, ⟨d.metadata, label, d.busy, d.idle + (now - d.last)⟩)]), ?_, hwf,
        (congrArg UInt64.toNat (SpanPool.remove_nextId p id)).trans h.nextId_eq, h.lt_nextId, ?_, ?_, ?_⟩
      · rw [SpanPool.runStep, SpanPool.call, hclose]
        rfl
      · show Tracks born m (l.step x born (.tryClose id now)).refs ((p.remove id).span? x)
        rw [SpanPool.span?_remove h.wf.unique hget]
        split
        · rename_i hx
          subst hx
          have hr := (htrx rfl).1
          simp [Life.step, tracks_none, ← hr, hone]
        · rename_i hx
          simpa [Life.step, Ne.symm hx] using h.tracks
      · show (recordsOf x (recs ++ [(id, _)])).map (fun c => c.busy + c.idle) =
          (l.step x born (.tryClose id now)).records
        by_cases hx : id = x
        · -- the record of `x` spans its whole life: busy and idle up to `last`, then idle up to now
          subst hx
          obtain ⟨hr, -, hsum⟩ := htrx rfl
          have hlast : d.last ≤ now := hok.last_le.trans hnow
          rw [recordsOf_append_self, List.map_append, h.records_eq]
          simp only [Life.step, ne_eq, not_true_eq_false, if_false, ← hr, hone, if_true,
            List.map_cons, List.map_nil]
          congr 2
          omega
        · rw [recordsOf_append_of_ne hx, h.records_eq]
          simp [Life.step, hx]
      · intro c hc
        by_cases hx : id = x
        · subst hx
          rw [recordsOf_append_self, List.mem_append, List.mem_singleton] at hc
          rcases hc with hc | rfl
          · exact h.metadata_eq c hc
          · exact (htrx rfl).2.1
        · rw [recordsOf_append_of_ne hx] at hc
          exact h.metadata_eq c hc

/-- Every allowed pool call keeps the relation, as the abstract run takes the same call. -/
theorem Lives.runStep {s : SpanPool × List (UInt64 × Closed)} {a : (Nat × Nat) × Life}
    (h : Lives x born m s a) (c : PoolCall) (hc : c.Allowed a.1) :
    ∃ s', SpanPool.runStep s c = .ok s' ∧ Lives x born m s' (c.advance a.1, a.2.step x born c) := by
  obtain ⟨p, recs⟩ := s
  obtain ⟨⟨t, n⟩, l⟩ := a
  obtain ⟨ht, ht', hn⟩ := hc
  cases c with
  | newSpan m' fields now =>
    obtain ⟨p', hcall, h'⟩ := h.newSpan m' fields ht ht' hn
    exact ⟨(p', recs), runStep_of_call hcall, h'⟩
  | record id fields =>
    obtain ⟨p', hmod, h'⟩ := h.modify id (·.record fields) l le_rfl ht'
      (fun d hd => by
        obtain ⟨b, hb, hok⟩ := SpanData.record_ok hd fields
        exact ⟨_, hb, rfl, hok, fun _ htr => htr⟩)
      (fun _ => rfl) rfl
    exact ⟨(p', recs), runStep_of_call (by rw [SpanPool.call, SpanSubscriber.record, hmod]; rfl), h'⟩
  | cloneSpan id =>
    obtain ⟨p', hmod, h'⟩ := h.modify id (fun d => pure d.cloneSpan) (l.step x born (.cloneSpan id))
      le_rfl ht'
      (fun d hd => ⟨_, rfl, rfl, hd.cloneSpan, fun hx htr => by
        -- a live span has a reference open, so its life takes the clone
        obtain ⟨hr, hm, hsum⟩ := tracks_some.1 htr
        have hpos : 0 < l.refs := hr ▸ hd.refs_pos
        simp only [Life.step, hx, hpos, and_self, if_true]
        exact ⟨by rw [SpanData.cloneSpan, ← hr], hm, hsum⟩⟩)
      (fun hl => by
        rcases hl with hx | h0
        · simp [Life.step, hx]
        · simp [Life.step, h0])
      (by simp only [Life.step]; split <;> rfl)
    exact ⟨(p', recs), runStep_of_call (by rw [SpanPool.call, SpanSubscriber.cloneSpan, hmod]; rfl), h'⟩
  | enter id now =>
    obtain ⟨p', hmod, h'⟩ := h.modify id (·.enter now) l ht ht'
      (fun d hd => ⟨_, SpanData.enter_eq hd ht ht', rfl, hd.enter ht, fun _ htr => by
        -- the time since the last transition joins the idle time
        obtain ⟨hr, hm, hsum⟩ := tracks_some.1 htr
        have hlast : d.last ≤ now := hd.last_le.trans ht
        exact ⟨hr, hm, by dsimp only; omega⟩⟩)
      (fun _ => rfl) rfl
    exact ⟨(p', recs), runStep_of_call (by rw [SpanPool.call, hmod]; rfl), h'⟩
  | exit id now =>
    obtain ⟨p', hmod, h'⟩ := h.modify id (·.exit now) l ht ht'
      (fun d hd => ⟨_, SpanData.exit_eq hd ht ht', rfl, hd.exit ht, fun _ htr => by
        -- the time since the last transition joins the busy time
        obtain ⟨hr, hm, hsum⟩ := tracks_some.1 htr
        have hlast : d.last ≤ now := hd.last_le.trans ht
        exact ⟨hr, hm, by dsimp only; omega⟩⟩)
      (fun _ => rfl) rfl
    exact ⟨(p', recs), runStep_of_call (by rw [SpanPool.call, hmod]; rfl), h'⟩
  | tryClose id now => exact h.tryClose id ht ht'

/-- After `new_span`, the relation holds of the new span: live with one reference if the pool had a
    free slot, and gone with none if it had not. -/
theorem lives_newSpan (hp : p.Wf t) (m : Meta) (fields : List Field) (hborn : t ≤ born)
    (hlt : born < U64_LIMIT) (hn : p.nextId.toNat + 1 < U64_LIMIT) :
    ∃ p', p.call (.newSpan m fields born) = .ok (p', none) ∧
      Lives p.nextId born m (p', []) ((born, p.nextId.toNat + 1), ⟨if none ∈ p.slots then 1 else 0, []⟩) := by
  obtain ⟨fb, cs, hcs, hcall⟩ := call_newSpan (p := p) m fields born
  refine ⟨_, hcall, hp.newSpan hn m hcs hborn hlt, SpanPool.newSpan_nextId hn m fb born,
    Nat.lt_succ_self _, ?_, rfl, fun c hc => by simp [recordsOf] at hc⟩
  show Tracks born m (if none ∈ p.slots then 1 else 0) ((p.newSpan m fb born).1.span? p.nextId)
  rw [SpanPool.span?_newSpan hp, if_pos rfl]
  split
  · exact ⟨rfl, rfl, by dsimp only; omega⟩
  · rfl

end Lives

/-- The life of a span, seen through every allowed run of pool calls from any pool that keeps its
    invariant: after `new_span`, no call panics, the span is live exactly while references to it
    are open, and the close records rendered for it are the ones its life predicts, with its
    metadata. So a span closes once, when its last reference closes, and its record's busy and
    idle times add up to its whole life; a span that found the pool full renders none. -/
theorem newSpan_lifecycle (p : SpanPool) (t : Nat) (hp : p.Wf t) (m : Meta) (fields : List Field)
    (born : Nat) (calls : List PoolCall)
    (hcalls : Run.AllowedAlong PoolCall.advance PoolCall.Allowed (t, p.nextId.toNat)
      (.newSpan m fields born :: calls)) :
    ∃ p' recs, (PoolCall.newSpan m fields born :: calls).foldlM SpanPool.runStep (p, []) = .ok (p', recs) ∧
      ((p'.span? p.nextId).isSome ↔
        0 < (calls.foldl (Life.step p.nextId born) ⟨if none ∈ p.slots then 1 else 0, []⟩).refs) ∧
      (recordsOf p.nextId recs).map (fun c => c.busy + c.idle) =
        (calls.foldl (Life.step p.nextId born) ⟨if none ∈ p.slots then 1 else 0, []⟩).records ∧
      (recordsOf p.nextId recs).length ≤ 1 ∧
      ∀ c ∈ recordsOf p.nextId recs, c.metadata = m := by
  have hborn : t ≤ born := hcalls.1.1
  have hlt : born < U64_LIMIT := hcalls.1.2.1
  have hn : p.nextId.toNat + 1 < U64_LIMIT := hcalls.1.2.2
  obtain ⟨p₁, hcall, h₁⟩ := lives_newSpan hp m fields hborn hlt hn
  -- the run after `new_span` simulates the life, with the clock and the ids handed out
  obtain ⟨⟨p', recs⟩, hrun, h'⟩ := Run.foldlM_simulates
    (f := fun a c => (c.advance a.1, a.2.step p.nextId born c)) (P := fun a c => c.Allowed a.1)
    (fun _ _ c h hc => h.runStep c hc) h₁
    (Run.allowedAlong_of_proj (g := PoolCall.advance) (Q := PoolCall.Allowed) Prod.fst
      (fun _ _ => rfl) (fun _ _ hc => hc) hcalls.2)
  rw [List.foldl_hom₂ calls Prod.mk PoolCall.advance (Life.step p.nextId born) _ _ _ fun _ _ _ => rfl]
    at h'
  have hrecs := h'.records_eq
  dsimp only at hrecs
  refine ⟨p', recs, ?_, ?_, hrecs, ?_, h'.metadata_eq⟩
  · rw [List.foldlM_cons, runStep_of_call hcall, Except.ok_bind, hrun]
  · -- a live span keeps a reference open, and a gone one has none
    have htr := h'.tracks
    dsimp only at htr
    cases hs : p'.span? p.nextId with
    | none =>
      rw [hs] at htr
      simp [tracks_none.1 htr]
    | some d =>
      rw [hs] at htr
      obtain ⟨i, hget⟩ := SpanPool.span?_eq_some_iff.1 hs
      have hok := h'.wf.ok d (List.mem_of_getElem? (SpanPool.getMut_eq_some_iff'.1 hget).1)
      simp [← (tracks_some.1 htr).1, hok.refs_pos]
  · have hlen := congrArg List.length hrecs
    rw [List.length_map] at hlen
    rw [hlen]
    exact Life.length_records_le_one (Life.closedOnce_run (.inl rfl) calls)

/-- A span created at 5 in a fresh pool, entered at 6, exited at 9 and closed at 12 leaves the pool
    with one record of its 7 nanoseconds. -/
theorem newSpan_lifecycle_enter_exit_close :
    SpanPool.new.Wf 0 ∧
      Run.AllowedAlong PoolCall.advance PoolCall.Allowed (0, 1)
        [.newSpan ⟨"work", .info, "kernel"⟩ [] 5, .enter 1 6, .exit 1 9, .tryClose 1 12] ∧
      ∃ p' recs, [PoolCall.newSpan ⟨"work", .info, "kernel"⟩ [] 5, .enter 1 6, .exit 1 9, .tryClose 1 12].foldlM
          SpanPool.runStep (SpanPool.new, []) = .ok (p', recs) ∧
        p'.span? 1 = none ∧ (recordsOf 1 recs).map (fun c => c.busy + c.idle) = [7] := by
  obtain ⟨p', recs, hrun, hlive, hrecs, -, -⟩ := newSpan_lifecycle SpanPool.new 0 SpanPool.new_wf
    ⟨"work", .info, "kernel"⟩ [] 5 [.enter 1 6, .exit 1 9, .tryClose 1 12] (by decide)
  have hlife : [PoolCall.enter 1 6, .exit 1 9, .tryClose 1 12].foldl (Life.step SpanPool.new.nextId 5)
      ⟨if none ∈ SpanPool.new.slots then 1 else 0, []⟩ = ⟨0, [7]⟩ := by decide
  rw [hlife] at hlive hrecs
  have hnext : SpanPool.new.nextId = 1 := rfl
  rw [hnext] at hlive
  refine ⟨SpanPool.new_wf, by decide, p', recs, hrun, ?_, hrecs⟩
  simpa using hlive

end Muffin.Log
