-- SUMMARY: The `RUST_LOG` filter of the kernel's `log` crate: `Filter::parse` into a buffer of 256 bytes and an array of 16 directives, with `parse_directive`, `trim` and `parse_level`, and `Filter::enabled` and `Filter::max`, every loop run on fuel and every index checked; with what a call of `trim` returns.
import Muffin.Lib.Slice

/-!
# The `RUST_LOG` filter

`Filter::parse` copies the first 256 bytes of its input into a buffer and walks
it segment by segment, a segment ending at the next comma. `parse_directive`
trims a segment of ASCII whitespace and reads it as one of three shapes: a
level name, `target=level`, or a bare target, which gets `TRACE`. A directive
stores its target as a span `start..end` of the buffer, in `u16`s, and at most
16 of them are kept. `Filter::enabled` finds, among the directives whose target
is a prefix of the target asked about, the last of those with the longest
target, and compares its level.

The order on levels is `tracing`'s, where the more verbose is the greater:
`OFF < ERROR < WARN < INFO < DEBUG < TRACE`, and `allowed >= level` compares a
filter with a level through `LevelFilter::from_level`.

Every `while` loop of the source runs here on fuel, as many rounds as the span
it walks has bytes, which is as many as it can take (`trim_spec`). Every index
into the buffer and the array of directives is checked and panics out of
bounds, as in Rust.
-/

namespace Muffin.Log

open Rust Rust.Slice

-- ---------------------------------------------------------------------------
-- Levels
-- ---------------------------------------------------------------------------

/-- `tracing::Level`. -/
inductive Level where
  | error
  | warn
  | info
  | debug
  | trace
  deriving DecidableEq, Repr

/-- `tracing::level_filters::LevelFilter`: a level, or `OFF`, which passes none. -/
inductive LevelFilter where
  | off
  | error
  | warn
  | info
  | debug
  | trace
  deriving DecidableEq, Repr

namespace LevelFilter

/-- The place of a filter in `tracing`'s order: `OFF` first, `TRACE` last. -/
def rank : LevelFilter → Nat
  | off => 0
  | error => 1
  | warn => 2
  | info => 3
  | debug => 4
  | trace => 5

theorem rank_injective : Function.Injective rank := by
  intro a b h
  cases a <;> cases b <;> first | rfl | cases h

instance : LinearOrder LevelFilter := LinearOrder.lift' rank rank_injective

@[simp] theorem off_le (l : LevelFilter) : off ≤ l := by
  cases l <;> decide

/-- The lowercase name of a filter, as `parse_level` spells it. -/
def name : LevelFilter → List UInt8
  | off => [111, 102, 102]             -- b"off"
  | error => [101, 114, 114, 111, 114] -- b"error"
  | warn => [119, 97, 114, 110]        -- b"warn"
  | info => [105, 110, 102, 111]       -- b"info"
  | debug => [100, 101, 98, 117, 103]  -- b"debug"
  | trace => [116, 114, 97, 99, 101]   -- b"trace"

end LevelFilter

/-- `LevelFilter::from_level`: the filter that passes `l` and every less verbose level. -/
def Level.toFilter : Level → LevelFilter
  | .error => .error
  | .warn => .warn
  | .info => .info
  | .debug => .debug
  | .trace => .trace

-- ---------------------------------------------------------------------------
-- `Filter`
-- ---------------------------------------------------------------------------

/-- `MAX_DIRECTIVES`. -/
def MAX_DIRECTIVES : Nat := 16

/-- `BUF_SIZE`. -/
def BUF_SIZE : Nat := 256

/-- `Directive`: a target prefix, the span `buf[start..end]`, and its level. An empty span is
    the global directive, which every target matches. -/
structure Directive where
  start : UInt16
  /-- `end`. -/
  stop : UInt16
  level : LevelFilter
  deriving DecidableEq, Repr

/-- `Filter`: the buffer, the array of directives, how many of them are set, and the greatest
    of their levels. -/
structure Filter where
  buf : List UInt8
  directives : List Directive
  count : Nat
  max : LevelFilter
  deriving Repr

-- ---------------------------------------------------------------------------
-- `trim`, `parse_level`, `parse_directive`
-- ---------------------------------------------------------------------------

/-- The first loop of `trim`: `start` moves past whitespace, up to `end`. -/
def trimStart (buf : List UInt8) (stop : Nat) : Nat → Nat → Except Panic Nat
  | 0, start => pure start
  | fuel + 1, start =>
    if start < stop then do
      if isAsciiWhitespace (← Slice.index buf start) then trimStart buf stop fuel (start + 1)
      else pure start
    else pure start

/-- The second loop of `trim`: `end` moves back past whitespace, down to `start`. -/
def trimEnd (buf : List UInt8) (start : Nat) : Nat → Nat → Except Panic Nat
  | 0, stop => pure stop
  | fuel + 1, stop =>
    if start < stop then do
      if isAsciiWhitespace (← Slice.index buf (stop - 1)) then trimEnd buf start fuel (stop - 1)
      else pure stop
    else pure stop

/-- `trim(buf, start, end)`. -/
def trim (buf : List UInt8) (start stop : Nat) : Except Panic (Nat × Nat) := do
  let start ← trimStart buf stop (stop - start) start
  let stop ← trimEnd buf start (stop - start) stop
  pure (start, stop)

/-- `parse_level`. -/
def parseLevel (s : List UInt8) : Option LevelFilter :=
  if eqIgnoreAsciiCase s LevelFilter.off.name then some .off
  else if eqIgnoreAsciiCase s LevelFilter.error.name then some .error
  else if eqIgnoreAsciiCase s LevelFilter.warn.name then some .warn
  else if eqIgnoreAsciiCase s LevelFilter.info.name then some .info
  else if eqIgnoreAsciiCase s LevelFilter.debug.name then some .debug
  else if eqIgnoreAsciiCase s LevelFilter.trace.name then some .trace
  else none

/-- `parse_directive(buf, start, end)`. The source slices `buf[start..end]` twice, to search it
    for `=` and to read it as a level; both are the same bytes. -/
def parseDirective (buf : List UInt8) (start stop : Nat) : Except Panic (Option Directive) := do
  let (start, stop) ← trim buf start stop
  if start = stop then
    return none
  let seg ← Slice.range buf start stop
  match (seg.findIdx? (· == 61)).map (start + ·) with -- b'='
  | some eq =>
    let (ts, te) ← trim buf start eq
    let (ls, le) ← trim buf (eq + 1) stop
    let some level := parseLevel (← Slice.range buf ls le) | return none
    return some ⟨ts.toUInt16, te.toUInt16, level⟩
  | none =>
    match parseLevel seg with
    | some level => return some ⟨start.toUInt16, start.toUInt16, level⟩
    | none => return some ⟨start.toUInt16, stop.toUInt16, .trace⟩

-- ---------------------------------------------------------------------------
-- `Filter::parse`, `Filter::enabled`
-- ---------------------------------------------------------------------------

/-- The `while` loop of `Filter::parse` from `pos`, with `count` directives set and `max` the
    greatest of their levels. -/
def parseLoop (buf : List UInt8) (len : Nat) :
    Nat → Nat → List Directive → Nat → LevelFilter → Except Panic (List Directive × Nat × LevelFilter)
  | 0, _, directives, count, max => pure (directives, count, max)
  | fuel + 1, pos, directives, count, max =>
    if pos < len ∧ count < MAX_DIRECTIVES then do
      let segEnd := ((← Slice.range buf pos len).findIdx? (· == 44)).elim len (pos + ·) -- b','
      match ← parseDirective buf pos segEnd with
      | some directive =>
        let max := if max < directive.level then directive.level else max
        let directives ← Slice.setIndex directives count directive
        parseLoop buf len fuel (segEnd + 1) directives (count + 1) max
      | none => parseLoop buf len fuel (segEnd + 1) directives count max
    else pure (directives, count, max)

/-- `Filter::parse` of the bytes of the input. The loop runs at most once per byte. -/
def parseBytes (input : List UInt8) : Except Panic Filter := do
  let len := min input.length BUF_SIZE
  let buf ← Slice.copyFromSlice (List.replicate BUF_SIZE 0) 0 len (← Slice.range input 0 len)
  let (directives, count, max) ←
    parseLoop buf len len 0 (List.replicate MAX_DIRECTIVES ⟨0, 0, .off⟩) 0 .off
  pure ⟨buf, directives, count, max⟩

/-- `Filter::parse`. -/
def Filter.parse (input : String) : Except Panic Filter := parseBytes input.toUTF8.toList

/-- One round of the loop of `Filter::enabled`: the directive becomes the best so far when its
    target is a prefix of the target and nothing is kept yet or it is at least as long as the
    best's. -/
def enabledStep (buf target : List UInt8) (best : Option LevelFilter × Nat) (directive : Directive) :
    Except Panic (Option LevelFilter × Nat) := do
  let pre ← Slice.range buf directive.start.toNat directive.stop.toNat
  if pre.isPrefixOf target && (best.1.isNone || best.2 ≤ pre.length) then
    pure (some directive.level, pre.length)
  else pure best

/-- `Filter::enabled` of the bytes of a target. -/
def Filter.enabledBytes (f : Filter) (target : List UInt8) (level : Level) : Except Panic Bool := do
  let directives ← Slice.range f.directives 0 f.count
  let best ← directives.foldlM (enabledStep f.buf target) (none, 0)
  pure (best.1.any fun allowed => level.toFilter ≤ allowed)

/-- `Filter::enabled`. -/
def Filter.enabled (f : Filter) (target : String) (level : Level) : Except Panic Bool :=
  f.enabledBytes target.toUTF8.toList level

-- ---------------------------------------------------------------------------
-- What `trim` returns
-- ---------------------------------------------------------------------------

section Trim

variable {buf : List UInt8}

/-- The first loop of `trim` stops at the first byte of the span that is not whitespace. -/
theorem trimStart_spec {stop : Nat} (hstop : stop ≤ buf.length) :
    ∀ fuel start, stop - start ≤ fuel → start ≤ stop →
      ∃ a, trimStart buf stop fuel start = .ok a ∧ start ≤ a ∧ a ≤ stop ∧
        buf.extract a stop = (buf.extract start stop).dropWhile isAsciiWhitespace
  | 0, start, hfuel, hle => by
    obtain rfl : start = stop := by omega
    exact ⟨start, rfl, le_refl _, le_refl _, by rw [extract_self]; rfl⟩
  | fuel + 1, start, hfuel, hle => by
    rw [trimStart]
    by_cases hlt : start < stop
    · rw [if_pos hlt, index_of_lt (by omega), Except.ok_bind, extract_eq_cons hlt hstop,
        List.dropWhile_cons]
      by_cases hws : isAsciiWhitespace buf[start] = true
      · -- a whitespace byte: the loop goes on from the next one
        rw [if_pos hws, if_pos hws]
        obtain ⟨a, ha, h₁, h₂, h₃⟩ := trimStart_spec hstop fuel (start + 1) (by omega) hlt
        exact ⟨a, ha, by omega, h₂, h₃⟩
      · rw [if_neg hws, if_neg hws]
        exact ⟨start, rfl, le_refl _, hle, extract_eq_cons hlt hstop⟩
    · obtain rfl : start = stop := by omega
      rw [if_neg hlt]
      exact ⟨start, rfl, le_refl _, le_refl _, by rw [extract_self]; rfl⟩

/-- The second loop of `trim` stops after the last byte of the span that is not whitespace. -/
theorem trimEnd_spec {start : Nat} :
    ∀ fuel stop, stop - start ≤ fuel → start ≤ stop → stop ≤ buf.length →
      ∃ b, trimEnd buf start fuel stop = .ok b ∧ start ≤ b ∧ b ≤ stop ∧
        buf.extract start b = (buf.extract start stop).rdropWhile isAsciiWhitespace
  | 0, stop, hfuel, hle, _ => by
    obtain rfl : stop = start := by omega
    exact ⟨stop, rfl, le_refl _, le_refl _, by rw [extract_self]; rfl⟩
  | fuel + 1, stop, hfuel, hle, hstop => by
    rw [trimEnd]
    by_cases hlt : start < stop
    · rw [if_pos hlt, index_of_lt (by omega), Except.ok_bind, extract_eq_concat hlt hstop,
        List.rdropWhile_concat]
      by_cases hws : isAsciiWhitespace buf[stop - 1] = true
      · -- a whitespace byte: the loop goes on from the one before
        rw [if_pos hws, if_pos hws]
        obtain ⟨b, hb, h₁, h₂, h₃⟩ := @trimEnd_spec start fuel (stop - 1) (by omega) (by omega) (by omega)
        exact ⟨b, hb, h₁, by omega, h₃⟩
      · rw [if_neg hws, if_neg hws]
        exact ⟨stop, rfl, hle, le_refl _, extract_eq_concat hlt hstop⟩
    · obtain rfl : stop = start := by omega
      rw [if_neg hlt]
      exact ⟨stop, rfl, le_refl _, le_refl _, by rw [extract_self]; rfl⟩

/-- `trim` returns the span of the trimmed bytes. -/
theorem trim_spec {start stop : Nat} (hle : start ≤ stop) (hstop : stop ≤ buf.length) :
    ∃ a b, trim buf start stop = .ok (a, b) ∧ start ≤ a ∧ a ≤ b ∧ b ≤ stop ∧
      buf.extract a b = trimAscii (buf.extract start stop) := by
  obtain ⟨a, ha, h₁, h₂, h₃⟩ := trimStart_spec hstop (stop - start) start (le_refl _) hle
  obtain ⟨b, hb, h₄, h₅, h₆⟩ := trimEnd_spec (stop - a) stop (le_refl _) h₂ hstop
  refine ⟨a, b, ?_, h₁, h₄, h₅, ?_⟩
  · rw [trim, ha, Except.ok_bind, hb, Except.ok_bind]
    rfl
  · rw [h₆, h₃, trimAscii]

end Trim

end Muffin.Log
