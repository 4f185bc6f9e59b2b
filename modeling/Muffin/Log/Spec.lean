-- SUMMARY: What the `RUST_LOG` filter means: the directives of an input read segment by segment, the last of the longest matching targets deciding a target, and the greatest level; `Filter::parse` never panics, and the filter it builds holds those directives, so that `enabled` and `max` answer as they say.
import Muffin.Log.Filter
import Muffin.Lib.LastMax

/-!
# What the filter means

The specification reads an input as a list of directives, `directivesOf`: its
first 256 bytes split at commas, each segment trimmed of ASCII whitespace and
read as a level name (the global directive, with the empty target),
`target=level` with a level name after the first `=`, or a bare target with
`TRACE`, and the first 16 directives kept. A directive decides a target when
its target is a prefix of it and it is the last of the directives with the
longest such target (`Decides`, the last of the greatest of `Muffin.Lib.LastMax`).

`Directive.read` is the abstraction: a directive of the buffer stands for the
bytes of its span and its level. `parseDirective_spec` says that
`parse_directive` reads a segment as `directiveOf` does, `parseLoop_spec` that
the loop of `parse` sets the directives of the segments from its cursor on, and
`enabledBytes_eq` that `enabled` is the scan for the last of the longest. The
theorem `parse_enabled_max` assembles them: `parse` returns a filter for every
input, and that filter's `enabled` and `max` are those of `directivesOf`.
-/

namespace Muffin.Log

open Rust Rust.Slice

-- ---------------------------------------------------------------------------
-- The directives of an input
-- ---------------------------------------------------------------------------

/-- A directive as the input states it: a target prefix and a level. -/
structure Rule where
  target : List UInt8
  level : LevelFilter
  deriving DecidableEq, Repr

/-- The filter a level name stands for, in any ASCII case. -/
def levelNamed (name : List UInt8) : Option LevelFilter :=
  [LevelFilter.off, .error, .warn, .info, .debug, .trace].find? fun l =>
    name.map toAsciiLowercase = l.name

/-- The directive a segment of the input gives, if any: none for a segment of whitespace, and
    for `target=level` none unless the level is a name. -/
def directiveOf (seg : List UInt8) : Option Rule :=
  let seg := trimAscii seg
  if seg = [] then none
  else
    match seg.findIdx? (· == 61) with -- b'='
    | some i => (levelNamed (trimAscii (seg.drop (i + 1)))).map fun level => ⟨trimAscii (seg.take i), level⟩
    | none =>
      match levelNamed seg with
      | some level => some ⟨[], level⟩
      | none => some ⟨seg, .trace⟩

/-- The directives of an input: those of the segments of its first `BUF_SIZE` bytes, split at
    commas, and of them the first `MAX_DIRECTIVES`. -/
def directivesOf (input : List UInt8) : List Rule :=
  (((input.take BUF_SIZE).splitOn 44).filterMap directiveOf).take MAX_DIRECTIVES -- b','

-- `k=trace, DEBUG ,x=nope`: a target with its level, a global directive, and one dropped
example : directivesOf [107, 61, 116, 114, 97, 99, 101, 44, 32, 68, 69, 66, 85, 71, 32, 44, 120, 61, 110, 111, 112, 101] =
    [⟨[107], .trace⟩, ⟨[], .debug⟩] := by
  decide

/-- `r` decides `target` among `D`: its target is a prefix of `target`, and it is the last of the
    directives of `D` with the longest such target. -/
def Decides (D : List Rule) (target : List UInt8) (r : Rule) : Prop :=
  D.IsLastMaxBy (fun r => r.target.isPrefixOf target) (fun r => r.target.length) r

/-- The greatest level of `D`, or `OFF` when `D` is empty. -/
def maxLevel (D : List Rule) : LevelFilter := ((D.map Rule.level).max?).getD .off

theorem le_maxLevel {D : List Rule} {r : Rule} (hr : r ∈ D) : r.level ≤ maxLevel D := by
  have hmem : r.level ∈ D.map Rule.level := List.mem_map_of_mem hr
  obtain ⟨top, htop⟩ := Option.isSome_iff_exists.1 (List.isSome_max?_of_mem hmem)
  rw [maxLevel, htop, Option.getD_some]
  exact (List.max?_eq_some_iff.1 htop).2 _ hmem

-- ---------------------------------------------------------------------------
-- Directives of the buffer
-- ---------------------------------------------------------------------------

/-- The directive a `Directive` of the buffer stands for: the bytes of its span, and its level. -/
def Directive.read (buf : List UInt8) (d : Directive) : Rule :=
  ⟨buf.extract d.start.toNat d.stop.toNat, d.level⟩

/-- The span of a directive lies in the first `len` bytes. -/
def Directive.InBounds (len : Nat) (d : Directive) : Prop :=
  d.start.toNat ≤ d.stop.toNat ∧ d.stop.toNat ≤ len

theorem Directive.InBounds.mono {len len' : Nat} {d : Directive} (h : d.InBounds len) (hlen : len ≤ len') :
    d.InBounds len' :=
  ⟨h.1, Nat.le_trans h.2 hlen⟩

/-- A position of the buffer stored `as u16` is read back as it was. -/
theorem toNat_toUInt16 {n : Nat} (h : n ≤ BUF_SIZE) : n.toUInt16.toNat = n := by
  rw [Nat.toUInt16_eq, UInt16.toNat_ofNat_of_lt' (by unfold BUF_SIZE at h; unfold UInt16.size; omega)]

/-- `parse_level` reads the level names, in any ASCII case. -/
theorem parseLevel_eq_levelNamed (s : List UInt8) : parseLevel s = levelNamed s := by
  have hname : ∀ l : LevelFilter, l.name.map toAsciiLowercase = l.name := by
    intro l
    cases l <;> decide
  simp only [parseLevel, levelNamed, eqIgnoreAsciiCase_iff, hname, List.find?_cons, List.find?_nil]
  generalize s.map toAsciiLowercase = m
  split_ifs <;> subst_vars <;> simp_all [LevelFilter.name]

/-- `parse_directive` reads a segment of the buffer as `directiveOf` reads its bytes, and the
    span it stores lies in the segment. -/
theorem parseDirective_spec {buf : List UInt8} {start stop : Nat} (hle : start ≤ stop)
    (hstop : stop ≤ buf.length) (hsize : stop ≤ BUF_SIZE) :
    ∃ o, parseDirective buf start stop = .ok o ∧
      o.map (Directive.read buf) = directiveOf (buf.extract start stop) ∧ ∀ d ∈ o, d.InBounds stop := by
  obtain ⟨a, b, htrim, hsa, hab, hbs, hseg⟩ := trim_spec hle hstop
  unfold parseDirective directiveOf
  rw [htrim, Except.ok_bind, ← hseg]
  by_cases heq : a = b
  · subst heq
    simp
    rfl
  · have hlt : a < b := by omega
    have hne : buf.extract a b ≠ [] := by
      intro h
      have := congrArg List.length h
      rw [length_extract_of_le (s := buf) hab (by omega)] at this
      simp at this
      omega
    simp only [if_neg heq, if_neg hne]
    rw [range_of_le (s := buf) hab (by omega), Except.ok_bind]
    -- every span the directive stores is read back from its `u16`s as it was
    have hu : ∀ n, n ≤ stop → n.toUInt16.toNat = n := fun n hn => toNat_toUInt16 (by omega)
    cases hfind : (buf.extract a b).findIdx? (· == 61) with
    | none =>
      -- a level name, or a bare target
      simp only [Option.map_none, parseLevel_eq_levelNamed]
      cases levelNamed (buf.extract a b) with
      | none =>
        refine ⟨_, rfl, ?_, ?_⟩
        · simp [Directive.read, hu a (by omega), hu b hbs]
        · simp [Directive.InBounds, hu a (by omega), hu b hbs, hab, hbs]
      | some level =>
        refine ⟨_, rfl, ?_, ?_⟩
        · simp [Directive.read, hu a (by omega)]
        · simp [Directive.InBounds, hu a (by omega)]
          omega
    | some i =>
      -- `target=level`, split at the first `=`
      obtain ⟨hi, -, -⟩ := List.findIdx?_eq_some_iff_getElem.1 hfind
      rw [length_extract_of_le (s := buf) hab (by omega)] at hi
      obtain ⟨ts, te, htrim₁, -, hte, hte', hT⟩ := @trim_spec buf a (a + i) (by omega) (by omega)
      obtain ⟨ls, le, htrim₂, hls, hle', hle'', hL⟩ := @trim_spec buf (a + i + 1) b (by omega) (by omega)
      simp only [Option.map_some, htrim₁, htrim₂, Except.ok_bind]
      rw [take_extract (by omega), ← hT, drop_extract, ← Nat.add_assoc, ← hL]
      rw [range_of_le (s := buf) hle' (by omega), Except.ok_bind, parseLevel_eq_levelNamed]
      cases levelNamed (buf.extract ls le) with
      | none => exact ⟨_, rfl, rfl, by simp⟩
      | some level =>
        refine ⟨_, rfl, ?_, ?_⟩
        · simp [Directive.read, hu ts (by omega), hu te (by omega)]
        · simp [Directive.InBounds, hu ts (by omega), hu te (by omega)]
          omega

-- ---------------------------------------------------------------------------
-- The loop of `parse`
-- ---------------------------------------------------------------------------

/-- The directives of the segments of `input` from `pos` on. -/
def rulesFrom (input : List UInt8) (pos : Nat) : List Rule :=
  ((input.drop pos).splitOn 44).filterMap directiveOf

theorem rulesFrom_of_le {input : List UInt8} {pos : Nat} (h : input.length ≤ pos) : rulesFrom input pos = [] := by
  rw [rulesFrom, List.drop_eq_nil_of_le h]
  rfl

/-- The segment from `pos` runs up to the next comma, or to the end, and the segments after it
    start past it. -/
theorem rulesFrom_eq_of_lt {input : List UInt8} {pos segEnd : Nat} (hpos : pos < input.length)
    (hseg : ((input.drop pos).findIdx? (· == 44)).elim input.length (pos + ·) = segEnd) :
    pos ≤ segEnd ∧ segEnd ≤ input.length ∧
      rulesFrom input pos = (directiveOf (input.extract pos segEnd)).toList ++ rulesFrom input (segEnd + 1) := by
  cases hfind : (input.drop pos).findIdx? (· == 44) with
  | none =>
    rw [hfind] at hseg
    obtain rfl : input.length = segEnd := hseg
    refine ⟨hpos.le, le_refl _, ?_⟩
    rw [rulesFrom, rulesFrom_of_le (by omega), splitOn_of_findIdx?_eq_none hfind, extract_length,
      List.filterMap_cons, List.filterMap_nil]
    cases directiveOf (input.drop pos) <;> rfl
  | some i =>
    rw [hfind] at hseg
    obtain rfl : pos + i = segEnd := hseg
    obtain ⟨hi, -⟩ := List.findIdx?_eq_some_iff_getElem.1 hfind
    rw [List.length_drop] at hi
    refine ⟨by omega, by omega, ?_⟩
    rw [rulesFrom, rulesFrom, splitOn_of_findIdx?_eq_some hfind, List.drop_drop, List.extract_eq_take_drop,
      Nat.add_sub_cancel_left, Nat.add_assoc, List.filterMap_cons]
    cases directiveOf ((input.drop pos).take i) <;> rfl

/-- The array of directives of `parse` with `count` of them set, each with its span in the first
    `len` bytes. -/
structure Kept (len : Nat) (directives : List Directive) (count : Nat) : Prop where
  length_eq : directives.length = MAX_DIRECTIVES
  count_le : count ≤ MAX_DIRECTIVES
  inBounds : ∀ d ∈ directives.take count, d.InBounds len

/-- `directives[count] = directive; count += 1` keeps the array as it was, with one more set. -/
theorem Kept.set {len count : Nat} {directives : List Directive} {d : Directive}
    (h : Kept len directives count) (hcount : count < MAX_DIRECTIVES) (hd : d.InBounds len) :
    Kept len (directives.set count d) (count + 1) := by
  refine ⟨by rw [List.length_set, h.length_eq], hcount, ?_⟩
  rw [take_succ_set (by rw [h.length_eq]; exact hcount)]
  intro e he
  rcases List.mem_append.1 he with he | he
  · exact h.inBounds e he
  · rw [List.mem_singleton.1 he]
    exact hd

/-- The update of `max` in `parse`. -/
theorem ite_lt_eq_max (a b : LevelFilter) : (if a < b then b else a) = max a b :=
  (max_def_lt a b).symm

/-- The loop of `parse` over a buffer that starts with `input`, from `pos`: it never panics, it
    sets the directives of the segments from `pos` on as long as fewer than 16 are set, and it keeps
    the greatest of their levels. -/
theorem parseLoop_spec {input buf : List UInt8} (hbuf : input <+: buf) (hsize : buf.length ≤ BUF_SIZE) :
    ∀ fuel pos directives count mx, input.length - pos ≤ fuel → Kept input.length directives count →
      ∃ directives' count' mx',
        parseLoop buf input.length fuel pos directives count mx = .ok (directives', count', mx') ∧
        Kept input.length directives' count' ∧
        (directives'.take count').map (Directive.read buf) =
          (directives.take count).map (Directive.read buf) ++ (rulesFrom input pos).take (MAX_DIRECTIVES - count) ∧
        mx' = (((rulesFrom input pos).take (MAX_DIRECTIVES - count)).map Rule.level).foldl max mx
  | 0, pos, directives, count, mx, hfuel, hkept => by
    -- out of fuel only past the end, where no segment is left
    rw [rulesFrom_of_le (by omega)]
    exact ⟨directives, count, mx, rfl, hkept, by simp, by simp⟩
  | fuel + 1, pos, directives, count, mx, hfuel, hkept => by
    obtain ⟨rest, rfl⟩ := hbuf
    have hlen : input.length ≤ (input ++ rest).length := by simp
    rw [parseLoop]
    by_cases hgo : pos < input.length ∧ count < MAX_DIRECTIVES
    · obtain ⟨hpos, hcount⟩ := hgo
      rw [if_pos ⟨hpos, hcount⟩, range_of_le hpos.le hlen, Except.ok_bind,
        extract_append_of_le (le_refl _), extract_length]
      generalize hseg : ((input.drop pos).findIdx? (· == 44)).elim input.length (pos + ·) = segEnd
      obtain ⟨hps, hse, hrules⟩ := rulesFrom_eq_of_lt hpos hseg
      obtain ⟨o, hdir, hread, hin⟩ :=
        @parseDirective_spec (input ++ rest) pos segEnd hps (by simp; omega) (by simp at hsize; omega)
      rw [extract_append_of_le hse] at hread
      dsimp only
      rw [hdir, Except.ok_bind]
      cases o with
      | none =>
        -- a segment with no directive: the array stays as it is
        obtain ⟨directives', count', mx', hrun, hkept', hmap, hmax⟩ :=
          parseLoop_spec ⟨rest, rfl⟩ hsize fuel (segEnd + 1) directives count mx (by omega) hkept
        rw [hrules, ← hread, Option.map_none, Option.toList_none, List.nil_append]
        exact ⟨directives', count', mx', hrun, hkept', hmap, hmax⟩
      | some d =>
        -- a directive: it is set at `count`, and its level enters `max`
        have hd : d.InBounds input.length := (hin d rfl).mono hse
        dsimp only
        rw [setIndex_of_lt (by rw [hkept.length_eq]; exact hcount), Except.ok_bind, ite_lt_eq_max]
        obtain ⟨directives', count', mx', hrun, hkept', hmap, hmax⟩ :=
          parseLoop_spec ⟨rest, rfl⟩ hsize fuel (segEnd + 1) (directives.set count d) (count + 1)
            (max mx d.level) (by omega) (hkept.set hcount hd)
        have hleft : MAX_DIRECTIVES - count = MAX_DIRECTIVES - (count + 1) + 1 := by omega
        rw [hrules, ← hread, Option.map_some, Option.toList_some, List.singleton_append, hleft,
          List.take_succ_cons]
        refine ⟨directives', count', mx', hrun, hkept', ?_, ?_⟩
        · rw [hmap, take_succ_set (by rw [hkept.length_eq]; exact hcount), List.map_append,
            List.map_singleton, List.append_assoc, List.singleton_append]
        · rw [hmax, List.map_cons, List.foldl_cons]
          rfl
    · -- past the end, or 16 directives set: the loop stops, and nothing more is set
      rw [if_neg hgo]
      have hnone : (rulesFrom input pos).take (MAX_DIRECTIVES - count) = [] := by
        rcases Nat.lt_or_ge pos input.length with hpos | hpos
        · rw [show MAX_DIRECTIVES - count = 0 by have := hkept.count_le; omega, List.take_zero]
        · rw [rulesFrom_of_le hpos, List.take_nil]
      rw [hnone]
      exact ⟨directives, count, mx, rfl, hkept, by simp, by simp⟩

-- ---------------------------------------------------------------------------
-- `Filter::parse`
-- ---------------------------------------------------------------------------

/-- What `parse` guarantees of the filter it builds: the directives it counts are in the array,
    and their spans lie in the buffer. -/
structure Filter.Wf (f : Filter) : Prop where
  count_le : f.count ≤ f.directives.length
  inBounds : ∀ d ∈ f.directives.take f.count, d.InBounds f.buf.length

/-- The greatest level that `parse` keeps, from `OFF`, is `maxLevel`. -/
theorem foldl_max_off (D : List Rule) : (D.map Rule.level).foldl max .off = maxLevel D := by
  rw [List.foldl_max, maxLevel]
  exact max_eq_right (LevelFilter.off_le _)

/-- `parse` never panics, and the filter it builds holds the directives of its input, with their
    greatest level. -/
theorem parseBytes_spec (input : List UInt8) :
    ∃ f, parseBytes input = .ok f ∧ f.Wf ∧
      (f.directives.take f.count).map (Directive.read f.buf) = directivesOf input ∧
      f.max = maxLevel (directivesOf input) := by
  -- the buffer is the first `len` bytes, then zeros
  obtain ⟨len, hlen⟩ : ∃ len, min input.length BUF_SIZE = len := ⟨_, rfl⟩
  have hlen' : (input.take len).length = len := by rw [List.length_take]; omega
  have hbuf : (List.replicate BUF_SIZE (0 : UInt8)).take 0 ++ input.take len ++ (List.replicate BUF_SIZE 0).drop len =
      input.take len ++ List.replicate (BUF_SIZE - len) 0 := by
    rw [List.take_zero, List.nil_append, List.drop_replicate]
  have hsize : (input.take len ++ List.replicate (BUF_SIZE - len) (0 : UInt8)).length ≤ BUF_SIZE := by
    rw [List.length_append, hlen', List.length_replicate]
    omega
  -- the loop sets the first 16 directives of the segments of those bytes
  obtain ⟨directives, count, mx, hrun, hkept, hmap, hmax⟩ :=
    parseLoop_spec (List.prefix_append _ _) hsize (input.take len).length 0
      (List.replicate MAX_DIRECTIVES ⟨0, 0, .off⟩) 0 .off (Nat.sub_le _ _)
      ⟨List.length_replicate, Nat.zero_le _, by simp⟩
  have hrules : rulesFrom (input.take len) 0 = ((input.take BUF_SIZE).splitOn 44).filterMap directiveOf := by
    rw [rulesFrom, List.drop_zero, List.take_eq_take_min (i := len), List.take_eq_take_min (i := BUF_SIZE)]
    congr 3
    omega
  rw [hlen'] at hrun
  refine ⟨⟨input.take len ++ List.replicate (BUF_SIZE - len) 0, directives, count, mx⟩, ?_, ⟨?_, ?_⟩, ?_, ?_⟩
  · rw [parseBytes, hlen, range_of_le (Nat.zero_le _) (by omega), Except.ok_bind, extract_zero,
      copyFromSlice_of_le (Nat.zero_le _) (by rw [List.length_replicate]; omega) (by rw [hlen', Nat.sub_zero]),
      Except.ok_bind, hbuf, hrun, Except.ok_bind]
    rfl
  · rw [hkept.length_eq]
    exact hkept.count_le
  · intro d hd
    exact (hkept.inBounds d hd).mono (by simp)
  · rw [hmap, directivesOf, ← hrules]
    simp
  · rw [hmax, ← foldl_max_off, directivesOf, ← hrules]
    rfl

-- ---------------------------------------------------------------------------
-- `Filter::enabled`
-- ---------------------------------------------------------------------------

/-- One round of the scan for the directive that decides `target`. -/
def decideStep (target : List UInt8) : Option LevelFilter × Nat → Rule → Option LevelFilter × Nat :=
  List.lastMaxStep (fun r => r.target.isPrefixOf target) (fun r => r.target.length) Rule.level

/-- A round of the loop of `enabled` over a directive whose span lies in the buffer is a round
    of the scan over what it stands for. -/
theorem enabledStep_eq {buf target : List UInt8} {d : Directive} (hd : d.InBounds buf.length)
    (best : Option LevelFilter × Nat) :
    enabledStep buf target best d = .ok (decideStep target best (d.read buf)) := by
  rw [enabledStep, range_of_le hd.1 hd.2, Except.ok_bind]
  unfold decideStep List.lastMaxStep Directive.read
  split_ifs <;> rfl

theorem foldlM_enabledStep {buf target : List UInt8} :
    ∀ {ds : List Directive}, (∀ d ∈ ds, d.InBounds buf.length) → ∀ best,
      ds.foldlM (enabledStep buf target) best = .ok ((ds.map (Directive.read buf)).foldl (decideStep target) best)
  | [], _, _ => rfl
  | d :: ds, h, best => by
    rw [List.foldlM_cons, enabledStep_eq (h d List.mem_cons_self), Except.ok_bind,
      foldlM_enabledStep (fun e he => h e (List.mem_cons_of_mem d he))]
    rfl

/-- `enabled` on a filter that `parse` can build never panics: it is the scan over the
    directives the filter holds. -/
theorem enabledBytes_eq {f : Filter} (hf : f.Wf) (target : List UInt8) (level : Level) :
    f.enabledBytes target level =
      .ok ((((f.directives.take f.count).map (Directive.read f.buf)).foldl (decideStep target) (none, 0)).1.any
        fun allowed => level.toFilter ≤ allowed) := by
  rw [Filter.enabledBytes, range_of_le (Nat.zero_le _) hf.count_le, Except.ok_bind, extract_zero,
    foldlM_enabledStep hf.inBounds, Except.ok_bind]
  rfl

/-- `enabled` passes a level exactly when the directive that decides the target allows it. -/
theorem enabledBytes_decides {f : Filter} (hf : f.Wf) (target : List UInt8) (level : Level) :
    ∃ b, f.enabledBytes target level = .ok b ∧
      (b = true ↔ ∃ r, Decides ((f.directives.take f.count).map (Directive.read f.buf)) target r ∧
        level.toFilter ≤ r.level) := by
  refine ⟨_, enabledBytes_eq hf target level, ?_⟩
  rw [Option.any_eq_true]
  constructor
  · rintro ⟨allowed, hbest, hle⟩
    obtain ⟨r, hr, rfl⟩ := List.foldl_lastMaxStep_eq_some_iff.1 hbest
    exact ⟨r, hr, of_decide_eq_true hle⟩
  · rintro ⟨r, hr, hle⟩
    exact ⟨r.level, List.foldl_lastMaxStep_eq_some_iff.2 ⟨r, hr, rfl⟩, decide_eq_true hle⟩

-- ---------------------------------------------------------------------------
-- The filter
-- ---------------------------------------------------------------------------

theorem parse_enabled_max (s : String) :
    ∃ f, Filter.parse s = .ok f ∧
      (∀ (t : String) (l : Level), ∃ b, f.enabled t l = .ok b ∧
        (b = true ↔ ∃ r, Decides (directivesOf s.toUTF8.toList) t.toUTF8.toList r ∧ l.toFilter ≤ r.level)) ∧
      f.max = maxLevel (directivesOf s.toUTF8.toList) := by
  obtain ⟨f, hparse, hwf, hread, hmax⟩ := parseBytes_spec s.toUTF8.toList
  refine ⟨f, hparse, fun t l => ?_, hmax⟩
  rw [← hread]
  exact enabledBytes_decides hwf t.toUTF8.toList l

end Muffin.Log
