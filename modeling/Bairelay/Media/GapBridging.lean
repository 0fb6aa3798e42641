import Bairelay.Basic

/-!
# Gap bridging

The policy of `gap_bridging.rs`: when a camera stalls, its cached key frame is
broadcast again and again, with timestamps that advance with the wall clock.
Live frames have the timestamps of the camera.

The two clocks drift. A live frame that arrives after replays continues the
timeline only if the camera's clock has advanced by as much as the replays have
(`Drift.Allows`); the policy does not compare the two.

* `timeline_isChain`: as long as it has, the broadcast never steps back;
* `timeline_delayed_not_isChain`: a frame delayed by the stall steps back.
-/

namespace Bairelay

open Word32

/-- Whether upstream frames are forwarded, or a gap is being filled. -/
inductive GapState where
  | live
  | bridging
  deriving DecidableEq, Repr

/-- The clock rate of video in RTP. -/
def videoClockHz : ℕ := 90000

/-- The state of gap bridging for one source. -/
structure BridgingPolicy where
  gapThreshold : Duration
  state : GapState
  lastUpstreamAt : Instant
  lastEmittedPts90khz : Option UInt32
  lastEmitWallclockAt : Option Instant
  deriving DecidableEq, Repr

namespace BridgingPolicy

/-- The policy of a stream that has just started. -/
def new (gapThreshold : Duration) (now : Instant) : BridgingPolicy where
  gapThreshold := gapThreshold
  state := .live
  lastUpstreamAt := now
  lastEmittedPts90khz := none
  lastEmitWallclockAt := none

/-- Whether a gap is being bridged. -/
def isBridging (s : BridgingPolicy) : Bool := s.state = .bridging

/-- Upstream delivered a video packet. -/
def onUpstreamPacket (s : BridgingPolicy) (now : Instant) : BridgingPolicy :=
  { s with lastUpstreamAt := now }

/-- A frame reached the subscribers: it ends a gap. -/
def onBroadcast (s : BridgingPolicy) (pts90khz : UInt32) (now : Instant) : BridgingPolicy :=
  { s with
    state := .live
    lastEmittedPts90khz := some pts90khz
    lastEmitWallclockAt := some now }

/-- A span of time in ticks of the video clock, before it is cut to 32 bits. -/
def ticks (d : Duration) : ℕ := min (d * videoClockHz) (2 ^ 128 - 1) / 1000000000

/-- The ticks since the last frame was emitted, none if there was none. -/
def elapsedTicks (s : BridgingPolicy) (now : Instant) : ℕ :=
  match s.lastEmitWallclockAt with
  | some lastAt => ticks (now - lastAt)
  | none => 0

/-- The timestamp of the next replay: the last one emitted, advanced by the time
    since. The first one of all is `anchor` itself. -/
def advanceReplayPts (s : BridgingPolicy) (anchor : UInt32) (now : Instant) :
    BridgingPolicy × UInt32 :=
  let synth := s.lastEmittedPts90khz.getD anchor + UInt32.ofNat (s.elapsedTicks now)
  ({ s with lastEmittedPts90khz := some synth, lastEmitWallclockAt := some now }, synth)

/-- Whether upstream has been silent for longer than the threshold. -/
def Silent (s : BridgingPolicy) (now : Instant) : Prop := s.gapThreshold < now - s.lastUpstreamAt

instance (s : BridgingPolicy) (now : Instant) : Decidable (s.Silent now) :=
  inferInstanceAs (Decidable (_ < _))

/-- The timer of the gap detection. In an open gap the cached key frame, captured
    at `replayAnchor`, is to be broadcast again. -/
def onTick (s : BridgingPolicy) (now : Instant) (replayAnchor : Option UInt32) :
    BridgingPolicy × Option UInt32 :=
  let s := if s.Silent now then { s with state := .bridging } else s
  if s.state ≠ .bridging then (s, none)
  else
    match replayAnchor with
    | none => (s, none)
    | some anchor => ((s.advanceReplayPts anchor now).1, some (s.advanceReplayPts anchor now).2)

/-- Whether a tick broadcasts the cached key frame. -/
def Replays (s : BridgingPolicy) (now : Instant) (replayAnchor : Option UInt32) : Prop :=
  (s.Silent now ∨ s.state = .bridging) ∧ replayAnchor.isSome

instance (s : BridgingPolicy) (now : Instant) (replayAnchor : Option UInt32) :
    Decidable (s.Replays now replayAnchor) := inferInstanceAs (Decidable (_ ∧ _))

/-- A tick replays, or emits nothing and only opens the gap. -/
theorem onTick_cases (s : BridgingPolicy) (now : Instant) (replayAnchor : Option UInt32) :
    (∃ anchor, replayAnchor = some anchor ∧ s.Replays now replayAnchor ∧
      s.onTick now replayAnchor =
        ({ s with
          state := .bridging
          lastEmittedPts90khz :=
            some (s.lastEmittedPts90khz.getD anchor + UInt32.ofNat (s.elapsedTicks now))
          lastEmitWallclockAt := some now },
        some (s.lastEmittedPts90khz.getD anchor + UInt32.ofNat (s.elapsedTicks now)))) ∨
    (¬s.Replays now replayAnchor ∧ (s.onTick now replayAnchor).2 = none ∧
      (s.onTick now replayAnchor).1.lastEmittedPts90khz = s.lastEmittedPts90khz ∧
      (s.onTick now replayAnchor).1.lastEmitWallclockAt = s.lastEmitWallclockAt) := by
  obtain ⟨threshold, state, upstream, pts, wallclock⟩ := s
  by_cases hgap : Silent ⟨threshold, state, upstream, pts, wallclock⟩ now <;> cases state <;>
    cases replayAnchor <;> simp [onTick, Replays, hgap, advanceReplayPts, elapsedTicks]

/-! ## Runs -/

/-- What happens to a source. -/
inductive Event where
  | upstreamPacket (now : Instant)
  | broadcast (pts90khz : UInt32) (now : Instant)
  | tick (now : Instant) (replayAnchor : Option UInt32)
  deriving DecidableEq, Repr

/-- The time of an event. -/
def Event.now : Event → Instant
  | .upstreamPacket now | .broadcast _ now | .tick now _ => now

/-- The timestamp of a live frame. -/
def Event.live? : Event → Option UInt32
  | .broadcast pts90khz _ => some pts90khz
  | .upstreamPacket _ | .tick _ _ => none

/-- An event, and the timestamp it puts on the broadcast. -/
def step (s : BridgingPolicy) : Event → BridgingPolicy × Option UInt32
  | .upstreamPacket now => (s.onUpstreamPacket now, none)
  | .broadcast pts90khz now => (s.onBroadcast pts90khz now, some pts90khz)
  | .tick now replayAnchor => s.onTick now replayAnchor

/-- The timestamps put on the broadcast by some events, live ones and replays. -/
def timeline (s : BridgingPolicy) : List Event → List UInt32
  | [] => []
  | e :: events => (s.step e).2.toList ++ (s.step e).1.timeline events

/-- The state after some events. -/
def run (s : BridgingPolicy) (events : List Event) : BridgingPolicy :=
  events.foldl (fun s e => (s.step e).1) s

theorem run_append (s : BridgingPolicy) (events events' : List Event) :
    s.run (events ++ events') = (s.run events).run events' :=
  List.foldl_append

theorem timeline_append (s : BridgingPolicy) (events events' : List Event) :
    s.timeline (events ++ events') = s.timeline events ++ (s.run events).timeline events' := by
  induction events generalizing s with
  | nil => rfl
  | cons e events ih =>
    rw [List.cons_append, timeline, timeline, ih, List.append_assoc]
    rfl

/-! ## Drift -/

/-- How far the replays have run ahead: the last live timestamp (or the first
    replayed one, if there was no live one yet), and the ticks replays have
    advanced from it. -/
structure Drift where
  base : Option UInt32 := none
  anchored : Bool := false
  lead : ℕ := 0
  deriving DecidableEq, Repr

namespace Drift

/-- A replay adds the ticks it has advanced; a live frame starts the account anew. -/
def step (d : Drift) (s : BridgingPolicy) : Event → Drift
  | .upstreamPacket _ => d
  | .broadcast pts90khz _ => ⟨some pts90khz, false, 0⟩
  | .tick now replayAnchor =>
    if s.Replays now replayAnchor then
      ⟨d.base <|> replayAnchor, d.anchored || d.base.isNone, d.lead + s.elapsedTicks now⟩
    else d

/-- The camera's clock has advanced by what the replays have. -/
def CaughtUp (d : Drift) (pts90khz : UInt32) : Prop :=
  match d.base with
  | none => True
  | some base => d.lead ≤ (pts90khz - base).toNat ∧ (d.anchored → SerialLe base pts90khz)

instance (pts90khz : UInt32) : (d : Drift) → Decidable (d.CaughtUp pts90khz)
  | ⟨none, _, _⟩ => inferInstanceAs (Decidable True)
  | ⟨some _, _, _⟩ => inferInstanceAs (Decidable (_ ∧ _))

/-- The event keeps the two clocks together: a live frame comes when the camera's
    clock has caught up, and a replay less than half the circle after the last
    emission. -/
def Allows (d : Drift) (s : BridgingPolicy) : Event → Prop
  | .upstreamPacket _ => True
  | .broadcast pts90khz _ => d.CaughtUp pts90khz
  | .tick now replayAnchor => s.Replays now replayAnchor → s.elapsedTicks now < 2 ^ 31

instance (d : Drift) (s : BridgingPolicy) : DecidablePred (d.Allows s)
  | .upstreamPacket _ => inferInstanceAs (Decidable True)
  | .broadcast pts90khz _ => inferInstanceAs (Decidable (d.CaughtUp pts90khz))
  | .tick _ _ => inferInstanceAs (Decidable (_ → _))

end Drift

/-- All events of a run keep the two clocks together. -/
def Meets (s : BridgingPolicy) (d : Drift) : List Event → Prop
  | [] => True
  | e :: events => d.Allows s e ∧ Meets (s.step e).1 (d.step s e) events

instance decidableMeets (s : BridgingPolicy) (d : Drift) :
    (events : List Event) → Decidable (s.Meets d events)
  | [] => inferInstanceAs (Decidable True)
  | e :: events =>
    have := decidableMeets (s.step e).1 (d.step s e) events
    inferInstanceAs (Decidable (_ ∧ _))

/-! ## The timeline -/

/-- The last timestamp emitted is the base advanced by the lead, and the base is
    the last live timestamp unless no frame was live yet. -/
structure Tracks (s : BridgingPolicy) (d : Drift) (lastLive : Option UInt32) : Prop where
  emitted : s.lastEmittedPts90khz = d.base.map (· + UInt32.ofNat d.lead)
  wallclock : s.lastEmitWallclockAt.isSome = s.lastEmittedPts90khz.isSome
  fresh : d.base = none → d.lead = 0
  live : d.anchored = false → d.base = lastLive
  anchored : d.anchored = true → d.base.isSome ∧ lastLive = none

theorem new_tracks (gapThreshold : Duration) (now : Instant) :
    (new gapThreshold now).Tracks {} none where
  emitted := rfl
  wallclock := rfl
  fresh _ := rfl
  live _ := rfl
  anchored h := nomatch h

variable {s : BridgingPolicy} {d : Drift} {lastLive : Option UInt32}

/-- Before the first emission there is nothing to advance from. -/
theorem Tracks.elapsedTicks_eq_zero (h : s.Tracks d lastLive) (hbase : d.base = none)
    (now : Instant) : s.elapsedTicks now = 0 := by
  have hnone : s.lastEmitWallclockAt = none := by
    rw [← Option.not_isSome_iff_eq_none, h.wallclock, h.emitted, hbase]
    exact Bool.false_ne_true
  rw [elapsedTicks, hnone]

theorem Tracks.step (h : s.Tracks d lastLive) (e : Event) :
    (s.step e).1.Tracks (d.step s e) (e.live? <|> lastLive) := by
  cases e with
  | upstreamPacket now => exact ⟨h.emitted, h.wallclock, h.fresh, h.live, h.anchored⟩
  | broadcast pts now =>
    exact ⟨by simp [BridgingPolicy.step, onBroadcast, Drift.step], rfl, (fun h => nomatch h),
      fun _ => rfl, fun h => nomatch h⟩
  | tick now replayAnchor =>
    rcases onTick_cases s now replayAnchor with ⟨anchor, rfl, hreplay, hstep⟩ | ⟨hno, -, hpts, hat⟩
    · rw [BridgingPolicy.step, hstep, Drift.step, if_pos hreplay]
      cases hbase : d.base with
      | none =>
        -- The first emission of all: the anchor becomes the base.
        have hlast : d.anchored = false := Bool.eq_false_iff.2 fun ha => by
          simpa [hbase] using (h.anchored ha).1
        have hemitted : s.lastEmittedPts90khz = none := by rw [h.emitted, hbase]; rfl
        rw [hemitted, h.elapsedTicks_eq_zero hbase, h.fresh hbase]
        refine ⟨rfl, rfl, (fun hb => nomatch hb), by simp, fun _ => ⟨rfl, ?_⟩⟩
        exact (h.live hlast).symm.trans hbase
      | some base =>
        have hemitted : s.lastEmittedPts90khz = some (base + UInt32.ofNat d.lead) := by
          rw [h.emitted, hbase]; rfl
        rw [hemitted, ← hbase]
        refine ⟨?_, rfl, by simp [hbase], by simpa [hbase, Event.live?] using h.live,
          by simpa [hbase, Event.live?] using h.anchored⟩
        simp [hbase, UInt32.add_assoc]
    · rw [BridgingPolicy.step, Drift.step, if_neg hno]
      have hwallclock := h.wallclock
      rw [← hpts, ← hat] at hwallclock
      exact ⟨hpts.trans h.emitted, hwallclock, h.fresh, h.live, h.anchored⟩

/-- What an allowed event puts on the broadcast is not before what was last
    emitted. -/
theorem Tracks.serialLe_step (h : s.Tracks d lastLive) {e : Event} (hallows : d.Allows s e)
    (hlive : ∀ p ∈ lastLive, ∀ q ∈ e.live?, SerialLe p q) :
    ∀ p ∈ s.lastEmittedPts90khz, ∀ q ∈ (s.step e).2, SerialLe p q := by
  rintro p hp q hq
  rw [h.emitted, Option.mem_map] at hp
  obtain ⟨base, hbase, rfl⟩ := hp
  cases e with
  | upstreamPacket now => exact nomatch hq
  | broadcast pts now =>
    obtain rfl : pts = q := Option.some.inj hq
    have hcaught : d.CaughtUp pts := hallows
    rw [Drift.CaughtUp, Option.mem_def.1 hbase] at hcaught
    obtain ⟨hlead, hanchored⟩ := hcaught
    refine serialLe_of_advance_le ?_ hlead
    -- The base is the last live timestamp, or an anchor.
    cases ha : d.anchored with
    | false => exact hlive base (h.live ha ▸ hbase) pts rfl
    | true => exact hanchored ha
  | tick now replayAnchor =>
    rcases onTick_cases s now replayAnchor with ⟨anchor, rfl, hreplay, hstep⟩ | ⟨-, hnone, -, -⟩
    · rw [BridgingPolicy.step, hstep] at hq
      obtain rfl := Option.some.inj hq
      have hemitted : s.lastEmittedPts90khz = some (base + UInt32.ofNat d.lead) := by
        rw [h.emitted, Option.mem_def.1 hbase]; rfl
      have hticks := hallows hreplay
      rw [hemitted, Option.getD_some, serialLe_add_ofNat_iff]
      omega
    · rw [BridgingPolicy.step, hnone] at hq
      exact nomatch hq

/-- What was last emitted after an event is what the event emitted, or what was
    last emitted before. -/
theorem step_lastEmittedPts90khz (s : BridgingPolicy) (e : Event) :
    (s.step e).1.lastEmittedPts90khz = ((s.step e).2 <|> s.lastEmittedPts90khz) := by
  cases e with
  | upstreamPacket now => rfl
  | broadcast pts now => rfl
  | tick now replayAnchor =>
    rcases onTick_cases s now replayAnchor with ⟨anchor, rfl, -, hstep⟩ | ⟨-, hnone, hpts, -⟩
    · rw [BridgingPolicy.step, hstep]; rfl
    · rw [BridgingPolicy.step, hnone, hpts]; rfl

/-- From any state: the last emission and the timeline that follows form a chain. -/
theorem Tracks.isChain_of_meets (h : s.Tracks d lastLive) {events : List Event}
    (hlive : (lastLive.toList ++ events.filterMap Event.live?).IsChain SerialLe)
    (hmeets : s.Meets d events) :
    (s.lastEmittedPts90khz.toList ++ s.timeline events).IsChain SerialLe := by
  induction events generalizing s d lastLive with
  | nil =>
    rw [timeline, List.append_nil]
    cases s.lastEmittedPts90khz
    · exact .nil
    · exact .singleton _
  | cons e events ih =>
    obtain ⟨hallows, hmeets⟩ := hmeets
    have hstep : ∀ p ∈ lastLive, ∀ q ∈ e.live?, SerialLe p q := by
      rintro p hp q hq
      rw [List.filterMap_cons_some hq, Option.mem_def.1 hp] at hlive
      exact (List.isChain_cons_cons.1 hlive).1
    have hlive' : ((e.live? <|> lastLive).toList ++ events.filterMap Event.live?).IsChain
        SerialLe := by
      cases hq : e.live? with
      | none => rwa [List.filterMap_cons_none hq] at hlive
      | some q =>
        rw [List.filterMap_cons_some hq] at hlive
        exact hlive.right_of_append
    have hnext := ih (h.step e) hlive' hmeets
    have hserial := h.serialLe_step hallows hstep
    rw [step_lastEmittedPts90khz] at hnext
    rw [timeline]
    cases hq : (s.step e).2 with
    | none => rwa [hq] at hnext
    | some q =>
      rw [hq] at hnext
      cases hp : s.lastEmittedPts90khz with
      | none => exact hnext
      | some p => exact List.isChain_cons_cons.2 ⟨hserial p hp q hq, hnext⟩

/-- If the live timestamps never step back, and all events keep the clocks
    together, then the broadcast never steps back, whatever the replays. -/
theorem timeline_isChain {gapThreshold : Duration} {start : Instant} {events : List Event}
    (hlive : (events.filterMap Event.live?).IsChain SerialLe)
    (hmeets : (new gapThreshold start).Meets {} events) :
    ((new gapThreshold start).timeline events).IsChain SerialLe :=
  (new_tracks gapThreshold start).isChain_of_meets hlive hmeets

/-- A camera that stalls for three and a half seconds, and catches up. -/
theorem timeline_caughtUp_isChain :
    ((new (Duration.ofSecs 3) 0).timeline
        [.broadcast 1000 0, .tick (Duration.ofMillis 3200) (some 1000),
          .tick (Duration.ofMillis 3400) (some 1000),
          .broadcast 316000 (Duration.ofMillis 3500)]) = [1000, 289000, 307000, 316000] ∧
      ((new (Duration.ofSecs 3) 0).timeline
        [.broadcast 1000 0, .tick (Duration.ofMillis 3200) (some 1000),
          .tick (Duration.ofMillis 3400) (some 1000),
          .broadcast 316000 (Duration.ofMillis 3500)]).IsChain SerialLe :=
  ⟨by decide +kernel, timeline_isChain (by decide +kernel) (by decide +kernel)⟩

/-- A frame captured right after the last one, but delivered after a stall that
    was bridged. -/
def delayed : List Event :=
  [.broadcast 1000 0, .tick (Duration.ofMillis 3200) (some 1000),
    .broadcast 4000 (Duration.ofMillis 3300)]

/-- The times and the live timestamps never step back, and the broadcast does. -/
theorem timeline_delayed_not_isChain :
    (delayed.map Event.now).IsChain (· ≤ ·) ∧
      (delayed.filterMap Event.live?).IsChain SerialLe ∧
      (new (Duration.ofSecs 3) 0).timeline delayed = [1000, 289000, 4000] ∧
      ¬((new (Duration.ofSecs 3) 0).timeline delayed).IsChain SerialLe :=
  ⟨by decide +kernel, by decide +kernel, by decide +kernel, by decide +kernel⟩

end BridgingPolicy

end Bairelay
