import Bairelay.Media.GapBridging
import Bairelay.Lib.Past

/-!
# The clock of the replays

A gap is bridged from the first tick that sees upstream silent for too long up to the next live
frame. Each replay then advances the timestamp by the time since the last emission, cut to whole
ticks of the video clock.

* `replays_tracked`: over any number of replays, the timestamps keep up with the wall clock, but
  for less than a tick for each of them.
-/

namespace Bairelay

open Word32

namespace BridgingPolicy

/-- The time of a packet from upstream. -/
def Event.upstream? : Event → Option Instant
  | .upstreamPacket now => some now
  | .broadcast _ _ | .tick _ _ => none

/-- When upstream was heard of last. -/
def lastUpstream (start : Instant) (events : List Event) : Instant :=
  (events.filterMap Event.upstream?).getLastD start

/-- The replay that an event asks for: when, and with which timestamp. -/
def replay? (s : BridgingPolicy) : Event → Option (Instant × UInt32)
  | .tick now replayAnchor => (s.onTick now replayAnchor).2.map (now, ·)
  | .upstreamPacket _ | .broadcast _ _ => none

/-- The replays of a run, with their times. -/
def replays (s : BridgingPolicy) : List Event → List (Instant × UInt32)
  | [] => []
  | e :: events => (s.replay? e).toList ++ (s.step e).1.replays events

/-- The times of a run do not decrease, and its spans are ones that a `Duration` can hold. -/
structure Clocked (start : Instant) (events : List Event) : Prop where
  inOrder : (start :: events.map Event.now).Pairwise (· ≤ ·)
  inRange : ∀ e ∈ events, e.now - start ≤ Duration.max

/-- Since the last live frame, a tick has seen upstream silent for longer than the threshold. -/
def SawGap (gapThreshold : Duration) (start : Instant) (events : List Event) : Prop :=
  ∃ before now replayAnchor after, events = before ++ .tick now replayAnchor :: after ∧
    gapThreshold < now - lastUpstream start before ∧ ∀ e ∈ after, e.live? = none

variable {s : BridgingPolicy} {gapThreshold : Duration} {start : Instant} {events : List Event}
  {e : Event}

theorem replays_append (s : BridgingPolicy) (events events' : List Event) :
    s.replays (events ++ events') = s.replays events ++ (s.run events).replays events' := by
  induction events generalizing s with
  | nil => rfl
  | cons e events ih =>
    rw [List.cons_append, replays, replays, ih, List.append_assoc]
    rfl

theorem replays_concat (s : BridgingPolicy) (events : List Event) (e : Event) :
    s.replays (events ++ [e]) = s.replays events ++ ((s.run events).replay? e).toList := by
  rw [replays_append, replays, replays, List.append_nil]

theorem run_concat (s : BridgingPolicy) (events : List Event) (e : Event) :
    s.run (events ++ [e]) = ((s.run events).step e).1 := by
  rw [run_append]
  rfl

theorem Clocked.of_append {events' : List Event} (h : Clocked start (events ++ events')) :
    Clocked start events := by
  obtain ⟨horder, hrange⟩ := h
  rw [List.map_append, ← List.cons_append] at horder
  exact ⟨(List.pairwise_append.1 horder).1, fun e he => hrange e (List.mem_append_left _ he)⟩

/-! ## Ticks -/

/-- A tick replays in an open gap when there is something to replay, and emits nothing
    otherwise. -/
theorem onTick_isSome_iff (s : BridgingPolicy) (now : Instant) (replayAnchor : Option UInt32) :
    (s.onTick now replayAnchor).2.isSome = true ↔
      (s.onTick now replayAnchor).1.state = .bridging ∧ replayAnchor.isSome = true := by
  rw [onTick.eq_def]
  dsimp only
  generalize (if s.Silent now then { s with state := .bridging } else s) = s'
  by_cases hstate : s'.state = .bridging
  · rw [if_neg (not_not.2 hstate)]
    cases replayAnchor with
    | none => simp
    | some anchor => simp [hstate, advanceReplayPts]
  · rw [if_pos hstate]
    simp [hstate]

/-- A tick bridges a gap if the camera is silent, or goes on bridging one. -/
theorem onTick_state (s : BridgingPolicy) (now : Instant) (replayAnchor : Option UInt32) :
    (s.onTick now replayAnchor).1.state = .bridging ↔ s.Silent now ∨ s.state = .bridging := by
  rw [onTick.eq_def]
  dsimp only
  by_cases hsilent : s.Silent now
  · rw [if_pos hsilent, if_neg (by simp)]
    cases replayAnchor <;> simp [hsilent, advanceReplayPts]
  · rw [if_neg hsilent]
    by_cases hstate : s.state = .bridging
    · rw [if_neg (not_not.2 hstate)]
      cases replayAnchor <;> simp [hstate, advanceReplayPts]
    · rw [if_pos hstate]
      simp [hstate, hsilent]

/-- No event but a packet from upstream touches its time, and none the threshold. -/
theorem step_frame (s : BridgingPolicy) (e : Event) :
    (s.step e).1.gapThreshold = s.gapThreshold ∧
      (s.step e).1.lastUpstreamAt = e.upstream?.getD s.lastUpstreamAt := by
  cases e with
  | upstreamPacket now => exact ⟨rfl, rfl⟩
  | broadcast pts now => exact ⟨rfl, rfl⟩
  | tick now replayAnchor =>
    rw [step, onTick.eq_def]
    dsimp only
    by_cases hsilent : s.Silent now
    · rw [if_pos hsilent, if_neg (by simp)]
      cases replayAnchor <;> exact ⟨rfl, rfl⟩
    · rw [if_neg hsilent]
      by_cases hstate : s.state = .bridging
      · rw [if_neg (not_not.2 hstate)]
        cases replayAnchor <;> exact ⟨rfl, rfl⟩
      · rw [if_pos hstate]
        exact ⟨rfl, rfl⟩

/-! ## Gaps -/

/-- The threshold stays, and the camera's last packet is known. -/
theorem run_frame (gapThreshold : Duration) (start : Instant) (events : List Event) :
    ((new gapThreshold start).run events).gapThreshold = gapThreshold ∧
      ((new gapThreshold start).run events).lastUpstreamAt = lastUpstream start events := by
  induction events using List.reverseRecOn with
  | nil => exact ⟨rfl, rfl⟩
  | append_singleton events e ih =>
    obtain ⟨hthreshold, hupstream⟩ := step_frame ((new gapThreshold start).run events) e
    rw [run_concat, hthreshold, hupstream, ih.1, ih.2, lastUpstream, lastUpstream]
    refine ⟨rfl, ?_⟩
    cases h : e.upstream? with
    | none => simp [List.filterMap_append, h]
    | some now => simp [List.filterMap_append, h]

/-- A gap was seen since the camera's last packet, or it is seen now. -/
theorem sawGap_concat : SawGap gapThreshold start (events ++ [e]) ↔
    (∃ now replayAnchor, e = .tick now replayAnchor ∧
      gapThreshold < now - lastUpstream start events) ∨
    SawGap gapThreshold start events ∧ e.live? = none := by
  constructor
  · rintro ⟨before, now, replayAnchor, after, h, hsilent, hafter⟩
    rcases Past.concat_eq_append_cons h with ⟨rfl, rfl, -⟩ | ⟨rest, rfl, rfl⟩
    · exact .inl ⟨now, replayAnchor, rfl, hsilent⟩
    · exact .inr ⟨⟨before, now, replayAnchor, rest, rfl, hsilent,
        fun e he => hafter e (List.mem_append_left _ he)⟩, hafter e (by simp)⟩
  · rintro (⟨now, replayAnchor, rfl, hsilent⟩ |
      ⟨⟨before, now, replayAnchor, after, rfl, hsilent, hafter⟩, he⟩)
    · exact ⟨events, now, replayAnchor, [], rfl, hsilent, by simp⟩
    · refine ⟨before, now, replayAnchor, after ++ [e], by simp, hsilent, fun e' he' => ?_⟩
      rcases List.mem_append.1 he' with he' | he'
      · exact hafter e' he'
      · rwa [List.mem_singleton.1 he']

/-- A gap is open when a tick since the last live frame has seen one. -/
theorem state_run_iff (gapThreshold : Duration) (start : Instant) (events : List Event) :
    ((new gapThreshold start).run events).state = .bridging ↔
      SawGap gapThreshold start events := by
  induction events using List.reverseRecOn with
  | nil =>
    refine iff_of_false (by simp [run, new]) ?_
    rintro ⟨before, now, replayAnchor, after, h, -⟩
    simp at h
  | append_singleton events e ih =>
    rw [run_concat, sawGap_concat, ← ih]
    cases e with
    | upstreamPacket now => simp [step, onUpstreamPacket, Event.live?]
    | broadcast pts now => simp [step, onBroadcast, Event.live?]
    | tick now replayAnchor =>
      obtain ⟨hthreshold, hupstream⟩ := run_frame gapThreshold start events
      rw [step, onTick_state, Silent, hthreshold, hupstream]
      simp [Event.live?]

/-- The camera's last packet did not come before the start. -/
theorem start_le_lastUpstream (h : Clocked start events) : start ≤ lastUpstream start events := by
  rw [lastUpstream, List.getLastD_eq_getLast?]
  cases hlast : (events.filterMap Event.upstream?).getLast? with
  | none => exact le_rfl
  | some at' =>
    obtain ⟨e, he, hupstream⟩ := List.mem_filterMap.1 (List.mem_of_getLast? hlast)
    have hnow : e.now = at' := by
      cases e with
      | upstreamPacket now => exact Option.some.inj hupstream
      | broadcast pts now => cases hupstream
      | tick now replayAnchor => cases hupstream
    exact hnow ▸ (List.pairwise_cons.1 h.inOrder).1 _ (List.mem_map_of_mem he)

/-- No span of time is longer than the longest threshold. -/
theorem not_sawGap_max (h : Clocked start events) : ¬SawGap Duration.max start events := by
  rintro ⟨before, now, replayAnchor, after, rfl, hsilent, -⟩
  have hrange := h.inRange (.tick now replayAnchor) (by simp)
  have hle := start_le_lastUpstream h.of_append
  rw [Event.now] at hrange
  exact absurd hsilent (not_lt.2 ((Nat.sub_le_sub_left hle now).trans hrange))

/-- With the greatest threshold nothing is ever replayed. -/
theorem replays_max (h : Clocked start events) :
    (new Duration.max start).replays events = [] := by
  induction events using List.reverseRecOn with
  | nil => rfl
  | append_singleton events e ih =>
    rw [replays_concat, ih h.of_append, List.nil_append, Option.toList_eq_nil_iff]
    cases e with
    | upstreamPacket now => rfl
    | broadcast pts now => rfl
    | tick now replayAnchor =>
      have hstate := (not_congr (state_run_iff _ _ _)).2 (not_sawGap_max h)
      rw [run_concat] at hstate
      have hnone := (not_congr (onTick_isSome_iff _ now replayAnchor)).2 fun hs => hstate hs.1
      rw [replay?, Option.map_eq_none_iff]
      exact Option.not_isSome_iff_eq_none.1 hnone

/-! ## Timestamps -/

/-- The last emission was at `last`, after `k` replays since the frame `p₀` at `t₀`: its timestamp
    is behind the wall clock by less than a tick for each of them. -/
structure Paced (p₀ : UInt32) (t₀ k last : ℕ) (s : BridgingPolicy) : Prop where
  wallclock : s.lastEmitWallclockAt = some last
  le_last : t₀ ≤ last
  emitted : ∃ n, s.lastEmittedPts90khz = some (p₀ + UInt32.ofNat n) ∧
    n * 1000000000 ≤ (last - t₀) * videoClockHz ∧
    (last - t₀) * videoClockHz ≤ n * 1000000000 + k * 999999999

theorem paced_onBroadcast (s : BridgingPolicy) (p₀ : UInt32) (t₀ : Instant) :
    Paced p₀ t₀ 0 t₀ (s.onBroadcast p₀ t₀) where
  wallclock := rfl
  le_last := le_rfl
  emitted := ⟨0, by simp [onBroadcast], by simp⟩

/-- The ticks of a time are less than one off. -/
theorem ticks_bounds {d : ℕ} (h : d ≤ Duration.max) :
    ticks d * 1000000000 ≤ d * videoClockHz ∧
      d * videoClockHz ≤ ticks d * 1000000000 + 999999999 := by
  have hmax : min (d * videoClockHz) (2 ^ 128 - 1) = d * videoClockHz := by
    have h' : d ≤ 2 ^ 64 * 1000000000 - 1 := h
    rw [videoClockHz]
    omega
  rw [ticks, hmax]
  omega

variable {p₀ : UInt32} {t₀ last k : ℕ}

/-- A replay is one more cut. -/
theorem Paced.advance (h : Paced p₀ t₀ k last s) {now : ℕ} (hle : last ≤ now)
    (hrange : now - last ≤ Duration.max) (anchor : UInt32) :
    Paced p₀ t₀ (k + 1) now (s.advanceReplayPts anchor now).1 := by
  obtain ⟨n, hpts, hlow, hhigh⟩ := h.emitted
  obtain ⟨htlow, hthigh⟩ := ticks_bounds hrange
  have hle₀ := h.le_last
  have helapsed : s.elapsedTicks now = ticks (now - last) := by rw [elapsedTicks, h.wallclock]
  have hsplit : (now - t₀) * videoClockHz =
      (last - t₀) * videoClockHz + (now - last) * videoClockHz := by
    rw [← Nat.add_mul]
    congr 1
    omega
  refine ⟨rfl, hle₀.trans hle, n + ticks (now - last), ?_, ?_⟩
  · rw [advanceReplayPts, hpts, helapsed, Option.getD_some, UInt32.ofNat_add, UInt32.add_assoc]
  · rw [hsplit, Nat.add_mul n]
    exact ⟨Nat.add_le_add hlow htlow, by omega⟩

/-- How far the timestamp is behind. -/
theorem Paced.behind (h : Paced p₀ t₀ k last s) (hk : 0 < k) :
    ∃ e < k, s.lastEmittedPts90khz = some (p₀ +
      UInt32.ofNat ((last - t₀) * videoClockHz / 1000000000) - UInt32.ofNat e) := by
  obtain ⟨n, hpts, hlow, hhigh⟩ := h.emitted
  have hle : n ≤ (last - t₀) * videoClockHz / 1000000000 := by omega
  refine ⟨(last - t₀) * videoClockHz / 1000000000 - n, by omega, ?_⟩
  obtain ⟨e, he⟩ := Nat.exists_eq_add_of_le hle
  rw [hpts, he, Nat.add_sub_cancel_left, UInt32.ofNat_add, ← UInt32.add_assoc,
    UInt32.add_sub_cancel]

/-- What was replayed at some events since the frame `p₀` at `t₀`. -/
structure Replaying (p₀ : UInt32) (t₀ : Instant) (after : List Event)
    (replayed : List (Instant × UInt32)) (last : ℕ) (s : BridgingPolicy) : Prop where
  paced : Paced p₀ t₀ replayed.length last s
  /-- Whatever is behind the events is behind the last emission. -/
  le : ∀ m : ℕ, (t₀ :: after.map Event.now ++ [m]).Pairwise (· ≤ ·) → last ≤ m
  newest : ∀ t pts, replayed.getLast? = some (t, pts) →
    t = last ∧ s.lastEmittedPts90khz = some pts

namespace Replaying

variable {after : List Event} {replayed : List (Instant × UInt32)} {s' : BridgingPolicy} {e : Event}

/-- The last event of a run in order is not after what comes then. -/
theorem now_le {m : ℕ} (h : (t₀ :: (after ++ [e]).map Event.now ++ [m]).Pairwise (· ≤ ·)) :
    e.now ≤ m :=
  (List.pairwise_append.1 h).2.2 _ (by simp) m List.mem_cons_self

/-- An event that does not emit leaves the last emission as it is. -/
theorem keep (h : Replaying p₀ t₀ after replayed last s) (hnow : last ≤ e.now)
    (hpts : s'.lastEmittedPts90khz = s.lastEmittedPts90khz)
    (hwallclock : s'.lastEmitWallclockAt = s.lastEmitWallclockAt) :
    Replaying p₀ t₀ (after ++ [e]) replayed last s' where
  paced := ⟨hwallclock.trans h.paced.wallclock, h.paced.le_last, by
    rw [hpts]
    exact h.paced.emitted⟩
  le _ hm := hnow.trans (now_le hm)
  newest t pts hlast := by
    rw [hpts]
    exact h.newest t pts hlast

/-- One more replay moves the clock by the time that has passed. -/
theorem advance (h : Replaying p₀ t₀ after replayed last s) (hnow : last ≤ e.now)
    (hrange : e.now - last ≤ Duration.max) (anchor : UInt32) :
    Replaying p₀ t₀ (after ++ [e])
      (replayed ++ [(e.now, (s.advanceReplayPts anchor e.now).2)]) e.now
      (s.advanceReplayPts anchor e.now).1 where
  paced := by
    rw [List.length_append]
    exact h.paced.advance hnow hrange anchor
  le _ hm := now_le hm
  newest t pts hlast := by
    rw [List.getLast?_concat] at hlast
    cases hlast
    exact ⟨rfl, rfl⟩

end Replaying

/-- The emissions behind a live frame, up to the next one. -/
theorem replaying_run (hpaced : Paced p₀ t₀ 0 t₀ s) {after : List Event}
    (hlive : ∀ e ∈ after, e.live? = none) (hclocked : Clocked t₀ after) :
    ∃ last, Replaying p₀ t₀ after (s.replays after) last (s.run after) := by
  induction after using List.reverseRecOn with
  | nil =>
    refine ⟨t₀, hpaced, fun m h => ?_, fun t pts h => ?_⟩
    · exact (List.pairwise_cons.1 h).1 m (by simp)
    · cases h
  | append_singleton after e ih =>
    obtain ⟨last, hreplaying⟩ :=
      ih (fun e he => hlive e (List.mem_append_left _ he)) hclocked.of_append
    have horder := hclocked.inOrder
    rw [List.map_append, List.map_singleton, ← List.cons_append] at horder
    have hnow : last ≤ e.now := hreplaying.le _ horder
    rw [replays_concat, run_concat]
    cases e with
    | upstreamPacket now =>
      -- A packet from upstream ends the gap, but is no emission.
      rw [replay?, Option.toList_none, List.append_nil]
      exact ⟨last, hreplaying.keep hnow rfl rfl⟩
    | broadcast pts now => cases hlive _ (List.mem_append_right _ List.mem_cons_self)
    | tick now replayAnchor =>
      rcases onTick_cases (s.run after) now replayAnchor with
        ⟨anchor, rfl, -, hstep⟩ | ⟨-, hnone, hpts, hwallclock⟩
      · have hrange : now - last ≤ Duration.max :=
          (Nat.sub_le_sub_left hreplaying.paced.le_last now).trans
            (hclocked.inRange _ (List.mem_append_right _ List.mem_cons_self))
        have hadvance := hreplaying.advance hnow hrange anchor
        -- The tick also opens the gap, which the timestamps do not depend on.
        rw [step, replay?, hstep, Option.map_some, Option.toList_some]
        refine ⟨now, ⟨?_, hadvance.le, hadvance.newest⟩⟩
        exact ⟨rfl, hadvance.paced.le_last, hadvance.paced.emitted⟩
      · rw [replay?, hnone, Option.map_none, Option.toList_none, List.append_nil]
        exact ⟨last, hreplaying.keep hnow hpts hwallclock⟩

/-- The timestamps of the replays behind a live frame keep up with the wall clock, a tick emits
    something just in an open gap, and a gap is open just if a tick since the last live frame has
    seen one. -/
theorem replays_tracked (gapThreshold : Duration) {start : Instant} {events : List Event}
    (h : Clocked start events) :
    (∀ before p₀ t₀ after, events = before ++ .broadcast p₀ t₀ :: after →
      (∀ e ∈ after, e.live? = none) → ∀ t pts,
      (((new gapThreshold start).run (before ++ [.broadcast p₀ t₀])).replays after).getLast? =
        some (t, pts) →
      ∃ e < (((new gapThreshold start).run (before ++ [.broadcast p₀ t₀])).replays after).length,
        pts = p₀ + UInt32.ofNat ((t - t₀) * videoClockHz / 1000000000) - UInt32.ofNat e) ∧
    (∀ now replayAnchor s, s = (new gapThreshold start).run events →
      ((s.onTick now replayAnchor).2.isSome = true ↔
        (s.onTick now replayAnchor).1.state = .bridging ∧ replayAnchor.isSome = true) ∧
      ((s.onTick now replayAnchor).2 = none →
        (s.onTick now replayAnchor).1.lastEmittedPts90khz = s.lastEmittedPts90khz ∧
        (s.onTick now replayAnchor).1.lastEmitWallclockAt = s.lastEmitWallclockAt)) ∧
    (((new gapThreshold start).run events).state = .bridging ↔
      SawGap gapThreshold start events) ∧
    (gapThreshold = Duration.max → (new gapThreshold start).replays events = []) := by
  refine ⟨?_, fun now replayAnchor s hs => ⟨onTick_isSome_iff s now replayAnchor, ?_⟩,
    state_run_iff _ _ _, ?_⟩
  · rintro before p₀ t₀ after rfl hlive t pts hlast
    have horder := h.inOrder
    rw [List.map_append, List.map_cons, ← List.cons_append] at horder
    have hclocked : Clocked t₀ after := by
      refine ⟨(List.pairwise_append.1 horder).2.1, fun e he => ?_⟩
      have hstart : start ≤ t₀ := (List.pairwise_append.1 horder).2.2 start List.mem_cons_self t₀
        List.mem_cons_self
      exact (Nat.sub_le_sub_left hstart e.now).trans (h.inRange e (by simp [he]))
    have hpaced := paced_onBroadcast ((new gapThreshold start).run before) p₀ t₀
    rw [run_concat, step] at hlast ⊢
    obtain ⟨last, hreplaying⟩ := replaying_run hpaced hlive hclocked
    obtain ⟨rfl, hpts⟩ := hreplaying.newest t pts hlast
    have hpos := List.length_pos_of_mem (List.mem_of_getLast? hlast)
    obtain ⟨e, hlt, hbehind⟩ := hreplaying.paced.behind hpos
    rw [hpts] at hbehind
    exact ⟨e, hlt, Option.some.inj hbehind⟩
  · intro hnone
    rcases onTick_cases s now replayAnchor with ⟨anchor, -, -, hstep⟩ | ⟨-, -, hsame⟩
    · rw [hstep] at hnone
      cases hnone
    · exact hsame
  · rintro rfl
    exact replays_max h

/-- Two ticks of the timer within three ticks of the video clock. -/
def fast : List Event := [.tick 11111 (some 7), .tick 22223 (some 7)]

/-- Replays that follow each other quickly have times of their own. -/
theorem replays_tracked_fast :
    ((new 0 0).run [.broadcast 1000 0]).replays fast = [(11111, 1000), (22223, 1001)] ∧
      ∃ e < (((new 0 0).run [.broadcast 1000 0]).replays fast).length,
        (1001 : UInt32) =
          1000 + UInt32.ofNat ((22223 - 0) * videoClockHz / 1000000000) - UInt32.ofNat e :=
  ⟨by decide +kernel,
    (@replays_tracked 0 0 (.broadcast 1000 0 :: fast) ⟨by decide, by decide +kernel⟩).1 [] 1000 0
      fast rfl (by decide) 22223 1001 (by decide +kernel)⟩

end BridgingPolicy

end Bairelay
