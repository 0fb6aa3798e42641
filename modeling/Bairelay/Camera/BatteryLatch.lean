import Bairelay.Lib.Past
import Bairelay.Lib.Slots

/-!
# The battery latch

Each session of a camera polls its battery (`battery_poller` in `camera_tasks.rs`), unless a
session before has found that there is none: a poller sets the latch of the camera when it was
refused often enough in a row and has had no level itself. It knows nothing of the sessions
before.

* `unlatched_iff_proven`: a camera that has once told its level is never latched, just if no session
  that is refused three times in a row, and is never told a level, comes after one that was told;
* `secondSession_latches`: a session without a level after one with a level.
-/

namespace Bairelay

/-- What a poll comes to. -/
inductive BatteryTick where
  | level (percent : UInt8)
  /-- The camera has answered, and refused. -/
  | unintelligibleReply
  | failed
  | timedOut
  deriving DecidableEq, Repr

/-- The level that a poll has returned, if it has. -/
def BatteryTick.level? : BatteryTick → Option UInt8
  | .level percent => some percent
  | .unintelligibleReply | .failed | .timedOut => none

/-- What an outcome means for the poller. -/
inductive BatteryTickOutcome where
  | ok
  | unsupported
  | transient
  deriving DecidableEq, Repr

/-- How many refusals in a row silence the camera. -/
def batteryMaxUnsupported : ℕ := 3

/-- Only an unintelligible reply counts as a refusal; an error or a timeout may pass. -/
def classifyBatteryTick : BatteryTick → BatteryTickOutcome
  | .level _ => .ok
  | .unintelligibleReply => .unsupported
  | .failed | .timedOut => .transient

/-- The refusals in a row, and whether to give up; the counter is a `u32`. -/
def advanceBatteryCounter (consecutiveUnsupported : ℕ) (outcome : BatteryTickOutcome)
    (maxUnsupported : ℕ) : ℕ × Bool :=
  match outcome with
  | .ok | .transient => (0, false)
  | .unsupported =>
    let next := min (consecutiveUnsupported + 1) (2 ^ 32 - 1)
    (next, maxUnsupported ≤ next)

/-- The poller of a session. -/
structure BatteryPoller where
  consecutiveUnsupported : ℕ := 0
  everSucceeded : Bool := false
  running : Bool := true
  deriving DecidableEq, Repr

/-- The battery of a camera, over all its sessions. -/
structure CameraBattery where
  batteryUnsupported : Bool := false
  pollers : List BatteryPoller := []
  /-- The levels that polls have returned, in all sessions so far. -/
  levels : List UInt8 := []
  deriving DecidableEq, Repr

/-- Whether a poller gives up on this tick: it is refused once too often, and has had no level. -/
def BatteryPoller.givesUp (p : BatteryPoller) (tick : BatteryTick) : Bool :=
  (advanceBatteryCounter p.consecutiveUnsupported (classifyBatteryTick tick)
    batteryMaxUnsupported).2 && !p.everSucceeded

/-- The poller after a tick. -/
def BatteryPoller.next (p : BatteryPoller) (tick : BatteryTick) : BatteryPoller where
  consecutiveUnsupported := (advanceBatteryCounter p.consecutiveUnsupported
    (classifyBatteryTick tick) batteryMaxUnsupported).1
  everSucceeded := p.everSucceeded || classifyBatteryTick tick = .ok
  running := !p.givesUp tick

namespace CameraBattery

/-- What happens to the camera: sessions, polls and their ends. -/
inductive Event where
  /-- A session starts. -/
  | connect
  | poll (i : ℕ) (tick : BatteryTick)
  /-- The session of a poller is over. -/
  | disconnect (i : ℕ)
  deriving DecidableEq, Repr

/-- A step. A session starts no poller once the latch is set, and the poller of a session that is
    over polls no more. -/
def step (b : CameraBattery) : Event → CameraBattery
  | .connect => if b.batteryUnsupported then b else { b with pollers := b.pollers ++ [{}] }
  | .poll i tick =>
    match b.pollers[i]? with
    | some p =>
      if p.running then
        { batteryUnsupported := b.batteryUnsupported || p.givesUp tick
          pollers := b.pollers.set i (p.next tick)
          levels := b.levels ++ tick.level?.toList }
      else b
    | none => b
  | .disconnect i => { b with pollers := b.pollers.modify i fun p => { p with running := false } }

/-- The battery after some steps. -/
def run (events : List Event) : CameraBattery := events.foldl step {}

theorem run_concat (events : List Event) (e : Event) :
    run (events ++ [e]) = (run events).step e := by
  rw [run, List.foldl_concat, ← run]

/-- Some poll has returned a level, and the latch is not set. -/
def Unlatched (b : CameraBattery) : Prop := b.levels ≠ [] ∧ b.batteryUnsupported = false

/-- The outcome of a step that polls for session `i`. -/
def polled? (b : CameraBattery) (i : ℕ) : Event → Option BatteryTick
  | .poll j tick =>
    if j = i ∧ (b.pollers[i]?.any (·.running)) then some tick else none
  | _ => none

/-- The outcomes of the polls of session `i`. -/
def polls (i : ℕ) (events : List Event) : List BatteryTick :=
  (Past.moments step {} events).filterMap fun moment => moment.1.polled? i moment.2

/-- How many refusals the outcomes end in. -/
def refusals (ticks : List BatteryTick) : ℕ :=
  (ticks.reverse.takeWhile (classifyBatteryTick · = .unsupported)).length

/-- The outcomes of a session end in as many refusals as it takes, and none is a level. -/
def Refused (ticks : List BatteryTick) : Prop :=
  batteryMaxUnsupported ≤ refusals ticks ∧ ∀ tick ∈ ticks, classifyBatteryTick tick ≠ .ok

/-- A session that is refused once too often has no level of another session against it. -/
def Proven (before : List Event) : Event → Prop
  | .poll i tick => (run before).pollers[i]?.any (·.running) → Refused (polls i before ++ [tick]) →
    ¬(run before).Unlatched
  | _ => True

/-! ## The counters of a poller -/

variable {b : CameraBattery}

/-- A poll of a poller that runs is one more of its own; nothing else is. -/
theorem polls_concat (i : ℕ) (events : List Event) (e : Event) :
    polls i (events ++ [e]) = polls i events ++ ((run events).polled? i e).toList := by
  rw [polls, Past.moments_concat, List.filterMap_append, ← polls, ← run]
  cases h : (run events).polled? i e <;> simp [h]

/-- Refusals are counted from the last other outcome on. -/
theorem refusals_concat (ticks : List BatteryTick) (tick : BatteryTick) :
    refusals (ticks ++ [tick]) =
      if classifyBatteryTick tick = .unsupported then refusals ticks + 1 else 0 := by
  rw [refusals, List.reverse_concat, List.takeWhile_cons]
  split <;> simp_all [refusals]

/-- The counters of a poller say what its polls came to. -/
structure Counts (p : BatteryPoller) (ticks : List BatteryTick) : Prop where
  refused : p.consecutiveUnsupported = min (refusals ticks) (2 ^ 32 - 1)
  succeeded : p.everSucceeded = true ↔ ∃ tick ∈ ticks, classifyBatteryTick tick = .ok

theorem counts_new : Counts {} [] where
  refused := rfl
  succeeded := by simp

/-- A poll keeps the variables of its poller in step with the outcomes. -/
theorem Counts.next {p : BatteryPoller} {ticks : List BatteryTick} (h : Counts p ticks)
    (tick : BatteryTick) : Counts (p.next tick) (ticks ++ [tick]) where
  refused := by
    rw [refusals_concat, BatteryPoller.next]
    dsimp only
    rw [h.refused]
    cases houtcome : classifyBatteryTick tick with
    | unsupported =>
      rw [if_pos rfl, advanceBatteryCounter]
      dsimp only
      omega
    | ok | transient => simp [advanceBatteryCounter]
  succeeded := by
    rw [BatteryPoller.next]
    simp [h.succeeded, or_and_right, exists_or]

/-- A poller gives up just when it was refused once too often. -/
theorem Counts.givesUp_iff {p : BatteryPoller} {ticks : List BatteryTick} (h : Counts p ticks)
    (tick : BatteryTick) : p.givesUp tick = true ↔ Refused (ticks ++ [tick]) := by
  rw [Refused, refusals_concat, BatteryPoller.givesUp, h.refused, batteryMaxUnsupported,
    Bool.and_eq_true, Bool.not_eq_true', List.forall_mem_append, List.forall_mem_singleton]
  cases houtcome : classifyBatteryTick tick with
  | unsupported =>
    have hsucceeded : p.everSucceeded = false ↔ ∀ tick ∈ ticks, classifyBatteryTick tick ≠ .ok := by
      rw [← Bool.not_eq_true, h.succeeded]
      push Not
      exact Iff.rfl
    rw [if_pos rfl, hsucceeded, advanceBatteryCounter, decide_eq_true_eq]
    refine and_congr ?_ (and_iff_left (by decide)).symm
    omega
  | ok | transient => simp [advanceBatteryCounter]

/-- A poll of another session does not concern this one. -/
theorem polled?_of_ne {i j : ℕ} {tick : BatteryTick} (hne : j ≠ i) :
    b.polled? i (.poll j tick) = none := if_neg fun h => hne h.1

/-- A poll that meets no running poller is a poll of no session. -/
theorem polled?_of_not_running {j : ℕ} {tick : BatteryTick}
    (hj : ¬b.pollers[j]?.any (·.running)) (i : ℕ) : b.polled? i (.poll j tick) = none := by
  refine if_neg ?_
  rintro ⟨rfl, hrunning⟩
  exact hj hrunning

theorem polled?_self {i : ℕ} {tick : BatteryTick} {p : BatteryPoller}
    (hp : b.pollers[i]? = some p) :
    b.polled? i (.poll i tick) = if p.running then some tick else none := by
  rw [polled?, hp]
  simp

/-- Every poller counts the polls of its session. -/
theorem counts_run (events : List Event) :
    (∀ i p, (run events).pollers[i]? = some p → Counts p (polls i events)) ∧
      ∀ i, (run events).pollers.length ≤ i → polls i events = [] := by
  -- A step polls one poller, begins one, or ends one; the counters of the others stand as they did.
  induction events using List.reverseRecOn with
  | nil => exact ⟨by simp [run], fun i _ => rfl⟩
  | append_singleton events e ih =>
    obtain ⟨hcounts, hnone⟩ := ih
    simp only [polls_concat]
    rw [run_concat]
    cases e with
    | connect =>
      rw [CameraBattery.step]
      simp only [polled?, Option.toList_none, List.append_nil]
      split
      · exact ⟨hcounts, hnone⟩
      -- A new poller has had no polls, and nothing was recorded under its index.
      · refine ⟨fun i p hp => ?_, fun i hi => hnone i ?_⟩
        · by_cases hlt : i < (run events).pollers.length
          · rw [List.getElem?_append_left hlt] at hp
            exact hcounts i p hp
          · rw [hnone i (not_lt.1 hlt)]
            obtain hp | rfl := Slots.concat_cases hp
            · exact absurd (List.getElem?_eq_some_iff.1 hp).1 hlt
            · exact counts_new
        · exact (Nat.le_succ _).trans (List.length_append.symm.le.trans hi)
    | poll j tick =>
      rw [CameraBattery.step]
      cases hj : (run events).pollers[j]? with
      -- There is no such poller.
      | none =>
        have habsent : ¬(run events).pollers[j]?.any (·.running) := by simp [hj]
        simp only [polled?_of_not_running habsent, Option.toList_none, List.append_nil]
        exact ⟨hcounts, hnone⟩
      | some q =>
        dsimp only
        have hlt := (List.getElem?_eq_some_iff.1 hj).1
        split
        · next hrunning =>
          refine ⟨fun i p hp => ?_, fun i hi => ?_⟩
          · rcases Slots.set_cases hp with ⟨rfl, rfl⟩ | ⟨hij, hp⟩
            · rw [polled?_self hj, if_pos hrunning]
              exact (hcounts i q hj).next tick
            · rw [polled?_of_ne (Ne.symm hij), Option.toList_none, List.append_nil]
              exact hcounts i p hp
          · rw [List.length_set] at hi
            rw [polled?_of_ne (hlt.trans_le hi).ne, Option.toList_none, List.append_nil]
            exact hnone i hi
        -- A poller that was stopped does not poll.
        · next hstopped =>
          have hidle : ¬(run events).pollers[j]?.any (·.running) := by rwa [hj, Option.any_some]
          simp only [polled?_of_not_running hidle, Option.toList_none, List.append_nil]
          exact ⟨hcounts, hnone⟩
    | disconnect j =>
      rw [CameraBattery.step]
      simp only [polled?, Option.toList_none, List.append_nil, List.getElem?_modify,
        List.length_modify]
      refine ⟨fun i p hp => ?_, hnone⟩
      obtain ⟨q, hq, rfl⟩ := Option.map_eq_some_iff.1 hp
      have hq' := hcounts i q hq
      split
      · exact ⟨hq'.refused, hq'.succeeded⟩
      · exact hq'

/-! ## The latch -/

theorem levels_step_ne_nil (hlevels : b.levels ≠ []) (e : Event) : (b.step e).levels ≠ [] := by
  cases e with
  | connect =>
    rw [CameraBattery.step]
    split <;> exact hlevels
  | poll i tick =>
    rw [CameraBattery.step]
    split
    · split
      · exact List.append_ne_nil_of_left_ne_nil hlevels _
      · exact hlevels
    · exact hlevels
  | disconnect i => exact hlevels

/-- A step sets the latch just if it is the last refusal that a session takes. -/
theorem proven_iff (before : List Event) (e : Event) :
    Proven before e ↔ ((run before).Unlatched → ((run before).step e).Unlatched) := by
  have hcounts := (counts_run before).1
  constructor
  · rintro hproven ⟨hlevels, hlatch⟩
    refine ⟨levels_step_ne_nil hlevels e, ?_⟩
    cases e with
    | connect =>
      rw [CameraBattery.step]
      split <;> exact hlatch
    | poll i tick =>
      rw [CameraBattery.step]
      split
      · next p hp =>
        split
        · next hrunning =>
          have hkeeps : p.givesUp tick = false := by
            by_contra hgives
            refine hproven (by rw [hp]; exact hrunning) ?_ ⟨hlevels, hlatch⟩
            exact ((hcounts i p hp).givesUp_iff tick).1 (Bool.not_eq_false _ ▸ hgives)
          exact (congrArg₂ or hlatch hkeeps).trans rfl
        · exact hlatch
      · exact hlatch
    | disconnect i => exact hlatch
  · intro hstays
    cases e with
    | poll i tick =>
      intro hany hrefused hunlatched
      obtain ⟨p, hp, hrunning⟩ := (Option.any_eq_true ..).1 hany
      have hgives := ((hcounts i p hp).givesUp_iff tick).2 hrefused
      have hlatch := (hstays hunlatched).2
      rw [CameraBattery.step, hp] at hlatch
      dsimp only at hlatch
      rw [if_pos hrunning, hgives, Bool.or_true] at hlatch
      cases hlatch
    | _ => trivial

/-- Once a poll has returned a level, the latch is never set, just if no session is refused three
    times in a row, without a level of its own, after another session has had one. -/
theorem unlatched_iff_proven (events : List Event) :
    Past.Stable (fun before => (run before).Unlatched) events ↔ Past.Always Proven events := by
  rw [Past.stable_iff]
  refine forall₃_congr fun before e after => imp_congr_right fun _ => ?_
  dsimp only
  rw [run_concat]
  exact (proven_iff before e).symm

/-- A session with a level, and one in which the camera only refuses. -/
def secondSession : List Event :=
  [.connect, .poll 0 (.level 80), .disconnect 0, .connect] ++
    List.replicate 3 (.poll 1 .unintelligibleReply)

/-- The second session knows nothing of the level that the first one got. -/
theorem secondSession_latches :
    (run secondSession).levels = [80] ∧ (run secondSession).batteryUnsupported = true ∧
      ¬Past.Stable (fun before => (run before).Unlatched) secondSession := by
  refine ⟨by decide, by decide, fun hstable => ?_⟩
  have hfirst : (run (secondSession.take 2)).Unlatched := ⟨by decide, by decide⟩
  have hlast := hstable (secondSession.take 2) (secondSession.drop 2)
    (by rw [List.take_append_drop]) hfirst
  exact absurd hlast.2 (by decide)

end CameraBattery

end Bairelay
