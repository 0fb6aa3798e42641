import Bairelay.Camera.Handle
import Bairelay.Lib.Past

/-!
# The connection loop of a camera

One task connects a camera again and again (`CameraHandle::run` of `camera.rs`), and during a
session a second one watches its stream sources (`aggregate_preview_state_loop`). Both write the
state that captions the preview, and the second one looks first and writes then, so that the
first may come in between.

* `preview_of_phase`: what the caption says while the camera is parked, connects or is
  connected;
* `stands_iff`: when what it says at the end of a session stays, and that the camera may be called
  live else;
* `delay_of_phase`: how long is waited before the next attempt;
* `session_iff`: after how many failed probes a session is given up.
-/

namespace Bairelay

/-- The caption of a camera's preview. -/
inductive PreviewState where
  | live
  | connecting
  | sleeping
  deriving DecidableEq, Repr

/-- The caption that a look at the gaps asks for, if it is to change. A caption of another task
    stands: only the watching task's own `Connecting` is taken back. -/
def aggregatePreviewState (current : PreviewState) (anyBridging : Bool)
    (lastOwnWrite : Option PreviewState) : PreviewState :=
  match current, anyBridging, lastOwnWrite with
  | .sleeping, _, _ => .sleeping
  | .live, true, _ => .connecting
  | .live, false, _ => .live
  | .connecting, false, some .connecting => .live
  | .connecting, _, _ => .connecting

/-- A preview that the connection loop calls connecting is left so. -/
theorem aggregatePreviewState_of_ne {lastOwnWrite : Option PreviewState}
    (h : lastOwnWrite ≠ some .connecting) (anyBridging : Bool) :
    aggregatePreviewState .connecting anyBridging lastOwnWrite = .connecting := by
  rw [aggregatePreviewState.eq_def]
  split <;> first | rfl | contradiction

/-- The caption told after a session: `Sleeping` only for a camera that is about to park. -/
def postKeepalivePreviewState (idleDisconnect wakeLockIdle : Bool) : PreviewState :=
  if idleDisconnect && wakeLockIdle then .sleeping else .connecting

/-- How a probe of the connection ends. -/
inductive KeepaliveTickOutcome where
  | ok
  | failed
  deriving DecidableEq, Repr

/-- The failures in a row, in 32 bits, and whether they are too many. -/
def advanceKeepaliveCounter (consecutiveFailures : ℕ) (outcome : KeepaliveTickOutcome)
    (maxFailures : ℕ) : ℕ × Bool :=
  match outcome with
  | .ok => (0, false)
  | .failed =>
    let next := min (consecutiveFailures + 1) (2 ^ 32 - 1)
    (next, maxFailures ≤ next)

/-- How many probes in a row have to fail. -/
def keepaliveMaxFailures : ℕ := 5

/-- The waits between attempts: they double, up to a limit. -/
structure ReconnectBackoff where
  initial : Duration
  max : Duration
  current : Duration
  deriving DecidableEq, Repr

namespace ReconnectBackoff

/-- The first wait is the initial one. -/
def new (initial max : Duration) : ReconnectBackoff := ⟨initial, max, initial⟩

/-- The wait that is due, with the next one doubled. -/
def nextDelay (b : ReconnectBackoff) : Duration × ReconnectBackoff :=
  (b.current, { b with current := min (b.current * 2) b.max })

/-- After a success the waits begin again. -/
def reset (b : ReconnectBackoff) : ReconnectBackoff := { b with current := b.initial }

end ReconnectBackoff

/-- What the watching task keeps, and what it has seen and not acted on yet. -/
structure Aggregator where
  lastWrite : Option PreviewState := none
  seen : Option (PreviewState × Bool) := none
  deriving DecidableEq, Repr

/-- Where the connection loop is. -/
inductive ConnectPhase where
  | top
  | parked
  | connecting
  /-- Connected, the tasks of the session are still to be started. -/
  | starting
  | session
  /-- The probes have ended. -/
  | over
  /-- The preview is told. -/
  | settled
  /-- The tasks of the session are told, and are waited for. -/
  | draining
  | torn
  | sleeping (delay : Duration)
  | stopped
  deriving DecidableEq, Repr

/-- How an attempt to connect ends. -/
inductive ConnectOutcome where
  | ok
  | auth
  | failed
  | cancelled
  deriving DecidableEq, Repr

/-- The loop, the session's counter of failed probes, and the task that watches for gaps. -/
structure ConnectLoop where
  phase : ConnectPhase := .top
  state : CameraState := .disconnected
  preview : PreviewState := .sleeping
  consecutiveFailures : ℕ := 0
  backoff : ReconnectBackoff := .new (.ofSecs 2) (.ofSecs 60)
  aggregator : Option Aggregator := none
  deriving DecidableEq, Repr

namespace ConnectLoop

/-- What happens to the loop, one step of one task at a time. -/
inductive Event where
  /-- The loop begins again; the wake lock is looked at if it is not cancelled. -/
  | iterate (cancelled idle : Bool)
  /-- The wait for a wake lock is over. -/
  | wake (cancelled : Bool)
  | connected (result : ConnectOutcome)
  | spawn
  | probe (outcome : KeepaliveTickOutcome)
  /-- The program, the session or the watchdog ends the probes. -/
  | interrupt
  | settle (idle : Bool)
  | cancelSession
  /-- The tasks of the session have ended. -/
  | drain
  | close
  | slept (completed : Bool)
  /-- The other task looks at the preview and at the stream sources. -/
  | look (anyBridging : Bool)
  /-- It acts on what it saw. -/
  | act
  deriving DecidableEq, Repr

variable (idleDisconnect : Bool) (s : ConnectLoop)

/-- `set_state` and `set_preview_state` before an attempt. -/
def beginConnecting : ConnectLoop :=
  { s with phase := .connecting, state := .connecting, preview := .connecting }

/-- Wait before the next attempt. -/
def sleepWithCancel : ConnectLoop :=
  { s with phase := .sleeping s.backoff.nextDelay.1, backoff := s.backoff.nextDelay.2 }

/-- Behind the loop. -/
def stop : ConnectLoop := { s with phase := .stopped, state := .disconnected }

/-- `aggregate_preview_state_loop` looks at the preview and at the stream sources. -/
def look (anyBridging : Bool) : ConnectLoop :=
  match s.aggregator with
  | some ⟨lastWrite, none⟩ =>
    { s with aggregator := some ⟨lastWrite, some (s.preview, anyBridging)⟩ }
  | _ => s

/-- It acts on what it has seen. -/
def act : ConnectLoop :=
  match s.aggregator with
  | some ⟨lastWrite, some (current, anyBridging)⟩ =>
    let next := aggregatePreviewState current anyBridging lastWrite
    if next ≠ current then { s with preview := next, aggregator := some ⟨some next, none⟩ }
    else if current = .sleeping ∨ current = .connecting ∧ lastWrite ≠ some .connecting then
      { s with aggregator := some ⟨none, none⟩ }
    else { s with aggregator := some ⟨lastWrite, none⟩ }
  | _ => s

/-- How an attempt ends. -/
def finish : ConnectOutcome → ConnectLoop
  | .ok =>
    { s with phase := .starting, state := .connected, preview := .live,
             backoff := s.backoff.reset }
  | .failed => sleepWithCancel { s with state := .disconnected }
  | .auth | .cancelled => s.stop

/-- A tick of `keepalive_loop`. -/
def probe (outcome : KeepaliveTickOutcome) : ConnectLoop :=
  let (next, shouldBreak) :=
    advanceKeepaliveCounter s.consecutiveFailures outcome keepaliveMaxFailures
  { s with consecutiveFailures := next, phase := if shouldBreak then .over else .session }

/-- One step; outside its phase an event changes nothing. -/
def step : Event → ConnectLoop
  | .iterate cancelled idle =>
    match s.phase with
    | .top =>
      if cancelled then s.stop
      -- Nothing to do, and leave to disconnect: the loop parks before it has connected.
      else if idleDisconnect && idle then { s with phase := .parked, preview := .sleeping }
      else s.beginConnecting
    | _ => s
  | .wake cancelled =>
    match s.phase with
    | .parked => if cancelled then s.stop else s.beginConnecting
    | _ => s
  | .connected result => if s.phase = .connecting then s.finish result else s
  | .spawn =>
    if s.phase = .starting then
      -- A session begins with no failed probe, and with a watcher of its own.
      { s with phase := .session, consecutiveFailures := 0, aggregator := some {} }
    else s
  | .probe outcome => if s.phase = .session then s.probe outcome else s
  -- A shutdown, the grace period and the watchdog end the session as well.
  | .interrupt => if s.phase = .session then { s with phase := .over } else s
  | .settle idle =>
    if s.phase = .over then
      { s with phase := .settled, preview := postKeepalivePreviewState idleDisconnect idle }
    else s
  -- The watcher is told to stop only after the caption was set.
  | .cancelSession => if s.phase = .settled then { s with phase := .draining } else s
  | .drain =>
    -- What the other task has seen it acts on before it ends.
    if s.phase = .draining ∧ s.aggregator.bind Aggregator.seen = none then
      { s with phase := .torn, aggregator := none }
    else s
  | .close => if s.phase = .torn then sleepWithCancel { s with state := .disconnected } else s
  | .slept completed =>
    match s.phase with
    | .sleeping _ => if completed then { s with phase := .top } else s.stop
    | _ => s
  | .look anyBridging => s.look anyBridging
  | .act => s.act

/-- The loop after some events. -/
def run (events : List Event) : ConnectLoop := events.foldl (step idleDisconnect) {}

theorem run_concat (events : List Event) (e : Event) :
    run idleDisconnect (events ++ [e]) = (run idleDisconnect events).step idleDisconnect e :=
  List.foldl_concat ..

/-- The steps of a run, each with what was before it. -/
def moments (events : List Event) : List (ConnectLoop × Event) :=
  Past.moments (step idleDisconnect) {} events

theorem moments_concat (events : List Event) (e : Event) :
    moments idleDisconnect (events ++ [e]) =
      moments idleDisconnect events ++ [(run idleDisconnect events, e)] :=
  Past.moments_concat ..

/-! ## The preview -/

/-- What the watching task has seen in a step, unless it has something to act on first. -/
def looked (s : ConnectLoop) : Event → Option Bool
  | .look anyBridging =>
    match s.aggregator with
    | some ⟨_, none⟩ => some anyBridging
    | _ => none
  | _ => none

/-- The session begins. -/
def spawns (s : ConnectLoop) (e : Event) : Prop := s.phase = .starting ∧ e = .spawn

/-- A source was being bridged when the stream sources were last looked at. -/
def Bridging (events : List Event) : Prop :=
  Past.Since (fun m => looked m.1 m.2 = some true)
    (fun m => looked m.1 m.2 = some false ∨ spawns m.1 m.2) (moments idleDisconnect events)

variable {idleDisconnect s} {bridging : Prop}

/-- In a session the preview is live, or the watching task has said that it is not. -/
structure Watched (a : Aggregator) (preview : PreviewState) (bridging : Prop) : Prop where
  wrote : preview = .live ∧ a.lastWrite ≠ some .connecting ∨
    preview = .connecting ∧ a.lastWrite = some .connecting
  seen : ∀ current anyBridging, a.seen = some (current, anyBridging) →
    current = preview ∧ (bridging ↔ anyBridging = true)
  acted : a.seen = none → (bridging ↔ preview = .connecting)

/-- A task that has just started has told nothing yet. -/
theorem watched_start : Watched {} .live False where
  wrote := .inl ⟨rfl, nofun⟩
  seen := nofun
  acted _ := iff_of_false id nofun

/-- The task sees the caption and the gaps at one time, and acts on them later. -/
theorem Watched.look {lastWrite : Option PreviewState} {preview : PreviewState}
    (h : Watched ⟨lastWrite, none⟩ preview bridging) (anyBridging : Bool) :
    Watched ⟨lastWrite, some (preview, anyBridging)⟩ preview (anyBridging = true) where
  wrote := h.wrote
  seen current anyBridging' hsome := by
    obtain ⟨rfl, rfl⟩ := Prod.mk.inj (Option.some.inj hsome)
    exact ⟨rfl, Iff.rfl⟩
  acted := nofun

/-- What the task tells is what it has seen, unless another caption has come in between. -/
theorem Watched.act {a : Aggregator} (ha : s.aggregator = some a)
    (h : Watched a s.preview bridging) :
    ∃ a', s.act.aggregator = some a' ∧ a'.seen = none ∧ Watched a' s.act.preview bridging := by
  obtain ⟨lastWrite, _ | ⟨current, anyBridging⟩⟩ := a
  · rw [ConnectLoop.act, ha]
    exact ⟨_, ha, rfl, h⟩
  · obtain ⟨rfl, hbridging⟩ := h.seen _ _ rfl
    rw [ConnectLoop.act, ha]
    dsimp only
    rcases h.wrote with ⟨hlive, hlast⟩ | ⟨hconnecting, hlast⟩
    · rw [hlive]
      cases anyBridging with
      | true =>
        refine ⟨_, rfl, rfl, .inr ⟨rfl, rfl⟩, nofun, fun _ => hbridging.trans ?_⟩
        exact iff_of_true rfl rfl
      | false =>
        refine ⟨_, rfl, rfl, .inl ⟨rfl, hlast⟩, nofun, fun _ => hbridging.trans ?_⟩
        exact iff_of_false Bool.false_ne_true (by decide : PreviewState.live ≠ .connecting)
    · obtain rfl : lastWrite = some .connecting := hlast
      rw [hconnecting]
      cases anyBridging with
      | true =>
        refine ⟨_, rfl, rfl, .inr ⟨rfl, rfl⟩, nofun, fun _ => hbridging.trans ?_⟩
        exact iff_of_true rfl rfl
      | false =>
        refine ⟨_, rfl, rfl, .inl ⟨rfl, nofun⟩, nofun, fun _ => hbridging.trans ?_⟩
        exact iff_of_false Bool.false_ne_true nofun

/-- What holds in each phase. -/
def Inv (s : ConnectLoop) (bridging : Prop) : Prop :=
  match s.phase with
  | .top | .sleeping _ | .stopped => s.state = .disconnected ∧ s.aggregator = none
  | .parked => s.state = .disconnected ∧ s.preview = .sleeping ∧ s.aggregator = none
  | .connecting => s.state = .connecting ∧ s.preview = .connecting ∧ s.aggregator = none
  | .starting => s.state = .connected ∧ s.preview = .live ∧ s.aggregator = none
  | .session | .over =>
    s.state = .connected ∧ ∃ a, s.aggregator = some a ∧ Watched a s.preview bridging
  | .settled | .draining => s.state = .connected ∧ s.aggregator.isSome
  | .torn => s.state = .connected ∧ s.aggregator = none

/-- A step of the watching task, which is gone outside the sessions. -/
structure Watches (s s' : ConnectLoop) : Prop where
  none : s.aggregator = none → s' = s
  isSome : s'.aggregator.isSome = s.aggregator.isSome
  phase : s'.phase = s.phase
  state : s'.state = s.state

/-- A look changes nothing but what the task has seen. -/
theorem watches_look (anyBridging : Bool) : s.Watches (s.look anyBridging) := by
  rw [ConnectLoop.look]
  split
  · rename_i haggregator
    exact ⟨fun h => absurd (haggregator.symm.trans h) nofun, haggregator ▸ rfl, rfl, rfl⟩
  · exact ⟨fun _ => rfl, rfl, rfl, rfl⟩

theorem watches_act : s.Watches s.act := by
  simp only [ConnectLoop.act]
  split
  · rename_i haggregator
    split_ifs <;>
      exact ⟨fun h => absurd (haggregator.symm.trans h) nofun, haggregator ▸ rfl, rfl, rfl⟩
  · exact ⟨fun _ => rfl, rfl, rfl, rfl⟩

/-- A step of the watching task keeps what is known about captions, whatever the loop does. -/
theorem Watches.inv {s' : ConnectLoop} {bridging' : Prop} (hstep : s.Watches s')
    (hwatched : ∀ a, s.aggregator = some a → Watched a s.preview bridging →
      ∃ a', s'.aggregator = some a' ∧ Watched a' s'.preview bridging')
    (h : s.Inv bridging) : s'.Inv bridging' := by
  rw [Inv] at h ⊢
  rw [hstep.phase]
  split at h
  case h_4 | h_5 | h_6 =>
    obtain ⟨hstate, hpreview, hnone⟩ := h
    rw [hstep.none hnone]
    exact ⟨hstate, hpreview, hnone⟩
  case h_7 | h_8 =>
    obtain ⟨hstate, a, haggregator, ha⟩ := h
    exact ⟨hstep.state.trans hstate, hwatched a haggregator ha⟩
  case h_9 | h_10 => exact ⟨hstep.state.trans h.1, hstep.isSome.trans h.2⟩
  all_goals
    rw [hstep.none h.2]
    exact h

/-- The stream sources are looked at where the task that watches them has nothing to act on. -/
theorem looked_eq_some {e : Event} {anyBridging : Bool} (h : looked s e = some anyBridging) :
    e = .look anyBridging ∧ ∃ lastWrite, s.aggregator = some ⟨lastWrite, none⟩ := by
  cases e with
  | look b =>
    rw [looked] at h
    split at h
    · rename_i lastWrite haggregator
      exact ⟨congrArg Event.look (Option.some.inj h), lastWrite, haggregator⟩
    · cases h
  | _ => cases h

/-- A look that is no look leaves everything as it is. -/
theorem look_of_not_looked {anyBridging : Bool} (h : looked s (.look anyBridging) = none) :
    s.look anyBridging = s := by
  rw [looked] at h
  rw [ConnectLoop.look]
  split at h
  · cases h
  · rfl

theorem Inv.looked (h : s.Inv bridging) {lastWrite : Option PreviewState}
    (haggregator : s.aggregator = some ⟨lastWrite, none⟩) (anyBridging : Bool) :
    (s.look anyBridging).Inv (anyBridging = true) := by
  refine (watches_look anyBridging).inv (fun a ha hwatched => ?_) h
  obtain rfl := Option.some.inj (haggregator.symm.trans ha)
  rw [ConnectLoop.look, haggregator]
  exact ⟨_, rfl, hwatched.look anyBridging⟩

/-- Nothing is bridged before the stream sources were looked at in this session. -/
theorem Inv.spawned (h : s.Inv bridging) (hphase : s.phase = .starting) :
    (s.step idleDisconnect .spawn).Inv False := by
  rw [step, if_pos hphase]
  simp only [Inv, hphase] at h ⊢
  obtain ⟨hstate, hpreview, -⟩ := h
  exact ⟨hstate, _, rfl, hpreview ▸ watched_start⟩

/-- A step that neither begins a session nor looks at the stream sources. -/
theorem Inv.frame (h : s.Inv bridging) {e : Event} (hlooked : ConnectLoop.looked s e = none)
    (hspawn : ¬spawns s e) : (s.step idleDisconnect e).Inv bridging := by
  -- Outside a look and a start the invariant speaks of the phase, the state and the watcher alone.
  cases e with
  | look anyBridging =>
    rw [step, look_of_not_looked hlooked]
    exact h
  -- The watcher acts on its own, in whatever phase the loop is.
  | act =>
    refine watches_act.inv (fun a ha hwatched => ?_) h
    obtain ⟨a', ha', -, hwatched'⟩ := hwatched.act ha
    exact ⟨a', ha', hwatched'⟩
  | spawn =>
    rw [step, if_neg fun hphase => hspawn ⟨hphase, rfl⟩]
    exact h
  | iterate cancelled idle =>
    rw [step]
    split
    -- At the top of the loop the phase says that no watcher runs.
    · rename_i hphase
      simp only [Inv, hphase] at h
      split_ifs
      · exact ⟨rfl, h.2⟩
      · exact ⟨h.1, rfl, h.2⟩
      · exact ⟨rfl, rfl, h.2⟩
    · exact h
  | wake cancelled =>
    rw [step]
    split
    · rename_i hphase
      simp only [Inv, hphase] at h
      split_ifs
      · exact ⟨rfl, h.2.2⟩
      · exact ⟨rfl, rfl, h.2.2⟩
    · exact h
  | connected result =>
    rw [step]
    split
    · rename_i hphase
      simp only [Inv, hphase] at h
      cases result with
      | ok => exact ⟨rfl, rfl, h.2.2⟩
      | auth | failed | cancelled => exact ⟨rfl, h.2.2⟩
    · exact h
  | probe outcome =>
    rw [step]
    split
    · rename_i hphase
      simp only [Inv, hphase] at h
      simp only [ConnectLoop.probe]
      split_ifs <;> exact h
    · exact h
  | interrupt =>
    rw [step]
    split
    · rename_i hphase
      simp only [Inv, hphase] at h
      exact h
    · exact h
  | settle idle =>
    rw [step]
    split
    · rename_i hphase
      simp only [Inv, hphase] at h
      -- The watcher is forgotten with the session's end; what it last saw no longer matters.
      obtain ⟨hstate, a, ha, -⟩ := h
      exact ⟨hstate, ha ▸ rfl⟩
    · exact h
  | cancelSession =>
    rw [step]
    split
    · rename_i hphase
      simp only [Inv, hphase] at h
      exact h
    · exact h
  | drain =>
    rw [step]
    split
    · rename_i hphase
      simp only [Inv, hphase] at h
      exact ⟨h.1, rfl⟩
    · exact h
  | close =>
    rw [step]
    split
    · rename_i hphase
      simp only [Inv, hphase] at h
      exact ⟨rfl, h.2⟩
    · exact h
  | slept completed =>
    rw [step]
    split
    · rename_i hphase
      simp only [Inv, hphase] at h
      split_ifs
      · exact h
      · exact ⟨rfl, h.2⟩
    · exact h

/-- One step: whether something is bridged is what was seen last, since the task was started. -/
theorem Inv.step (h : s.Inv bridging) (e : Event) :
    (s.step idleDisconnect e).Inv (ConnectLoop.looked s e = some true ∨
      bridging ∧ ¬(ConnectLoop.looked s e = some false ∨ spawns s e)) := by
  rcases hlooked : ConnectLoop.looked s e with _ | anyBridging
  · by_cases hspawn : spawns s e
    · obtain ⟨hphase, rfl⟩ := hspawn
      simpa [spawns, hphase] using h.spawned hphase
    · simpa [hspawn] using h.frame hlooked hspawn
  · obtain ⟨rfl, lastWrite, haggregator⟩ := looked_eq_some hlooked
    have hinv := h.looked haggregator anyBridging
    rw [ConnectLoop.step]
    cases anyBridging <;> simpa [spawns] using hinv

/-- In every run the caption is explained by the phase and by what was seen last. -/
theorem inv_run (idleDisconnect : Bool) (events : List Event) :
    (run idleDisconnect events).Inv (Bridging idleDisconnect events) := by
  induction events using List.reverseRecOn with
  | nil => exact ⟨rfl, rfl⟩
  | append_singleton events e ih =>
    rw [run_concat, Bridging, moments_concat, Past.since_concat]
    exact ih.step e

/-- What the preview says while the camera is parked, connects or is connected. -/
theorem preview_of_phase (idleDisconnect : Bool) (events : List Event) :
    let s := run idleDisconnect events
    (s.phase = .parked → s.preview = .sleeping) ∧
    (s.phase = .connecting → s.preview = .connecting) ∧
    (s.phase = .starting → s.preview = .live) ∧
    (s.phase = .session ∨ s.phase = .over → (s.preview = .live ∨ s.preview = .connecting) ∧
      (s.aggregator.bind Aggregator.seen = none →
        (s.preview = .connecting ↔ Bridging idleDisconnect events))) := by
  intro s
  have hinv : s.Inv (Bridging idleDisconnect events) := inv_run idleDisconnect events
  rw [Inv] at hinv
  refine ⟨fun h => ?_, fun h => ?_, fun h => ?_, fun h => ?_⟩
  · rw [h] at hinv
    exact hinv.2.1
  · rw [h] at hinv
    exact hinv.2.1
  · rw [h] at hinv
    exact hinv.2.1
  · obtain ⟨a, ha, hwatched⟩ : ∃ a, s.aggregator = some a ∧
        Watched a s.preview (Bridging idleDisconnect events) := by
      rcases h with h | h <;> rw [h] at hinv <;> exact hinv.2
    refine ⟨hwatched.wrote.imp And.left And.left, fun hseen => ?_⟩
    rw [ha] at hseen
    exact (hwatched.acted hseen).symm

/-! ## The preview after a session -/

/-- The watching task does not touch what the preview says. -/
structure Rests (a : Aggregator) (caption : PreviewState) : Prop where
  own : caption = .sleeping ∨ a.lastWrite ≠ some .connecting
  seen : ∀ current anyBridging, a.seen = some (current, anyBridging) →
    aggregatePreviewState current anyBridging a.lastWrite = current

/-- Behind a session, before the loop begins again. -/
def afterSession : ConnectPhase → Bool
  | .settled | .draining | .torn | .sleeping _ | .top | .stopped => true
  | .parked | .connecting | .starting | .session | .over => false

/-- The loop has not begun again, and nothing is about to change the caption. -/
structure Resting (s : ConnectLoop) (caption : PreviewState) : Prop where
  phase : afterSession s.phase = true
  preview : s.preview = caption
  rests : ∀ a, s.aggregator = some a → Rests a caption

variable {caption : PreviewState}

/-- Whatever is seen from now on, the caption is not `Live`, so nothing is told. -/
theorem Resting.look (h : s.Resting caption) (hcaption : caption ≠ .live) (anyBridging : Bool) :
    (s.look anyBridging).Resting caption := by
  rw [ConnectLoop.look]
  split
  · rename_i lastWrite haggregator
    obtain ⟨hown, -⟩ := h.rests _ haggregator
    refine ⟨h.phase, h.preview, fun a ha => ?_⟩
    obtain rfl := Option.some.inj ha
    refine ⟨hown, fun current anyBridging hseen => ?_⟩
    obtain ⟨rfl, rfl⟩ := Prod.mk.inj (Option.some.inj hseen)
    rw [h.preview]
    rcases hown with rfl | hown
    · rfl
    · cases caption with
      | live => exact absurd rfl hcaption
      | sleeping => rfl
      | connecting => exact aggregatePreviewState_of_ne hown anyBridging
  · exact h

theorem Resting.act (h : s.Resting caption) : s.act.Resting caption := by
  simp only [ConnectLoop.act]
  split
  · rename_i lastWrite current anyBridging haggregator
    obtain ⟨hown, hseen⟩ := h.rests _ haggregator
    rw [if_neg (not_not.2 (hseen current anyBridging rfl))]
    split_ifs
    · refine ⟨h.phase, h.preview, fun a ha => ?_⟩
      obtain rfl := Option.some.inj ha
      exact ⟨.inr nofun, nofun⟩
    · refine ⟨h.phase, h.preview, fun a ha => ?_⟩
      obtain rfl := Option.some.inj ha
      exact ⟨hown, nofun⟩
  · exact h

/-- No step but the loop's next turn disturbs the caption. -/
theorem Resting.step (h : s.Resting caption) (hcaption : caption ≠ .live) {e : Event}
    (he : ∀ cancelled idle, e ≠ .iterate cancelled idle) :
    (s.step idleDisconnect e).Resting caption := by
  have hphase : ∀ phase, afterSession phase = false → s.phase ≠ phase := by
    rintro phase hfalse rfl
    exact Bool.false_ne_true (hfalse.symm.trans h.phase)
  cases e with
  | iterate cancelled idle => exact absurd rfl (he cancelled idle)
  | wake cancelled =>
    rw [ConnectLoop.step]
    split
    · rename_i hparked
      exact absurd hparked (hphase _ rfl)
    · exact h
  | connected result =>
    rw [ConnectLoop.step, if_neg (hphase _ rfl)]
    exact h
  | spawn =>
    rw [ConnectLoop.step, if_neg (hphase _ rfl)]
    exact h
  | probe outcome =>
    rw [ConnectLoop.step, if_neg (hphase _ rfl)]
    exact h
  | interrupt =>
    rw [ConnectLoop.step, if_neg (hphase _ rfl)]
    exact h
  | settle idle =>
    rw [ConnectLoop.step, if_neg (hphase _ rfl)]
    exact h
  | cancelSession =>
    rw [ConnectLoop.step]
    split_ifs
    · exact ⟨rfl, h.preview, h.rests⟩
    · exact h
  | drain =>
    rw [ConnectLoop.step]
    split_ifs
    · exact ⟨rfl, h.preview, nofun⟩
    · exact h
  | close =>
    rw [ConnectLoop.step]
    split_ifs
    · exact ⟨rfl, h.preview, h.rests⟩
    · exact h
  | slept completed =>
    rw [ConnectLoop.step]
    split
    · split_ifs <;> exact ⟨rfl, h.preview, h.rests⟩
    · exact h
  | look anyBridging => exact h.look hcaption anyBridging
  | act => exact h.act

/-- After a session a camera is never called live. -/
theorem postKeepalivePreviewState_ne_live (idleDisconnect idle : Bool) :
    postKeepalivePreviewState idleDisconnect idle ≠ .live := by
  rw [postKeepalivePreviewState]
  split_ifs <;> decide

/-- The caption stays until the loop begins again. -/
theorem Resting.run {events rest : List Event}
    (h : (run idleDisconnect events).Resting caption) (hcaption : caption ≠ .live)
    (hrest : ∀ e ∈ rest, ∀ cancelled idle, e ≠ .iterate cancelled idle) :
    (ConnectLoop.run idleDisconnect (events ++ rest)).Resting caption := by
  induction rest using List.reverseRecOn with
  | nil => rwa [List.append_nil]
  | append_singleton rest e ih =>
    rw [← List.append_assoc, run_concat]
    exact (ih fun e' he' => hrest e' (List.mem_append_left _ he')).step hcaption
      (hrest e (by simp))

/-- For `Sleeping` it matters whether the caption of the session agreed with what was seen last. -/
theorem Watched.rests_sleeping {a : Aggregator} {preview : PreviewState}
    (h : Watched a preview bridging) :
    Rests a .sleeping ↔ (preview = .connecting ↔ bridging) := by
  obtain ⟨lastWrite, _ | ⟨current, anyBridging⟩⟩ := a
  · exact iff_of_true ⟨.inl rfl, nofun⟩ (h.acted rfl).symm
  · obtain ⟨rfl, hbridging⟩ := h.seen _ _ rfl
    rw [hbridging]
    have hrests : Rests ⟨lastWrite, some (current, anyBridging)⟩ .sleeping ↔
        aggregatePreviewState current anyBridging lastWrite = current := by
      refine ⟨fun h => h.seen _ _ rfl, fun h => ⟨.inl rfl, fun current' anyBridging' hseen => ?_⟩⟩
      obtain ⟨rfl, rfl⟩ := Prod.mk.inj (Option.some.inj hseen)
      exact h
    rw [hrests]
    rcases h.wrote with ⟨rfl, -⟩ | ⟨rfl, hlast⟩
    · cases anyBridging <;> simp [aggregatePreviewState]
    · obtain rfl : lastWrite = some .connecting := hlast
      cases anyBridging <;> simp [aggregatePreviewState]

theorem rests_connecting_iff {a : Aggregator} :
    Rests a .connecting ↔ a.lastWrite ≠ some .connecting ∧ Rests a .sleeping := by
  constructor
  · rintro ⟨hown, hseen⟩
    exact ⟨hown.resolve_left nofun, .inl rfl, hseen⟩
  · rintro ⟨hown, -, hseen⟩
    exact ⟨.inr hown, hseen⟩

/-- For `Connecting` it matters whether the camera was live and nothing bridged. -/
theorem Watched.rests_connecting {a : Aggregator} {preview : PreviewState}
    (h : Watched a preview bridging) :
    Rests a .connecting ↔ preview = .live ∧ ¬bridging := by
  rw [rests_connecting_iff, h.rests_sleeping]
  rcases h.wrote with ⟨rfl, hlast⟩ | ⟨rfl, hlast⟩
  · simp [hlast]
  · simp [hlast]

/-- Else it may have the last word. -/
theorem Watched.unrested {a : Aggregator} {preview : PreviewState}
    (h : Watched a preview bridging) (ha : s.aggregator = some a) (hcaption : s.preview ≠ .live)
    (hrests : ¬Rests a s.preview) : ((s.act.look false).act).preview = .live := by
  obtain ⟨lastWrite, _ | ⟨current, anyBridging⟩⟩ := a
  · have hown : s.preview ≠ .sleeping ∧ lastWrite = some .connecting := by
      by_contra hnot
      rw [not_and_or, not_not] at hnot
      exact hrests ⟨hnot, nofun⟩
    have hpreview : s.preview = .connecting := by
      cases hcases : s.preview <;> simp_all
    simp [ConnectLoop.act, ConnectLoop.look, ha, hown.2, hpreview, aggregatePreviewState]
  · obtain ⟨rfl, -⟩ := h.seen _ _ rfl
    rcases h.wrote with ⟨rfl, hlast⟩ | ⟨rfl, hlast⟩
    · cases anyBridging with
      | false =>
        refine absurd ⟨.inr hlast, fun current anyBridging hseen => ?_⟩ hrests
        obtain ⟨rfl, rfl⟩ := Prod.mk.inj (Option.some.inj hseen)
        rfl
      | true => simp [ConnectLoop.act, ConnectLoop.look, ha, aggregatePreviewState]
    · obtain rfl : lastWrite = some .connecting := hlast
      cases anyBridging with
      | false => simp [ConnectLoop.act, ConnectLoop.look, ha, aggregatePreviewState]
      | true =>
        have hpreview : s.preview = .connecting := by
          cases hcases : s.preview with
          | live => exact absurd hcases hcaption
          | connecting => rfl
          | sleeping =>
            refine absurd ⟨.inl hcases, fun current anyBridging hseen => ?_⟩ hrests
            obtain ⟨rfl, rfl⟩ := Prod.mk.inj (Option.some.inj hseen)
            rfl
        simp [ConnectLoop.act, ConnectLoop.look, ha, hpreview, aggregatePreviewState]

/-- What was seen is acted on. -/
theorem seen_act (s : ConnectLoop) : s.act.aggregator.bind Aggregator.seen = none := by
  simp only [ConnectLoop.act]
  split
  · split_ifs <;> rfl
  · rename_i hnone
    cases haggregator : s.aggregator with
    | none => rfl
    | some a =>
      obtain ⟨lastWrite, _ | ⟨current, anyBridging⟩⟩ := a
      · rfl
      · exact absurd haggregator (hnone _ _ _)

/-- The tasks of a session that has nothing to act on any more end, and what the preview says is
    left. -/
theorem torn_down (h : s.phase = .settled) (hseen : s.aggregator.bind Aggregator.seen = none) :
    let s' := (((s.step idleDisconnect .cancelSession).step idleDisconnect .drain).step
      idleDisconnect .close)
    s'.preview = s.preview ∧ s'.state = .disconnected := by
  have hcancel : s.step idleDisconnect .cancelSession = { s with phase := .draining } := by
    rw [step, if_pos h]
  have hdrain : ({ s with phase := .draining } : ConnectLoop).step idleDisconnect .drain =
      { s with phase := .torn, aggregator := none } := by
    rw [step, if_pos ⟨rfl, hseen⟩]
  rw [hcancel, hdrain]
  exact ⟨rfl, rfl⟩

/-- When the caption that is told after a session stays until the loop begins again; else the
    camera may be called live when it is not connected any more. -/
theorem stands_iff (idleDisconnect : Bool) (events : List Event)
    (hover : (run idleDisconnect events).phase = .over) (idle : Bool) :
    let caption := postKeepalivePreviewState idleDisconnect idle
    let stands := if caption = .sleeping then
        (run idleDisconnect events).preview = .connecting ↔ Bridging idleDisconnect events
      else (run idleDisconnect events).preview = .live ∧ ¬Bridging idleDisconnect events
    ((∀ rest, (∀ e ∈ rest, ∀ cancelled idle, e ≠ .iterate cancelled idle) →
      (run idleDisconnect (events ++ .settle idle :: rest)).preview = caption) ↔ stands) ∧
    (¬stands → ∃ rest, (∀ e ∈ rest, ∀ cancelled idle, e ≠ .iterate cancelled idle) ∧
      (run idleDisconnect (events ++ .settle idle :: rest)).preview = .live ∧
      (run idleDisconnect (events ++ .settle idle :: rest)).state = .disconnected) := by
  intro caption stands
  have hcaption : caption ≠ .live := postKeepalivePreviewState_ne_live idleDisconnect idle
  have hinv := inv_run idleDisconnect events
  rw [Inv, hover] at hinv
  obtain ⟨-, a, ha, hwatched⟩ := hinv
  -- The caption is set when the session is over, before the watcher is told to stop.
  have hsettled : run idleDisconnect (events ++ [.settle idle]) =
      { run idleDisconnect events with phase := .settled, preview := caption } := by
    rw [run_concat, step, if_pos hover]
  -- Whether the caption can still change is up to what the watcher saw last.
  have hrests : Rests a caption ↔ stands := by
    dsimp only [stands]
    cases hcases : caption with
    | live => exact absurd hcases hcaption
    | sleeping => exact hwatched.rests_sleeping
    | connecting => exact hwatched.rests_connecting
  have hlive : ¬stands → ∃ rest, (∀ e ∈ rest, ∀ cancelled idle, e ≠ .iterate cancelled idle) ∧
      (run idleDisconnect (events ++ .settle idle :: rest)).preview = .live ∧
      (run idleDisconnect (events ++ .settle idle :: rest)).state = .disconnected := by
    intro hnot
    have hrun : ∀ rest, run idleDisconnect (events ++ .settle idle :: rest) =
        rest.foldl (step idleDisconnect) (run idleDisconnect (events ++ [.settle idle])) := by
      intro rest
      rw [List.append_cons, run, List.foldl_append, ← run]
    -- The watcher acts, looks once more and acts: that is enough to show Live.
    generalize run idleDisconnect (events ++ [.settle idle]) = s at hrun hsettled
    have hact : (s.act.look false).act.preview = .live :=
      hwatched.unrested (hsettled ▸ ha) (hsettled ▸ hcaption)
        (hsettled ▸ fun h => hnot (hrests.1 h))
    have hphase : (s.act.look false).act.phase = .settled := by
      rw [watches_act.phase, (watches_look false).phase, watches_act.phase, hsettled]
    obtain ⟨hpreview, hstate⟩ :=
      @torn_down idleDisconnect _ hphase (seen_act (s.act.look false))
    refine ⟨[.act, .look false, .act, .cancelSession, .drain, .close], by simp, ?_, ?_⟩
    · rw [hrun]
      exact hpreview.trans hact
    · rw [hrun]
      exact hstate
  -- One way by the trace above, the other since nothing unsettles a watcher at rest.
  refine ⟨⟨fun hstands => ?_, fun hstands rest hnone => ?_⟩, hlive⟩
  · by_contra hnot
    obtain ⟨rest, hrest, hpreview, -⟩ := hlive hnot
    exact hcaption ((hstands rest hrest).symm.trans hpreview)
  · have hresting : (run idleDisconnect (events ++ [.settle idle])).Resting caption := by
      rw [hsettled]
      refine ⟨rfl, rfl, fun a' ha' => ?_⟩
      exact Option.some.inj (ha.symm.trans ha') ▸ hrests.2 hstands
    rw [List.append_cons]
    exact (hresting.run hcaption hnone).preview

/-- A session whose sources were not looked at. -/
def unwatched : List Event := [.iterate false false, .connected .ok, .spawn, .interrupt]

/-- In that run no gap is bridged when the session ends. -/
theorem not_bridging_unwatched : ¬Bridging true unwatched := by
  rintro ⟨before, m, after, hlog, hlooked, -⟩
  have hm : m ∈ moments true unwatched := by
    rw [hlog]
    exact List.mem_append_right _ List.mem_cons_self
  have hmem : m.2 ∈ unwatched := Past.mem_of_mem_moments (step true) hm
  rw [unwatched] at hmem
  simp only [List.mem_cons, List.not_mem_nil, or_false] at hmem
  rcases hmem with hm | hm | hm | hm <;> rw [hm] at hlooked <;> cases hlooked

/-- A session that ends while a source is being bridged. -/
def bridged : List Event :=
  [.iterate false false, .connected .ok, .spawn, .look true, .act, .interrupt]

/-- The caption stays after the first session, and not after the second one. -/
theorem stands_unwatched :
    (run true (unwatched ++ .settle true ::
      [.cancelSession, .look false, .act, .drain, .close])).preview = .sleeping ∧
    ∃ rest, (run true (bridged ++ .settle false :: rest)).preview = .live ∧
      (run true (bridged ++ .settle false :: rest)).state = .disconnected := by
  constructor
  · have hpreview : (run true unwatched).preview ≠ .connecting := by decide
    refine (stands_iff true unwatched rfl true).1.2 ?_ _ (by simp)
    exact iff_of_false hpreview not_bridging_unwatched
  · have hpreview : (run true bridged).preview ≠ .live := by decide
    obtain ⟨rest, -, hlive⟩ := (stands_iff true bridged rfl false).2 fun h => hpreview h.1
    exact ⟨rest, hlive⟩

/-! ## The waits between the attempts -/

/-- A wait begins, after an attempt that failed or a session. -/
def sleeps (s : ConnectLoop) : Event → Bool
  | .connected .failed => s.phase = .connecting
  | .close => s.phase = .torn
  | _ => false

/-- An attempt to connect succeeds. -/
def connects (s : ConnectLoop) : Event → Bool
  | .connected .ok => s.phase = .connecting
  | _ => false

/-- The waits since the camera was connected last. -/
def waits (idleDisconnect : Bool) (events : List Event) : ℕ :=
  Past.countSince (fun m => sleeps m.1 m.2 = true) (fun m => connects m.1 m.2 = true)
    (moments idleDisconnect events)

/-- Twice as long each time, up to a minute. -/
def delayAfter (n : ℕ) : Duration := min (.ofSecs 2 * 2 ^ n) (.ofSecs 60)

theorem delayAfter_zero : delayAfter 0 = .ofSecs 2 := by
  rw [delayAfter, pow_zero, mul_one]
  exact min_eq_left (Nat.mul_le_mul_right _ (by decide))

/-- Each further wait is twice the last, up to a minute. -/
theorem delayAfter_succ (n : ℕ) :
    delayAfter (n + 1) = min (delayAfter n * 2) (.ofSecs 60) := by
  have hmax : ∀ delay max : ℕ, min (delay * 2) max = min (min delay max * 2) max := by omega
  rw [delayAfter, delayAfter, pow_succ, ← mul_assoc]
  exact hmax _ _

/-- What a step does to the waits. -/
theorem step_waits (idleDisconnect : Bool) (s : ConnectLoop) (e : Event) :
    (connects s e = true ∧ (s.step idleDisconnect e).phase = .starting ∧
      (s.step idleDisconnect e).backoff = s.backoff.reset) ∨
    (connects s e = false ∧ sleeps s e = true ∧
      s.step idleDisconnect e = sleepWithCancel { s with state := .disconnected }) ∨
    (connects s e = false ∧ sleeps s e = false ∧
      (s.step idleDisconnect e).backoff = s.backoff ∧
      ∀ delay, (s.step idleDisconnect e).phase = .sleeping delay → s.phase = .sleeping delay) := by
  -- A connection resets the backoff, a failed one and a closed session sleep, and nothing else
  -- touches it.
  cases e with
  | connected result =>
    by_cases hphase : s.phase = .connecting
    · cases result with
      | ok => exact .inl ⟨decide_eq_true hphase, by simp [step, hphase, finish]⟩
      | failed => exact .inr (.inl ⟨rfl, decide_eq_true hphase, by simp [step, hphase, finish]⟩)
      | auth | cancelled => exact .inr (.inr ⟨rfl, rfl, by simp [step, hphase, finish, stop]⟩)
    · refine .inr (.inr ?_)
      cases result <;> simp [connects, sleeps, step, hphase]
  | close =>
    by_cases hphase : s.phase = .torn
    · exact .inr (.inl ⟨rfl, decide_eq_true hphase, by simp [step, hphase]⟩)
    · exact .inr (.inr ⟨rfl, decide_eq_false hphase, by simp [step, hphase]⟩)
  | iterate cancelled idle =>
    refine .inr (.inr ⟨rfl, rfl, ?_⟩)
    rw [step]
    split
    · split_ifs <;> exact ⟨rfl, nofun⟩
    · exact ⟨rfl, fun _ => id⟩
  | wake cancelled =>
    refine .inr (.inr ⟨rfl, rfl, ?_⟩)
    rw [step]
    split
    · split_ifs <;> exact ⟨rfl, nofun⟩
    · exact ⟨rfl, fun _ => id⟩
  -- A sleep may end early, and never begins here.
  | slept completed =>
    refine .inr (.inr ⟨rfl, rfl, ?_⟩)
    rw [step]
    split
    · split_ifs <;> exact ⟨rfl, nofun⟩
    · exact ⟨rfl, fun _ => id⟩
  | probe outcome =>
    refine .inr (.inr ⟨rfl, rfl, ?_⟩)
    simp only [step, ConnectLoop.probe]
    split_ifs
    · exact ⟨rfl, nofun⟩
    · exact ⟨rfl, nofun⟩
    · exact ⟨rfl, fun _ => id⟩
  | look anyBridging =>
    refine .inr (.inr ⟨rfl, rfl, ?_⟩)
    rw [step, look]
    split <;> exact ⟨rfl, fun _ => id⟩
  | act =>
    refine .inr (.inr ⟨rfl, rfl, ?_⟩)
    simp only [step, act]
    split
    · split_ifs <;> exact ⟨rfl, fun _ => id⟩
    · exact ⟨rfl, fun _ => id⟩
  | spawn | interrupt | settle _ | cancelSession | drain =>
    refine .inr (.inr ⟨rfl, rfl, ?_⟩)
    rw [step]
    split_ifs
    · exact ⟨rfl, nofun⟩
    · exact ⟨rfl, fun _ => id⟩

/-- What is waited next, and what is being waited, after so many waits. -/
structure BackedOff (s : ConnectLoop) (n : ℕ) : Prop where
  backoff : s.backoff = ⟨.ofSecs 2, .ofSecs 60, delayAfter n⟩
  sleeping : ∀ delay, s.phase = .sleeping delay → 0 < n ∧ delay = delayAfter (n - 1)

/-- One step: the wait that is due is that after the attempts since the last success. -/
theorem BackedOff.step {n : ℕ} (h : s.BackedOff n) (e : Event) :
    (s.step idleDisconnect e).BackedOff
      (if connects s e = true then 0 else n + if sleeps s e = true then 1 else 0) := by
  rcases step_waits idleDisconnect s e with
    ⟨hconnects, hphase, hbackoff⟩ | ⟨hconnects, hsleeps, hstep⟩ |
      ⟨hconnects, hsleeps, hbackoff, hphase⟩
  · rw [hconnects, if_pos rfl]
    refine ⟨?_, fun delay hdelay => ?_⟩
    · rw [hbackoff, h.backoff, ReconnectBackoff.reset, delayAfter_zero]
    · rw [hphase] at hdelay
      cases hdelay
  · rw [hconnects, hsleeps, if_neg Bool.false_ne_true, if_pos rfl, hstep]
    refine ⟨?_, fun delay hdelay => ⟨n.succ_pos, ?_⟩⟩
    · rw [delayAfter_succ]
      simp only [sleepWithCancel, ReconnectBackoff.nextDelay, h.backoff]
    · rw [sleepWithCancel, h.backoff] at hdelay
      exact (ConnectPhase.sleeping.inj hdelay).symm
  · rw [hconnects, hsleeps, if_neg Bool.false_ne_true, if_neg Bool.false_ne_true]
    exact ⟨hbackoff.trans h.backoff, fun delay hdelay => h.sleeping delay (hphase delay hdelay)⟩

/-- In every run the waits are those of the attempts that failed since the last success. -/
theorem backedOff_run (idleDisconnect : Bool) (events : List Event) :
    (run idleDisconnect events).BackedOff (waits idleDisconnect events) := by
  induction events using List.reverseRecOn with
  | nil =>
    have hwaits : waits idleDisconnect [] = 0 := rfl
    rw [hwaits]
    refine ⟨?_, nofun⟩
    rw [delayAfter_zero]
    rfl
  | append_singleton events e ih =>
    rw [run_concat, waits, moments_concat, Past.countSince_concat]
    exact ih.step e

/-- How long is waited before the next attempt. -/
theorem delay_of_phase (idleDisconnect : Bool) (events : List Event) (delay : Duration)
    (h : (run idleDisconnect events).phase = .sleeping delay) :
    0 < waits idleDisconnect events ∧ delay = delayAfter (waits idleDisconnect events - 1) :=
  (backedOff_run idleDisconnect events).sleeping delay h

/-- A camera that cannot be reached is tried again. -/
def unreachable : List Event :=
  [.iterate false false, .connected .failed, .slept true, .iterate false false,
    .connected .failed, .slept true, .iterate false false, .connected .failed]

/-- The third failure in a row is followed by eight seconds. -/
theorem delay_of_phase_unreachable : 0 < waits false unreachable ∧
    Duration.ofSecs 8 = delayAfter (waits false unreachable - 1) :=
  delay_of_phase false unreachable (.ofSecs 8) (by decide +kernel)

/-! ## The end of a session -/

/-- A probe of the session fails. -/
def fails (s : ConnectLoop) : Event → Bool
  | .probe .failed => s.phase = .session
  | _ => false

/-- The failures are counted anew. -/
def clears (s : ConnectLoop) : Event → Bool
  | .probe .ok => s.phase = .session
  | .spawn => s.phase = .starting
  | _ => false

/-- The probes in a row that have failed. -/
def failures (idleDisconnect : Bool) (events : List Event) : ℕ :=
  Past.countSince (fun m => fails m.1 m.2 = true) (fun m => clears m.1 m.2 = true)
    (moments idleDisconnect events)

/-- What a step does in a session. -/
theorem step_session {e : Event} (h : (s.step idleDisconnect e).phase = .session) :
    (clears s e = true ∧ (s.step idleDisconnect e).consecutiveFailures = 0) ∨
    (clears s e = false ∧ fails s e = true ∧ s.phase = .session ∧
      (s.step idleDisconnect e).consecutiveFailures = min (s.consecutiveFailures + 1) (2 ^ 32 - 1) ∧
      (s.step idleDisconnect e).consecutiveFailures < keepaliveMaxFailures) ∨
    (clears s e = false ∧ fails s e = false ∧ s.phase = .session ∧
      (s.step idleDisconnect e).consecutiveFailures = s.consecutiveFailures) := by
  -- The counter moves at a probe of a running session and at the start of one, nowhere else.
  cases e with
  | spawn =>
    by_cases hphase : s.phase = .starting
    · exact .inl ⟨decide_eq_true hphase, by simp [step, hphase]⟩
    · rw [step, if_neg hphase] at h ⊢
      exact .inr (.inr ⟨decide_eq_false hphase, rfl, h, rfl⟩)
  | probe outcome =>
    by_cases hphase : s.phase = .session
    · rw [step, if_pos hphase] at h ⊢
      cases outcome with
      | ok => exact .inl ⟨decide_eq_true hphase, rfl⟩
      | failed =>
        refine .inr (.inl ⟨rfl, decide_eq_true hphase, hphase, rfl, ?_⟩)
        -- At the maximum the probe would have ended the session.
        by_contra hnot
        have hbreak : (advanceKeepaliveCounter s.consecutiveFailures .failed
            keepaliveMaxFailures).2 = true := decide_eq_true (not_lt.1 hnot)
        simp [ConnectLoop.probe, hbreak] at h
    · rw [step, if_neg hphase] at h
      exact absurd h hphase
  | look anyBridging =>
    refine .inr (.inr ⟨rfl, rfl, (watches_look anyBridging).phase.symm.trans h, ?_⟩)
    rw [step, look]
    split <;> rfl
  | act =>
    refine .inr (.inr ⟨rfl, rfl, watches_act.phase.symm.trans h, ?_⟩)
    simp only [step, act]
    split
    · split_ifs <;> rfl
    · rfl
  | iterate cancelled idle =>
    rw [step] at h ⊢
    split at h
    · split_ifs at h <;> cases h
    · exact .inr (.inr ⟨rfl, rfl, h, rfl⟩)
  | wake cancelled =>
    rw [step] at h ⊢
    split at h
    · split_ifs at h <;> cases h
    · exact .inr (.inr ⟨rfl, rfl, h, rfl⟩)
  | slept completed =>
    rw [step] at h ⊢
    split at h
    · split_ifs at h
      cases h
    · exact .inr (.inr ⟨rfl, rfl, h, rfl⟩)
  | connected result =>
    by_cases hphase : s.phase = .connecting
    · rw [step, if_pos hphase] at h
      cases result <;> cases h
    · rw [step, if_neg hphase] at h ⊢
      exact .inr (.inr ⟨rfl, rfl, h, rfl⟩)
  | close =>
    by_cases hphase : s.phase = .torn
    · rw [step, if_pos hphase] at h
      cases h
    · rw [step, if_neg hphase] at h ⊢
      exact .inr (.inr ⟨rfl, rfl, h, rfl⟩)
  -- Each of these leaves the session or does nothing.
  | interrupt | settle _ | cancelSession | drain =>
    rw [step] at h ⊢
    split_ifs at h with hphase
    rw [if_neg hphase]
    exact .inr (.inr ⟨rfl, rfl, h, rfl⟩)

/-- In a session the failures are counted, and they are few. -/
def Counted (s : ConnectLoop) (n : ℕ) : Prop :=
  s.phase = .session → s.consecutiveFailures = n ∧ n < keepaliveMaxFailures

/-- One step: the counter has the failures since it was cleared. -/
theorem Counted.step {n : ℕ} (h : s.Counted n) (e : Event) :
    (s.step idleDisconnect e).Counted
      (if clears s e = true then 0 else n + if fails s e = true then 1 else 0) := by
  intro hphase
  rcases step_session hphase with
    ⟨hclears, hzero⟩ | ⟨hclears, hfails, hsession, hnext, hfew⟩ | ⟨hclears, hfails, hsession, hsame⟩
  · rw [hclears, if_pos rfl]
    exact ⟨hzero, by decide⟩
  · rw [hclears, hfails, if_neg Bool.false_ne_true, if_pos rfl]
    obtain ⟨hn, hlt⟩ := h hsession
    rw [keepaliveMaxFailures] at hlt hfew ⊢
    rw [hn] at hnext
    have hsum : min (n + 1) (2 ^ 32 - 1) = n + 1 := by omega
    rw [hnext, hsum] at hfew ⊢
    exact ⟨rfl, hfew⟩
  · rw [hclears, hfails, if_neg Bool.false_ne_true, if_neg Bool.false_ne_true, hsame]
    exact h hsession

/-- In every run the counter has the failures in a row. -/
theorem counted_run (idleDisconnect : Bool) (events : List Event) :
    (run idleDisconnect events).Counted (failures idleDisconnect events) := by
  induction events using List.reverseRecOn with
  | nil => exact nofun
  | append_singleton events e ih =>
    rw [run_concat, failures, moments_concat, Past.countSince_concat]
    exact ih.step e

/-- A session is given up with the fifth probe in a row that fails. -/
theorem session_iff (idleDisconnect : Bool) (events : List Event)
    (h : (run idleDisconnect events).phase = .session) (outcome : KeepaliveTickOutcome) :
    (run idleDisconnect (events ++ [.probe outcome])).phase =
      if outcome = .failed ∧ failures idleDisconnect events + 1 = keepaliveMaxFailures then .over
      else .session := by
  obtain ⟨hcount, hfew⟩ := counted_run idleDisconnect events h
  rw [run_concat, step, if_pos h, ConnectLoop.probe, hcount]
  cases outcome with
  | ok => rfl
  | failed =>
    simp only [advanceKeepaliveCounter, true_and]
    rw [keepaliveMaxFailures] at hfew ⊢
    have hsum : (5 ≤ min (failures idleDisconnect events + 1) (2 ^ 32 - 1)) ↔
        failures idleDisconnect events + 1 = 5 := by omega
    simp only [hsum, decide_eq_true_eq]

/-- A session with so many probes that fail. -/
def failing (n : ℕ) : List Event :=
  [.iterate false false, .connected .ok, .spawn] ++ List.replicate n (.probe .failed)

/-- Four probes may fail, and not a fifth. -/
theorem session_iff_fourth : (run false (failing 3 ++ [.probe .failed])).phase = .session ∧
    (run false (failing 4 ++ [.probe .failed])).phase = .over :=
  ⟨session_iff false (failing 3) rfl .failed, session_iff false (failing 4) rfl .failed⟩

end ConnectLoop

end Bairelay
