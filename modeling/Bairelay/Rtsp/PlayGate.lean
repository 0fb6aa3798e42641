import Bairelay.Lib.Past
import Bairelay.Lib.Schedule
import Bairelay.Rtsp.ServerStep

/-!
# The gate of `PLAY`

The task of a session sends nothing before a `PLAY`, and does not miss one: the handler sets
a flag and then gives a signal, and the task makes its future for the signal before it looks
at the flag. A future gets all signals that are given after it was made.

The invariant (`Gated`) says what the task has seen of a `PLAY` where it is. The one state
to be afraid of, in which it waits though the flag is set, is only there while the handler
has yet to give the signal.

* `always_after_play`: no packet is sent before a `PLAY` of the session was accepted;
* `leads_gate`: after one, the task passes the gate, however the steps of the handler and the
  task are scheduled among all others.
-/

namespace Bairelay

open Schedule

/-- The task has come to the end of its loops. -/
def Task.isEnding : Task → Bool
  | .joining _ | .cleaning | .finished => true
  | .spawned | .registered _ | .parked _ | .playing _ => false

/-- How far a task has come. -/
def Task.rank : Task → ℕ
  | .spawned => 0
  | .registered _ => 1
  | .parked _ => 2
  | .playing _ => 3
  | .joining _ => 4
  | .cleaning => 5
  | .finished => 6

namespace Server

variable {config : ServerConfig} {s : Server}

/-- What a session has seen of `PLAY`. -/
structure Gated (s : Server) (i : ℕ) (x : Session) : Prop where
  fired : x.playFired ↔ .playAccepted i ∈ s.log
  woken : x.task = .registered true ∨ x.task = .parked true → x.playFired
  playing : x.task.loops?.isSome → x.playFired
  notifying : x.task = .parked false → x.playFired → ∃ play, s.handler = .notify play i
  ending : x.task.isEnding → x.cancelled

/-- What holds of a server: a session that plays was told to, and one that was told to is about to
    be notified or was. -/
structure PlayGate (s : Server) : Prop where
  gated : ∀ {i x}, s.sessions[i]? = some x → Gated s i x
  accepted : ∀ {i}, .playAccepted i ∈ s.log → i < s.sessions.length
  busy : s.handler ≠ .idle → s.closed = false
  notified : ∀ {play i x}, s.handler = .notify play i → s.sessions[i]? = some x → x.playFired

/-- The flag of a session is set in this step. -/
def Fires (s : Server) (e : Event) (play : Play) (i : ℕ) : Prop :=
  (∃ ambient, e = .proceed ambient) ∧ s.closed = false ∧ s.handler = .play play ∧
    s.lookup play.sessionId = some i

/-- The signal is given in this step. -/
def Signals (s : Server) (e : Event) (play : Play) (i : ℕ) : Prop :=
  (∃ ambient, e = .proceed ambient) ∧ s.closed = false ∧ s.handler = .notify play i

/-- The flag is set, and the handler goes on to notify. -/
theorem Fires.step {e : Event} {play : Play} {i : ℕ} (h : Fires s e play i) :
    step config s e = { s with
      handler := .notify play i
      sessions := s.sessions.modify i fun x => { x with playFired := true }
      log := s.log ++ [.playAccepted i] } := by
  obtain ⟨⟨ambient, rfl⟩, hopen, hhandler, hlookup⟩ := h
  rw [Server.step, if_neg (by simp [hopen]), proceed, hhandler]
  dsimp only
  rw [markPlaying, hlookup]

theorem Signals.step {e : Event} {play : Play} {i : ℕ} (h : Signals s e play i) :
    step config s e = s.notifyPlaying play i := by
  obtain ⟨⟨ambient, rfl⟩, hopen, hhandler⟩ := h
  rw [Server.step, if_neg (by simp [hopen]), proceed, hhandler]

/-- A `PLAY` is accepted only where the flag is set. -/
theorem mem_log_step {e : Event} {i : ℕ} (h : .playAccepted i ∈ (step config s e).log) :
    .playAccepted i ∈ s.log ∨ ∃ play, Fires s e play i := by
  obtain ⟨out, hlog, hout⟩ := step_log config s e
  rw [hlog] at h
  rcases List.mem_append.1 h with h | h
  · exact .inl h
  · have hlogs := hout _ h
    generalize ho : Output.playAccepted i = o at hlogs
    cases hlogs with
    | playAccepted hopen hhandler hlookup =>
      obtain rfl := Output.playAccepted.inj ho
      exact .inr ⟨_, ⟨_, rfl⟩, hopen, hhandler, hlookup⟩
    | @loop j _ x o hx hmem => obtain ⟨kind, _ | _⟩ := o <;> cases ho
    | _ => cases ho

theorem log_mono {e : Event} {o : Output} (h : o ∈ s.log) : o ∈ (step config s e).log := by
  obtain ⟨out, hlog, -⟩ := step_log config s e
  rw [hlog]
  exact List.mem_append_left _ h

theorem handler_notify_step {e : Event} {play : Play} {i : ℕ} (h : PlayGate s)
    (hhandler : s.handler = .notify play i) (hsignals : ∀ play, ¬Signals s e play i) :
    (step config s e).handler = .notify play i := by
  have hbusy : s.handler ≠ .idle := by rw [hhandler]; simp
  rw [← hhandler]
  refine (handler_step hbusy fun ambient he => ?_).1
  exact hsignals play ⟨⟨ambient, he⟩, h.busy hbusy, hhandler⟩

/-- What a session has seen does not depend on the rest. -/
theorem Gated.congr {s' : Server} {i : ℕ} {x : Session} (h : Gated s i x)
    (hlog : .playAccepted i ∈ s'.log ↔ .playAccepted i ∈ s.log)
    (hhandler : ∀ play, s.handler = .notify play i → s'.handler = .notify play i) :
    Gated s' i x where
  fired := h.fired.trans hlog.symm
  woken := h.woken
  playing := h.playing
  notifying htask hfired := (h.notifying htask hfired).imp hhandler
  ending := h.ending

/-- A change of loops is no matter of the gate. -/
theorem Gated.setLoops {i : ℕ} {x x' : Session} {loops loops' : Loops} (h : Gated s i x)
    (hloops : x.task.loops? = some loops) (htask : x'.task = x.task.setLoops loops')
    (hfired : x'.playFired = x.playFired) (hcancelled : x'.cancelled = x.cancelled) :
    Gated s i x' := by
  have hplaying : x.playFired := h.playing (hloops ▸ rfl)
  have hending := h.ending
  refine ⟨?_, fun _ => ?_, fun _ => ?_, fun hparked => ?_, fun hend => ?_⟩
  · rw [hfired]
    exact h.fired
  · rwa [hfired]
  · rwa [hfired]
  · rw [htask] at hparked
    cases hx : x.task <;> simp_all [Task.setLoops, Task.loops?]
  · rw [htask] at hend
    rw [hcancelled]
    cases hx : x.task <;> simp_all [Task.setLoops, Task.loops?, Task.isEnding]

/-- A step of the task keeps what it has seen. -/
theorem Gated.act {i : ℕ} {x : Session} (h : Gated s i x) (e : TaskEvent) :
    Gated s i (x.act config.rtp s.media e).1 := by
  have hacts := Session.acts config.rtp s.media x e
  generalize x.act config.rtp s.media e = t at hacts ⊢
  cases hacts with
  | skip => exact h
  | register htask =>
    exact ⟨h.fired, by simp, by simp [Task.loops?], by simp, by simp [Task.isEnding]⟩
  | @park notified htask hfired =>
    refine ⟨h.fired, fun hwoken => ?_, by simp [Task.loops?], ?_, by simp [Task.isEnding]⟩
    · -- The signal came before the task looked at the flag.
      obtain rfl : notified = true := by simpa using hwoken
      exact h.woken (.inl htask)
    · intro _ hfired'
      simp [hfired] at hfired'
  | pass htask hfired =>
    exact ⟨h.fired, by simp, fun _ => hfired, by simp, by simp [Task.isEnding]⟩
  | wake htask =>
    exact ⟨h.fired, by simp, fun _ => h.woken (.inr htask), by simp, by simp [Task.isEnding]⟩
  | leave htask hcancelled =>
    exact ⟨h.fired, by simp, by simp [Task.loops?], by simp, fun _ => hcancelled⟩
  | build hloops => exact h.setLoops hloops rfl rfl rfl
  | recv hloops => exact h.setLoops hloops rfl rfl rfl
  | fail hloops => exact h.setLoops hloops rfl rfl rfl
  | stop hloops => exact h.setLoops hloops rfl rfl rfl
  | select htask =>
    exact ⟨h.fired, by simp, fun _ => h.playing (by rw [htask]; rfl), by simp, fun _ => rfl⟩
  | joined htask =>
    refine ⟨h.fired, by simp, by simp [Task.loops?], by simp, fun _ => h.ending ?_⟩
    rw [htask]
    rfl

/-- A change that is not one of the task or of a `PLAY`. -/
theorem Gated.of_task_eq {i : ℕ} {x x' : Session} (h : Gated s i x) (htask : x'.task = x.task)
    (hfired : x'.playFired = x.playFired) (hcancelled : x.cancelled → x'.cancelled) :
    Gated s i x' where
  fired := by
    rw [hfired]
    exact h.fired
  woken := by
    rw [htask, hfired]
    exact h.woken
  playing := by
    rw [htask, hfired]
    exact h.playing
  notifying := by
    rw [htask, hfired]
    exact h.notifying
  ending := by
    rw [htask]
    exact hcancelled ∘ h.ending

/-- The signal is given, and the task has its future or will look at the flag. -/
theorem Gated.notifyWaiters {s' : Server} {i : ℕ} {x : Session} (h : Gated s i x)
    (hfired : x.playFired) (hlog : .playAccepted i ∈ s'.log ↔ .playAccepted i ∈ s.log) :
    Gated s' i x.notifyWaiters := by
  rw [Session.notifyWaiters]
  split
  · exact ⟨h.fired.trans hlog.symm, fun _ => hfired, fun _ => hfired, by simp,
      by simp [Task.isEnding]⟩
  · exact ⟨h.fired.trans hlog.symm, fun _ => hfired, fun _ => hfired, by simp,
      by simp [Task.isEnding]⟩
  · next _ hparked =>
    exact ⟨h.fired.trans hlog.symm, h.woken, h.playing, fun htask => absurd htask (hparked _),
      h.ending⟩

theorem Changes.playFired {e : Event} {i : ℕ} {x x' : Session}
    (hchanges : Changes config s e i x x') (h : x.playFired) : x'.playFired := by
  cases hchanges with
  | fire => rfl
  | notify =>
    rw [Session.notifyWaiters]
    split <;> exact h
  | act => rwa [(Session.act_frame ..).2.2.2.2.2]
  | cleanUp => split <;> exact h
  | _ => exact h

/-- A step that neither sets the flag nor notifies keeps the gate. -/
theorem Gated.changes {e : Event} {i : ℕ} {x x' : Session} (h : Gated s i x)
    (hchanges : Changes config s e i x x') (hfires : ∀ play, ¬Fires s e play i)
    (hsignals : ∀ play, ¬Signals s e play i) : Gated s i x' := by
  cases hchanges with
  | same => exact h
  | touch => exact h.of_task_eq rfl rfl id
  | teardown => exact h.of_task_eq rfl rfl fun _ => rfl
  | append => exact h.of_task_eq rfl rfl id
  | replace => exact h.of_task_eq rfl rfl fun _ => rfl
  | fire hopen hhandler hlookup => exact absurd ⟨⟨_, rfl⟩, hopen, hhandler, hlookup⟩ (hfires _)
  | notify hopen hhandler => exact absurd ⟨⟨_, rfl⟩, hopen, hhandler⟩ (hsignals _)
  | expire => exact h.of_task_eq rfl rfl fun _ => rfl
  | close => exact h.of_task_eq rfl rfl fun _ => rfl
  | act => exact h.act _
  | cleanUp htask =>
    have hcancelled : x.cancelled := h.ending (by rw [htask]; rfl)
    split
    · exact ⟨h.fired, by simp, by simp [Task.loops?], by simp, fun _ => rfl⟩
    · exact ⟨h.fired, by simp, by simp [Task.loops?], by simp, fun _ => hcancelled⟩
  | cleanUpOther => exact h.of_task_eq rfl rfl fun _ => rfl

/-! ### The handler -/

theorem handler_dispatchRequest_ne (r : ParsedRequest) (ambient : Ambient) (play : Play) (i : ℕ) :
    (s.dispatchRequest config r ambient).handler ≠ .notify play i := by
  rcases handler_dispatchRequest config s r ambient with hidle | ⟨play', hplay⟩ | hsetup
  · rw [hidle]
    exact Handler.noConfusion
  · rw [hplay]
    exact Handler.noConfusion
  · rw [hsetup]
    have hcases := handleSetup_cases config
      (({ s with requests := s.requests + 1 } : Server).touchSession r) r ambient
    generalize handleSetup _ config r ambient = t at hcases ⊢
    cases hcases <;> exact Handler.noConfusion

/-- A handler notifies the session that it has looked up. -/
theorem handler_proceed {ambient : Ambient} {play : Play} {i : ℕ}
    (h : (s.proceed config ambient).handler = .notify play i) :
    s.handler = .play play ∧ s.lookup play.sessionId = some i := by
  rw [proceed] at h
  cases hhandler : s.handler with
  | idle => simp [hhandler] at h
  | append setup => simp [hhandler, setupAppend, answerSetup, respond] at h
  | subscribe setup =>
    rw [hhandler] at h
    dsimp only at h
    obtain ⟨locks, ⟨status, hsetup⟩ | ⟨subscription, -, hsetup⟩⟩ :=
      setupSubscribe_cases config s setup ambient
    · rw [hsetup] at h
      cases h
    · rw [hsetup] at h
      cases h
  | play play' =>
    rw [hhandler] at h
    dsimp only at h
    rw [markPlaying] at h
    split at h
    · cases h
    · next hlookup =>
      obtain ⟨rfl, rfl⟩ := Handler.notify.inj h
      exact ⟨rfl, hlookup⟩
  | notify play' j => simp [hhandler, notifyPlaying] at h
  | answerPlay play' => simp [hhandler, answerPlay, respond] at h

/-- The handler comes to give a signal only after it has set the flag. -/
theorem handler_notify {e : Event} {play : Play} {i : ℕ}
    (h : (step config s e).handler = .notify play i) :
    s.handler = .notify play i ∨ Fires s e play i := by
  rcases handler_cases config s e with
    (hsame | hidle) | ⟨r, ambient, rfl, hstep⟩ | ⟨ambient, rfl, hopen, hstep⟩
  · exact .inl (hsame ▸ h)
  · rw [hidle] at h
    cases h
  · rw [hstep] at h
    exact absurd h (handler_dispatchRequest_ne r ambient play i)
  · rw [hstep] at h
    obtain ⟨hhandler, hlookup⟩ := handler_proceed h
    exact .inr ⟨⟨ambient, rfl⟩, hopen, hhandler, hlookup⟩

/-! ### The gate throughout a run -/

theorem lookup_lt {id : Bytes} {i : ℕ} (h : s.lookup id = some i) : i < s.sessions.length :=
  (List.findIdx?_eq_some_iff_getElem.1 h).1

theorem playGate_fires {e : Event} {play : Play} {i : ℕ} (h : PlayGate s)
    (hfires : Fires s e play i) : PlayGate (step config s e) := by
  have hhandler : s.handler = .play play := hfires.2.2.1
  have hlt := lookup_lt hfires.2.2.2
  have hmem (j : ℕ) (hj : j ≠ i) : .playAccepted j ∈ s.log ++ [.playAccepted i] ↔
      .playAccepted j ∈ s.log := by simp [hj]
  rw [hfires.step]
  refine ⟨fun {j x'} hx' => ?_, fun {j} haccepted => ?_, fun _ => hfires.2.1, ?_⟩
  · obtain ⟨x, hx, ⟨rfl, hj⟩ | ⟨rfl, rfl⟩⟩ := getElem?_modify hx'
    · refine (h.gated hx).congr (hmem j hj) fun play' hplay' => ?_
      rw [hhandler] at hplay'
      cases hplay'
    · exact ⟨by simp, fun _ => rfl, fun _ => rfl, fun _ _ => ⟨play, rfl⟩, (h.gated hx).ending⟩
  · rw [List.length_modify]
    rcases List.mem_append.1 haccepted with haccepted | haccepted
    · exact h.accepted haccepted
    · rwa [Output.playAccepted.inj (List.mem_singleton.1 haccepted)]
  · intro play' j x' hplay' hx'
    obtain ⟨rfl, rfl⟩ := Handler.notify.inj hplay'
    obtain ⟨x, hx, ⟨-, hj⟩ | ⟨-, rfl⟩⟩ := getElem?_modify hx'
    · exact absurd rfl hj
    · rfl

theorem playGate_signals {e : Event} {play : Play} {i : ℕ} (h : PlayGate s)
    (hsignals : Signals s e play i) : PlayGate (step config s e) := by
  have hhandler : s.handler = .notify play i := hsignals.2.2
  rw [hsignals.step]
  refine ⟨fun {j x'} hx' => ?_, fun {j} haccepted => ?_, fun _ => hsignals.2.1, ?_⟩
  · obtain ⟨x, hx, ⟨rfl, hj⟩ | ⟨rfl, rfl⟩⟩ := getElem?_modify hx'
    · refine (h.gated hx).congr Iff.rfl fun play' hplay' => ?_
      rw [hhandler] at hplay'
      exact absurd (Handler.notify.inj hplay').2.symm hj
    · exact (h.gated hx).notifyWaiters (h.notified hhandler hx) Iff.rfl
  · rw [notifyPlaying, List.length_modify]
    exact h.accepted haccepted
  · intro play' j x' hplay'
    cases hplay'

theorem playGate_step (h : PlayGate s) (e : Event) : PlayGate (step config s e) := by
  by_cases hfires : ∃ play i, Fires s e play i
  · obtain ⟨play, i, hfires⟩ := hfires
    exact playGate_fires h hfires
  · by_cases hsignals : ∃ play i, Signals s e play i
    · obtain ⟨play, i, hsignals⟩ := hsignals
      exact playGate_signals h hsignals
    · have hlog (i : ℕ) : .playAccepted i ∈ (step config s e).log ↔ .playAccepted i ∈ s.log :=
        ⟨fun hmem => (mem_log_step hmem).elim id fun ⟨play, hi⟩ => absurd ⟨play, i, hi⟩ hfires,
          log_mono⟩
      refine ⟨fun {i x'} hx' => ?_, fun {i} haccepted => ?_, open_step h.busy e, ?_⟩
      · rcases step_sessions hx' with ⟨x, hx, hchanges⟩ | ⟨rfl, hcreates⟩
        · refine ((h.gated hx).changes hchanges (fun play hi => hfires ⟨play, i, hi⟩)
            fun play hi => hsignals ⟨play, i, hi⟩).congr (hlog i) fun play hplay => ?_
          exact handler_notify_step h hplay fun play' hi => hsignals ⟨play', i, hi⟩
        · have hnot : .playAccepted s.sessions.length ∉ (step config s e).log := by
            rw [hlog]
            exact fun haccepted => lt_irrefl _ (h.accepted haccepted)
          cases hcreates with
          | intro hhandler hsubscribed =>
            exact ⟨by simpa [newSession] using hnot, by simp [newSession],
              by simp [newSession, Task.loops?], by simp [newSession],
              by simp [newSession, Task.isEnding]⟩
      · exact (h.accepted ((hlog i).1 haccepted)).trans_le (length_step config s e)
      · intro play i x' hplay hx'
        rcases handler_notify hplay with hhandler | hi
        · rcases step_sessions hx' with ⟨x, hx, hchanges⟩ | ⟨rfl, hcreates⟩
          · exact hchanges.playFired (h.notified hhandler hx)
          · cases hcreates with
            | intro hhandler' hsubscribed =>
              rw [hhandler] at hhandler'
              cases hhandler'
        · exact absurd ⟨play, i, hi⟩ hfires

theorem playGate_run (config : ServerConfig) (nonce : Nonce) (events : List Event) :
    PlayGate (run config nonce events) := by
  refine @run_induction config PlayGate nonce ?_ (fun _ e h => playGate_step h e) events
  exact ⟨fun hx => by simp at hx, fun h => by simp at h, fun h => absurd rfl h,
    fun h => Handler.noConfusion h⟩

/-- What a task gives out comes from its loops. -/
theorem loops_of_mem_act {x : Session} {e : TaskEvent} {o : TrackKind × LoopOutput}
    (h : o ∈ (x.act config.rtp s.media e).2) : x.task.loops?.isSome := by
  have hacts := Session.acts config.rtp s.media x e
  generalize x.act config.rtp s.media e = t at hacts h
  cases hacts with
  | build hloops => rw [hloops]; rfl
  | recv hloops => rw [hloops]; rfl
  | fail hloops => rw [hloops]; rfl
  | _ => cases h

/-- Nothing is sent to a session before its `PLAY` was accepted. -/
theorem always_after_play (config : ServerConfig) (nonce : Nonce) (events : List Event) :
    Past.Always (fun before o => ∀ i kind transport packet,
      o = .media i kind transport packet → .playAccepted i ∈ before)
        (run config nonce events).log := by
  induction events using List.reverseRecOn with
  | nil => exact Past.always_nil
  | append_singleton events e ih =>
    rw [run_concat]
    have hgate := playGate_run config nonce events
    obtain ⟨out, hlog, hout⟩ := step_log config (run config nonce events) e
    rw [hlog, Past.always_append]
    refine ⟨ih, fun before o after hsplit i kind transport packet ho => ?_⟩
    refine List.mem_append_left _ ?_
    have hlogs := hout o (by rw [hsplit]; simp)
    cases hlogs with
    | @loop j e x o' hx hmem =>
      obtain ⟨kind', _ | _⟩ := o' <;> cases ho
      have hgated := hgate.gated hx
      exact hgated.fired.1 (hgated.playing (loops_of_mem_act hmem))
    | _ => cases ho

/-! ### Passing the gate -/

theorem Changes.rank {e : Event} {i : ℕ} {x x' : Session} (h : Changes config s e i x x') :
    x.task.rank ≤ x'.task.rank := by
  have hsetLoops (task : Task) (loops : Loops) : (task.setLoops loops).rank = task.rank := by
    cases task <;> rfl
  cases h with
  | notify =>
    rw [Session.notifyWaiters]
    split
    · next htask => rw [htask]; exact le_rfl
    · next htask => rw [htask]; exact le_rfl
    · exact le_rfl
  | act =>
    rename_i e
    have hacts := Session.acts config.rtp s.media x e
    generalize x.act config.rtp s.media e = t at hacts ⊢
    cases hacts with
    | skip => exact le_rfl
    | register htask => rw [htask]; exact Nat.zero_le 1
    | park htask => rw [htask]; exact Nat.le_succ 1
    | pass htask => rw [htask]; exact Nat.le_add_left 1 2
    | wake htask => rw [htask]; exact Nat.le_succ 2
    | leave htask => rw [htask]; exact Nat.le_add_left 2 3
    | build => exact (hsetLoops _ _).ge
    | recv => exact (hsetLoops _ _).ge
    | fail => exact (hsetLoops _ _).ge
    | stop => exact (hsetLoops _ _).ge
    | select htask => rw [htask]; exact Nat.le_succ 3
    | joined htask => rw [htask]; exact Nat.le_succ 4
  | cleanUp htask => rw [htask]; exact Nat.le_succ 5
  | _ => exact le_rfl

/-- A session with `PLAY` accepted, whose task has come so far. -/
def Reached (i rank : ℕ) (s : Server) : Prop :=
  PlayGate s ∧ .playAccepted i ∈ s.log ∧
    ∃ x, s.sessions[i]? = some x ∧ rank ≤ x.task.rank

/-- The task waits no more, or it has been woken. -/
def Woken (i : ℕ) (s : Server) : Prop :=
  PlayGate s ∧ .playAccepted i ∈ s.log ∧
    ∃ x, s.sessions[i]? = some x ∧ 2 ≤ x.task.rank ∧ x.task ≠ .parked false

theorem stable_reached (i rank : ℕ) : Stable (step config) (Reached i rank) := by
  rintro s e ⟨hgate, haccepted, x, hx, hrank⟩
  obtain ⟨x', hx', hchanges⟩ := @step_session config s x i hx e
  exact ⟨playGate_step hgate e, log_mono haccepted, x', hx', hrank.trans hchanges.rank⟩

/-- A task that is past the flag does not come to wait. -/
theorem Changes.not_parked {e : Event} {i : ℕ} {x x' : Session}
    (h : Changes config s e i x x') (hrank : 2 ≤ x.task.rank) (hx : x.task ≠ .parked false) :
    x'.task ≠ .parked false := by
  cases h with
  | notify =>
    rw [Session.notifyWaiters]
    split
    · exact Task.noConfusion
    · simp
    · exact hx
  | act =>
    rename_i e
    have hacts := Session.acts config.rtp s.media x e
    generalize x.act config.rtp s.media e = t at hacts ⊢
    cases hacts with
    | skip => exact hx
    | park htask =>
      rw [htask] at hrank
      exact absurd hrank (Nat.lt_irrefl 1)
    | build hloops => cases hx : x.task <;> simp_all [Session.setLoop, Task.setLoops, Task.loops?]
    | recv hloops => cases hx : x.task <;> simp_all [Session.setLoop, Task.setLoops, Task.loops?]
    | fail hloops => cases hx : x.task <;> simp_all [Session.setLoop, Task.setLoops, Task.loops?]
    | stop hloops => cases hx : x.task <;> simp_all [Session.setLoop, Task.setLoops, Task.loops?]
    | _ => exact Task.noConfusion
  | cleanUp => exact Task.noConfusion
  | _ => exact hx

theorem stable_woken (i : ℕ) : Stable (step config) (Woken i) := by
  rintro s e ⟨hgate, haccepted, x, hx, hrank, hparked⟩
  obtain ⟨x', hx', hchanges⟩ := @step_session config s x i hx e
  exact ⟨playGate_step hgate e, log_mono haccepted, x', hx', hrank.trans hchanges.rank,
    hchanges.not_parked hrank hparked⟩

/-- A step of the task of a session. -/
theorem sessions_task {i : ℕ} {x : Session} (hx : s.sessions[i]? = some x) (e : TaskEvent) :
    (step config s (.task i e)).sessions[i]? = some (x.act config.rtp s.media e).1 := by
  have hlt : i < s.sessions.length := (List.getElem?_eq_some_iff.1 hx).1
  rw [step, taskStep, hx]
  exact List.getElem?_set_self hlt

/-- The task makes its future. -/
theorem reached_register {i : ℕ} (h : Reached i 0 s) :
    Reached i 1 (step config s (.task i .register)) := by
  obtain ⟨hgate, haccepted, x, hx, -⟩ := h
  refine ⟨playGate_step hgate _, log_mono haccepted, _, sessions_task hx _, ?_⟩
  cases htask : x.task <;> simp [Session.act, htask, Task.rank]

/-- The task looks at the flag, which is there. -/
theorem reached_check {i : ℕ} (h : Reached i 1 s) :
    Reached i 2 (step config s (.task i .check)) := by
  obtain ⟨hgate, haccepted, x, hx, hrank⟩ := h
  have hfired : x.playFired := (hgate.gated hx).fired.2 haccepted
  refine ⟨playGate_step hgate _, log_mono haccepted, _, sessions_task hx _, ?_⟩
  cases htask : x.task <;> simp_all [Session.act, Task.rank]

/-- If the task waits, the handler has yet to give the signal, and does so next. -/
theorem woken_proceed {i : ℕ} (h : Reached i 2 s) (ambient : Ambient) :
    Woken i (step config s (.proceed ambient)) := by
  obtain ⟨hgate, haccepted, x, hx, hrank⟩ := h
  have hgated := hgate.gated hx
  by_cases hparked : x.task = .parked false
  · obtain ⟨play, hhandler⟩ := hgated.notifying hparked (hgated.fired.2 haccepted)
    have hopen : s.closed = false := hgate.busy (by rw [hhandler]; exact Handler.noConfusion)
    have hsignals : Signals s (.proceed ambient) play i := ⟨⟨ambient, rfl⟩, hopen, hhandler⟩
    have hx' : (step config s (.proceed ambient)).sessions[i]? = some x.notifyWaiters := by
      rw [hsignals.step, notifyPlaying, List.getElem?_modify_eq, hx]
      rfl
    refine ⟨playGate_step hgate _, log_mono haccepted, _, hx', ?_⟩
    rw [Session.notifyWaiters, hparked]
    exact ⟨le_rfl, by simp⟩
  · exact stable_woken i s _ ⟨hgate, haccepted, x, hx, hrank, hparked⟩

/-- A task that is woken goes on, if it had to wait. -/
theorem reached_notified {i : ℕ} (h : Woken i s) :
    Reached i 3 (step config s (.task i .notified)) := by
  obtain ⟨hgate, haccepted, x, hx, hrank, hparked⟩ := h
  refine ⟨playGate_step hgate _, log_mono haccepted, _, sessions_task hx _, ?_⟩
  cases htask : x.task with
  | parked notified => cases notified <;> simp_all [Session.act, Task.rank]
  | _ => simp_all [Session.act, Task.rank]

/-- The steps that pass the gate, in the order in which they may be needed. -/
def gateSteps (i : ℕ) (ambient : Ambient) : List Event :=
  [.task i .register, .task i .check, .proceed ambient, .task i .notified]

/-- The steps that lead a session that was told to play into its loops. -/
theorem leads_gate (config : ServerConfig) (i : ℕ) (ambient : Ambient) :
    Leads (step config) (Reached i 0) (gateSteps i ambient) (Reached i 3) :=
  leads_cons (stable_reached i 0) (fun _ => reached_register) <|
    leads_cons (stable_reached i 1) (fun _ => reached_check) <|
      leads_cons (stable_reached i 2) (fun _ h => woken_proceed h ambient) <|
        leads_cons (stable_woken i) (fun _ => reached_notified) <|
          leads_nil (stable_reached i 3)

/-- Past the gate, a session plays or is cancelled. -/
theorem Reached.proceeds {i : ℕ} (h : Reached i 3 s) :
    ∃ x, s.sessions[i]? = some x ∧ (x.cancelled ∨ ∃ loops, x.task = .playing loops) := by
  obtain ⟨hgate, -, x, hx, hrank⟩ := h
  refine ⟨x, hx, ?_⟩
  have hending := (hgate.gated hx).ending
  cases htask : x.task with
  | playing loops => exact .inr ⟨loops, rfl⟩
  | joining loops => exact .inl (hending (by rw [htask]; rfl))
  | cleaning => exact .inl (hending (by rw [htask]; rfl))
  | finished => exact .inl (hending (by rw [htask]; rfl))
  | _ =>
    rw [htask] at hrank
    simp [Task.rank] at hrank

/-- A session whose `PLAY` was accepted is past the beginning. -/
theorem reached_of_accepted {nonce : Nonce} {events : List Event} {i : ℕ}
    (h : .playAccepted i ∈ (run config nonce events).log) :
    Reached i 0 (run config nonce events) := by
  have hgate := playGate_run config nonce events
  have hlt := hgate.accepted h
  exact ⟨hgate, h, _, List.getElem?_eq_getElem hlt, Nat.zero_le _⟩

/-- No packet is sent before a `PLAY` of its session was accepted. After one, the session
    plays or is cancelled as soon as the task and the handler have had their turns, whatever
    else happens before, between and after them. -/
theorem play_proceeds (config : ServerConfig) (nonce : Nonce) (events : List Event) :
    Past.Always (fun before o => ∀ i kind transport packet,
      o = .media i kind transport packet → .playAccepted i ∈ before)
        (run config nonce events).log ∧
    ∀ i ambient more, .playAccepted i ∈ (run config nonce events).log →
      (gateSteps i ambient).Sublist more →
      ∃ x, (run config nonce (events ++ more)).sessions[i]? = some x ∧
        (x.cancelled ∨ ∃ loops, x.task = .playing loops) := by
  refine ⟨always_after_play config nonce events, fun i ambient more haccepted hsub => ?_⟩
  have hreached := leads_gate config i ambient _ more hsub (reached_of_accepted haccepted)
  rw [run, List.foldl_append]
  exact hreached.proceeds

/-- The task has looked at the flag before the handler set it. -/
theorem play_proceeds_parked :
    ∃ x, (run (porchServer []) ⟨[], 0⟩ ([.sourceStarted (utf8 "porch") .main,
        .request (porchSetup (utf8 "7") 0) {}, .proceed { outcome := .ok 0 }, .task 0 .register,
        .task 0 .check, .request (porchRequest .play (utf8 "7")) {}, .proceed {}] ++
      gateSteps 0 {})).sessions[0]? = some x ∧
        (x.cancelled ∨ ∃ loops, x.task = .playing loops) :=
  (play_proceeds (porchServer []) ⟨[], 0⟩ _).2 0 {} (gateSteps 0 {}) (by decide +kernel)
    (List.Sublist.refl _)

end Server

end Bairelay
