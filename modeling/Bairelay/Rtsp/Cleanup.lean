import Bairelay.Rtsp.PlayGate

/-!
# The end of a session

At its end, the task of a session removes the session from the registry by its id. By then
the registry may hold another session under that id: one that was made after the first had
been removed by a `TEARDOWN` or a sweep, while its task was still on its way to the end.

* `log_removed`: a session that leaves the registry leaves a trace in the log;
* `kept_run`: as long as the ids of new sessions are fresh (`AllFresh`), each task removes its
  own session at most, and only after one of its loops has failed.
-/

namespace Bairelay

namespace Server

variable {config : ServerConfig} {s : Server}

/-! ## Traces of removals -/

theorem mem_log_removeWhere {p : Session → Bool} {i : ℕ} {x : Session}
    (hx : s.sessions[i]? = some x) (hreg : x.inRegistry) (hp : p x) (cause : Removal) :
    .removed i cause ∈ (s.removeWhere p cause).log := by
  refine List.mem_append_right _ (List.mem_map.2 ⟨(x, i), ?_, rfl⟩)
  refine List.mem_filter.2 ⟨?_, by simp [hreg, hp]⟩
  exact List.mk_mem_zipIdx_iff_getElem?.2 hx

/-- All sessions are taken out when the connection is closed. -/
theorem mem_log_clear {i : ℕ} {x : Session} (hx : s.sessions[i]? = some x)
    (hreg : x.inRegistry) : .removed i .connectionClosed ∈ s.clear.log :=
  mem_log_removeWhere hx hreg rfl _

/-- A request touches its session, and does not move it. -/
theorem getElem?_touchSession {i : ℕ} {x : Session} (hx : s.sessions[i]? = some x)
    (r : ParsedRequest) : ∃ y, (s.touchSession r).sessions[i]? = some y ∧
      y.inRegistry = x.inRegistry ∧ y.id = x.id := by
  have hlt : i < (s.touchSession r).sessions.length := by
    rw [length_touchSession]
    exact (List.getElem?_eq_some_iff.1 hx).1
  have hy := List.getElem?_eq_getElem hlt
  refine ⟨_, hy, ?_⟩
  obtain ⟨z, hz, hyz | ⟨-, -, hyz⟩⟩ := touchSession_cases hy
  · rw [hx] at hz
    rw [hyz, Option.some.inj hz]
    exact ⟨rfl, rfl⟩
  · rw [hx] at hz
    rw [hyz, Option.some.inj hz]
    exact ⟨rfl, rfl⟩

/-- What a session may be removed for in a step. -/
def Event.Removes : Event → Removal → Prop
  | .request .., cause => cause = .teardown
  | .sweep, cause => cause = .expired
  | .close, cause | .malformed, cause => cause = .connectionClosed
  | .proceed _, cause => cause = .replaced
  | .cleanUp j, cause => cause = .cleanUp j
  | _, _ => False

/-- A session that a `TEARDOWN` takes out is logged with the request. -/
theorem log_teardown {r : ParsedRequest} {ambient : Ambient} {i : ℕ} {x x' : Session}
    (hx : s.sessions[i]? = some x)
    (hx' : (s.dispatchRequest config r ambient).sessions[i]? = some x') (hreg : x.inRegistry)
    (hgone : x'.inRegistry = false) (hsession : r.session = some x.id)
    (hmethod : r.method = .teardown) :
    .removed i .teardown ∈ (s.dispatchRequest config r ambient).log := by
  rw [dispatchRequest] at hx' ⊢
  dsimp only at hx' ⊢
  split at hx'
  · rw [sessions_respond, hx] at hx'
    rw [← Option.some.inj hx', hreg] at hgone
    cases hgone
  · next hscheme =>
    rw [if_neg hscheme]
    simp only [hmethod, handleTeardown, hsession]
    obtain ⟨y, hy, hyreg, hyid⟩ := getElem?_touchSession
      (s := ({ s with requests := s.requests + 1 } : Server)) hx r
    refine List.mem_append_left _ (mem_log_removeWhere hy (hyreg ▸ hreg) ?_ _)
    simp [hyid]

theorem log_replaced {setup : Setup} {ambient : Ambient} {subscription : Subscription} {i : ℕ}
    {x : Session} (hx : s.sessions[i]? = some x) (hreg : x.inRegistry)
    (hid : x.id = setup.sessionId)
    (hsubscribed : (s.subscribed config setup.request setup.target setup.user ambient).2 =
      .ok subscription) :
    .removed i .replaced ∈ (s.setupSubscribe config setup ambient).log := by
  obtain ⟨s', result, hresult⟩ : ∃ s' result, s.subscribed config setup.request setup.target
    setup.user ambient = (s', result) := ⟨_, _, rfl⟩
  have hx' : s'.sessions[i]? = some x := by rwa [(keeps_subscribed hresult).sessions]
  rw [hresult] at hsubscribed
  dsimp only at hsubscribed
  rw [setupSubscribe, hresult, hsubscribed]
  refine List.mem_append_left _ (List.mem_append_left _ (List.mem_append_left _ ?_))
  exact mem_log_removeWhere hx' hreg (decide_eq_true hid) _

theorem inRegistry_notifyWaiters (x : Session) : x.notifyWaiters.inRegistry = x.inRegistry := by
  rw [Session.notifyWaiters]
  split <;> rfl

/-- A session that leaves the registry leaves a trace in the log. -/
theorem log_removed {e : Event} {i : ℕ} {x x' : Session} (hx : s.sessions[i]? = some x)
    (hx' : (step config s e).sessions[i]? = some x') (hreg : x.inRegistry)
    (hgone : x'.inRegistry = false) :
    ∃ cause, .removed i cause ∈ (step config s e).log ∧ e.Removes cause := by
  have hsame : x' ≠ x := by
    rintro rfl
    simp [hreg] at hgone
  -- A session that leaves has changed, so the step was not refused.
  have hkept : (step config s e) ≠ s := by
    intro h
    rw [h, hx] at hx'
    exact hsame (Option.some.inj hx').symm
  -- Every change of a session is one of these; four of them take it out of the registry.
  obtain ⟨y, hy, hchanges⟩ := @step_session config s x i hx e
  rw [hx'] at hy
  obtain rfl := Option.some.inj hy
  cases hchanges with
  | same => exact absurd rfl hsame
  | touch => simp [hreg] at hgone
  | teardown _ hsession hmethod =>
    refine ⟨_, ?_, rfl⟩
    rw [step] at hx' hkept ⊢
    split at hkept
    · next hready =>
      rw [if_pos hready] at hx' ⊢
      exact log_teardown hx hx' hreg hgone hsession hmethod
    · exact absurd rfl hkept
  | append => simp [Session.appendTrack, hreg] at hgone
  -- A second SETUP replaces the session that the first one made.
  | replace hhandler hsubscribed _ hid =>
    refine ⟨_, ?_, rfl⟩
    rw [step] at hkept ⊢
    split at hkept
    · exact absurd rfl hkept
    · next hopen =>
      rw [if_neg hopen, proceed, hhandler]
      exact log_replaced hx hreg hid hsubscribed
  | fire => simp [hreg] at hgone
  | notify => simp [inRegistry_notifyWaiters, hreg] at hgone
  | expire _ hidle =>
    refine ⟨_, ?_, rfl⟩
    rw [step] at hkept ⊢
    split at hkept
    · next hready =>
      rw [if_pos hready]
      exact mem_log_removeWhere hx hreg (decide_eq_true hidle) _
    · exact absurd rfl hkept
  -- The connection ends by itself or after a malformed request.
  | close he =>
    have hremoves : e.Removes .connectionClosed := by
      rcases he with rfl | rfl <;> rfl
    refine ⟨_, ?_, hremoves⟩
    rcases he with rfl | rfl
    · rw [step] at hkept ⊢
      split at hkept
      · next hready =>
        rw [if_pos hready]
        exact mem_log_clear hx hreg
      · exact absurd rfl hkept
    · rw [step] at hkept ⊢
      split at hkept
      · next hready =>
        rw [if_pos hready]
        exact @mem_log_clear (s.respond s.requests ⟨.badRequest, 0, [], none⟩) i x hx hreg
      · exact absurd rfl hkept
  | act => simp [(Session.act_frame ..).2.2.2.2.1, hreg] at hgone
  -- The cleanup of the task removes its own id, which may be another session's by now.
  | cleanUp htask =>
    refine ⟨_, ?_, rfl⟩
    rw [step, cleanUp, hx]
    simp only [htask]
    exact mem_log_removeWhere hx hreg (decide_eq_true rfl) _
  | cleanUpOther hy' htask _ hid =>
    refine ⟨_, ?_, rfl⟩
    rw [step, cleanUp, hy']
    simp only [htask]
    exact mem_log_removeWhere hx hreg (decide_eq_true hid) _

/-! ## Failures of the loops -/

/-- A loop of the session has ended by itself. -/
def Failed (s : Server) (i : ℕ) : Prop := ∃ kind why, .ended i kind why ∈ s.log

theorem Failed.mono {e : Event} {i : ℕ} (h : Failed s i) : Failed (step config s e) i := by
  obtain ⟨kind, why, h⟩ := h
  exact ⟨kind, why, log_mono h⟩

theorem failed_task {i : ℕ} {x : Session} {e : TaskEvent} {kind : TrackKind} {why : LoopEnd}
    (hx : s.sessions[i]? = some x) (h : (kind, .ended why) ∈ (x.act config.rtp s.media e).2) :
    Failed (step config s (.task i e)) i := by
  refine ⟨kind, why, ?_⟩
  rw [step, taskStep, hx]
  exact List.mem_append_right _ (List.mem_map.2 ⟨_, h, rfl⟩)

end Server

namespace Session

variable {rtp : RtpTypes} {media : Media}

/-- A loop that starts does not end by that. -/
theorem startLoop_ne_ended {x : Session} {kind : TrackKind} {position : ℕ} {seq : UInt16}
    {taken : ℕ} {loop : Loop} {out : List LoopOutput}
    (h : x.startLoop rtp media kind position seq taken = some (loop, out)) : loop ≠ .ended := by
  unfold startLoop at h
  split at h
  · obtain ⟨replay, -, h⟩ := Option.bind_eq_some_iff.1 h
    cases h
    exact Loop.noConfusion
  · cases h
    exact Loop.noConfusion

/-- A loop that takes a frame ends only if the transport does not take the packets. -/
theorem recvFrame_ended {x : Session} {kind : TrackKind} {position : ℕ}
    {track : Option RuntimeTrack} {awaiting : Bool} {frame : Frame} {seq : UInt16} {taken : ℕ}
    {out : List LoopOutput} {first : Option (UInt16 × UInt32)}
    (h : x.recvFrame rtp kind position track awaiting frame seq taken =
      some (.ended, out, first)) : .ended .sendFailed ∈ out := by
  rw [recvFrame] at h
  split at h
  · cases h
  · split at h
    · cases h
    · split at h
      · cases h
      · obtain ⟨⟨packets, counters⟩, -, h⟩ := Option.bind_eq_some_iff.1 h
        cases counters with
        | some counters => cases h
        | none =>
          cases h
          exact List.mem_append_right _ (List.mem_singleton_self _)

/-- A loop of a task that has ended. -/
def HasEnded (x : Session) : Prop :=
  ∃ loops kind, x.task.loops? = some loops ∧ Loops.get loops kind = .ended

theorem loops?_setLoops {task : Task} {loops : Loops} (h : task.loops? = some loops)
    (loops' : Loops) : (task.setLoops loops').loops? = some loops' := by
  cases task <;> first | rfl | cases h

theorem get_set (loops : Loops) (loop : Loop) (kind kind' : TrackKind) :
    (loops.set loop kind).get kind' = if kind' = kind then loop else loops.get kind' := by
  cases kind <;> cases kind' <;> rfl

/-- Of the loops of a task, only the one that is changed may have ended by that. -/
theorem hasEnded_setLoops {x x' : Session} {loops : Loops} {kind : TrackKind} {loop : Loop}
    (hloops : x.task.loops? = some loops)
    (htask : x'.task = x.task.setLoops (loops.set loop kind)) (h : x'.HasEnded) :
    loop = .ended ∨ x.HasEnded := by
  obtain ⟨loops', kind', hloops', hended⟩ := h
  rw [htask, loops?_setLoops hloops, Option.some_inj] at hloops'
  rw [← hloops', get_set] at hended
  split at hended
  · exact .inl hended
  · exact .inr ⟨loops, kind', hloops, hended⟩

theorem hasEnded_notifyWaiters {x : Session} (h : x.notifyWaiters.HasEnded) : x.HasEnded := by
  rw [notifyWaiters] at h
  split at h
  · obtain ⟨loops, kind, hloops, -⟩ := h
    cases hloops
  · obtain ⟨loops, kind, hloops, -⟩ := h
    cases hloops
  · exact h

theorem cancelled_notifyWaiters (x : Session) : x.notifyWaiters.cancelled = x.cancelled := by
  rw [notifyWaiters]
  split <;> rfl

/-- A step of a task does not end a loop, or cancel the session, without a failure. -/
theorem act_ended {x : Session} {e : TaskEvent}
    (h : (x.act rtp media e).1.cancelled ∨ (x.act rtp media e).1.HasEnded) :
    x.cancelled ∨ x.HasEnded ∨ ∃ kind why, (kind, .ended why) ∈ (x.act rtp media e).2 := by
  have hacts := acts rtp media x e
  generalize x.act rtp media e = t at hacts h ⊢
  cases hacts with
  | skip => exact h.imp_right .inl
  | register =>
    refine h.imp_right fun ⟨loops, kind, hloops, _⟩ => ?_
    cases hloops
  | park =>
    refine h.imp_right fun ⟨loops, kind, hloops, _⟩ => ?_
    cases hloops
  | pass =>
    refine h.imp_right fun ⟨loops, kind, hloops, hended⟩ => ?_
    cases hloops
    cases kind <;> cases hended
  | wake =>
    refine h.imp_right fun ⟨loops, kind, hloops, hended⟩ => ?_
    cases hloops
    cases kind <;> cases hended
  | leave _ hcancelled => exact .inl hcancelled
  | build hloops _ hstart =>
    refine h.imp_right fun h => .inl ?_
    exact (hasEnded_setLoops hloops rfl h).resolve_left (startLoop_ne_ended hstart)
  | @recv kind seq taken position loops loop track awaiting frame out first hloops _ _ _ hrecv =>
    refine h.imp_right fun h => ?_
    rcases hasEnded_setLoops hloops rfl h with rfl | h
    · exact .inr ⟨kind, _, List.mem_map.2 ⟨_, recvFrame_ended hrecv, rfl⟩⟩
    · exact .inl h
  | @fail kind cause => exact .inr (.inr ⟨kind, cause, List.mem_singleton_self _⟩)
  | stop _ hcancelled => exact .inl hcancelled
  | @select loops htask hend =>
    rcases hend with hcancelled | hvideo | haudio
    · exact .inl hcancelled
    · exact .inr (.inl ⟨loops, .video, by rw [htask]; rfl, hvideo⟩)
    · exact .inr (.inl ⟨loops, .audio, by rw [htask]; rfl, haudio⟩)
  | joined =>
    refine h.imp_right fun ⟨loops, kind, hloops, _⟩ => ?_
    cases hloops

end Session

namespace Server

variable {config : ServerConfig} {s : Server}

/-! ## The invariant -/

/-- A session was removed for a reason of its own: by a request or a sweep, with the
    connection, or by its task, after a failure of its loops. -/
def Released (s : Server) (i : ℕ) : Prop :=
  .removed i .teardown ∈ s.log ∨ .removed i .expired ∈ s.log ∨
    .removed i .connectionClosed ∈ s.log ∨ .removed i (.cleanUp i) ∈ s.log ∧ Failed s i

theorem Released.mono {e : Event} {i : ℕ} (h : Released s i) : Released (step config s e) i :=
  h.imp log_mono (.imp log_mono (.imp log_mono (.imp log_mono Failed.mono)))

/-- A `SETUP` makes a session only under an id whose earlier sessions have come to their
    ends. -/
def freshIds (config : ServerConfig) (s : Server) (e : Event) : Bool :=
  match e, s.handler with
  | .proceed ambient, .subscribe setup =>
    match (s.subscribed config setup.request setup.target setup.user ambient).2 with
    | .ok _ => s.sessions.all fun y => y.id ≠ setup.sessionId || y.task = .finished
    | .error _ => true
  | _, _ => true

/-- Whoever has the new id has finished, if new ids are fresh. -/
theorem finished_of_freshIds {e : Event} {x y : Session} (h : freshIds config s e)
    (hcreates : Creates config s e x) (hy : y ∈ s.sessions) (hid : y.id = x.id) :
    y.task = .finished := by
  cases hcreates with
  | intro hhandler hsubscribed =>
    simp only [freshIds, hhandler, hsubscribed, List.all_eq_true] at h
    have hy' := h y hy
    simpa [show y.id = _ from hid, newSession] using hy'

/-- What holds of a server: sessions in the registry go on unless something has failed, and those
    that are out of it were released. -/
structure Kept (s : Server) : Prop where
  gate : PlayGate s
  failed : ∀ {i : ℕ} {x : Session}, s.sessions[i]? = some x → x.inRegistry →
    x.cancelled ∨ x.HasEnded → Failed s i
  finished : ∀ {i : ℕ} {x : Session},
    s.sessions[i]? = some x → x.task = .finished → x.inRegistry = false
  released : ∀ {i : ℕ} {x : Session}, s.sessions[i]? = some x → x.inRegistry = false → Released s i
  unique : ∀ {i j : ℕ} {x y : Session}, i < j → s.sessions[i]? = some x →
    s.sessions[j]? = some y → x.id = y.id → x.task = .finished

theorem Changes.id_eq {e : Event} {i : ℕ} {x x' : Session} (h : Changes config s e i x x') :
    x'.id = x.id := by
  cases h with
  | notify =>
    rw [Session.notifyWaiters]
    split <;> rfl
  | act => exact (Session.act_frame ..).1
  | cleanUp => split <;> rfl
  | _ => rfl

/-- Nobody gets into the registry again. -/
theorem Changes.inRegistry {e : Event} {i : ℕ} {x x' : Session}
    (h : Changes config s e i x x') (hreg : x'.inRegistry) : x.inRegistry := by
  cases h with
  | notify => rwa [inRegistry_notifyWaiters] at hreg
  | act => rwa [(Session.act_frame ..).2.2.2.2.1] at hreg
  | cleanUp =>
    split at hreg
    · cases hreg
    · exact hreg
  | teardown => cases hreg
  | replace => cases hreg
  | expire => cases hreg
  | close => cases hreg
  | cleanUpOther => cases hreg
  | _ => exact hreg

theorem eq_finished_of_rank {task : Task} (h : Task.finished.rank ≤ task.rank) :
    task = .finished := by
  cases task <;> first | rfl | simp [Task.rank] at h

theorem Changes.finished {e : Event} {i : ℕ} {x x' : Session} (h : Changes config s e i x x')
    (hx : x.task = .finished) : x'.task = .finished :=
  eq_finished_of_rank (hx ▸ h.rank)

/-- A task comes to its end by the removal of the session. -/
theorem Changes.finished_cases {e : Event} {i : ℕ} {x x' : Session}
    (h : Changes config s e i x x') (hx' : x'.task = .finished) :
    x.task = .finished ∨ x'.inRegistry = false := by
  cases h with
  | notify =>
    rw [Session.notifyWaiters] at hx'
    split at hx'
    · cases hx'
    · cases hx'
    · exact .inl hx'
  | act =>
    rename_i e
    have hacts := Session.acts config.rtp s.media x e
    generalize x.act config.rtp s.media e = t at hacts hx' ⊢
    have hsetLoops {task : Task} {loops loops' : Loops} (hloops : task.loops? = some loops)
        (h : task.setLoops loops' = .finished) : task = .finished := by
      have hloops' := Session.loops?_setLoops hloops loops'
      rw [h] at hloops'
      cases hloops'
    cases hacts with
    | skip => exact .inl hx'
    | build hloops => exact .inl (hsetLoops hloops hx')
    | recv hloops => exact .inl (hsetLoops hloops hx')
    | fail hloops => exact .inl (hsetLoops hloops hx')
    | stop hloops => exact .inl (hsetLoops hloops hx')
    | _ => cases hx'
  | cleanUp htask =>
    refine .inr ?_
    split
    · rfl
    · next hgone => exact Bool.not_eq_true _ ▸ hgone
  | _ => exact .inl hx'

/-- While a session is in the registry, it is cancelled only after a failure of its loops. -/
theorem Kept.failed_changes {e : Event} {i : ℕ} {x x' : Session} (h : Kept s)
    (hx : s.sessions[i]? = some x) (hchanges : Changes config s e i x x')
    (hreg : x'.inRegistry) (hended : x'.cancelled ∨ x'.HasEnded) :
    Failed (step config s e) i := by
  have hold := h.failed hx (hchanges.inRegistry hreg)
  cases hchanges with
  | same => exact (hold hended).mono
  | touch => exact (hold hended).mono
  | append => exact (hold hended).mono
  | fire => exact (hold hended).mono
  | notify =>
    refine (hold (hended.imp (fun h => ?_) Session.hasEnded_notifyWaiters)).mono
    rwa [Session.cancelled_notifyWaiters] at h
  | act =>
    rcases Session.act_ended hended with hcancelled | hended | ⟨kind, why, hmem⟩
    · exact (hold (.inl hcancelled)).mono
    · exact (hold (.inr hended)).mono
    · exact failed_task hx hmem
  | cleanUp htask =>
    split at hreg
    · cases hreg
    · next hgone => exact absurd hreg hgone
  | teardown => cases hreg
  | replace => cases hreg
  | expire => cases hreg
  | close => cases hreg
  | cleanUpOther => cases hreg

/-- A task that cleans up has the only session of its id that is in the registry. -/
theorem Kept.cleanUp_other {i j : ℕ} {x y : Session} (h : Kept s) (hx : s.sessions[i]? = some x)
    (hy : s.sessions[j]? = some y) (htask : y.task = .cleaning) (hreg : x.inRegistry)
    (hid : x.id = y.id) : i = j := by
  rcases lt_trichotomy i j with hlt | heq | hlt
  · have hfinished := h.unique hlt hx hy hid
    simp [h.finished hx hfinished] at hreg
  · exact heq
  · have hfinished := h.unique hlt hy hx hid.symm
    rw [htask] at hfinished
    cases hfinished

/-- With fresh ids, a session is removed for a reason of its own. -/
theorem Kept.released_changes {e : Event} {i : ℕ} {x x' : Session} (h : Kept s)
    (hfresh : freshIds config s e) (hx : s.sessions[i]? = some x)
    (hx' : (step config s e).sessions[i]? = some x') (hchanges : Changes config s e i x x')
    (hgone : x'.inRegistry = false) : Released (step config s e) i := by
  by_cases hreg : x.inRegistry
  · obtain ⟨cause, hlog, hremoves⟩ := log_removed hx hx' hreg hgone
    cases hchanges with
    | same => simp [hreg] at hgone
    | touch => simp [hreg] at hgone
    | teardown =>
      obtain rfl := hremoves
      exact .inl hlog
    | append => simp [Session.appendTrack, hreg] at hgone
    | replace hhandler hsubscribed _ hid =>
      have hfinished := finished_of_freshIds hfresh (.intro hhandler hsubscribed)
        (List.mem_of_getElem? hx) hid
      simp [h.finished hx hfinished] at hreg
    | fire => simp [hreg] at hgone
    | notify => simp [inRegistry_notifyWaiters, hreg] at hgone
    | expire =>
      obtain rfl := hremoves
      exact .inr (.inl hlog)
    | close he =>
      have hcause : cause = .connectionClosed := by
        rcases he with rfl | rfl <;> exact hremoves
      exact .inr (.inr (.inl (hcause ▸ hlog)))
    | act => simp [(Session.act_frame ..).2.2.2.2.1, hreg] at hgone
    | cleanUp htask =>
      obtain rfl := hremoves
      have hcancelled : x.cancelled := (h.gate.gated hx).ending (by rw [htask]; rfl)
      exact .inr (.inr (.inr ⟨hlog, (h.failed hx hreg (.inl hcancelled)).mono⟩))
    | cleanUpOther hy htask _ hid hne =>
      exact absurd (h.cleanUp_other hx hy htask hreg hid) hne
  · exact (h.released hx (Bool.not_eq_true _ ▸ hreg)).mono

theorem kept_step (h : Kept s) {e : Event} (hfresh : freshIds config s e) :
    Kept (step config s e) where
  gate := playGate_step h.gate e
  failed {i x'} hx' hreg hended := by
    rcases step_sessions hx' with ⟨x, hx, hchanges⟩ | ⟨-, hcreates⟩
    · exact h.failed_changes hx hchanges hreg hended
    · cases hcreates with
      | intro hhandler hsubscribed =>
        rcases hended with hcancelled | ⟨loops, kind, hloops, -⟩
        · cases hcancelled
        · cases hloops
  finished {i x'} hx' htask := by
    rcases step_sessions hx' with ⟨x, hx, hchanges⟩ | ⟨-, hcreates⟩
    · by_contra hreg
      rw [Bool.not_eq_false] at hreg
      have hreg₀ := hchanges.inRegistry hreg
      have hcleaned := hchanges.finished_cases htask
      rcases hcleaned with hfinished | hgone
      · simp [h.finished hx hfinished] at hreg₀
      · simp [hgone] at hreg
    · cases hcreates with
      | intro hhandler hsubscribed => cases htask
  released {i x'} hx' hgone := by
    rcases step_sessions hx' with ⟨x, hx, hchanges⟩ | ⟨-, hcreates⟩
    · exact h.released_changes hfresh hx hx' hchanges hgone
    · cases hcreates with
      | intro hhandler hsubscribed => cases hgone
  unique {i j x' y'} hlt hx' hy' hid := by
    rcases step_sessions hy' with ⟨y, hy, hychanges⟩ | ⟨rfl, hcreates⟩
    · rcases step_sessions hx' with ⟨x, hx, hxchanges⟩ | ⟨rfl, -⟩
      · rw [hxchanges.id_eq, hychanges.id_eq] at hid
        exact hxchanges.finished (h.unique hlt hx hy hid)
      · exact absurd (List.getElem?_eq_some_iff.1 hy).1 (by omega)
    · rcases step_sessions hx' with ⟨x, hx, hxchanges⟩ | ⟨rfl, -⟩
      · rw [hxchanges.id_eq] at hid
        exact hxchanges.finished
          (finished_of_freshIds hfresh hcreates (List.mem_of_getElem? hx) hid)
      · exact absurd hlt (lt_irrefl _)

/-- The ids of new sessions are fresh in all steps of a run. -/
def AllFresh (config : ServerConfig) (nonce : Nonce) (events : List Event) : Prop :=
  Past.Always (fun before e => freshIds config (run config nonce before) e) events

theorem kept_run {config : ServerConfig} {nonce : Nonce} {events : List Event}
    (h : AllFresh config nonce events) : Kept (run config nonce events) := by
  induction events using List.reverseRecOn with
  | nil =>
    exact ⟨playGate_run config nonce [], fun hx => by simp [run] at hx,
      fun hx => by simp [run] at hx, fun hx => by simp [run] at hx,
      fun _ hx => by simp [run] at hx⟩
  | append_singleton events e ih =>
    obtain ⟨hfresh, he⟩ := Past.always_concat.1 h
    exact run_concat config nonce events e ▸ kept_step (ih hfresh) he

/-- The tasks clean up after themselves only, and so a session is in the registry up to its
    own `TEARDOWN` or expiry, the close of the connection, or a failure of its loops. -/
structure OwnCleanUp (config : ServerConfig) (nonce : Nonce) (events : List Event) : Prop where
  others : ∀ before j after, events = before ++ .cleanUp j :: after → ∀ i, i ≠ j →
    (step config (run config nonce before) (.cleanUp j)).sessions[i]? =
      (run config nonce before).sessions[i]?
  released : ∀ i x, (run config nonce events).sessions[i]? = some x → x.inRegistry = false →
    Released (run config nonce events) i

theorem length_cleanUp (i : ℕ) : (s.cleanUp i).sessions.length = s.sessions.length := by
  rw [cleanUp]
  split
  · split
    · exact (List.length_modify _ _ _).trans (length_remove _ _)
    · rfl
  · rfl

/-- The end of a task leaves all other sessions as they are. -/
theorem Kept.cleanUp_others (h : Kept s) {i j : ℕ} (hne : i ≠ j) :
    (step config s (.cleanUp j)).sessions[i]? = s.sessions[i]? := by
  cases hx : s.sessions[i]? with
  | none =>
    rw [List.getElem?_eq_none_iff] at hx ⊢
    exact (length_cleanUp j).trans_le hx
  | some x =>
    obtain ⟨x', hx', hchanges⟩ := @step_session config s x i hx (.cleanUp j)
    rw [hx']
    cases hchanges with
    | same => rfl
    | close he => simp at he
    | cleanUp => exact absurd rfl hne
    | cleanUpOther hy htask hreg hid => exact absurd (h.cleanUp_other hx hy htask hreg hid) hne

/-- In such a run each task takes out its own session only. -/
theorem ownCleanUp_of_fresh {config : ServerConfig} {nonce : Nonce} {events : List Event}
    (h : AllFresh config nonce events) : OwnCleanUp config nonce events where
  others := by
    rintro before j after rfl i hne
    exact (kept_run (Past.always_append.1 h).1).cleanUp_others hne
  released _ _ := (kept_run h).released

/-- A client tears its session down and sets it up again under the same id, before the task
    of the first has come to its end. -/
def reusedId : List Event :=
  [.sourceStarted (utf8 "porch") .main,
    .request (porchSetup (utf8 "7") 0) {}, .proceed { outcome := .ok 0 },
    .task 0 .register, .task 0 .check,
    .request (porchRequest .teardown (utf8 "7")) {},
    .request (porchSetup (utf8 "7") 0) {}, .proceed { outcome := .ok 0 },
    .task 0 .cancelled, .cleanUp 0]

/-- The end of the first task removes the second session. -/
theorem not_ownCleanUp : ¬OwnCleanUp (porchServer []) ⟨[], 0⟩ reusedId := by
  intro h
  have hothers := h.others (reusedId.take 9) 0 [] rfl 1 (by decide)
  have hkept := congrArg (Option.map fun x => x.inRegistry) hothers
  exact absurd hkept (by decide +kernel)

/-- The task of the first session is at its end when the id is used again. -/
theorem ownCleanUp_of_fresh_reused : OwnCleanUp (porchServer []) ⟨[], 0⟩
    (reusedId.take 6 ++ [.task 0 .cancelled, .cleanUp 0] ++ (reusedId.drop 6).take 2) :=
  ownCleanUp_of_fresh (Past.always_iff_getElem.2 (by decide +kernel))

end Server

end Bairelay
