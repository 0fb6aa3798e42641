import Bairelay.Lib.Past
import Bairelay.Rtsp.SessionOutput

/-!
# Access control

Only `DESCRIBE` and `SETUP` authenticate, and only the provider knows whom a camera admits.
Where there are users, all that a connection gives out is still traced back to a request that
was authenticated as one of them, whom the camera admits (`Allowed`): a session carries the
number of the request that made it, and what it sends is of the camera that request had
subscribed to.

* `granted_step`: each step keeps this;
* `granted_run`: it holds throughout.
-/

namespace Bairelay

namespace Server

/-- A request is from a user whom a camera admits. -/
def Admitted (config : ServerConfig) (log : List Output) (request : ℕ) (camera : Bytes) : Prop :=
  ∃ user, .authenticated request user ∈ log ∧ config.Admits camera (some user)

/-- What may follow on a log, where the sessions and the sources are those of `t`. -/
def Allowed (config : ServerConfig) (t : Server) (before : List Output) : Output → Prop
  | .response _ response => ∀ sdpParams, response.body = some sdpParams →
    ∃ request source, .disclosed request source sdpParams ∈ before
  | .authenticated _ user => ∃ cred ∈ config.realm.users, cred.name = user
  | .wakeLock request camera => Admitted config before request camera
  | .created request i => ∃ x, t.sessions[i]? = some x ∧ x.request = request ∧
    Admitted config before request x.subscription.camera
  | .disclosed request i _ => ∃ source, t.media.sources[i]? = some source ∧
    Admitted config before request source.camera
  | .media i _ _ packet => ∃ x source, t.sessions[i]? = some x ∧
    Admitted config before x.request x.subscription.camera ∧
    t.media.sources[x.subscription.source]? = some source ∧
    source.camera = x.subscription.camera ∧
    PacketOf config.rtp t.media x.subscription.camera x.subscription.source packet
  | .setUp .. | .playAccepted _ | .ended .. | .removed .. => True

/-- What is known of a connection: the log, the sessions, and the `SETUP` that is handled. -/
structure Granted (config : ServerConfig) (s : Server) : Prop where
  log : Past.Always (Allowed config s) s.log
  session : ∀ {i : ℕ} {x : Session}, s.sessions[i]? = some x →
    Admitted config s.log x.request x.subscription.camera ∧
      ∃ source, s.media.sources[x.subscription.source]? = some source ∧
        source.camera = x.subscription.camera
  handler : ∀ {setup : Setup}, s.handler = .subscribe setup →
    ∃ user, setup.user = some user ∧ .authenticated setup.request user ∈ s.log

variable {config : ServerConfig} {s t : Server}

theorem Admitted.mono {log log' : List Output} {request : ℕ} {camera : Bytes}
    (hlog : ∀ o ∈ log, o ∈ log') (h : Admitted config log request camera) :
    Admitted config log' request camera := by
  obtain ⟨user, hmem, hadmits⟩ := h
  exact ⟨user, hlog _ hmem, hadmits⟩

/-! ## Additions to the log -/

/-- The log of `s` is as it may be, for the sessions and the sources of `t`. -/
def Good (config : ServerConfig) (t s : Server) : Prop := Past.Always (Allowed config t) s.log

theorem Good.same {s' : Server} (h : Good config t s) (hlog : s'.log = s.log) :
    Good config t s' := by
  rwa [Good, hlog]

theorem Good.concat {s' : Server} {o : Output} (h : Good config t s)
    (hlog : s'.log = s.log ++ [o]) (ho : Allowed config t s.log o) : Good config t s' := by
  rw [Good, hlog]
  exact Past.always_concat.2 ⟨h, ho⟩

theorem Good.append {s' : Server} {out : List Output} (h : Good config t s)
    (hlog : s'.log = s.log ++ out)
    (hout : ∀ before, ∀ o ∈ out, Allowed config t (s.log ++ before) o) : Good config t s' := by
  rw [Good, hlog]
  refine Past.always_append.2 ⟨h, fun before o after hsplit => hout before o ?_⟩
  rw [hsplit]
  exact List.mem_append_right _ List.mem_cons_self

/-- An answer without a description tells nobody anything. -/
theorem Good.respond (h : Good config t s) (request : ℕ) {response : Response}
    (hbody : response.body = none) : Good config t (s.respond request response) :=
  h.concat rfl fun sdpParams hsome => by simp [hbody] at hsome

/-- Taking sessions out of the registry tells nobody anything. -/
theorem Good.removeWhere (h : Good config t s) (p : Session → Bool) (cause : Removal) :
    Good config t (s.removeWhere p cause) := by
  refine h.append rfl fun before o ho => ?_
  obtain ⟨⟨x, i⟩, -, rfl⟩ := List.mem_map.1 ho
  trivial

theorem Good.answerSetup (h : Good config t s) (setup : Setup) (session : Option ℕ) :
    Good config t (s.answerSetup setup session) := by
  have hemitted : Good config t (s.emit [.setUp setup session]) := h.concat rfl trivial
  exact hemitted.respond _ rfl

theorem Good.identifies {s' : Server} {user : Option Bytes} (h : Good config t s)
    (hid : Identifies config s s' user) : Good config t s' := by
  cases hid with
  | anonymous => exact h
  | user husers hname => exact h.concat rfl hname

/-- Where there are users, a request that gets on is from one of them. -/
theorem identifies_user {s' : Server} {user : Option Bytes} (husers : config.realm.users ≠ [])
    (hid : Identifies config s s' user) :
    ∃ name, user = some name ∧ .authenticated s.requests name ∈ s'.log := by
  cases hid with
  | anonymous hnone => exact absurd hnone husers
  | user => exact ⟨_, rfl, List.mem_append_right _ (List.mem_singleton_self _)⟩

/-- A subscription is logged for a user who was authenticated and may see the camera. -/
theorem Good.subscribed {s' : Server} {request : ℕ} {target : ResolvedPath} {name : Bytes}
    {ambient : Ambient} {result : Except StreamError Subscription} (h : Good config t s)
    (hmem : .authenticated request name ∈ s.log)
    (hsubscribed : s.subscribed config request target (some name) ambient = (s', result)) :
    Good config t s' := by
  obtain ⟨locks, rfl, hlocks, -⟩ := subscribed_spec hsubscribed
  refine h.append rfl fun before o ho => ?_
  obtain ⟨lock, hlock, rfl⟩ := List.mem_map.1 ho
  obtain ⟨rfl, hadmits⟩ := hlocks lock hlock
  exact ⟨name, List.mem_append_left _ hmem, hadmits⟩

/-- What was logged before a subscription is still logged. -/
theorem mem_subscribed {s' : Server} {request : ℕ} {target : ResolvedPath}
    {user : Option Bytes} {ambient : Ambient} {result : Except StreamError Subscription}
    {o : Output} (hsubscribed : s.subscribed config request target user ambient = (s', result))
    (ho : o ∈ s.log) : o ∈ s'.log := by
  obtain ⟨locks, rfl, -⟩ := subscribed_spec hsubscribed
  exact List.mem_append_left _ ho

/-- A description goes to a user who may see the camera. -/
theorem Good.handleDescribe (husers : config.realm.users ≠ []) (hgrows : s.media.Grows t.media)
    (h : Good config t s) (r : ParsedRequest) (ambient : Ambient) :
    Good config t (s.handleDescribe config r ambient) := by
  have hcases := handleDescribe_cases config s r ambient
  generalize s.handleDescribe config r ambient = u at hcases ⊢
  cases hcases with
  | @refused nonce response hbody => exact @Good.respond config { s with nonce } t h _ _ hbody
  | failed hid hsubscribed hbody =>
    obtain ⟨name, rfl, hmem⟩ := identifies_user husers hid
    exact ((h.identifies hid).subscribed hmem hsubscribed).respond _ hbody
  | @described s' s'' user target _ subscription response hid hsubscribed hbody =>
    obtain ⟨name, rfl, hmem⟩ := identifies_user husers hid
    obtain ⟨locks, -, -, hresult⟩ := subscribed_spec hsubscribed
    obtain ⟨hadmits, kind, source, hto, -⟩ := hresult _ rfl
    obtain ⟨source', hsource', hcamera, -⟩ :=
      hgrows.sources ((keeps_identifies hid).media ▸ hto.found)
    have hdisclosed : Good config t (s''.emit
        [.disclosed s.requests subscription.source subscription.sdpParams]) := by
      refine ((h.identifies hid).subscribed hmem hsubscribed).concat rfl ⟨source', hsource', ?_⟩
      rw [hcamera, hto.camera]
      exact ⟨name, mem_subscribed hsubscribed hmem, hadmits⟩
    refine hdisclosed.concat rfl fun sdpParams hsome => ⟨s.requests, subscription.source, ?_⟩
    rw [hbody] at hsome
    rw [← Option.some.inj hsome]
    exact List.mem_append_right _ (List.mem_singleton_self _)

/-- A `SETUP` goes on only for a user who was authenticated. -/
theorem Good.handleSetup (h : Good config t s) (r : ParsedRequest) (ambient : Ambient) :
    Good config t (s.handleSetup config r ambient) := by
  have hcases := handleSetup_cases config s r ambient
  generalize s.handleSetup config r ambient = u at hcases ⊢
  cases hcases with
  | @refused nonce response hbody => exact @Good.respond config { s with nonce } t h _ _ hbody
  | failed hid hbody => exact (h.identifies hid).respond _ hbody
  | append hid =>
    have hgood := h.identifies hid
    exact hgood
  | subscribe hid =>
    have hgood := h.identifies hid
    exact hgood

/-- A request is dealt with, and everything it logs is allowed. -/
theorem good_dispatchRequest (husers : config.realm.users ≠ []) (hgrows : s.media.Grows t.media)
    (h : Good config t s) (r : ParsedRequest) (ambient : Ambient) :
    Good config t (s.dispatchRequest config r ambient) := by
  have htouched : Good config t
      (({ s with requests := s.requests + 1 } : Server).touchSession r) := by
    rw [touchSession]
    split <;> exact h
  have hgrows' : (({ s with requests := s.requests + 1 } : Server).touchSession r).media.Grows
      t.media := by
    rw [(frame_touchSession r).1]
    exact hgrows
  rw [dispatchRequest]
  dsimp only
  split
  · exact @Good.respond config { s with requests := s.requests + 1 } t h _ _ rfl
  · cases r.method <;> dsimp only
    case options => exact htouched.respond _ rfl
    case getParameter => exact htouched.respond _ rfl
    case pause => exact htouched.respond _ rfl
    case describe => exact htouched.handleDescribe husers hgrows' r ambient
    case setup => exact htouched.handleSetup r ambient
    case play =>
      rw [handlePlay]
      split
      · exact htouched.respond _ rfl
      · split
        · exact htouched
        · exact htouched.respond _ rfl
    case teardown =>
      rw [handleTeardown]
      split
      · exact htouched.respond _ rfl
      · refine Good.respond (htouched.removeWhere _ _) _ ?_
        split <;> rfl

/-- The log after a `SETUP` that makes a session. -/
theorem good_setupSubscribe {setup : Setup} {name : Bytes} (ambient : Ambient)
    (huser : setup.user = some name) (hmem : .authenticated setup.request name ∈ s.log)
    (h : Good config (s.setupSubscribe config setup ambient) s) :
    Good config (s.setupSubscribe config setup ambient)
      (s.setupSubscribe config setup ambient) := by
  obtain ⟨s', result, hsubscribed⟩ : ∃ s' result, s.subscribed config setup.request setup.target
    setup.user ambient = (s', result) := ⟨_, _, rfl⟩
  have hsubscribed' := hsubscribed
  rw [huser] at hsubscribed'
  have hgood := h.subscribed hmem hsubscribed'
  cases result with
  | error e =>
    rw [setupSubscribe, hsubscribed] at hgood ⊢
    exact hgood.respond _ rfl
  | ok subscription =>
    obtain ⟨-, -, -, hresult⟩ := subscribed_spec hsubscribed'
    obtain ⟨hadmits, kind, source, hto, -⟩ := hresult _ rfl
    rw [setupSubscribe, hsubscribed] at hgood ⊢
    have hcreated : Good config ((s'.insert (s'.newSession setup subscription)).answerSetup setup
        (some s'.sessions.length)) (s'.insert (s'.newSession setup subscription)) := by
      refine (hgood.removeWhere _ _).concat rfl
        ⟨s'.newSession setup subscription, ?_, rfl, name, ?_, ?_⟩
      · exact List.getElem?_concat_length
      · exact List.mem_append_left _ (mem_subscribed hsubscribed hmem)
      · exact hto.subscribed ▸ hadmits
    exact hcreated.answerSetup setup _

/-- A handler goes on, and everything it logs is allowed. -/
theorem good_proceed (ambient : Ambient) (hgranted : Granted config s)
    (h : Good config (s.proceed config ambient) s) :
    Good config (s.proceed config ambient) (s.proceed config ambient) := by
  rw [proceed] at h ⊢
  cases hhandler : s.handler with
  | idle =>
    rw [hhandler] at h
    exact h
  | append setup =>
    rw [hhandler] at h
    have happended (track : TrackEntry) :
        Good config (s.setupAppend setup) (s.appendTrack setup.sessionId track) := h
    exact (happended _).answerSetup setup _
  | subscribe setup =>
    rw [hhandler] at h
    obtain ⟨name, huser, hmem⟩ := hgranted.handler hhandler
    exact good_setupSubscribe ambient huser hmem h
  | play play =>
    rw [hhandler] at h
    dsimp only at h ⊢
    rw [markPlaying] at h ⊢
    split
    · next hlookup =>
      rw [hlookup] at h
      exact h
    · next i hlookup =>
      rw [hlookup] at h
      exact h.concat rfl trivial
  | notify play i =>
    rw [hhandler] at h
    exact h
  | answerPlay play =>
    rw [hhandler] at h
    exact h.respond _ rfl

/-! ## The handler -/

/-- A subscription is asked for in the name of somebody who was authenticated for this request. -/
theorem subscribe_dispatchRequest (husers : config.realm.users ≠ []) {r : ParsedRequest}
    {ambient : Ambient} {setup : Setup}
    (h : (s.dispatchRequest config r ambient).handler = .subscribe setup) :
    ∃ user, setup.user = some user ∧
      .authenticated setup.request user ∈ (s.dispatchRequest config r ambient).log := by
  rcases handler_dispatchRequest config s r ambient with hidle | ⟨play, hplay⟩ | hsetup
  · rw [hidle] at h
    cases h
  · rw [hplay] at h
    cases h
  · rw [hsetup] at h ⊢
    have hcases := handleSetup_cases config
      (({ s with requests := s.requests + 1 } : Server).touchSession r) r ambient
    generalize handleSetup _ config r ambient = t at hcases h ⊢
    cases hcases with
    | refused => cases h
    | failed => cases h
    | append => cases h
    | subscribe hid hrequest =>
      cases h
      obtain ⟨name, huser, hmem⟩ := identifies_user husers hid
      exact ⟨name, huser, hrequest ▸ hmem⟩

theorem subscribe_proceed {ambient : Ambient} {setup : Setup} :
    (s.proceed config ambient).handler ≠ .subscribe setup := by
  intro h
  rw [proceed] at h
  cases hhandler : s.handler with
  | idle => simp [hhandler] at h
  | append setup' => simp [hhandler, setupAppend, answerSetup, respond] at h
  | subscribe setup' =>
    rw [hhandler] at h
    dsimp only at h
    obtain ⟨locks, ⟨status, hsetup⟩ | ⟨subscription, -, hsetup⟩⟩ :=
      setupSubscribe_cases config s setup' ambient
    · rw [hsetup] at h
      cases h
    · rw [hsetup] at h
      cases h
  | play play =>
    rw [hhandler] at h
    dsimp only at h
    rw [markPlaying] at h
    split at h <;> cases h
  | notify play i => simp [hhandler, notifyPlaying] at h
  | answerPlay play => simp [hhandler, answerPlay, respond] at h

/-- A `SETUP` without a session is from an authenticated user. -/
theorem Granted.handler_step (husers : config.realm.users ≠ []) (h : Granted config s) (e : Event)
    {setup : Setup} (hhandler : (step config s e).handler = .subscribe setup) :
    ∃ user, setup.user = some user ∧
      .authenticated setup.request user ∈ (step config s e).log := by
  have hkept (hold : s.handler = .subscribe setup) : ∃ user, setup.user = some user ∧
      .authenticated setup.request user ∈ (step config s e).log := by
    obtain ⟨user, huser, hmem⟩ := h.handler hold
    obtain ⟨out, hlog, -⟩ := step_log config s e
    exact ⟨user, huser, hlog ▸ List.mem_append_left _ hmem⟩
  rcases handler_cases config s e with
    (hsame | hidle) | ⟨r, ambient, rfl, hstep⟩ | ⟨ambient, rfl, -, hstep⟩
  · exact hkept (hsame ▸ hhandler)
  · rw [hidle] at hhandler
    cases hhandler
  · rw [hstep] at hhandler ⊢
    exact subscribe_dispatchRequest husers hhandler
  · rw [hstep] at hhandler
    exact absurd hhandler subscribe_proceed

/-! ## Runs -/

/-- What was allowed stays so. -/
theorem Allowed.step {before : List Output} {o : Output} (h : Allowed config s before o)
    (e : Event) : Allowed config (step config s e) before o := by
  have hgrows := grows_step config s e
  cases o with
  | response => exact h
  | authenticated => exact h
  | wakeLock => exact h
  | created request i =>
    obtain ⟨x, hx, rfl, hadmitted⟩ := h
    obtain ⟨x', hx', hchanges⟩ := @step_session config s x i hx e
    obtain ⟨hrequest, hsubscription⟩ := hchanges.subscription_eq
    exact ⟨x', hx', hrequest, hsubscription ▸ hadmitted⟩
  | disclosed request i =>
    obtain ⟨source, hsource, hadmitted⟩ := h
    obtain ⟨source', hsource', hcamera, -⟩ := hgrows.sources hsource
    exact ⟨source', hsource', hcamera ▸ hadmitted⟩
  | media i kind transport packet =>
    obtain ⟨x, source, hx, hadmitted, hsource, hcamera, hpacket⟩ := h
    obtain ⟨x', hx', hchanges⟩ := @step_session config s x i hx e
    obtain ⟨hrequest, hsubscription⟩ := hchanges.subscription_eq
    obtain ⟨source', hsource', hcamera', -⟩ := hgrows.sources hsource
    rw [Allowed]
    refine ⟨x', source', hx', ?_, ?_, ?_, ?_⟩
    · rwa [hrequest, hsubscription]
    · rwa [hsubscription]
    · rw [hcamera', hcamera, hsubscription]
    · rw [hsubscription]
      exact hpacket.mono hgrows
  | setUp => trivial
  | playAccepted => trivial
  | ended => trivial
  | removed => trivial

/-- What the loops of a session give out is of its camera. -/
theorem good_task {i : ℕ} {x : Session} {e : TaskEvent} (hgranted : Granted config s)
    (hx : s.sessions[i]? = some x) (h : Good config (step config s (.task i e)) s) :
    Good config (step config s (.task i e)) (step config s (.task i e)) := by
  have hlog : (step config s (.task i e)).log =
      s.log ++ (x.act config.rtp s.media e).2.map (loopOutput i) := by
    rw [step, taskStep, hx]
  refine h.append hlog fun before o ho => ?_
  obtain ⟨⟨kind, o⟩, hmem, rfl⟩ := List.mem_map.1 ho
  cases o with
  | ended cause => trivial
  | packet transport packet =>
    obtain ⟨-, -, -, -, hpacket⟩ := Session.act_packet hmem
    obtain ⟨hadmitted, source, hsource, hcamera⟩ := hgranted.session hx
    have hadmitted' := hadmitted.mono fun o ho => List.mem_append_left before ho
    have hallowed : Allowed config s (s.log ++ before) (.media i kind transport packet) :=
      ⟨x, source, hx, hadmitted', hsource, hcamera, hpacket⟩
    exact hallowed.step _

/-- A task that cleans up removes a session, or does nothing. -/
theorem log_cleanUp (i : ℕ) : (s.cleanUp i).log = s.log ∨
    ∃ id, (s.cleanUp i).log = (s.remove id (.cleanUp i)).log := by
  rw [cleanUp]
  split
  · next x _ =>
    split
    · exact .inr ⟨x.id, rfl⟩
    · exact .inl rfl
  · exact .inl rfl

theorem Granted.log_step (husers : config.realm.users ≠ []) (h : Granted config s) (e : Event) :
    Good config (step config s e) (step config s e) := by
  have hself : Good config (step config s e) s :=
    fun before o after hsplit => (h.log before o after hsplit).step e
  have hgrows := grows_step config s e
  cases e with
  | sourceStarted camera kind => exact hself
  | announce source sdpParams => exact hself
  | broadcast source frame => exact hself
  | record camera burst => exact hself
  | advance d => exact hself
  | request r ambient =>
    by_cases hready : s.ready
    · rw [step, if_pos hready] at hself hgrows ⊢
      exact good_dispatchRequest husers hgrows hself r ambient
    · rw [step, if_neg hready] at hself ⊢
      exact hself
  | malformed =>
    by_cases hready : s.ready
    · rw [step, if_pos hready] at hself ⊢
      have hanswered := @Good.respond config s _ hself s.requests ⟨.badRequest, 0, [], none⟩ rfl
      exact (hanswered.removeWhere (fun _ => true) .connectionClosed).same rfl
    · rw [step, if_neg hready] at hself ⊢
      exact hself
  | proceed ambient =>
    by_cases hclosed : s.closed
    · rw [step, if_pos hclosed] at hself ⊢
      exact hself
    · rw [step, if_neg hclosed] at hself ⊢
      exact good_proceed ambient h hself
  | sweep =>
    by_cases hready : s.ready
    · rw [step, if_pos hready] at hself ⊢
      exact hself.removeWhere _ _
    · rw [step, if_neg hready] at hself ⊢
      exact hself
  | close =>
    by_cases hready : s.ready
    · rw [step, if_pos hready] at hself ⊢
      exact (hself.removeWhere (fun _ => true) .connectionClosed).same rfl
    · rw [step, if_neg hready] at hself ⊢
      exact hself
  | task i e =>
    cases hx : s.sessions[i]? with
    | none =>
      rw [step, taskStep, hx] at hself ⊢
      exact hself
    | some x => exact good_task h hx hself
  | cleanUp i =>
    rcases log_cleanUp (s := s) i with hlog | ⟨id, hlog⟩
    · exact hself.same hlog
    · exact (hself.removeWhere _ _).same hlog

/-- One step keeps sessions and handlers with their users. -/
theorem granted_step (husers : config.realm.users ≠ []) (h : Granted config s) (e : Event) :
    Granted config (step config s e) where
  log := h.log_step husers e
  session {i x'} hx' := by
    have hgrows := grows_step config s e
    obtain ⟨out, hlog, -⟩ := step_log config s e
    have hmono : ∀ o ∈ s.log, o ∈ (step config s e).log :=
      fun o ho => hlog ▸ List.mem_append_left _ ho
    rcases step_sessions hx' with ⟨x, hx, hchanges⟩ | ⟨-, hcreates⟩
    · obtain ⟨hrequest, hsubscription⟩ := hchanges.subscription_eq
      obtain ⟨hadmitted, source, hsource, hcamera⟩ := h.session hx
      obtain ⟨source', hsource', hcamera', -⟩ := hgrows.sources hsource
      rw [hrequest, hsubscription]
      exact ⟨hadmitted.mono hmono, source', hsource', hcamera'.trans hcamera⟩
    · cases hcreates with
      | @intro setup ambient subscription hhandler hsubscribed =>
        obtain ⟨name, huser, hmem⟩ := h.handler hhandler
        obtain ⟨hadmits, kind, source, hto, -⟩ := subscribed_ok hsubscribed
        obtain ⟨source', hsource', hcamera', -⟩ := hgrows.sources hto.found
        rw [huser, ← hto.subscribed] at hadmits
        refine ⟨⟨name, hmono _ hmem, hadmits⟩, source', hsource', ?_⟩
        exact hcamera'.trans (hto.camera.trans hto.subscribed.symm)
  handler := h.handler_step husers e

/-- In every run, all is logged for users who may have it. -/
theorem granted_run {config : ServerConfig} (husers : config.realm.users ≠ []) (nonce : Nonce)
    (events : List Event) : Granted config (run config nonce events) := by
  refine @run_induction config (Granted config) nonce ?_
    (fun _ e h => granted_step husers h e) events
  exact ⟨Past.always_nil, fun hx => by simp at hx, fun h => Handler.noConfusion h⟩

/-- Where there are users, all that is disclosed or sent is of a camera which admits a user
    as whom an earlier request was authenticated; and each request that acquires the wake lock
    of a camera or makes a session was authenticated as one whom the camera admits. -/
theorem access_control {config : ServerConfig} (husers : config.realm.users ≠ []) (nonce : Nonce)
    (events : List Event) :
    Past.Always (Allowed config (run config nonce events)) (run config nonce events).log :=
  (granted_run husers nonce events).log

/-- Bob sets a track up and plays, and the camera sends a frame. -/
def bobWatches : List Event :=
  [.sourceStarted (utf8 "porch") .main,
    .request (porchSetup (utf8 "7") 0) {}, .proceed { outcome := .ok 0 },
    .request (porchRequest .play (utf8 "7")) {}, .proceed {}, .proceed {}, .proceed {},
    .task 0 .register, .task 0 .check, .task 0 (.build .video 0 0),
    .broadcast 0 (.video .h264 [[0x65, 1]] 0 true true), .task 0 (.recv .video 0 1)]

theorem access_control_porch :
    Past.Always (Allowed (porchServer [⟨utf8 "bob", utf8 "secret"⟩])
        (run (porchServer [⟨utf8 "bob", utf8 "secret"⟩]) ⟨[], 0⟩ bobWatches))
      (run (porchServer [⟨utf8 "bob", utf8 "secret"⟩]) ⟨[], 0⟩ bobWatches).log :=
  access_control (List.cons_ne_nil _ _) ⟨[], 0⟩ bobWatches

end Server

end Bairelay
