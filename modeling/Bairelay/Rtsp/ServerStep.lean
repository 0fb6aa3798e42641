import Bairelay.Rtsp.Server

/-!
# The steps of a connection

What a step of a connection can do, for all that follows about its runs.

* `step_sessions`, `step_session`: what can become of a session, and that only a `SETUP`
  without one makes a session;
* `step_log`: what can be added to the log.
-/

namespace Bairelay

namespace Server

/-! ## What a step can do to a session -/

variable {config : ServerConfig} {s : Server}

/-- What a step can do to session `i`. -/
inductive Changes (config : ServerConfig) (s : Server) : Event → ℕ → Session → Session → Prop
  | same {e : Event} {i : ℕ} {x : Session} : Changes config s e i x x
  | touch {r : ParsedRequest} {ambient : Ambient} {i : ℕ} {x : Session} (hx : x.inRegistry) :
      Changes config s (.request r ambient) i x { x with lastActivity := s.now }
  | teardown {r : ParsedRequest} {ambient : Ambient} {i : ℕ} {x : Session} {now : Instant}
      (hx : x.inRegistry) (hsession : r.session = some x.id) (hmethod : r.method = .teardown) :
      Changes config s (.request r ambient) i x { x with lastActivity := now }.remove
  | append {setup : Setup} {ambient : Ambient} {i : ℕ} {x : Session} {clockRate : UInt32}
      (hopen : s.closed = false) (hhandler : s.handler = .append setup) (hx : x.inRegistry)
      (hid : x.id = setup.sessionId) :
      Changes config s (.proceed ambient) i x
        (x.appendTrack ⟨setup.kind, setup.transport, setup.ssrc, clockRate⟩)
  | replace {setup : Setup} {ambient : Ambient} {i : ℕ} {x : Session}
      {subscription : Subscription} (hhandler : s.handler = .subscribe setup)
      (hsubscribed : (s.subscribed config setup.request setup.target setup.user ambient).2 =
        .ok subscription) (hx : x.inRegistry) (hid : x.id = setup.sessionId) :
      Changes config s (.proceed ambient) i x x.remove
  | fire {play : Play} {ambient : Ambient} {i : ℕ} {x : Session} (hopen : s.closed = false)
      (hhandler : s.handler = .play play) (hlookup : s.lookup play.sessionId = some i) :
      Changes config s (.proceed ambient) i x { x with playFired := true }
  | notify {play : Play} {ambient : Ambient} {i : ℕ} {x : Session} (hopen : s.closed = false)
      (hhandler : s.handler = .notify play i) :
      Changes config s (.proceed ambient) i x x.notifyWaiters
  | expire {i : ℕ} {x : Session} (hx : x.inRegistry)
      (hidle : maxIdle < s.now - x.lastActivity) : Changes config s .sweep i x x.remove
  | close {e : Event} {i : ℕ} {x : Session} (he : e = .close ∨ e = .malformed)
      (hx : x.inRegistry) : Changes config s e i x x.remove
  | act {e : TaskEvent} {i : ℕ} {x : Session} :
      Changes config s (.task i e) i x (x.act config.rtp s.media e).1
  | cleanUp {i : ℕ} {x : Session} (htask : x.task = .cleaning) :
      Changes config s (.cleanUp i) i x
        { (if x.inRegistry then x.remove else x) with task := .finished }
  | cleanUpOther {i j : ℕ} {x y : Session} (hy : s.sessions[j]? = some y)
      (htask : y.task = .cleaning) (hx : x.inRegistry) (hid : x.id = y.id) (hne : i ≠ j) :
      Changes config s (.cleanUp j) i x x.remove

/-- The session that a step makes. -/
inductive Creates (config : ServerConfig) (s : Server) : Event → Session → Prop
  | intro {setup : Setup} {ambient : Ambient} {subscription : Subscription}
      (hhandler : s.handler = .subscribe setup)
      (hsubscribed : (s.subscribed config setup.request setup.target setup.user ambient).2 =
        .ok subscription) : Creates config s (.proceed ambient) (s.newSession setup subscription)

/-- An answer is logged, and changes no session. -/
@[simp] theorem sessions_respond (request : ℕ) (response : Response) :
    (s.respond request response).sessions = s.sessions := rfl

@[simp] theorem sessions_emit (out : List Output) : (s.emit out).sessions = s.sessions := rfl

@[simp] theorem sessions_answerSetup (setup : Setup) (session : Option ℕ) :
    (s.answerSetup setup session).sessions = s.sessions := rfl

/-! ### The handlers, case by case -/

/-- Who a request is from, with the entry of the log. -/
inductive Identifies (config : ServerConfig) (s : Server) : Server → Option Bytes → Prop
  | anonymous (husers : config.realm.users = []) : Identifies config s s none
  | user {name : Bytes} {nonce : Nonce} (husers : config.realm.users ≠ [])
      (hname : ∃ cred ∈ config.realm.users, cred.name = name) :
      Identifies config s { s with nonce, log := s.log ++ [.authenticated s.requests name] }
        (some name)

/-- A request is made by somebody who is identified, or is challenged or refused. -/
theorem authenticated_cases (config : ServerConfig) (s : Server) (r : ParsedRequest)
    (ambient : Ambient) (method : Bytes) :
    (∃ s' user, s.authenticated config r ambient method = (s', .ok user) ∧
        Identifies config s s' user) ∨
      ∃ nonce response, s.authenticated config r ambient method =
        ({ s with nonce }, .error response) ∧ response.body = none := by
  rw [authenticated]
  split
  · next husers => exact .inl ⟨_, _, rfl, .anonymous husers⟩
  · next husers =>
    split
    · next user nonce hauth =>
      obtain ⟨cred, hcred, hname, -⟩ := authenticate_user hauth
      exact .inl ⟨_, _, rfl, .user husers ⟨cred, hcred, hname⟩⟩
    · exact .inr ⟨_, _, rfl, rfl⟩
    · exact .inr ⟨_, _, rfl, rfl⟩

/-- What comes of a `DESCRIBE`. -/
inductive Describes (config : ServerConfig) (s : Server) : Server → Prop
  | refused {nonce : Nonce} {response : Response} (hbody : response.body = none) :
      Describes config s ({ s with nonce }.respond s.requests response)
  | failed {s' s'' : Server} {user : Option Bytes} {target : ResolvedPath} {ambient : Ambient}
      {e : StreamError} {response : Response} (hid : Identifies config s s' user)
      (hsubscribed : s'.subscribed config s.requests target user ambient = (s'', .error e))
      (hbody : response.body = none) :
      Describes config s (s''.respond s.requests response)
  | described {s' s'' : Server} {user : Option Bytes} {target : ResolvedPath} {ambient : Ambient}
      {subscription : Subscription} {response : Response} (hid : Identifies config s s' user)
      (hsubscribed : s'.subscribed config s.requests target user ambient =
        (s'', .ok subscription)) (hbody : response.body = some subscription.sdpParams) :
      Describes config s ((s''.emit
        [.disclosed s.requests subscription.source subscription.sdpParams]).respond s.requests
          response)

theorem handleDescribe_cases (config : ServerConfig) (s : Server) (r : ParsedRequest)
    (ambient : Ambient) : Describes config s (s.handleDescribe config r ambient) := by
  rw [handleDescribe]
  split
  · exact .refused rfl
  · next target _ =>
    rcases authenticated_cases config s r ambient (utf8 "DESCRIBE") with
      ⟨s', user, hauth, hid⟩ | ⟨nonce, response, hauth, hbody⟩
    · have hrequests : s'.requests = s.requests := by cases hid <;> rfl
      rw [hauth]
      dsimp only
      rw [hrequests]
      split
      · next s'' e hsubscribed =>
        have hrequests' : s''.requests = s'.requests := congrArg (·.1.requests) hsubscribed.symm
        rw [hrequests', hrequests]
        exact .failed hid hsubscribed rfl
      · next s'' subscription hsubscribed =>
        have hrequests' : s''.requests = s'.requests := congrArg (·.1.requests) hsubscribed.symm
        rw [hrequests', hrequests]
        exact .described hid hsubscribed rfl
    · rw [hauth]
      exact .refused hbody

/-- What comes of a `SETUP`, up to where it looks for its session. -/
inductive SetsUp (config : ServerConfig) (s : Server) : Server → Prop
  | refused {nonce : Nonce} {response : Response} (hbody : response.body = none) :
      SetsUp config s ({ s with nonce }.respond s.requests response)
  | failed {s' : Server} {user : Option Bytes} {response : Response}
      (hid : Identifies config s s' user) (hbody : response.body = none) :
      SetsUp config s (s'.respond s.requests response)
  | append {s' : Server} {setup : Setup} (hid : Identifies config s s' setup.user)
      (hrequest : setup.request = s.requests) (hcontains : s.contains setup.sessionId) :
      SetsUp config s { s' with handler := .append setup }
  | subscribe {s' : Server} {setup : Setup} (hid : Identifies config s s' setup.user)
      (hrequest : setup.request = s.requests) (hcontains : ¬s.contains setup.sessionId) :
      SetsUp config s { s' with handler := .subscribe setup }

/-- What a `SETUP` can come to, before it subscribes. -/
theorem handleSetup_cases (config : ServerConfig) (s : Server) (r : ParsedRequest)
    (ambient : Ambient) : SetsUp config s (s.handleSetup config r ambient) := by
  rw [handleSetup]
  split
  · exact .refused rfl
  · next target kind _ =>
    rcases authenticated_cases config s r ambient (utf8 "SETUP") with
      ⟨s', user, hauth, hid⟩ | ⟨nonce, response, hauth, hbody⟩
    · have hrequests : s'.requests = s.requests := by cases hid <;> rfl
      have hcontains : ∀ id, s'.contains id = s.contains id := by
        intro id
        cases hid <;> rfl
      have hfailed (response : Response) (hbody : response.body = none) :
          SetsUp config s (s'.respond s'.requests response) := hrequests ▸ .failed hid hbody
      rw [hauth]
      dsimp only
      split
      · exact hfailed _ rfl
      · exact hfailed _ rfl
      · split
        · exact hfailed _ rfl
        · split
          · next h => exact .append hid hrequests (hcontains _ ▸ h)
          · next h => exact .subscribe hid hrequests (hcontains _ ▸ h)
    · rw [hauth]
      exact .refused hbody

/-- Only a `SETUP` or a `PLAY` leaves something to do for the handler. -/
theorem handler_dispatchRequest (config : ServerConfig) (s : Server) (r : ParsedRequest)
    (ambient : Ambient) : (s.dispatchRequest config r ambient).handler = .idle ∨
      (∃ play, (s.dispatchRequest config r ambient).handler = .play play) ∨
        s.dispatchRequest config r ambient =
          ({ s with requests := s.requests + 1 }.touchSession r).handleSetup config r ambient := by
  rw [dispatchRequest]
  dsimp only
  split
  · exact .inl rfl
  · generalize ({ s with requests := s.requests + 1 } : Server).touchSession r = t
    cases r.method <;> dsimp only
    case options => exact .inl rfl
    case getParameter => exact .inl rfl
    case pause => exact .inl rfl
    case describe =>
      refine .inl ?_
      have hcases := handleDescribe_cases config t r ambient
      generalize t.handleDescribe config r ambient = t' at hcases ⊢
      cases hcases <;> rfl
    case setup => exact .inr (.inr rfl)
    case play =>
      rw [handlePlay]
      split
      · exact .inl rfl
      · split
        · exact .inr (.inl ⟨_, rfl⟩)
        · exact .inl rfl
    case teardown =>
      refine .inl ?_
      rw [handleTeardown]
      split <;> rfl

/-- What comes of a `SETUP` without a session. -/
theorem setupSubscribe_cases (config : ServerConfig) (s : Server) (setup : Setup)
    (ambient : Ambient) : ∃ locks : List Bytes,
      (∃ status, s.setupSubscribe config setup ambient =
        (s.emit (locks.map (.wakeLock setup.request))).respond setup.request
          ⟨status, setup.cseq, [], none⟩) ∨
      ∃ subscription, s.subscribed config setup.request setup.target setup.user ambient =
          (s.emit (locks.map (.wakeLock setup.request)), .ok subscription) ∧
        s.setupSubscribe config setup ambient =
          ((s.emit (locks.map (.wakeLock setup.request))).insert
            (s.newSession setup subscription)).answerSetup setup (some s.sessions.length) := by
  obtain ⟨locks, subscription, hsubscribed⟩ : ∃ (locks : List Bytes)
      (subscription : Except StreamError Subscription),
      s.subscribed config setup.request setup.target setup.user ambient =
        (s.emit (locks.map (.wakeLock setup.request)), subscription) := ⟨_, _, rfl⟩
  refine ⟨locks, ?_⟩
  rw [setupSubscribe, hsubscribed]
  cases subscription with
  | error e => exact .inl ⟨setupStatus e, rfl⟩
  | ok subscription => exact .inr ⟨subscription, rfl, rfl⟩

/-! ### The sessions -/

/-- A session that is taken out is marked, and the others are as they were. -/
theorem getElem?_removeWhere {p : Session → Bool} {cause : Removal} {i : ℕ} {x' : Session}
    (h : (s.removeWhere p cause).sessions[i]? = some x') :
    ∃ x, s.sessions[i]? = some x ∧ (x' = x ∨ x.inRegistry ∧ p x ∧ x' = x.remove) := by
  rw [removeWhere, List.getElem?_map, Option.map_eq_some_iff] at h
  obtain ⟨x, hx, rfl⟩ := h
  refine ⟨x, hx, ?_⟩
  split
  · next hp => exact .inr ⟨hp.1, hp.2, rfl⟩
  · exact .inl rfl

theorem getElem?_clear {i : ℕ} {x' : Session} (h : s.clear.sessions[i]? = some x') :
    ∃ x, s.sessions[i]? = some x ∧ (x' = x ∨ x.inRegistry ∧ true ∧ x' = x.remove) :=
  getElem?_removeWhere h

/-- What happens to the session of an id happens to no other. -/
theorem getElem?_onEntry {id : Bytes} {f : Session → Session} {i : ℕ} {x' : Session}
    (h : (s.onEntry id f).sessions[i]? = some x') :
    ∃ x, s.sessions[i]? = some x ∧ (x' = x ∨ x.inRegistry ∧ x.id = id ∧ x' = f x) := by
  rw [onEntry, List.getElem?_map, Option.map_eq_some_iff] at h
  obtain ⟨x, hx, rfl⟩ := h
  refine ⟨x, hx, ?_⟩
  split
  · next hp => exact .inr ⟨hp.1, hp.2, rfl⟩
  · exact .inl rfl

theorem length_remove (id : Bytes) (cause : Removal) :
    (s.remove id cause).sessions.length = s.sessions.length := List.length_map _

/-- A new session comes last, in place of one with its id. -/
theorem getElem?_insert {x x' : Session} {i : ℕ} (h : (s.insert x).sessions[i]? = some x') :
    (i = s.sessions.length ∧ x' = x) ∨
      ∃ y, s.sessions[i]? = some y ∧ (x' = y ∨ y.inRegistry ∧ y.id = x.id ∧ x' = y.remove) := by
  rw [insert] at h
  dsimp only at h
  rw [List.getElem?_append] at h
  split at h
  · obtain ⟨y, hy, hx' | ⟨hreg, hid, hx'⟩⟩ := getElem?_removeWhere h
    · exact .inr ⟨y, hy, .inl hx'⟩
    · exact .inr ⟨y, hy, .inr ⟨hreg, of_decide_eq_true hid, hx'⟩⟩
  · next hle =>
    rw [length_remove] at h hle
    rw [List.getElem?_singleton] at h
    split at h
    · exact .inl ⟨by omega, (Option.some.inj h).symm⟩
    · cases h

/-- What happens to one place happens to no other. -/
theorem getElem?_modify {f : Session → Session} {i j : ℕ} {x' : Session}
    (h : (s.sessions.modify j f)[i]? = some x') :
    ∃ x, s.sessions[i]? = some x ∧ (x' = x ∧ i ≠ j ∨ i = j ∧ x' = f x) := by
  rw [List.getElem?_modify, Option.map_eq_map, Option.map_eq_some_iff] at h
  obtain ⟨x, hx, rfl⟩ := h
  refine ⟨x, hx, ?_⟩
  split
  · next hj => exact .inr ⟨hj.symm, rfl⟩
  · next hj => exact .inl ⟨rfl, Ne.symm hj⟩

theorem touchSession_cases {r : ParsedRequest} {i : ℕ} {x' : Session}
    (h : (s.touchSession r).sessions[i]? = some x') :
    ∃ x, s.sessions[i]? = some x ∧
      (x' = x ∨ x.inRegistry ∧ r.session = some x.id ∧ x' = { x with lastActivity := s.now }) := by
  rw [touchSession] at h
  split at h
  · next sid hsid =>
    obtain ⟨x, hx, hx' | ⟨hreg, hid, hx'⟩⟩ := getElem?_onEntry h
    · exact ⟨x, hx, .inl hx'⟩
    · exact ⟨x, hx, .inr ⟨hreg, by rw [hsid, hid], hx'⟩⟩
  · exact ⟨x', h, .inl rfl⟩

/-- A step of a handler that has to do with the request only. -/
structure Keeps (s s' : Server) : Prop where
  sessions : s'.sessions = s.sessions
  media : s'.media = s.media
  closed : s'.closed = s.closed

/-- What keeps sessions may be done one after the other. -/
theorem Keeps.trans {s' s'' : Server} (h : Keeps s s') (h' : Keeps s' s'') : Keeps s s'' :=
  ⟨h'.sessions.trans h.sessions, h'.media.trans h.media, h'.closed.trans h.closed⟩

theorem Keeps.respond {s' : Server} (h : Keeps s s') (request : ℕ) (response : Response) :
    Keeps s (s'.respond request response) := h.trans ⟨rfl, rfl, rfl⟩

theorem keeps_identifies {s' : Server} {user : Option Bytes}
    (h : Identifies config s s' user) : Keeps s s' := by
  cases h <;> exact ⟨rfl, rfl, rfl⟩

theorem keeps_subscribed {s' : Server} {request : ℕ} {target : ResolvedPath}
    {user : Option Bytes} {ambient : Ambient} {subscription : Except StreamError Subscription}
    (h : s.subscribed config request target user ambient = (s', subscription)) :
    Keeps s s' := by
  obtain rfl := congrArg Prod.fst h
  exact ⟨rfl, rfl, rfl⟩

theorem keeps_handleDescribe (r : ParsedRequest) (ambient : Ambient) :
    Keeps s (s.handleDescribe config r ambient) := by
  have h := handleDescribe_cases config s r ambient
  generalize s.handleDescribe config r ambient = t at h ⊢
  cases h with
  | refused => exact ⟨rfl, rfl, rfl⟩
  | failed hid hsubscribed =>
    exact ((keeps_identifies hid).trans (keeps_subscribed hsubscribed)).respond _ _
  | described hid hsubscribed =>
    exact ((keeps_identifies hid).trans (keeps_subscribed hsubscribed)).trans ⟨rfl, rfl, rfl⟩

theorem keeps_handleSetup (r : ParsedRequest) (ambient : Ambient) :
    Keeps s (s.handleSetup config r ambient) := by
  have h := handleSetup_cases config s r ambient
  generalize s.handleSetup config r ambient = t at h ⊢
  cases h with
  | refused => exact ⟨rfl, rfl, rfl⟩
  | failed hid => exact (keeps_identifies hid).respond _ _
  | append hid => exact (keeps_identifies hid).trans ⟨rfl, rfl, rfl⟩
  | subscribe hid => exact (keeps_identifies hid).trans ⟨rfl, rfl, rfl⟩

theorem keeps_handlePlay (r : ParsedRequest) : Keeps s (s.handlePlay r) := by
  rw [handlePlay]
  split
  · exact ⟨rfl, rfl, rfl⟩
  · split <;> exact ⟨rfl, rfl, rfl⟩

/-- A request changes sessions as `Changes` says. -/
theorem changes_dispatchRequest {r : ParsedRequest} {ambient : Ambient} {i : ℕ} {x' : Session}
    (h : (s.dispatchRequest config r ambient).sessions[i]? = some x') :
    ∃ x, s.sessions[i]? = some x ∧ Changes config s (.request r ambient) i x x' := by
  -- Everything but `TEARDOWN` touches sessions only.
  have htouched
      (h : (({ s with requests := s.requests + 1 } : Server).touchSession r).sessions[i]? =
        some x') : ∃ x, s.sessions[i]? = some x ∧ Changes config s (.request r ambient) i x x' := by
    obtain ⟨x, hx, rfl | ⟨hreg, -, rfl⟩⟩ := touchSession_cases h
    · exact ⟨x', hx, .same⟩
    · exact ⟨x, hx, .touch hreg⟩
  rw [dispatchRequest] at h
  dsimp only at h
  split at h
  · exact ⟨x', h, .same⟩
  · cases hmethod : r.method <;> rw [hmethod] at h <;> dsimp only at h
    case options => exact htouched h
    case getParameter => exact htouched h
    case pause => exact htouched h
    case describe => exact htouched ((keeps_handleDescribe r ambient).sessions ▸ h)
    case setup => exact htouched ((keeps_handleSetup r ambient).sessions ▸ h)
    case play => exact htouched ((keeps_handlePlay r).sessions ▸ h)
    case teardown =>
      rw [handleTeardown] at h
      split at h
      · exact htouched h
      · next sid hsid =>
        rw [sessions_respond] at h
        obtain ⟨y, hy, rfl | ⟨hreg, hid, rfl⟩⟩ := getElem?_removeWhere h
        · exact htouched hy
        · obtain ⟨x, hx, rfl | ⟨hreg', hsession, rfl⟩⟩ := touchSession_cases hy
          · exact ⟨y, hx, .teardown hreg (by rw [hsid, of_decide_eq_true hid]) hmethod⟩
          · exact ⟨x, hx, .teardown hreg' hsession hmethod⟩

/-- A handler that goes on changes sessions so, or creates one. -/
theorem changes_proceed {ambient : Ambient} {i : ℕ} {x' : Session} (hopen : s.closed = false)
    (h : (s.proceed config ambient).sessions[i]? = some x') :
    (∃ x, s.sessions[i]? = some x ∧ Changes config s (.proceed ambient) i x x') ∨
      i = s.sessions.length ∧ Creates config s (.proceed ambient) x' := by
  rw [proceed] at h
  cases hhandler : s.handler with
  | idle =>
    rw [hhandler] at h
    exact .inl ⟨x', h, .same⟩
  | append setup =>
    rw [hhandler] at h
    dsimp only at h
    rw [setupAppend, sessions_answerSetup] at h
    obtain ⟨x, hx, rfl | ⟨hreg, hid, rfl⟩⟩ := getElem?_onEntry h
    · exact .inl ⟨x', hx, .same⟩
    · exact .inl ⟨x, hx, .append hopen hhandler hreg hid⟩
  | subscribe setup =>
    rw [hhandler] at h
    dsimp only at h
    obtain ⟨locks, ⟨status, hsetup⟩ | ⟨subscription, hsubscribed, hsetup⟩⟩ :=
      setupSubscribe_cases config s setup ambient
    · rw [hsetup] at h
      exact .inl ⟨x', h, .same⟩
    · rw [hsetup, sessions_answerSetup] at h
      rcases getElem?_insert h with ⟨hlen, hx'⟩ | ⟨x, hx, rfl | ⟨hreg, hid, rfl⟩⟩
      · exact .inr ⟨hlen, hx' ▸ .intro hhandler (congrArg Prod.snd hsubscribed)⟩
      · exact .inl ⟨x', hx, .same⟩
      · exact .inl ⟨x, hx, .replace hhandler (congrArg Prod.snd hsubscribed) hreg hid⟩
  | play play =>
    rw [hhandler] at h
    dsimp only at h
    rw [markPlaying] at h
    split at h
    · exact .inl ⟨x', h, .same⟩
    · next j hlookup =>
      obtain ⟨x, hx, ⟨rfl, -⟩ | ⟨rfl, rfl⟩⟩ := getElem?_modify h
      · exact .inl ⟨x', hx, .same⟩
      · exact .inl ⟨x, hx, .fire hopen hhandler hlookup⟩
  | notify play j =>
    rw [hhandler] at h
    obtain ⟨x, hx, ⟨rfl, -⟩ | ⟨rfl, rfl⟩⟩ := getElem?_modify h
    · exact .inl ⟨x', hx, .same⟩
    · exact .inl ⟨x, hx, .notify hopen hhandler⟩
  | answerPlay play =>
    rw [hhandler] at h
    exact .inl ⟨x', h, .same⟩

theorem changes_cleanUp {i j : ℕ} {x' : Session}
    (h : (s.cleanUp j).sessions[i]? = some x') :
    ∃ x, s.sessions[i]? = some x ∧ Changes config s (.cleanUp j) i x x' := by
  rw [cleanUp] at h
  cases hy : s.sessions[j]? with
  | none =>
    rw [hy] at h
    exact ⟨x', h, .same⟩
  | some y =>
    rw [hy] at h
    dsimp only at h
    split at h
    · next htask =>
      obtain ⟨x₁, hx₁, ⟨rfl, hne⟩ | ⟨rfl, rfl⟩⟩ := getElem?_modify h
      · obtain ⟨x, hx, rfl | ⟨hreg, hid, rfl⟩⟩ := getElem?_removeWhere hx₁
        · exact ⟨x', hx, .same⟩
        · exact ⟨x, hx, .cleanUpOther hy htask hreg (of_decide_eq_true hid) hne⟩
      · rw [remove, removeWhere, List.getElem?_map, hy, Option.map_some, Option.some_inj] at hx₁
        refine ⟨y, hy, ?_⟩
        rw [← hx₁]
        simpa using @Changes.cleanUp config s i y htask
    · exact ⟨x', h, .same⟩

/-- What a step can do to the sessions: change them one by one, or make a new one. -/
theorem step_sessions {e : Event} {i : ℕ} {x' : Session}
    (h : (step config s e).sessions[i]? = some x') :
    (∃ x, s.sessions[i]? = some x ∧ Changes config s e i x x') ∨
      i = s.sessions.length ∧ Creates config s e x' := by
  cases e with
  -- The sources and the clock are outside the sessions.
  | sourceStarted camera kind => exact .inl ⟨x', h, .same⟩
  | announce source sdpParams => exact .inl ⟨x', h, .same⟩
  | broadcast source frame => exact .inl ⟨x', h, .same⟩
  | record camera burst => exact .inl ⟨x', h, .same⟩
  | advance d => exact .inl ⟨x', h, .same⟩
  | request r ambient =>
    rw [step] at h
    split at h
    · exact .inl (changes_dispatchRequest h)
    · exact .inl ⟨x', h, .same⟩
  -- After a malformed request the connection is closed, and all its sessions with it.
  | malformed =>
    rw [step] at h
    split at h
    · obtain ⟨x, hx, rfl | ⟨hreg, -, rfl⟩⟩ := getElem?_clear h
      · exact .inl ⟨x', hx, .same⟩
      · exact .inl ⟨x, hx, .close (.inr rfl) hreg⟩
    · exact .inl ⟨x', h, .same⟩
  -- A request that waits goes on, and may create a session.
  | proceed ambient =>
    rw [step] at h
    split at h
    · exact .inl ⟨x', h, .same⟩
    · next hopen => exact changes_proceed (Bool.not_eq_true _ ▸ hopen) h
  | sweep =>
    rw [step] at h
    split at h
    · obtain ⟨x, hx, rfl | ⟨hreg, hidle, rfl⟩⟩ := getElem?_removeWhere h
      · exact .inl ⟨x', hx, .same⟩
      · exact .inl ⟨x, hx, .expire hreg (of_decide_eq_true hidle)⟩
    · exact .inl ⟨x', h, .same⟩
  | close =>
    rw [step] at h
    split at h
    · obtain ⟨x, hx, rfl | ⟨hreg, -, rfl⟩⟩ := getElem?_clear h
      · exact .inl ⟨x', hx, .same⟩
      · exact .inl ⟨x, hx, .close (.inl rfl) hreg⟩
    · exact .inl ⟨x', h, .same⟩
  -- A task changes its own session, if it is there.
  | task j e =>
    rw [step, taskStep] at h
    cases hy : s.sessions[j]? with
    | none =>
      rw [hy] at h
      exact .inl ⟨x', h, .same⟩
    | some y =>
      rw [hy] at h
      dsimp only at h
      rw [List.getElem?_set] at h
      split at h
      · next hij =>
        subst hij
        split at h
        · obtain rfl := Option.some.inj h
          exact .inl ⟨y, hy, .act⟩
        · cases h
      · exact .inl ⟨x', h, .same⟩
  | cleanUp j => exact .inl (changes_cleanUp h)

theorem length_touchSession (r : ParsedRequest) :
    (s.touchSession r).sessions.length = s.sessions.length := by
  rw [touchSession]
  split
  · exact List.length_map _
  · rfl

theorem length_dispatchRequest (r : ParsedRequest) (ambient : Ambient) :
    (s.dispatchRequest config r ambient).sessions.length = s.sessions.length := by
  have htouched := @length_touchSession ({ s with requests := s.requests + 1 } : Server) r
  rw [dispatchRequest]
  dsimp only
  split
  · rfl
  · cases r.method <;> dsimp only
    case options => exact htouched
    case getParameter => exact htouched
    case pause => exact htouched
    case describe => rwa [(keeps_handleDescribe r ambient).sessions]
    case setup => rwa [(keeps_handleSetup r ambient).sessions]
    case play => rwa [(keeps_handlePlay r).sessions]
    case teardown =>
      rw [handleTeardown]
      split
      · exact htouched
      · rwa [sessions_respond, length_remove]

theorem length_proceed (ambient : Ambient) :
    s.sessions.length ≤ (s.proceed config ambient).sessions.length := by
  rw [proceed]
  cases s.handler with
  | idle => exact le_rfl
  | append setup => exact (List.length_map _).ge
  | subscribe setup =>
    obtain ⟨locks, ⟨status, hsetup⟩ | ⟨subscription, -, hsetup⟩⟩ :=
      setupSubscribe_cases config s setup ambient
    · dsimp only
      rw [hsetup]
      exact le_rfl
    · dsimp only
      rw [hsetup, sessions_answerSetup, insert]
      dsimp only
      rw [List.length_append, length_remove]
      exact Nat.le_add_right _ _
  | play play =>
    dsimp only
    rw [markPlaying]
    split
    · exact le_rfl
    · exact (List.length_modify _ _ _).ge
  | notify play i => exact (List.length_modify _ _ _).ge
  | answerPlay play => exact le_rfl

/-- Sessions are kept, also after their end. -/
theorem length_step (config : ServerConfig) (s : Server) (e : Event) :
    s.sessions.length ≤ (step config s e).sessions.length := by
  cases e with
  | sourceStarted camera kind => exact le_rfl
  | announce source sdpParams => exact le_rfl
  | broadcast source frame => exact le_rfl
  | record camera burst => exact le_rfl
  | advance d => exact le_rfl
  | request r ambient =>
    rw [step]
    split
    · exact (length_dispatchRequest r ambient).ge
    · exact le_rfl
  | malformed =>
    rw [step]
    split
    · exact (List.length_map _).ge
    · exact le_rfl
  | proceed ambient =>
    rw [step]
    split
    · exact le_rfl
    · exact length_proceed ambient
  | sweep =>
    rw [step]
    split
    · exact (List.length_map _).ge
    · exact le_rfl
  | close =>
    rw [step]
    split
    · exact (List.length_map _).ge
    · exact le_rfl
  | task i e =>
    rw [step, taskStep]
    split
    · exact le_rfl
    · exact List.length_set.ge
  | cleanUp i =>
    rw [step, cleanUp]
    split
    · split
      · exact ((List.length_modify _ _ _).trans (length_remove _ _)).ge
      · exact le_rfl
    · exact le_rfl

/-- What becomes of a session in a step. -/
theorem step_session {x : Session} {i : ℕ} (h : s.sessions[i]? = some x) (e : Event) :
    ∃ x', (step config s e).sessions[i]? = some x' ∧ Changes config s e i x x' := by
  have hlt : i < s.sessions.length := (List.getElem?_eq_some_iff.1 h).1
  have hlt' := hlt.trans_le (length_step config s e)
  have hx' := List.getElem?_eq_getElem hlt'
  refine ⟨_, hx', ?_⟩
  rcases step_sessions hx' with ⟨y, hy, hchanges⟩ | ⟨hi, -⟩
  · rw [h] at hy
    exact Option.some.inj hy ▸ hchanges
  · omega

/-! ### The log -/

/-- What a step can add to the log; of the answers, and of what a request is checked for,
    nothing is said here. -/
inductive Logs (config : ServerConfig) (s : Server) : Event → Output → Prop
  | response {e : Event} {request : ℕ} {response : Response} :
      Logs config s e (.response request response)
  | authenticated {e : Event} {request : ℕ} {user : Bytes} :
      Logs config s e (.authenticated request user)
  | wakeLock {e : Event} {request : ℕ} {camera : Bytes} :
      Logs config s e (.wakeLock request camera)
  | disclosed {e : Event} {request source : ℕ} {sdpParams : SdpParams} :
      Logs config s e (.disclosed request source sdpParams)
  | created {ambient : Ambient} {setup : Setup} (hhandler : s.handler = .subscribe setup) :
      Logs config s (.proceed ambient) (.created setup.request s.sessions.length)
  | setUpNew {ambient : Ambient} {setup : Setup} {subscription : Subscription}
      (hhandler : s.handler = .subscribe setup)
      (hsubscribed : (s.subscribed config setup.request setup.target setup.user ambient).2 =
        .ok subscription) :
      Logs config s (.proceed ambient) (.setUp setup (some s.sessions.length))
  | setUpTrack {ambient : Ambient} {setup : Setup} (hopen : s.closed = false)
      (hhandler : s.handler = .append setup) :
      Logs config s (.proceed ambient) (.setUp setup (s.lookup setup.sessionId))
  | playAccepted {ambient : Ambient} {play : Play} {i : ℕ} (hopen : s.closed = false)
      (hhandler : s.handler = .play play) (hlookup : s.lookup play.sessionId = some i) :
      Logs config s (.proceed ambient) (.playAccepted i)
  | loop {i : ℕ} {e : TaskEvent} {x : Session} {o : TrackKind × LoopOutput}
      (hx : s.sessions[i]? = some x) (ho : o ∈ (x.act config.rtp s.media e).2) :
      Logs config s (.task i e) (loopOutput i o)
  | removed {e : Event} {i : ℕ} {cause : Removal} : Logs config s e (.removed i cause)

/-- The log of `s'` goes on from that of `s`, with entries for the event. -/
def Extends (config : ServerConfig) (s : Server) (e : Event) (s' : Server) : Prop :=
  ∃ out, s'.log = s.log ++ out ∧ ∀ o ∈ out, Logs config s e o

theorem Extends.of_eq {e : Event} {s' : Server} (h : s'.log = s.log) :
    Extends config s e s' := ⟨[], by rw [h, List.append_nil], by simp⟩

theorem Extends.append {e : Event} {s' s'' : Server} {out : List Output}
    (h : Extends config s e s') (hlog : s''.log = s'.log ++ out)
    (hout : ∀ o ∈ out, Logs config s e o) : Extends config s e s'' := by
  obtain ⟨out', hlog', hout'⟩ := h
  refine ⟨out' ++ out, by rw [hlog, hlog', List.append_assoc], fun o ho => ?_⟩
  exact (List.mem_append.1 ho).elim (hout' o) (hout o)

theorem Extends.same {e : Event} {s' s'' : Server} (h : Extends config s e s')
    (hlog : s''.log = s'.log) : Extends config s e s'' :=
  h.append (hlog.trans (List.append_nil _).symm) fun _ ho => absurd ho List.not_mem_nil

theorem Extends.respond {e : Event} {s' : Server} (h : Extends config s e s') (request : ℕ)
    (response : Response) : Extends config s e (s'.respond request response) :=
  h.append rfl (List.forall_mem_singleton.2 .response)

theorem Extends.removeWhere {e : Event} {s' : Server} (h : Extends config s e s')
    (p : Session → Bool) (cause : Removal) : Extends config s e (s'.removeWhere p cause) := by
  refine h.append rfl fun o ho => ?_
  obtain ⟨⟨x, i⟩, -, rfl⟩ := List.mem_map.1 ho
  exact .removed

theorem Extends.remove {e : Event} {s' : Server} (h : Extends config s e s') (id : Bytes)
    (cause : Removal) : Extends config s e (s'.remove id cause) := h.removeWhere _ cause

theorem Extends.clear {e : Event} {s' : Server} (h : Extends config s e s') :
    Extends config s e s'.clear := h.removeWhere _ _

theorem Extends.locks {e : Event} {s' : Server} (h : Extends config s e s') (request : ℕ)
    (locks : List Bytes) : Extends config s e (s'.emit (locks.map (.wakeLock request))) := by
  refine h.append rfl fun o ho => ?_
  obtain ⟨camera, -, rfl⟩ := List.mem_map.1 ho
  exact .wakeLock

theorem Extends.subscribed {e : Event} {s' s'' : Server} {request : ℕ} {target : ResolvedPath}
    {user : Option Bytes} {ambient : Ambient} {subscription : Except StreamError Subscription}
    (h : Extends config s e s')
    (hsubscribed : s'.subscribed config request target user ambient = (s'', subscription)) :
    Extends config s e s'' := by
  obtain rfl := congrArg Prod.fst hsubscribed
  exact h.locks request _

theorem Extends.identifies {e : Event} {s₁ s' : Server} {user : Option Bytes}
    (h : Extends config s e s₁) (hid : Identifies config s₁ s' user) :
    Extends config s e s' := by
  cases hid with
  | anonymous => exact h
  | user => exact h.append rfl (List.forall_mem_singleton.2 .authenticated)

theorem Extends.handleDescribe {e : Event} {s' : Server} (h : Extends config s e s')
    (r : ParsedRequest) (ambient : Ambient) :
    Extends config s e (s'.handleDescribe config r ambient) := by
  have hcases := handleDescribe_cases config s' r ambient
  generalize s'.handleDescribe config r ambient = t at hcases ⊢
  cases hcases with
  | refused => exact .respond (h.same rfl) _ _
  | failed hid hsubscribed => exact .respond ((h.identifies hid).subscribed hsubscribed) _ _
  | described hid hsubscribed =>
    refine .respond (((h.identifies hid).subscribed hsubscribed).append rfl ?_) _ _
    exact List.forall_mem_singleton.2 .disclosed

theorem Extends.handleSetup {e : Event} {s' : Server} (h : Extends config s e s')
    (r : ParsedRequest) (ambient : Ambient) :
    Extends config s e (s'.handleSetup config r ambient) := by
  have hcases := handleSetup_cases config s' r ambient
  generalize s'.handleSetup config r ambient = t at hcases ⊢
  cases hcases with
  | refused => exact .respond (h.same rfl) _ _
  | failed hid => exact .respond (h.identifies hid) _ _
  | append hid => exact (h.identifies hid).same rfl
  | subscribe hid => exact (h.identifies hid).same rfl

theorem extends_dispatchRequest (r : ParsedRequest) (ambient : Ambient) (e : Event) :
    Extends config s e (s.dispatchRequest config r ambient) := by
  have hcounted : Extends config s e ({ s with requests := s.requests + 1 } : Server) :=
    .of_eq rfl
  have htouched : Extends config s e
      (({ s with requests := s.requests + 1 } : Server).touchSession r) := by
    rw [touchSession]
    split
    · exact .of_eq rfl
    · exact hcounted
  rw [dispatchRequest]
  dsimp only
  split
  · exact hcounted.respond _ _
  · cases r.method <;> dsimp only
    case options => exact htouched.respond _ _
    case getParameter => exact htouched.respond _ _
    case pause => exact htouched.respond _ _
    case describe => exact htouched.handleDescribe r ambient
    case setup => exact htouched.handleSetup r ambient
    case play =>
      rw [handlePlay]
      split
      · exact htouched.respond _ _
      · split
        · exact htouched.same rfl
        · exact htouched.respond _ _
    case teardown =>
      rw [handleTeardown]
      split
      · exact htouched.respond _ _
      · exact (htouched.remove _ _).respond _ _

theorem extends_proceed (hopen : s.closed = false) (ambient : Ambient) :
    Extends config s (.proceed ambient) (s.proceed config ambient) := by
  have hself : Extends config s (.proceed ambient) s := .of_eq rfl
  rw [proceed]
  cases hhandler : s.handler with
  | idle => exact hself
  | append setup =>
    refine .respond (hself.append rfl ?_) _ _
    exact List.forall_mem_singleton.2 (.setUpTrack hopen hhandler)
  | subscribe setup =>
    obtain ⟨locks, ⟨status, hsetup⟩ | ⟨subscription, hsubscribed, hsetup⟩⟩ :=
      setupSubscribe_cases config s setup ambient
    · dsimp only
      rw [hsetup]
      exact (hself.locks _ _).respond _ _
    · have hinsert : Extends config s (.proceed ambient)
          ((s.emit (locks.map (.wakeLock setup.request))).insert
            (s.newSession setup subscription)) := by
        refine ((hself.locks setup.request locks).remove _ _).append rfl ?_
        refine List.forall_mem_singleton.2 ?_
        rw [length_remove]
        exact .created hhandler
      dsimp only
      rw [hsetup]
      refine .respond (hinsert.append rfl (List.forall_mem_singleton.2 ?_)) _ _
      exact .setUpNew hhandler (congrArg Prod.snd hsubscribed)
  | play play =>
    dsimp only
    rw [markPlaying]
    split
    · exact .of_eq rfl
    · next i hlookup =>
      exact ⟨_, rfl, List.forall_mem_singleton.2 (.playAccepted hopen hhandler hlookup)⟩
  | notify play i => exact .of_eq rfl
  | answerPlay play => exact hself.respond _ _

/-- The log grows, by entries for the step. -/
theorem step_log (config : ServerConfig) (s : Server) (e : Event) :
    Extends config s e (step config s e) := by
  have hself : Extends config s e s := .of_eq rfl
  cases e with
  | sourceStarted camera kind => exact .of_eq rfl
  | announce source sdpParams => exact .of_eq rfl
  | broadcast source frame => exact .of_eq rfl
  | record camera burst => exact .of_eq rfl
  | advance d => exact .of_eq rfl
  | request r ambient =>
    rw [step]
    split
    · exact extends_dispatchRequest r ambient _
    · exact hself
  | malformed =>
    rw [step]
    split
    · exact (hself.respond _ _).clear.same rfl
    · exact hself
  | proceed ambient =>
    rw [step]
    split
    · exact hself
    · next hopen => exact extends_proceed (Bool.not_eq_true _ ▸ hopen) ambient
  | sweep =>
    rw [step]
    split
    · exact hself.removeWhere _ _
    · exact hself
  | close =>
    rw [step]
    split
    · exact hself.clear.same rfl
    · exact hself
  | task i e =>
    rw [step, taskStep]
    cases hx : s.sessions[i]? with
    | none => exact hself
    | some x =>
      refine ⟨_, rfl, fun o ho => ?_⟩
      obtain ⟨o', ho', rfl⟩ := List.mem_map.1 ho
      exact .loop hx ho'
  | cleanUp i =>
    rw [step, cleanUp]
    split
    · split
      · exact (hself.remove _ _).same rfl
      · exact hself
    · exact hself

/-- Touching a session has nothing to do with media. -/
theorem frame_touchSession (r : ParsedRequest) :
    (s.touchSession r).media = s.media ∧ (s.touchSession r).closed = s.closed := by
  rw [touchSession]
  split <;> exact ⟨rfl, rfl⟩

/-- Requests leave the sources alone, and do not close the connection by themselves. -/
theorem frame_dispatchRequest (r : ParsedRequest) (ambient : Ambient) :
    (s.dispatchRequest config r ambient).media = s.media ∧
      (s.dispatchRequest config r ambient).closed = s.closed := by
  have htouched := @frame_touchSession ({ s with requests := s.requests + 1 } : Server) r
  rw [dispatchRequest]
  dsimp only
  split
  · exact ⟨rfl, rfl⟩
  · cases r.method <;> dsimp only
    case options => exact htouched
    case getParameter => exact htouched
    case pause => exact htouched
    case describe =>
      rwa [(keeps_handleDescribe r ambient).media, (keeps_handleDescribe r ambient).closed]
    case setup =>
      rwa [(keeps_handleSetup r ambient).media, (keeps_handleSetup r ambient).closed]
    case play => rwa [(keeps_handlePlay r).media, (keeps_handlePlay r).closed]
    case teardown =>
      rw [handleTeardown]
      split <;> exact htouched

theorem frame_proceed (ambient : Ambient) :
    (s.proceed config ambient).media = s.media ∧
      (s.proceed config ambient).closed = s.closed := by
  rw [proceed]
  cases s.handler with
  | idle => exact ⟨rfl, rfl⟩
  | append setup => exact ⟨rfl, rfl⟩
  | subscribe setup =>
    obtain ⟨locks, ⟨status, hsetup⟩ | ⟨subscription, -, hsetup⟩⟩ :=
      setupSubscribe_cases config s setup ambient
    · dsimp only
      rw [hsetup]
      exact ⟨rfl, rfl⟩
    · dsimp only
      rw [hsetup]
      exact ⟨rfl, rfl⟩
  | play play =>
    dsimp only
    rw [markPlaying]
    split <;> exact ⟨rfl, rfl⟩
  | notify play i => exact ⟨rfl, rfl⟩
  | answerPlay play => exact ⟨rfl, rfl⟩

/-- What becomes of the handler: it is left alone or done, unless it starts or proceeds. -/
theorem handler_cases (config : ServerConfig) (s : Server) (e : Event) :
    ((step config s e).handler = s.handler ∨ (step config s e).handler = .idle) ∨
      (∃ r ambient, e = .request r ambient ∧ step config s e = s.dispatchRequest config r ambient) ∨
      ∃ ambient, e = .proceed ambient ∧ s.closed = false ∧
        step config s e = s.proceed config ambient := by
  cases e with
  | sourceStarted camera kind => exact .inl (.inl rfl)
  | announce source sdpParams => exact .inl (.inl rfl)
  | broadcast source frame => exact .inl (.inl rfl)
  | record camera burst => exact .inl (.inl rfl)
  | advance d => exact .inl (.inl rfl)
  | request r ambient =>
    by_cases hready : s.ready
    · exact .inr (.inl ⟨r, ambient, rfl, if_pos hready⟩)
    · exact .inl (.inl (congrArg Server.handler (if_neg hready)))
  | malformed =>
    rw [step]
    split
    · exact .inl (.inr rfl)
    · exact .inl (.inl rfl)
  | proceed ambient =>
    by_cases hclosed : s.closed
    · exact .inl (.inl (congrArg Server.handler (if_pos hclosed)))
    · exact .inr (.inr ⟨ambient, rfl, Bool.not_eq_true _ ▸ hclosed, if_neg hclosed⟩)
  | sweep =>
    rw [step]
    split <;> exact .inl (.inl rfl)
  | close =>
    rw [step]
    split <;> exact .inl (.inl rfl)
  | task i e =>
    rw [step, taskStep]
    split <;> exact .inl (.inl rfl)
  | cleanUp i =>
    rw [step, cleanUp]
    split
    · split <;> exact .inl (.inl rfl)
    · exact .inl (.inl rfl)

/-- A handler that is at work is not disturbed. -/
theorem handler_step (hbusy : s.handler ≠ .idle) {e : Event}
    (he : ∀ ambient, e ≠ .proceed ambient) :
    (step config s e).handler = s.handler ∧ (step config s e).closed = s.closed := by
  have hready : s.ready = false := by simp [ready, hbusy]
  cases e with
  | sourceStarted camera kind => exact ⟨rfl, rfl⟩
  | announce source sdpParams => exact ⟨rfl, rfl⟩
  | broadcast source frame => exact ⟨rfl, rfl⟩
  | record camera burst => exact ⟨rfl, rfl⟩
  | advance d => exact ⟨rfl, rfl⟩
  | request r ambient => simp [step, hready]
  | malformed => simp [step, hready]
  | proceed ambient => exact absurd rfl (he ambient)
  | sweep => simp [step, hready]
  | close => simp [step, hready]
  | task i e =>
    rw [step, taskStep]
    split <;> exact ⟨rfl, rfl⟩
  | cleanUp i =>
    rw [step, cleanUp]
    split
    · split <;> exact ⟨rfl, rfl⟩
    · exact ⟨rfl, rfl⟩

/-- The connection is open as long as a handler is at work. -/
theorem open_step (h : s.handler ≠ .idle → s.closed = false) (e : Event)
    (hbusy : (step config s e).handler ≠ .idle) : (step config s e).closed = false := by
  by_cases hidle : s.handler = .idle
  · cases e with
    | request r ambient =>
      rw [step] at hbusy ⊢
      split
      · next hready =>
        rw [(frame_dispatchRequest r ambient).2]
        simp only [ready, Bool.and_eq_true, Bool.not_eq_true'] at hready
        exact hready.1
      · next hready =>
        rw [if_neg hready] at hbusy
        exact absurd hidle hbusy
    | malformed =>
      rw [step] at hbusy
      split at hbusy
      · exact absurd rfl hbusy
      · exact absurd hidle hbusy
    | proceed ambient =>
      rw [step, proceed, hidle] at hbusy
      exact absurd hidle (by simpa using hbusy)
    | sweep =>
      rw [step] at hbusy
      split at hbusy <;> exact absurd hidle hbusy
    | close =>
      rw [step] at hbusy
      split at hbusy <;> exact absurd hidle hbusy
    | task i e =>
      rw [step, taskStep] at hbusy
      split at hbusy <;> exact absurd hidle hbusy
    | cleanUp i =>
      rw [step, cleanUp] at hbusy
      split at hbusy
      · split at hbusy <;> exact absurd hidle hbusy
      · exact absurd hidle hbusy
    | sourceStarted camera kind => exact absurd hidle hbusy
    | announce source sdpParams => exact absurd hidle hbusy
    | broadcast source frame => exact absurd hidle hbusy
    | record camera burst => exact absurd hidle hbusy
    | advance d => exact absurd hidle hbusy
  · by_cases he : ∃ ambient, e = .proceed ambient
    · obtain ⟨ambient, rfl⟩ := he
      rw [step, if_neg (by simp [h hidle]), (frame_proceed ambient).2]
      exact h hidle
    · rw [(handler_step hidle fun ambient h => he ⟨ambient, h⟩).2]
      exact h hidle

theorem run_concat (config : ServerConfig) (nonce : Nonce) (events : List Event) (e : Event) :
    run config nonce (events ++ [e]) = step config (run config nonce events) e :=
  List.foldl_concat ..

/-- What holds at first, and is kept by each step, holds throughout. -/
theorem run_induction {P : Server → Prop} {nonce : Nonce} (hnew : P { nonce })
    (hstep : ∀ s e, P s → P (step config s e)) (events : List Event) :
    P (run config nonce events) := by
  induction events using List.reverseRecOn with
  | nil => exact hnew
  | append_singleton events e ih => exact run_concat config nonce events e ▸ hstep _ e ih

end Server

end Bairelay
