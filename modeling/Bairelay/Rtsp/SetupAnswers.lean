import Bairelay.Lib.Past
import Bairelay.Rtsp.Cleanup
import Bairelay.Rtsp.SessionOutput

/-!
# The answers to `SETUP`

A `SETUP` is answered with the transport and the SSRC of the track it has set up. What is sent
of a kind is sent on the first track of the kind, as it was answered; it is of the source that
the first `SETUP` of the session has subscribed to.

The tracks of a session are kept in step with the answers in the log (`Answered.tracks`), and
its loops with its tracks (`Session.Steady`).

* `answered_run`: this holds throughout;
* `always_answers`: each packet is as the answers before it have it.
-/

namespace Bairelay

/-- What a `SETUP` is answered with. -/
def Setup.answer (setup : Setup) : TrackKind × Transport × UInt32 :=
  (setup.kind, setup.transport, setup.ssrc)

/-- What the answer says of a track. -/
def TrackEntry.answer (entry : TrackEntry) : TrackKind × Transport × UInt32 :=
  (entry.kind, entry.transport, entry.ssrc)

/-! ## Tracks -/

namespace Session

/-- A track for what the first `SETUP` of a kind has set up. -/
def Serves (x : Session) (kind : TrackKind) (track : RuntimeTrack) : Prop :=
  ∃ entry, x.tracks.find? (·.kind = kind) = some entry ∧ track.transport = entry.transport ∧
    track.counters.ssrc = entry.ssrc

/-- The loops send on such tracks. -/
def Steady (x : Session) : Prop := ∀ kind track, x.Uses kind track → x.Serves kind track

variable {rtp : RtpTypes} {media : Media} {x x' : Session}

/-- What a loop is started with is a track of the session. -/
theorem serves_of_build {kind : TrackKind} {seq : UInt16} {track : RuntimeTrack}
    (h : x.buildRuntimeForKind kind seq = some track) : x.Serves kind track := by
  rw [buildRuntimeForKind, Option.map_eq_some_iff] at h
  obtain ⟨entry, hentry, rfl⟩ := h
  exact ⟨entry, hentry, rfl, rfl⟩

/-- A loop whose track, if it has one, is steady. -/
def LoopServes (x : Session) (kind : TrackKind) (loop : Loop) : Prop :=
  ∀ position track awaiting, loop = .running position (some track) awaiting → x.Serves kind track

/-- A loop of a steady session serves one of its tracks. -/
theorem Steady.loopServes {loops : Loops} (h : x.Steady) (hloops : x.task.loops? = some loops)
    (kind : TrackKind) : x.LoopServes kind (loops.get kind) :=
  fun position track awaiting hloop =>
    h kind track (.inl ⟨loops, position, awaiting, hloops, hloop⟩)

/-- It is enough that the loops are. -/
theorem steady_of_loops
    (h : ∀ loops, x.task.loops? = some loops → ∀ kind, x.LoopServes kind (loops.get kind)) :
    x.Steady := by
  rintro kind track (⟨loops, position, awaiting, hloops, hloop⟩ | ⟨seq, hbuild⟩)
  · exact h loops hloops kind position track awaiting hloop
  · exact serves_of_build hbuild

theorem steady_of_no_loops (h : x.task.loops? = none) : x.Steady :=
  steady_of_loops fun loops hloops => by simp [h] at hloops

/-- A session with the same tracks and loops. -/
theorem Steady.congr (h : x.Steady) (htracks : x'.tracks = x.tracks) (htask : x'.task = x.task) :
    x'.Steady := by
  refine steady_of_loops fun loops hloops kind position track awaiting hloop => ?_
  rw [htask] at hloops
  obtain ⟨entry, hentry, hserves⟩ := h.loopServes hloops kind position track awaiting hloop
  exact ⟨entry, htracks ▸ hentry, hserves⟩

/-- A track more is not the first of its kind for a loop that has one. -/
theorem Steady.appendTrack (h : x.Steady) (entry : TrackEntry) : (x.appendTrack entry).Steady := by
  refine steady_of_loops fun loops hloops kind position track awaiting hloop => ?_
  obtain ⟨entry', hentry', hserves⟩ := h.loopServes hloops kind position track awaiting hloop
  refine ⟨entry', ?_, hserves⟩
  rw [Session.appendTrack, List.find?_append, hentry']
  rfl

/-- A loop may be replaced by one that serves. -/
theorem Steady.setLoop {loops : Loops} {kind : TrackKind} {loop : Loop} (h : x.Steady)
    (hloops : x.task.loops? = some loops) (hloop : x.LoopServes kind loop)
    (htracks : x'.tracks = x.tracks) (htask : x'.task = x.task.setLoops (loops.set loop kind)) :
    x'.Steady := by
  refine steady_of_loops fun loops' hloops' kind' position track awaiting hrunning => ?_
  have hserves : x.LoopServes kind' (loops'.get kind') := by
    rw [htask, loops?_setLoops hloops, Option.some_inj] at hloops'
    rw [← hloops', get_set]
    split
    · next hkind => exact hkind ▸ hloop
    · exact h.loopServes hloops kind'
  obtain ⟨entry, hentry, hrest⟩ := hserves position track awaiting hrunning
  exact ⟨entry, htracks ▸ hentry, hrest⟩

theorem startLoop_serves {kind : TrackKind} {position : ℕ} {seq : UInt16} {taken : ℕ}
    {loop : Loop} {out : List LoopOutput}
    (h : x.startLoop rtp media kind position seq taken = some (loop, out)) :
    x.LoopServes kind loop := by
  unfold startLoop at h
  split at h
  · next track burst hburst htrack =>
    obtain ⟨replay, hreplay, h⟩ := Option.bind_eq_some_iff.1 h
    cases h
    intro position' track' awaiting' hloop
    cases hloop
    obtain ⟨entry, hentry, htransport, hssrc⟩ := serves_of_build htrack
    exact ⟨entry, hentry, htransport, (replayBurst_builtOn hreplay).2.trans hssrc⟩
  · cases h
    intro position' track' awaiting' hloop
    obtain ⟨-, htrack, -⟩ := Loop.running.inj hloop
    exact serves_of_build htrack

/-- A loop that has taken a frame serves the track it served. -/
theorem recvFrame_serves {kind : TrackKind} {position : ℕ} {track : Option RuntimeTrack}
    {awaiting : Bool} {frame : Frame} {seq : UInt16} {taken : ℕ} {loop : Loop}
    {out : List LoopOutput} {first : Option (UInt16 × UInt32)}
    (htrack : x.LoopServes kind (.running position track awaiting))
    (h : x.recvFrame rtp kind position track awaiting frame seq taken = some (loop, out, first)) :
    x.LoopServes kind loop := by
  have hsame : x.LoopServes kind (.running (position + 1) track awaiting) := by
    intro position' track' awaiting' hloop
    cases hloop
    exact htrack _ _ _ rfl
  rw [recvFrame] at h
  split at h
  · cases h
    exact hsame
  · split at h
    · cases h
      intro position' track' awaiting' hloop
      cases hloop
    · next track' hlookup =>
      have hserves : x.Serves kind track' := by
        cases track with
        | none => exact serves_of_build hlookup
        | some track =>
          cases hlookup
          exact htrack _ _ _ rfl
      split at h
      · cases h
        intro position' track'' awaiting' hloop
        cases hloop
        exact hserves
      · obtain ⟨⟨packets, counters⟩, hone, h⟩ := Option.bind_eq_some_iff.1 h
        cases counters with
        | none =>
          cases h
          intro position' track'' awaiting' hloop
          cases hloop
        | some counters =>
          cases h
          intro position' track'' awaiting' hloop
          cases hloop
          rw [dispatchOne] at hone
          obtain ⟨built, hdispatch, hone⟩ := Option.bind_eq_some_iff.1 hone
          obtain ⟨-, hcounters⟩ := Prod.mk.inj (Option.some.inj hone)
          have hbuilt : counters = built.2 := by
            split at hcounters
            · cases hcounters
            · exact (Option.some.inj hcounters).symm
          obtain ⟨entry, hentry, htransport, hssrc⟩ := hserves
          exact ⟨entry, hentry, htransport,
            hbuilt ▸ (dispatch_builtOn hdispatch).2.trans hssrc⟩

/-- A step of its task keeps a session steady. -/
theorem Steady.act (h : x.Steady) (e : TaskEvent) : (x.act rtp media e).1.Steady := by
  have hacts := acts rtp media x e
  generalize x.act rtp media e = t at hacts ⊢
  have hended (kind : TrackKind) : x.LoopServes kind .ended := fun _ _ _ hloop => by cases hloop
  have hnew : ∀ loops, some (x.newLoops media) = some loops → ∀ kind,
      x.LoopServes kind (loops.get kind) := by
    intro loops hloops kind position track awaiting hloop
    cases hloops
    cases kind <;> cases hloop
  cases hacts with
  | skip => exact h
  | register => exact steady_of_no_loops rfl
  | park => exact steady_of_no_loops rfl
  | pass => exact steady_of_loops hnew
  | wake => exact steady_of_loops hnew
  | leave => exact steady_of_no_loops rfl
  | build hloops _ hstart => exact h.setLoop hloops (startLoop_serves hstart) rfl rfl
  | @recv kind seq taken position loops loop track awaiting frame out first hloops _ hloop _
      hrecv =>
    have hserves := h.loopServes hloops kind
    rw [hloop] at hserves
    exact h.setLoop hloops (recvFrame_serves hserves hrecv) rfl rfl
  | fail hloops => exact h.setLoop hloops (hended _) rfl rfl
  | stop hloops => exact h.setLoop hloops (hended _) rfl rfl
  | @select loops htask =>
    refine steady_of_loops fun loops' hloops' => ?_
    cases hloops'
    exact h.loopServes (by rw [htask]; rfl)
  | joined => exact steady_of_no_loops rfl

theorem Steady.notifyWaiters (h : x.Steady) : x.notifyWaiters.Steady := by
  rw [Session.notifyWaiters]
  split
  · exact steady_of_no_loops rfl
  · exact steady_of_no_loops rfl
  · exact h

end Session

namespace Server

variable {config : ServerConfig} {s : Server}

theorem Changes.steady {e : Event} {i : ℕ} {x x' : Session} (h : Changes config s e i x x')
    (hx : x.Steady) : x'.Steady := by
  cases h with
  | same => exact hx
  | touch => exact hx.congr rfl rfl
  | teardown => exact hx.congr rfl rfl
  | append => exact hx.appendTrack _
  | replace => exact hx.congr rfl rfl
  | fire => exact hx.congr rfl rfl
  | notify => exact hx.notifyWaiters
  | expire => exact hx.congr rfl rfl
  | close => exact hx.congr rfl rfl
  | act => exact hx.act _
  | cleanUp => exact Session.steady_of_no_loops rfl
  | cleanUpOther => exact hx.congr rfl rfl

/-! ## Ids in the registry -/

/-- The registry has a session for each of its ids. -/
def Unique (s : Server) : Prop :=
  ∀ (i j : ℕ) (x y : Session), s.sessions[i]? = some x → s.sessions[j]? = some y →
    x.inRegistry → y.inRegistry → x.id = y.id → i = j

/-- A session that is left in the registry was not to be taken out. -/
theorem not_of_removeWhere {p : Session → Bool} {cause : Removal} {i : ℕ} {x : Session}
    (h : (s.removeWhere p cause).sessions[i]? = some x) (hreg : x.inRegistry) : p x = false := by
  rw [removeWhere, List.getElem?_map, Option.map_eq_some_iff] at h
  obtain ⟨y, hy, rfl⟩ := h
  split at hreg
  · cases hreg
  · next hp =>
    rw [if_neg hp]
    exact Bool.not_eq_true _ ▸ fun hpy => hp ⟨hreg, hpy⟩

/-- A new session takes the place of one of its id. -/
theorem unique_insert {x : Session} (h : s.Unique) : (s.insert x).Unique := by
  intro i j y z hy hz hyreg hzreg hid
  have hold {i : ℕ} {y : Session} (hy : (s.insert x).sessions[i]? = some y) (hyreg : y.inRegistry) :
      (i = s.sessions.length ∧ y = x) ∨ (s.sessions[i]? = some y ∧ y.id ≠ x.id) := by
    rcases getElem?_insert hy with hnew | ⟨y₀, hy₀, rfl | ⟨-, -, rfl⟩⟩
    · exact .inl hnew
    · refine .inr ⟨hy₀, fun hid => ?_⟩
      have hlt := (List.getElem?_eq_some_iff.1 hy₀).1
      rw [insert] at hy
      dsimp only at hy
      rw [List.getElem?_append_left ((length_remove x.id .replaced).symm ▸ hlt)] at hy
      have hnot := not_of_removeWhere hy hyreg
      simp [hid] at hnot
    · cases hyreg
  rcases hold hy hyreg with ⟨rfl, rfl⟩ | ⟨hy, hyid⟩
  · rcases hold hz hzreg with ⟨rfl, rfl⟩ | ⟨hz, hzid⟩
    · rfl
    · exact absurd hid.symm hzid
  · rcases hold hz hzreg with ⟨rfl, rfl⟩ | ⟨hz, hzid⟩
    · exact absurd hid hyid
    · exact h _ _ _ _ hy hz hyreg hzreg hid

/-- A `SETUP` that has its subscription makes a session, and is answered. -/
theorem step_subscribe {ambient : Ambient} {setup : Setup} {subscription : Subscription}
    (hopen : ¬s.closed) (hhandler : s.handler = .subscribe setup)
    (hsubscribed : (s.subscribed config setup.request setup.target setup.user ambient).2 =
      .ok subscription) :
    ∃ locks : List Bytes, step config s (.proceed ambient) =
      ((s.emit (locks.map (.wakeLock setup.request))).insert
        (s.newSession setup subscription)).answerSetup setup (some s.sessions.length) := by
  obtain ⟨s', result, hresult⟩ : ∃ s' result, s.subscribed config setup.request setup.target
    setup.user ambient = (s', result) := ⟨_, _, rfl⟩
  rw [hresult] at hsubscribed
  dsimp only at hsubscribed
  obtain ⟨locks, rfl, -⟩ := subscribed_spec hresult
  refine ⟨locks, ?_⟩
  rw [step, if_neg hopen, proceed, hhandler]
  dsimp only
  rw [setupSubscribe, hresult, hsubscribed]
  rfl

/-- The sessions after a step that makes one. -/
theorem sessions_creates {e : Event} {x y : Session} (hcreates : Creates config s e x)
    (hy : (step config s e).sessions[s.sessions.length]? = some y) :
    (step config s e).sessions = (s.insert x).sessions := by
  obtain ⟨hhandler, hsubscribed⟩ := hcreates
  by_cases hclosed : s.closed
  · rw [step, if_pos hclosed, List.getElem?_eq_none le_rfl] at hy
    cases hy
  · obtain ⟨locks, hstep⟩ := step_subscribe hclosed hhandler hsubscribed
    rw [hstep]
    rfl

/-- One step leaves at most one registered session of an id. -/
theorem unique_step (h : s.Unique) (e : Event) : (step config s e).Unique := by
  intro i j x' y' hx' hy' hxreg hyreg hid
  have hinsert {z z' : Session} (hcreates : Creates config s e z)
      (hz' : (step config s e).sessions[s.sessions.length]? = some z') : i = j := by
    have hsessions := sessions_creates hcreates hz'
    rw [hsessions] at hx' hy'
    exact unique_insert h _ _ _ _ hx' hy' hxreg hyreg hid
  rcases step_sessions hx' with ⟨x, hx, hxchanges⟩ | ⟨rfl, hcreates⟩
  · rcases step_sessions hy' with ⟨y, hy, hychanges⟩ | ⟨rfl, hcreates⟩
    · rw [hxchanges.id_eq, hychanges.id_eq] at hid
      exact h _ _ _ _ hx hy (hxchanges.inRegistry hxreg) (hychanges.inRegistry hyreg) hid
    · exact hinsert hcreates hy'
  · exact hinsert hcreates hx'

/-- The registry finds the session it has under an id. -/
theorem lookup_eq_some_iff (h : s.Unique) {id : Bytes} {i : ℕ} {x : Session}
    (hx : s.sessions[i]? = some x) : s.lookup id = some i ↔ x.inRegistry ∧ x.id = id := by
  have hfound {j : ℕ} (hj : s.lookup id = some j) :
      ∃ y, s.sessions[j]? = some y ∧ y.inRegistry ∧ y.id = id := by
    obtain ⟨hlt, hp, -⟩ := List.findIdx?_eq_some_iff_getElem.1 hj
    refine ⟨_, List.getElem?_eq_getElem hlt, ?_⟩
    simpa using hp
  constructor
  · intro hi
    obtain ⟨y, hy, hyreg, hyid⟩ := hfound hi
    rw [hx] at hy
    obtain rfl := Option.some.inj hy
    exact ⟨hyreg, hyid⟩
  · rintro ⟨hreg, rfl⟩
    cases hlookup : s.lookup x.id with
    | none =>
      have hnone := List.findIdx?_eq_none_iff.1 hlookup x (List.mem_of_getElem? hx)
      simp [hreg] at hnone
    | some j =>
      obtain ⟨y, hy, hyreg, hyid⟩ := hfound hlookup
      rw [h _ _ _ _ hy hx hyreg hreg hyid]

/-! ## The answers -/

/-- The `SETUP` requests of a session that were answered with OK. -/
def setUps (i : ℕ) (log : List Output) : List Setup :=
  log.filterMap fun
    | .setUp setup (some j) => if j = i then some setup else none
    | _ => none

theorem setUps_append (i : ℕ) (log log' : List Output) :
    setUps i (log ++ log') = setUps i log ++ setUps i log' := List.filterMap_append ..

theorem setUps_eq_nil {i : ℕ} {out : List Output}
    (h : ∀ setup j, .setUp setup (some j) ∉ out) : setUps i out = [] := by
  refine List.filterMap_eq_nil_iff.2 fun o ho => ?_
  split
  · next setup j => exact absurd ho (h setup j)
  · rfl

/-- The answers of a step, where it gives any. -/
theorem setUps_step {e : Event} (h : ∀ setup j, ¬Logs config s e (.setUp setup (some j))) (i : ℕ) :
    setUps i (step config s e).log = setUps i s.log := by
  obtain ⟨out, hlog, hout⟩ := step_log config s e
  rw [hlog, setUps_append, setUps_eq_nil fun setup j hmem => h setup j (hout _ hmem),
    List.append_nil]

/-- A source is of the camera and the stream that a `SETUP` names; the smaller stream may
    stand in for the balanced one. -/
def NamedBy (media : Media) (setup : Setup) (i : ℕ) : Prop :=
  ∃ source, media.sources[i]? = some source ∧ source.camera = setup.target.camera ∧
    (source.kind = setup.target.stream ∨
      setup.target.stream = .externStream ∧ source.kind = .sub)

/-- A packet is as the answers before it have it: that to the first `SETUP` of its kind, and
    that to the first of all for where it is from. -/
def Answers (config : ServerConfig) (t : Server) (before : List Output) (o : Output) : Prop :=
  ∀ i kind transport packet, o = .media i kind transport packet →
    (∃ setup, (setUps i before).find? (·.kind = kind) = some setup ∧
      transport = setup.transport ∧ BuiltWith config.rtp setup.ssrc packet) ∧
    ∃ first j, (setUps i before).head? = some first ∧ NamedBy t.media first j ∧
      PacketOf config.rtp t.media first.target.camera j packet

/-- What holds of a server: each session has the tracks that were answered for it, in their
    order. -/
structure Answered (config : ServerConfig) (s : Server) : Prop where
  unique : s.Unique
  bounded : ∀ {i : ℕ}, s.sessions.length ≤ i → setUps i s.log = []
  steady : ∀ {i : ℕ} {x : Session}, s.sessions[i]? = some x → x.Steady
  tracks : ∀ {i : ℕ} {x : Session}, s.sessions[i]? = some x →
    x.tracks.map TrackEntry.answer = (setUps i s.log).map Setup.answer
  first : ∀ {i : ℕ} {x : Session}, s.sessions[i]? = some x →
    ∃ first, (setUps i s.log).head? = some first ∧
      x.subscription.camera = first.target.camera ∧ NamedBy s.media first x.subscription.source
  log : Past.Always (Answers config s) s.log

theorem NamedBy.mono {media media' : Media} {setup : Setup} {i : ℕ} (hgrows : media.Grows media')
    (h : NamedBy media setup i) : NamedBy media' setup i := by
  obtain ⟨source, hsource, hcamera, hkind⟩ := h
  obtain ⟨source', hsource', hcamera', hkind', -⟩ := hgrows.sources hsource
  exact ⟨source', hsource', hcamera'.trans hcamera, hkind' ▸ hkind⟩

theorem Answers.step {before : List Output} {o : Output} (h : Answers config s before o)
    (e : Event) : Answers config (step config s e) before o := by
  intro i kind transport packet ho
  obtain ⟨htrack, first, j, hfirst, hnamed, hpacket⟩ := h i kind transport packet ho
  have hgrows := grows_step config s e
  exact ⟨htrack, first, j, hfirst, hnamed.mono hgrows, hpacket.mono hgrows⟩

/-- The first track of a kind is the first that was answered. -/
theorem find?_setUps {tracks : List TrackEntry} {setups : List Setup} {kind : TrackKind}
    {entry : TrackEntry} (h : tracks.map TrackEntry.answer = setups.map Setup.answer)
    (hentry : tracks.find? (·.kind = kind) = some entry) :
    ∃ setup, setups.find? (·.kind = kind) = some setup ∧ setup.answer = entry.answer := by
  have htracks : (tracks.map TrackEntry.answer).find? (·.1 = kind) = some entry.answer := by
    rw [List.find?_map]
    exact congrArg (Option.map TrackEntry.answer) hentry
  rw [h, List.find?_map, Option.map_eq_some_iff] at htracks
  exact htracks

/-- A packet of a task, on the track that its session has. -/
theorem Answered.task {i : ℕ} {x : Session} {e : TaskEvent} {kind : TrackKind}
    {transport : Transport} {packet : Bytes} (h : Answered config s)
    (hx : s.sessions[i]? = some x)
    (hmem : (kind, .packet transport packet) ∈ (x.act config.rtp s.media e).2) :
    Answers config s s.log (.media i kind transport packet) := by
  intro i' kind' transport' packet' ho
  obtain ⟨rfl, rfl, rfl, rfl⟩ := Output.media.inj ho
  obtain ⟨track, huses, rfl, hbuilt, hpacket⟩ := Session.act_packet hmem
  obtain ⟨entry, hentry, htransport, hssrc⟩ := h.steady hx _ _ huses
  obtain ⟨setup, hsetup, hanswer⟩ := find?_setUps (h.tracks hx) hentry
  obtain ⟨-, htransport', hssrc'⟩ : setup.kind = entry.kind ∧ setup.transport = entry.transport ∧
    setup.ssrc = entry.ssrc := by simpa [Setup.answer, TrackEntry.answer] using hanswer
  obtain ⟨first, hfirst, hcamera, hnamed⟩ := h.first hx
  refine ⟨⟨setup, hsetup, ?_, ?_⟩, first, _, hfirst, hnamed, hcamera ▸ hpacket⟩
  · rw [htransport, htransport']
  · rwa [hssrc', ← hssrc]

theorem Answered.log_step (h : Answered config s) (e : Event) :
    Past.Always (Answers config (step config s e)) (step config s e).log := by
  obtain ⟨out, hlog, hout⟩ := step_log config s e
  rw [hlog, Past.always_append]
  refine ⟨fun before o after hsplit => (h.log before o after hsplit).step e, ?_⟩
  intro before o after hsplit i kind transport packet ho
  have hlogs := hout o (by rw [hsplit]; simp)
  cases hlogs with
  | @loop j e x o' hx hmem =>
    obtain ⟨kind', transport' | _⟩ := o'
    · obtain ⟨rfl, rfl, rfl, rfl⟩ := Output.media.inj ho
      have hnone : setUps j before = [] := by
        refine setUps_eq_nil fun setup k hmem => ?_
        have hlogs := hout (.setUp setup (some k))
          (by rw [hsplit]; exact List.mem_append_left _ hmem)
        generalize hs : Output.setUp setup (some k) = o at hlogs
        cases hlogs with
        | @loop _ _ _ o _ _ => obtain ⟨kind', _ | _⟩ := o <;> cases hs
        | _ => cases hs
      rw [setUps_append, hnone, List.append_nil]
      exact (h.task hx hmem).step _ _ _ _ _ rfl
    · cases ho
  | _ => cases ho

/-! ## Steps -/

/-- Only a `SETUP` that goes on gives a session another track. -/
theorem Changes.tracks_eq {e : Event} {i : ℕ} {x x' : Session} (h : Changes config s e i x x')
    (happend : ∀ ambient setup, e = .proceed ambient → s.closed = false →
      s.handler ≠ .append setup) : x'.tracks = x.tracks := by
  cases h with
  | append hopen hhandler => exact absurd hhandler (happend _ _ rfl hopen)
  | notify =>
    rw [Session.notifyWaiters]
    split <;> rfl
  | act => exact (Session.act_frame ..).2.2.2.1
  | cleanUp => split <;> rfl
  | _ => rfl

/-- Where no `SETUP` is answered, the tracks and the answers stay as they are. -/
theorem Answered.step_other (h : Answered config s) {e : Event}
    (happend : ∀ ambient setup, e = .proceed ambient → s.closed = false →
      s.handler ≠ .append setup)
    (hcreates : ∀ x, ¬Creates config s e x) : Answered config (step config s e) := by
  have hgrows := grows_step config s e
  have hsetUps (i : ℕ) : setUps i (step config s e).log = setUps i s.log := by
    refine setUps_step (fun setup j hlogs => ?_) i
    generalize hs : Output.setUp setup (some j) = o at hlogs
    cases hlogs with
    | setUpNew hhandler hsubscribed => exact hcreates _ (.intro hhandler hsubscribed)
    | setUpTrack hopen hhandler => exact happend _ _ rfl hopen hhandler
    | @loop _ _ _ o => obtain ⟨kind', _ | _⟩ := o <;> cases hs
    | _ => cases hs
  have hold {i : ℕ} {x' : Session} (hx' : (step config s e).sessions[i]? = some x') :
      ∃ x, s.sessions[i]? = some x ∧ Changes config s e i x x' :=
    (step_sessions hx').resolve_right fun hnew => hcreates _ hnew.2
  refine ⟨unique_step h.unique e, fun {i} hi => ?_, fun {i x'} hx' => ?_, fun {i x'} hx' => ?_,
    fun {i x'} hx' => ?_, h.log_step e⟩
  · rw [hsetUps]
    exact h.bounded ((length_step config s e).trans hi)
  · obtain ⟨x, hx, hchanges⟩ := hold hx'
    exact hchanges.steady (h.steady hx)
  · obtain ⟨x, hx, hchanges⟩ := hold hx'
    rw [hchanges.tracks_eq happend, hsetUps]
    exact h.tracks hx
  · obtain ⟨x, hx, hchanges⟩ := hold hx'
    obtain ⟨first, hfirst, hcamera, hnamed⟩ := h.first hx
    rw [hsetUps, hchanges.subscription_eq.2]
    exact ⟨first, hfirst, hcamera, hnamed.mono hgrows⟩

theorem setUps_answerSetup (s : Server) (setup : Setup) (session : Option ℕ) (i : ℕ) :
    setUps i (s.answerSetup setup session).log =
      setUps i s.log ++ if session = some i then [setup] else [] := by
  have hresponse (response : Response) : setUps i [.response setup.request response] = [] := rfl
  rw [answerSetup, respond, setUps_append, hresponse, List.append_nil, emit, setUps_append]
  cases session with
  | none => rfl
  | some j =>
    by_cases hj : j = i <;> simp [setUps, hj]

/-- The track that is added is the one answered. -/
theorem getElem?_setupAppend {setup : Setup} {i : ℕ} {x' : Session}
    (h : (s.setupAppend setup).sessions[i]? = some x') :
    ∃ x track, s.sessions[i]? = some x ∧ track.answer = setup.answer ∧
      x' = if x.inRegistry ∧ x.id = setup.sessionId then x.appendTrack track else x := by
  rw [setupAppend, sessions_answerSetup, appendTrack, onEntry, List.getElem?_map,
    Option.map_eq_some_iff] at h
  obtain ⟨x, hx, rfl⟩ := h
  exact ⟨x, _, hx, rfl, rfl⟩

/-- A track more, and an answer more. -/
theorem Answered.step_append (h : Answered config s) {ambient : Ambient} {setup : Setup}
    (hopen : s.closed = false) (hhandler : s.handler = .append setup) :
    Answered config (step config s (.proceed ambient)) := by
  have hgrows := grows_step config s (.proceed ambient)
  have hlog := h.log_step (.proceed ambient)
  have hunique : (step config s (.proceed ambient)).Unique := unique_step h.unique _
  have hlength := length_step config s (.proceed ambient)
  rw [step, if_neg (by simp [hopen]), proceed, hhandler] at hgrows hlog hunique hlength ⊢
  dsimp only at hgrows hlog hunique hlength ⊢
  have hsetUps (i : ℕ) : setUps i (s.setupAppend setup).log =
      setUps i s.log ++ if s.lookup setup.sessionId = some i then [setup] else [] :=
    setUps_answerSetup _ _ _ i
  have hhead {i : ℕ} {first : Setup} (hfirst : (setUps i s.log).head? = some first) :
      (setUps i (s.setupAppend setup).log).head? = some first := by
    rw [hsetUps, List.head?_append, hfirst]
    rfl
  refine ⟨hunique, fun {i} hi => ?_, fun {i x'} hx' => ?_, fun {i x'} hx' => ?_,
    fun {i x'} hx' => ?_, hlog⟩
  · rw [hsetUps, h.bounded (hlength.trans hi), List.nil_append, if_neg]
    intro hlookup
    exact absurd (hlength.trans hi) (not_le.2 (lookup_lt hlookup))
  · obtain ⟨x, track, hx, -, rfl⟩ := getElem?_setupAppend hx'
    split
    · exact (h.steady hx).appendTrack track
    · exact h.steady hx
  · obtain ⟨x, track, hx, htrack, rfl⟩ := getElem?_setupAppend hx'
    rw [hsetUps, List.map_append, ← h.tracks hx]
    by_cases hentry : x.inRegistry ∧ x.id = setup.sessionId
    · rw [if_pos hentry, if_pos ((lookup_eq_some_iff h.unique hx).2 hentry), Session.appendTrack,
        List.map_append, List.map_singleton, List.map_singleton, htrack]
    · rw [if_neg hentry, if_neg fun hlookup => hentry ((lookup_eq_some_iff h.unique hx).1 hlookup),
        List.map_nil, List.append_nil]
  · obtain ⟨x, track, hx, -, rfl⟩ := getElem?_setupAppend hx'
    obtain ⟨first, hfirst, hcamera, hnamed⟩ := h.first hx
    refine ⟨first, hhead hfirst, ?_⟩
    split <;> exact ⟨hcamera, hnamed.mono hgrows⟩

theorem setUps_insert (s : Server) (x : Session) (i : ℕ) :
    setUps i (s.insert x).log = setUps i s.log := by
  have hremoved : setUps i ((s.sessions.zipIdx.filter fun y =>
      y.1.inRegistry && decide (y.1.id = x.id)).map
        fun y => Output.removed y.2 .replaced) = [] := by
    refine setUps_eq_nil fun setup j hmem => ?_
    obtain ⟨y, -, hy⟩ := List.mem_map.1 hmem
    cases hy
  have hcreated (j : ℕ) : setUps i [.created x.request j] = [] := rfl
  rw [insert, setUps_append, hcreated, List.append_nil, remove, removeWhere, setUps_append]
  exact (congrArg _ hremoved).trans (List.append_nil _)

theorem setUps_locks (s : Server) (request : ℕ) (locks : List Bytes) (i : ℕ) :
    setUps i (s.emit (locks.map (.wakeLock request))).log = setUps i s.log := by
  have hlocks : setUps i (locks.map (.wakeLock request)) = [] := by
    refine setUps_eq_nil fun setup j hmem => ?_
    obtain ⟨lock, -, hlock⟩ := List.mem_map.1 hmem
    cases hlock
  rw [emit, setUps_append, hlocks, List.append_nil]

/-- A new session, with its first track and its first answer. -/
theorem Answered.step_create (h : Answered config s) {ambient : Ambient} {setup : Setup}
    {subscription : Subscription} (hopen : s.closed = false)
    (hhandler : s.handler = .subscribe setup)
    (hsubscribed : (s.subscribed config setup.request setup.target setup.user ambient).2 =
      .ok subscription) : Answered config (step config s (.proceed ambient)) := by
  have hgrows := grows_step config s (.proceed ambient)
  have hlog := h.log_step (.proceed ambient)
  have hunique : (step config s (.proceed ambient)).Unique := unique_step h.unique _
  have hlength := length_step config s (.proceed ambient)
  obtain ⟨-, kind, source, hto, hkind⟩ := subscribed_ok hsubscribed
  obtain ⟨locks, hstep⟩ := step_subscribe (by simp [hopen]) hhandler hsubscribed
  have hsetUps (i : ℕ) : setUps i (step config s (.proceed ambient)).log =
      setUps i s.log ++ if some s.sessions.length = some i then [setup] else [] := by
    rw [hstep, setUps_answerSetup, setUps_insert, setUps_locks]
  have hsessions {i : ℕ} {x' : Session}
      (hx' : (step config s (.proceed ambient)).sessions[i]? = some x') :
      (i = s.sessions.length ∧ x' = s.newSession setup subscription) ∨
        ∃ x, s.sessions[i]? = some x ∧ setUps i (step config s (.proceed ambient)).log =
          setUps i s.log ∧ x'.tracks = x.tracks ∧ x'.task = x.task ∧
            x'.subscription = x.subscription := by
    rw [hstep, sessions_answerSetup] at hx'
    rcases getElem?_insert hx' with hnew | ⟨x, hx, hold⟩
    · exact .inl hnew
    · have hlt : i < s.sessions.length := (List.getElem?_eq_some_iff.1 hx).1
      refine .inr ⟨x, hx, ?_, ?_⟩
      · rw [hsetUps, if_neg (by rw [Option.some_inj]; omega), List.append_nil]
      · rcases hold with rfl | ⟨-, -, rfl⟩ <;> exact ⟨rfl, rfl, rfl⟩
  have hnew : setUps s.sessions.length (step config s (.proceed ambient)).log = [setup] := by
    rw [hsetUps, h.bounded le_rfl, if_pos rfl, List.nil_append]
  refine ⟨hunique, fun {i} hi => ?_, fun {i x'} hx' => ?_, fun {i x'} hx' => ?_,
    fun {i x'} hx' => ?_, hlog⟩
  · have hlt : s.sessions.length < i := by
      have hle := hi
      rw [hstep, sessions_answerSetup, insert] at hle
      dsimp only at hle
      rw [List.length_append, length_remove] at hle
      exact hle
    rw [hsetUps, h.bounded hlt.le, if_neg (by rw [Option.some_inj]; omega), List.nil_append]
  · rcases hsessions hx' with ⟨-, rfl⟩ | ⟨x, hx, -, htracks, htask, -⟩
    · exact Session.steady_of_no_loops rfl
    · exact (h.steady hx).congr htracks htask
  · rcases hsessions hx' with ⟨rfl, rfl⟩ | ⟨x, hx, hsame, htracks, -, -⟩
    · rw [hnew]
      rfl
    · rw [hsame, htracks]
      exact h.tracks hx
  · rcases hsessions hx' with ⟨rfl, rfl⟩ | ⟨x, hx, hsame, -, -, hsubscription⟩
    · refine ⟨setup, by rw [hnew]; rfl, hto.subscribed, NamedBy.mono hgrows ?_⟩
      exact ⟨source, hto.found, hto.camera, hto.kind ▸ hkind⟩
    · obtain ⟨first, hfirst, hcamera, hnamed⟩ := h.first hx
      rw [hsame, hsubscription]
      exact ⟨first, hfirst, hcamera, hnamed.mono hgrows⟩

/-- One step keeps tracks and answers in step. -/
theorem answered_step (h : Answered config s) (e : Event) : Answered config (step config s e) := by
  by_cases happend : ∃ ambient setup, e = .proceed ambient ∧ s.closed = false ∧
      s.handler = .append setup
  · obtain ⟨ambient, setup, rfl, hopen, hhandler⟩ := happend
    exact h.step_append hopen hhandler
  · by_cases hcreates : ∃ x, Creates config s e x
    · obtain ⟨x, ⟨hhandler, hsubscribed⟩⟩ := hcreates
      by_cases hclosed : s.closed
      · rw [step, if_pos hclosed]
        exact h
      · exact h.step_create (Bool.not_eq_true _ ▸ hclosed) hhandler hsubscribed
    · exact h.step_other
        (fun ambient setup he hopen hhandler => happend ⟨ambient, setup, he, hopen, hhandler⟩)
        fun x hx => hcreates ⟨x, hx⟩

theorem answered_run (config : ServerConfig) (nonce : Nonce) (events : List Event) :
    Answered config (run config nonce events) := by
  refine @run_induction config (Answered config) nonce ?_ (fun _ e h => answered_step h e) events
  exact ⟨fun i j x y hx => by simp at hx, fun _ => rfl, fun hx => by simp at hx,
    fun hx => by simp at hx, fun hx => by simp at hx, Past.always_nil⟩

/-- What a session sends is from the camera and the stream that its first `SETUP` names (with
    the smaller stream for the balanced one, if it had to be). What it sends of a kind that
    one `SETUP` has set up is sent on the transport and for the SSRC of the answer. -/
theorem setUp_answers (config : ServerConfig) (nonce : Nonce) (events : List Event) :
    Past.Always (fun before o => ∀ i kind transport packet, o = .media i kind transport packet →
      (∃ first j, (setUps i before).head? = some first ∧
        NamedBy (run config nonce events).media first j ∧
        PacketOf config.rtp (run config nonce events).media first.target.camera j packet) ∧
      (∃ setup ∈ setUps i before, setup.kind = kind) ∧
      ∀ setup ∈ setUps i before, setup.kind = kind →
        (∀ setup' ∈ setUps i before, setup'.kind = kind → setup' = setup) →
          transport = setup.transport ∧ BuiltWith config.rtp setup.ssrc packet)
      (run config nonce events).log := by
  intro before o after hsplit i kind transport packet ho
  obtain ⟨⟨setup, hfind, htransport, hbuilt⟩, hfirst⟩ :=
    (answered_run config nonce events).log before o after hsplit i kind transport packet ho
  have hmem := List.mem_of_find?_eq_some hfind
  have hkind : setup.kind = kind := by simpa using List.find?_some hfind
  refine ⟨hfirst, ⟨setup, hmem, hkind⟩, fun setup' _ _ honce => ?_⟩
  rw [← honce setup hmem hkind]
  exact ⟨htransport, hbuilt⟩

/-- A packet is as the last answer for its kind has it, and from the camera and the stream that
    the `SETUP` has named. -/
def AsAnswered (config : ServerConfig) (t : Server) (before : List Output) (o : Output) : Prop :=
  ∀ i kind transport packet, o = .media i kind transport packet →
    ∀ setup, (setUps i before).reverse.find? (·.kind = kind) = some setup →
      transport = setup.transport ∧ BuiltWith config.rtp setup.ssrc packet ∧
      ∃ j source, t.media.sources[j]? = some source ∧ source.camera = setup.target.camera ∧
        source.kind = setup.target.stream ∧
        PacketOf config.rtp t.media setup.target.camera j packet

/-- A `SETUP` of the balanced stream of a camera that has the smaller one only. -/
def balancedFallback : List Event :=
  [.sourceStarted (utf8 "porch") .sub,
    .request { porchSetup (utf8 "7") 0 with uri := utf8 "rtsps://home/porch/extern/trackID=0" } {},
    .proceed { fallback := .ok 0 },
    .request (porchRequest .play (utf8 "7")) {}, .proceed {}, .proceed {}, .proceed {},
    .task 0 .register, .task 0 .check, .task 0 (.build .video 0 0),
    .broadcast 0 (.video .h264 [[0x65, 1]] 0 true true), .task 0 (.recv .video 0 1)]

/-- It is answered with OK, and what is sent is from the smaller stream. -/
theorem balancedFallback_not_asAnswered :
    ¬Past.Always (AsAnswered (porchServer []) (run (porchServer []) ⟨[], 0⟩ balancedFallback))
      (run (porchServer []) ⟨[], 0⟩ balancedFallback).log := by
  intro h
  have hlt : 7 < (run (porchServer []) ⟨[], 0⟩ balancedFallback).log.length := by decide +kernel
  have hmedia : (run (porchServer []) ⟨[], 0⟩ balancedFallback).log[7]? = some (.media 0 .video
      (.tcpInterleaved 0 1) [128, 224, 0, 0, 0, 0, 0, 0, 0, 0, 0, 0, 0x65, 1]) := by decide +kernel
  rw [List.getElem?_eq_getElem hlt, Option.some_inj] at hmedia
  obtain ⟨-, -, j, source, hsource, -, hkind, -⟩ :=
    Past.always_iff_getElem.1 h 7 hlt _ _ _ _ hmedia
      ⟨1, 1, utf8 "7", ⟨utf8 "porch", .externStream⟩, .video, none, .tcpInterleaved 0 1, 0⟩
      (by decide +kernel)
  have hsub : ∀ source ∈ (run (porchServer []) ⟨[], 0⟩ balancedFallback).media.sources,
      source.kind = .sub := by decide +kernel
  rw [hsub source (List.mem_of_getElem? hsource)] at hkind
  cases hkind

end Server

end Bairelay
