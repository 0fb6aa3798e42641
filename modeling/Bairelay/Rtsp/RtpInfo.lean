import Bairelay.Rtsp.BurstToLive

/-!
# The first packet of a session

What a `PLAY` is told of the first packet of video (`dispatch_one`, `replay_burst` in
`rtsp/server/session_task.rs`, and the `RTP-Info` of `handle_play`). The slot it is read from
is filled by the frames that are dispatched, after their packets are sent. The packets of a
burst that is replayed come before them, and fill nothing.

* `rtpInfo_of_not_replays`: in every run in which no burst is replayed to a session, the
  slot, and with it the answer to a `PLAY`, is of the first packet of video;
* `replayedFirst_not_namesFirst`: a key frame is replayed, and the answer is of the packet
  after it.
-/

namespace Bairelay

/-- The number and the time of a packet, as a receiver reads them. -/
def rtpInfo? (packet : Bytes) : Option (UInt16 × UInt32) :=
  (RtpPacket.parse? packet).map fun packet => (packet.sequenceNumber, packet.timestamp)

/-- Packets of a burst are sent when the video loop starts. -/
def Session.replays (x : Session) (media : Media) (taken : ℕ) : Bool :=
  match x.task.loops?, media.videoSnapshot x.subscription.camera with
  | some ⟨.starting _, _⟩, some burst =>
    x.tracks.any (·.kind = .video) && 0 < taken && burst.iframeNals ≠ []
  | _, _ => false

namespace Server

/-- The packets of video that a session has sent. -/
def videoSent (s : Server) (i : ℕ) : List Bytes :=
  s.log.filterMap fun
    | .media j .video _ packet => if j = i then some packet else none
    | _ => none

/-- The number and the time of the first one. -/
def firstSent (s : Server) (i : ℕ) : Option (UInt16 × UInt32) :=
  (s.videoSent i).head?.bind rtpInfo?

/-- A step replays packets of a burst to a session. -/
def replays (s : Server) (i : ℕ) : Event → Bool
  | .task j (.build .video _ taken) =>
    j = i && s.sessions[i]?.any fun x => x.replays s.media taken
  | _ => false

/-- What a `PLAY` is told is of the first packet of video. -/
structure NamesFirst (config : ServerConfig) (s : Server) (i : ℕ) : Prop where
  /-- Whenever the slot is polled. -/
  slot : ∀ {x info}, s.sessions[i]? = some x → x.firstVideoRtp = some info →
    s.firstSent i = some info
  answer : ∀ {play ambient}, s.closed = false → s.handler = .answerPlay play →
    s.lookup play.sessionId = some i → ∃ response,
      (step config s (.proceed ambient)).log = s.log ++ [.response play.request response] ∧
        ∀ {value}, (utf8 "RTP-Info", value) ∈ response.headers →
          ∃ seq rtptime, s.firstSent i = some (seq, rtptime) ∧
            value = utf8 "url=" ++ play.uri ++ utf8 s!";seq={seq};rtptime={rtptime}"

end Server

/-! ## The slot -/

section

open Fragment

variable {rtp : RtpTypes}

/-- The first packet that is sent has the number and the time of the counters. -/
theorem rtpInfo?_head_emit {payloadType : UInt8} {timestamp : UInt32} {counters : RtpCounters}
    {payloads : List (Bool × Bytes)} (htype : payloadType < 0x80) {packet : Bytes}
    (h : (emit payloadType timestamp counters payloads).1.head? = some packet) :
    rtpInfo? packet = some (counters.seq, timestamp) := by
  cases payloads with
  | nil => cases h
  | cons payload payloads =>
    cases h
    rw [rtpInfo?, RtpPacket.parse?_bytes htype, Option.map_some]

/-- The first packet of a frame has the number of the counters and the time of the frame. -/
theorem dispatch_head (hrtp : rtp.Lawful) {frame : Frame} (hframe : frame.trackKind = .video)
    {counters counters' : RtpCounters} {packets : List Bytes}
    (h : dispatch rtp frame counters = some (packets, counters')) {packet : Bytes}
    (hpacket : packets.head? = some packet) : rtpInfo? packet = some (counters.seq, frame.pts) := by
  cases frame with
  | audio => cases hframe
  | video codec nals pts90khz keyframe accessUnitEnd =>
    rw [dispatch_video hrtp] at h
    obtain rfl := congrArg Prod.fst (Option.some.inj h)
    exact rtpInfo?_head_emit (payloadType_lt codec) hpacket

/-- Of a replay, no more is sent than the transport takes. -/
theorem sendAll_le {taken sent : ℕ} (h : sent ≤ taken) (pkts : List Bytes) :
    (sendAll (· < taken) sent pkts).1 ≤ taken := by
  induction pkts generalizing sent with
  | nil => exact h
  | cons pkt pkts ih =>
    rw [sendAll]
    split
    · next hsend => exact ih (of_decide_eq_true hsend)
    · exact h

/-- No more packets are sent than the transport takes. -/
theorem replayNals_sent_le {codec : VideoCodec} {ts : UInt32} {lastNalIdx i taken sent : ℕ}
    {nals : List Bytes} {counters : RtpCounters} {replay : Replay} (hsent : sent ≤ taken)
    (h : replayNals rtp (· < taken) codec ts lastNalIdx i nals sent counters = some replay) :
    replay.sent ≤ taken := by
  induction nals generalizing i sent counters replay with
  | nil =>
    cases h
    exact hsent
  | cons nal nals ih =>
    rw [replayNals] at h
    obtain ⟨⟨pkts, counters'⟩, -, h⟩ := Option.bind_eq_some_iff.1 h
    have hle := sendAll_le hsent pkts
    dsimp only at h
    split at h
    · next hall =>
      cases h
      rwa [hall] at hle
    · next hall =>
      rw [hall] at hle
      obtain ⟨rest, hrest, h⟩ := Option.bind_eq_some_iff.1 h
      cases h
      change rest.sent ≤ taken
      exact ih hle hrest

theorem replayBurst_sent_le {burst : VideoBurst} {taken : ℕ} {counters : RtpCounters}
    {replay : Replay} (h : replayBurst rtp (· < taken) burst counters = some replay) :
    replay.sent ≤ taken := by
  rw [replayBurst] at h
  split at h
  · cases h
    exact Nat.zero_le taken
  · exact replayNals_sent_le (Nat.zero_le taken) h

end

namespace Session

variable {rtp : RtpTypes} {media : Media} {x : Session}

/-- A loop that starts without a replay sends nothing. -/
theorem startLoop_of_not_replays {loops : Loops} {position taken : ℕ} {seq : UInt16} {loop : Loop}
    {out : List LoopOutput} (hloops : x.task.loops? = some loops)
    (hloop : loops.video = .starting position) (h : x.replays media taken = false)
    (hstart : x.startLoop rtp media .video position seq taken = some (loop, out)) : out = [] := by
  unfold startLoop at hstart
  split at hstart
  · next track burst _ hbuild hburst =>
    obtain ⟨replay, hreplay, hstart⟩ := Option.bind_eq_some_iff.1 hstart
    cases hstart
    have hsent : replay.sent = 0 := by
      by_contra hsent
      have htaken : 0 < taken := (Nat.pos_of_ne_zero hsent).trans_le (replayBurst_sent_le hreplay)
      obtain ⟨entry, hentry, -⟩ := Option.map_eq_some_iff.1 hbuild
      have htrack : x.tracks.any (·.kind = .video) :=
        List.any_eq_true.2 ⟨entry, List.mem_of_find?_eq_some hentry,
          by simpa using List.find?_some hentry⟩
      have hnals : burst.iframeNals ≠ [] := fun hnals => by
        rw [replayBurst, if_pos hnals] at hreplay
        cases hreplay
        exact hsent rfl
      obtain ⟨video, audio⟩ := loops
      obtain rfl : video = .starting position := hloop
      rw [replays, hloops, hburst] at h
      simp [htrack, htaken, hnals] at h
    rw [hsent, List.take_zero]
    rfl
  · cases hstart
    rfl

theorem eq_ended_of_rests {loop : Loop} (h : Loop.ended.Rests loop) : loop = .ended := by
  cases h <;> rfl

/-- The slot is of the first packet of video, and not to be filled later than that. -/
structure Names (x : Session) (sent : List Bytes) : Prop where
  first : ∀ {info}, x.firstVideoRtp = some info → sent.head?.bind rtpInfo? = some info
  unsent : x.firstVideoRtp = none → x.videoLoop ≠ .ended → sent = []

/-- A step that sends no video. -/
theorem Names.rests {x' : Session} {sent : List Bytes} (h : Names x sent)
    (hfirst : x'.firstVideoRtp = x.firstVideoRtp) (hloop : x.videoLoop.Rests x'.videoLoop) :
    Names x' sent where
  first hinfo := h.first (hfirst ▸ hinfo)
  unsent hnone hended := h.unsent (hfirst ▸ hnone) fun hx =>
    hended (eq_ended_of_rests (hx ▸ hloop))

/-- What is sent later makes no difference to the first packet. -/
theorem head_append {sent out : List Bytes} {info : UInt16 × UInt32}
    (h : sent.head?.bind rtpInfo? = some info) : (sent ++ out).head?.bind rtpInfo? = some info := by
  cases sent with
  | nil => cases h
  | cons packet sent => exact h

/-- What is sent of a frame, and what is noted of it. -/
theorem recvFrame_first (hrtp : rtp.Lawful) {kind : TrackKind} {position : ℕ}
    {track : Option RuntimeTrack} {awaiting : Bool} {frame : Frame} {seq : UInt16} {taken : ℕ}
    {loop : Loop} {out : List LoopOutput} {first : Option (UInt16 × UInt32)}
    (h : x.recvFrame rtp kind position track awaiting frame seq taken = some (loop, out, first)) :
    (first = none ∧ (loop ≠ .ended → videoPackets (out.map (kind, ·)) = [])) ∨
      kind = .video ∧ ∃ info, first = some info ∧
        (videoPackets (out.map (kind, ·))).head?.bind rtpInfo? = some info := by
  rw [recvFrame] at h
  split at h
  · cases h
    exact .inl ⟨rfl, fun _ => rfl⟩
  · next hkind =>
    split at h
    · cases h
      exact .inl ⟨rfl, fun _ => rfl⟩
    · next track' _ =>
      split at h
      · cases h
        exact .inl ⟨rfl, fun _ => rfl⟩
      · obtain ⟨⟨packets, counters?⟩, hone, h⟩ := Option.bind_eq_some_iff.1 h
        obtain ⟨⟨all, counters⟩, hdispatch, hone⟩ := Option.bind_eq_some_iff.1 hone
        obtain ⟨rfl, hcounters⟩ := Prod.mk.inj (Option.some.inj hone)
        cases counters? with
        | none =>
          -- The transport refused a packet.
          cases h
          exact .inl ⟨rfl, fun hended => absurd rfl hended⟩
        | some counters' =>
          cases h
          cases kind with
          | audio =>
            have hnot : ¬(TrackKind.audio = .video ∧ all.take taken ≠ []) :=
              fun h => TrackKind.noConfusion h.1
            exact .inl ⟨if_neg hnot, fun _ => videoPackets_audio _⟩
          | video =>
            rw [videoPackets_outputs]
            cases hpackets : all.take taken with
            | nil => exact .inl ⟨if_neg fun h => h.2 rfl, fun _ => rfl⟩
            | cons packet packets =>
              have hhead : all.head? = some packet := by
                have htake := congrArg List.head? hpackets
                rw [List.head?_take] at htake
                split at htake
                · cases htake
                · exact htake
              exact .inr ⟨rfl, _, if_pos ⟨rfl, List.cons_ne_nil _ _⟩,
                dispatch_head hrtp (not_not.1 hkind) hdispatch hhead⟩

/-- A step of the task keeps the slot as it should be, if nothing is replayed. -/
theorem Names.act (hrtp : rtp.Lawful) {sent : List Bytes} (h : Names x sent) {e : TaskEvent}
    (hreplays : ∀ seq taken, e = .build .video seq taken → x.replays media taken = false) :
    Names (x.act rtp media e).1 (sent ++ videoPackets (x.act rtp media e).2) := by
  -- Only a frame of the video writes the slot and sends packets of the video.
  have hacts := acts rtp media x e
  generalize x.act rtp media e = t at hacts ⊢
  cases hacts with
  | skip => exact (List.append_nil sent).symm ▸ h
  | register htask | park htask | pass htask | wake htask | select htask =>
    refine (List.append_nil sent).symm ▸ h.rests rfl ?_
    rw [videoLoop, htask]
    exact .same
  | leave | joined => exact (List.append_nil sent).symm ▸ h.rests rfl .ends
  | @build kind seq taken position loops loop out hloops hloop hstart =>
    cases kind with
    | audio =>
      rw [videoPackets_audio, List.append_nil]
      refine h.rests rfl ?_
      rw [videoLoop_setLoop hloops, videoLoop_of_loops hloops]
      exact .same
    | video =>
      -- The loop begins without a replay, and has sent nothing yet.
      rw [startLoop_of_not_replays hloops hloop (hreplays seq taken rfl) hstart]
      have hstarting : x.videoLoop = .starting position := (videoLoop_of_loops hloops).trans hloop
      refine (List.append_nil sent).symm ▸ ⟨h.first, fun hnone _ => h.unsent hnone ?_⟩
      rw [hstarting]
      exact Loop.noConfusion
  | @recv kind seq taken position loops loop track awaiting frame out first hloops hcancelled hloop
      hframe hrecv =>
    have hloop' : { x.setLoop loops kind loop with
        firstVideoRtp := x.firstVideoRtp <|> first }.videoLoop = (loops.set loop kind).video :=
      videoLoop_setLoop hloops kind loop
    have hkeep : (x.firstVideoRtp <|> none) = x.firstVideoRtp := by
      cases x.firstVideoRtp <;> rfl
    cases kind with
    | audio =>
      obtain ⟨rfl, -⟩ | ⟨hkind, -⟩ := recvFrame_first hrtp hrecv
      · rw [videoPackets_audio, List.append_nil]
        refine h.rests hkeep ?_
        rw [hloop', videoLoop_of_loops hloops]
        exact .same
      · cases hkind
    | video =>
      -- The loop is running, so before its first frame nothing was sent.
      have hrunning : x.videoLoop ≠ .ended := by
        rw [videoLoop_of_loops hloops, show loops.video = _ from hloop]
        exact Loop.noConfusion
      obtain ⟨rfl, hout⟩ | ⟨-, info, rfl, hinfo⟩ := recvFrame_first hrtp hrecv
      · refine ⟨fun hinfo => head_append (h.first ?_), fun hnone hended => ?_⟩
        · exact hkeep.symm.trans hinfo
        · rw [h.unsent (hkeep.symm.trans hnone) hrunning,
            hout fun hend => hended (hloop'.trans hend), List.nil_append]
      -- The first packets fill the slot; later ones leave it as it is.
      · cases hfirst : x.firstVideoRtp with
        | none =>
          rw [h.unsent hfirst hrunning, List.nil_append]
          refine ⟨fun hslot => hinfo.trans hslot, fun hnone => ?_⟩
          cases hnone
        | some info' =>
          refine ⟨fun hslot => head_append (h.first (hfirst.trans hslot)), fun hnone => ?_⟩
          cases hnone
  -- A loop that fails or stops sends no more.
  | @fail kind cause loops hloops =>
    have hout : videoPackets [(kind, .ended cause)] = [] := by cases kind <;> rfl
    rw [hout, List.append_nil]
    refine h.rests rfl ?_
    rw [videoLoop_setLoop hloops, videoLoop_of_loops hloops]
    cases kind
    · exact .ends
    · exact .same
  | @stop kind loops hloops =>
    refine (List.append_nil sent).symm ▸ h.rests rfl ?_
    rw [videoLoop_setLoop hloops, videoLoop_of_loops hloops]
    cases kind
    · exact .ends
    · exact .same

end Session

/-! ## Throughout a run -/

namespace Server

variable {config : ServerConfig} {s : Server} {i : ℕ}

/-- Video is sent by the task of its session. -/
theorem videoSent_task {x : Session} (hx : s.sessions[i]? = some x) (e : TaskEvent) :
    (step config s (.task i e)).videoSent i =
      s.videoSent i ++ videoPackets (x.act config.rtp s.media e).2 := by
  rw [step, taskStep, hx]
  dsimp only
  rw [videoSent, videoSent, List.filterMap_append, List.filterMap_map, videoPackets]
  congr 1
  refine List.filterMap_congr fun o _ => ?_
  obtain ⟨_ | _, _ | _⟩ := o
  all_goals simp [loopOutput]

/-- Nobody else sends video for a session. -/
theorem videoSent_of_ne {e : Event} (he : ∀ te, e ≠ .task i te) :
    (step config s e).videoSent i = s.videoSent i := by
  obtain ⟨out, hlog, hout⟩ := step_log config s e
  rw [videoSent, videoSent, hlog, List.filterMap_append]
  refine (congrArg _ (List.filterMap_eq_nil_iff.2 fun o ho => ?_)).trans (List.append_nil _)
  have hlogs := hout o ho
  cases hlogs with
  | @loop j te x o hx hmem =>
    have hne : j ≠ i := fun hij => he te (hij ▸ rfl)
    obtain ⟨_ | _, _ | _⟩ := o
    all_goals simp [loopOutput, hne]
  | _ => rfl

/-- The slots are as they should be, and sessions to come have sent nothing. -/
structure Tracked (s : Server) (i : ℕ) : Prop where
  names : ∀ {x}, s.sessions[i]? = some x → x.Names (s.videoSent i)
  unmade : s.sessions[i]? = none → s.videoSent i = []

/-- Handlers do not change what was sent first. -/
theorem names_handled {sent : List Bytes} {x : Session} (h : x.Names sent)
    (handlings : List Handling) : (handlings.foldl Session.handle x).Names sent := by
  induction handlings generalizing x with
  | nil => exact h
  | cons handling handlings ih =>
    exact ih (h.rests (Session.handle_frame x handling).1 (Session.rests_handle x handling))

/-- One step that replays nothing keeps the slot in step with what was sent. -/
theorem tracked_step (hrtp : config.rtp.Lawful) (h : Tracked s i) {e : Event}
    (he : s.replays i e = false) : Tracked (step config s e) i := by
  by_cases htask : ∃ te, e = .task i te
  · obtain ⟨te, rfl⟩ := htask
    cases hx : s.sessions[i]? with
    | none =>
      have hsame : step config s (.task i te) = s := by rw [step, taskStep, hx]
      exact hsame.symm ▸ h
    | some x =>
      have hset : (step config s (.task i te)).sessions[i]? =
          some (x.act config.rtp s.media te).1 := by
        rw [step, taskStep, hx]
        exact List.getElem?_set_self (List.getElem?_eq_some_iff.1 hx).1
      refine ⟨fun hx' => ?_, fun hnone => ?_⟩
      · obtain rfl := Option.some.inj (hset.symm.trans hx')
        rw [videoSent_task hx]
        refine (h.names hx).act hrtp fun seq taken hte => ?_
        rw [hte, replays, hx, decide_eq_true rfl] at he
        exact he
      · rw [hset] at hnone
        cases hnone
  · have hsent := @videoSent_of_ne config s i e fun te hte => htask ⟨te, hte⟩
    refine ⟨fun hx' => ?_, fun hnone => ?_⟩
    · rw [hsent]
      rcases step_sessions hx' with ⟨x, hx, hchanges⟩ | ⟨hi, hcreates⟩
      · rcases hchanges.handled with ⟨te, rfl, -⟩ | ⟨handlings, rfl⟩
        · exact absurd ⟨te, rfl⟩ htask
        · exact names_handled (h.names hx) handlings
      · -- A new session.
        rw [h.unmade (List.getElem?_eq_none hi.ge)]
        cases hcreates
        refine ⟨fun hinfo => ?_, fun _ _ => rfl⟩
        cases hinfo
    · rw [hsent]
      refine h.unmade (List.getElem?_eq_none ?_)
      exact (length_step config s e).trans (List.getElem?_eq_none_iff.1 hnone)

theorem tracked_run (hrtp : config.rtp.Lawful) {nonce : Nonce} {events : List Event}
    (h : Past.Always (fun before e => (run config nonce before).replays i e = false) events) :
    Tracked (run config nonce events) i := by
  induction events using List.reverseRecOn with
  | nil => exact ⟨fun hx => by simp [run] at hx, fun _ => rfl⟩
  | append_singleton events e ih =>
    obtain ⟨hevents, he⟩ := Past.always_concat.1 h
    exact run_concat config nonce events e ▸ tracked_step hrtp (ih hevents) he

/-- The answer to a `PLAY` has what is in the slot. -/
theorem Tracked.namesFirst (h : Tracked s i) : NamesFirst config s i where
  slot hx hinfo := (h.names hx).first hinfo
  answer {play ambient} hopen hhandler hlookup := by
    have hstep : step config s (.proceed ambient) = s.answerPlay play := by
      rw [step, hopen, if_neg Bool.false_ne_true, proceed, hhandler]
    rw [hstep]
    refine ⟨_, rfl, fun {value} hvalue => ?_⟩
    rw [hlookup, Option.bind_some] at hvalue
    rcases List.mem_append.1 hvalue with hvalue | hvalue
    · -- The other headers have other names.
      have hnames : utf8 "RTP-Info" ≠ utf8 "Session" ∧ utf8 "RTP-Info" ≠ utf8 "Range" := by
        decide +kernel
      simp [hnames.1, hnames.2] at hvalue
    · obtain ⟨⟨seq, rtptime⟩, hinfo, heq⟩ := List.mem_map.1 hvalue
      obtain ⟨x, hx, hslot⟩ := Option.bind_eq_some_iff.1 (Option.mem_toList.1 hinfo)
      exact ⟨seq, rtptime, (h.names hx).first hslot, (Prod.mk.inj heq).2.symm⟩

/-- As long as no burst is replayed to a session, `PLAY` is answered with the number and the
    time of its first packet of video. -/
theorem rtpInfo_of_not_replays (hrtp : config.rtp.Lawful) {nonce : Nonce} {events : List Event}
    {i : ℕ}
    (h : Past.Always (fun before e => (run config nonce before).replays i e = false) events) :
    NamesFirst config (run config nonce events) i :=
  (tracked_run hrtp h).namesFirst

/-- A session of the porch is played, with a key frame in the buffer of the camera or not. -/
def playedFirst (recorded : List Event) : List Event :=
  .sourceStarted (utf8 "porch") .main :: (recorded ++ ([
    .request (porchSetup (utf8 "7") 0) {}, .proceed { outcome := .ok 0 },
    .request (porchRequest .play (utf8 "7")) {}, .proceed {}, .proceed {},
    .task 0 .register, .task 0 .check, .task 0 (.build .video 65535 100),
    .broadcast 0 (.video .h265 sampleNals 12600 true true),
    .task 0 (.recv .video 0 100)] : List Event))

/-- Without one, the answer is of the first packet. -/
theorem rtpInfo_of_not_replays_played :
    NamesFirst (porchServer []) (run (porchServer []) ⟨[], 0⟩ (playedFirst [])) 0 :=
  rtpInfo_of_not_replays rfc3550_lawful (Past.always_iff_getElem.2 (by decide +kernel))

/-- With one, the first packet is that of the burst, and the answer of the fifth. -/
theorem replayedFirst_not_namesFirst : ¬NamesFirst (porchServer [])
    (run (porchServer []) ⟨[], 0⟩ (playedFirst [.record (utf8 "porch") sampleBurst])) 0 := by
  intro h
  have hslot : (run (porchServer []) ⟨[], 0⟩
      (playedFirst [.record (utf8 "porch") sampleBurst])).sessions[0]?.map (·.firstVideoRtp) =
        some (some (3, 12600)) := by decide +kernel
  have hsent : (run (porchServer []) ⟨[], 0⟩
      (playedFirst [.record (utf8 "porch") sampleBurst])).firstSent 0 = some (65535, 9000) := by
    decide +kernel
  obtain ⟨x, hx, hinfo⟩ := Option.map_eq_some_iff.1 hslot
  exact absurd (hsent.symm.trans (h.slot hx hinfo)) (by decide)

end Server

end Bairelay
