import Bairelay.Rtsp.ServerStep

/-!
# What the packets of a session are made of

A packet of a session is made of a frame that its source has sent, or of the burst recorded
for its camera (`PacketOf`), for the SSRC of the track it is sent on (`BuiltWith`).

* `Media.Grows`, `grows_step`: sources keep their cameras and streams, and what they have
  sent stays sent;
* `act_packet`: the packets that a step of a task gives out.
-/

namespace Bairelay

/-! ## The SSRC of packets -/

section

variable (rtp : RtpTypes)

/-- A packet that is built for a source. -/
def BuiltWith (ssrc : UInt32) (packet : Bytes) : Prop :=
  ∃ payloadType seq timestamp marker payload,
    packet = rtp.buildPacket payloadType seq timestamp ssrc marker payload

/-- Packets that are built on some counters, and the counters after them. -/
def BuiltOn (counters : RtpCounters) (built : List Bytes × RtpCounters) : Prop :=
  (∀ packet ∈ built.1, BuiltWith rtp counters.ssrc packet) ∧ built.2.ssrc = counters.ssrc

variable {rtp} {counters counters' : RtpCounters} {packets packets' : List Bytes}

theorem builtOn_nil : BuiltOn rtp counters ([], counters) := ⟨by simp, rfl⟩

theorem builtOn_singleton (payloadType : UInt8) (seq : UInt16) (timestamp : UInt32)
    (marker : Bool) (payload : Bytes) : BuiltOn rtp counters
      ([rtp.buildPacket payloadType seq timestamp counters.ssrc marker payload],
        counters.nextSeq.2) :=
  ⟨List.forall_mem_singleton.2 ⟨_, _, _, _, _, rfl⟩, rfl⟩

theorem BuiltOn.append {built : List Bytes × RtpCounters}
    (h : BuiltOn rtp counters (packets, counters')) (h' : BuiltOn rtp counters' built) :
    BuiltOn rtp counters (packets ++ built.1, built.2) := by
  obtain ⟨hpackets, hssrc⟩ := h
  obtain ⟨hbuilt, hssrc'⟩ := h'
  dsimp only at hssrc
  rw [hssrc] at hbuilt hssrc'
  exact ⟨List.forall_mem_append.2 ⟨hpackets, hbuilt⟩, hssrc'⟩

theorem fragmentLoop_builtOn {payloadType : UInt8} {indicator : Bytes} {nalType : UInt8}
    {body : Bytes} {timestamp : UInt32} {marker : Bool} {size : ℕ} {hsize : 0 < size}
    {offset : ℕ} : BuiltOn rtp counters (fragmentLoop rtp payloadType indicator nalType body
      timestamp marker size hsize offset counters) := by
  induction hlen : body.length - offset using Nat.strong_induction_on
    generalizing offset counters with
  | _ len ih =>
    rw [fragmentLoop]
    split
    · next hoffset => exact (builtOn_singleton ..).append (ih _ (by omega) rfl)
    · exact builtOn_nil

theorem packetizeNal_builtOn {codec : VideoCodec} {mtu : ℕ} {nal : Bytes} {timestamp : UInt32}
    {marker : Bool} {built : List Bytes × RtpCounters}
    (h : packetizeNal rtp codec mtu nal counters timestamp marker = some built) :
    BuiltOn rtp counters built := by
  cases codec with
  | h264 =>
    rw [packetizeNal] at h
    split at h
    · cases h
      exact builtOn_singleton ..
    · rw [H264.packetizeFuA.eq_def] at h
      split at h
      · split at h
        · cases h
          exact builtOn_nil
        · cases h
          exact fragmentLoop_builtOn
      · cases h
  | h265 =>
    rw [packetizeNal] at h
    split at h
    · cases h
      exact builtOn_singleton ..
    · rw [H265.packetizeFu.eq_def] at h
      split at h
      · split at h
        · cases h
          exact builtOn_nil
        · cases h
          exact fragmentLoop_builtOn
      · cases h

theorem dispatchNals_builtOn {codec : VideoCodec} {pts90khz : UInt32} {accessUnitEnd : Bool}
    {lastIndex i : ℕ} {nals : List Bytes} {built : List Bytes × RtpCounters}
    (h : dispatchNals rtp codec pts90khz accessUnitEnd lastIndex i nals counters = some built) :
    BuiltOn rtp counters built := by
  induction nals generalizing i counters built with
  | nil =>
    cases h
    exact builtOn_nil
  | cons nal nals ih =>
    rw [dispatchNals] at h
    obtain ⟨⟨packets, counters'⟩, hnal, h⟩ := Option.bind_eq_some_iff.1 h
    obtain ⟨⟨rest, counters''⟩, hrest, h⟩ := Option.bind_eq_some_iff.1 h
    cases h
    exact (packetizeNal_builtOn hnal).append (ih hrest)

theorem dispatch_builtOn {frame : Frame} {built : List Bytes × RtpCounters}
    (h : dispatch rtp frame counters = some built) : BuiltOn rtp counters built := by
  cases frame with
  | video codec nals pts90khz keyframe accessUnitEnd => exact dispatchNals_builtOn h
  | audio payload pts =>
    cases h
    cases payload <;> exact builtOn_singleton ..

theorem replayNals_builtOn {sendRtp : ℕ → Bool} {codec : VideoCodec} {ts : UInt32}
    {lastNalIdx i : ℕ} {nals : List Bytes} {sent : ℕ} {replay : Replay}
    (h : replayNals rtp sendRtp codec ts lastNalIdx i nals sent counters = some replay) :
    BuiltOn rtp counters (replay.packets, replay.counters) := by
  induction nals generalizing i sent counters replay with
  | nil =>
    cases h
    exact builtOn_nil
  | cons nal nals ih =>
    rw [replayNals] at h
    obtain ⟨⟨packets, counters'⟩, hnal, h⟩ := Option.bind_eq_some_iff.1 h
    dsimp only at h
    split at h
    · cases h
      exact packetizeNal_builtOn hnal
    · obtain ⟨rest, hrest, h⟩ := Option.bind_eq_some_iff.1 h
      cases h
      exact (packetizeNal_builtOn hnal).append (ih hrest)

theorem replayBurst_builtOn {sendRtp : ℕ → Bool} {burst : VideoBurst} {replay : Replay}
    (h : replayBurst rtp sendRtp burst counters = some replay) :
    BuiltOn rtp counters (replay.packets, replay.counters) := by
  rw [replayBurst] at h
  split at h
  · cases h
    exact builtOn_nil
  · exact replayNals_builtOn h

end

/-! ## What the sources have sent -/

/-- Sources are added, and go on to send. -/
structure Media.Grows (media media' : Media) : Prop where
  sources : ∀ {i : ℕ} {source : Source}, media.sources[i]? = some source →
    ∃ source', media'.sources[i]? = some source' ∧ source'.camera = source.camera ∧
      source'.kind = source.kind ∧ source.broadcast <+: source'.broadcast
  recorded : media.recorded <+: media'.recorded

/-- Media that are left alone have grown by nothing. -/
theorem Media.Grows.refl (media : Media) : media.Grows media :=
  ⟨fun h => ⟨_, h, rfl, rfl, List.prefix_rfl⟩, List.prefix_rfl⟩

/-- A packet is made of a frame of a source, or of a burst of a camera. -/
inductive PacketOf (rtp : RtpTypes) (media : Media) (camera : Bytes) (i : ℕ) (packet : Bytes) :
    Prop
  | frame {source : Source} {frame : Frame} {counters : RtpCounters}
      {built : List Bytes × RtpCounters} (hsource : media.sources[i]? = some source)
      (hframe : frame ∈ source.broadcast) (hdispatch : dispatch rtp frame counters = some built)
      (hpacket : packet ∈ built.1) : PacketOf rtp media camera i packet
  | burst {burst : VideoBurst} {counters : RtpCounters} {taken : ℕ} {replay : Replay}
      (hburst : (camera, burst) ∈ media.recorded)
      (hreplay : replayBurst rtp (· < taken) burst counters = some replay)
      (hpacket : packet ∈ replay.packets) : PacketOf rtp media camera i packet

/-- A packet of the media is one of what they grow to. -/
theorem PacketOf.mono {rtp : RtpTypes} {media media' : Media} {camera : Bytes} {i : ℕ}
    {packet : Bytes} (hgrows : media.Grows media') (h : PacketOf rtp media camera i packet) :
    PacketOf rtp media' camera i packet := by
  cases h with
  | frame hsource hframe hdispatch hpacket =>
    obtain ⟨source', hsource', -, -, hbroadcast⟩ := hgrows.sources hsource
    exact .frame hsource' (hbroadcast.subset hframe) hdispatch hpacket
  | burst hburst hreplay hpacket => exact .burst (hgrows.recorded.subset hburst) hreplay hpacket

theorem Media.Grows.modify {media : Media} {j : ℕ} {f : Source → Source}
    (hf : ∀ source, (f source).camera = source.camera ∧ (f source).kind = source.kind ∧
      source.broadcast <+: (f source).broadcast) :
    media.Grows { media with sources := media.sources.modify j f } := by
  refine ⟨fun {i source} h => ?_, List.prefix_rfl⟩
  by_cases hij : j = i
  · subst hij
    exact ⟨f source, by rw [List.getElem?_modify_eq, h]; rfl, hf source⟩
  · exact ⟨source, (List.getElem?_modify_ne _ _ hij).trans h, rfl, rfl, List.prefix_rfl⟩

namespace Server

variable {config : ServerConfig} {s : Server}

/-- No step takes anything back that a source has sent. -/
theorem grows_step (config : ServerConfig) (s : Server) (e : Event) :
    s.media.Grows (step config s e).media := by
  have hsame {media : Media} (h : media = s.media) : s.media.Grows media := h ▸ .refl _
  cases e with
  | sourceStarted camera kind =>
    refine ⟨fun {i source} h => ⟨source, ?_, rfl, rfl, List.prefix_rfl⟩, List.prefix_rfl⟩
    exact (List.getElem?_append_left (List.getElem?_eq_some_iff.1 h).1).trans h
  | announce source sdpParams => exact .modify fun _ => ⟨rfl, rfl, List.prefix_rfl⟩
  | broadcast source frame => exact .modify fun _ => ⟨rfl, rfl, List.prefix_append _ _⟩
  | record camera burst =>
    exact ⟨fun h => ⟨_, h, rfl, rfl, List.prefix_rfl⟩, List.prefix_append _ _⟩
  | advance d => exact .refl _
  | request r ambient =>
    rw [step]
    split
    · exact hsame (frame_dispatchRequest r ambient).1
    · exact .refl _
  | malformed =>
    rw [step]
    split <;> exact .refl _
  | proceed ambient =>
    rw [step]
    split
    · exact .refl _
    · exact hsame (frame_proceed ambient).1
  | sweep =>
    rw [step]
    split <;> exact .refl _
  | close =>
    rw [step]
    split <;> exact .refl _
  | task i e =>
    rw [step, taskStep]
    split <;> exact .refl _
  | cleanUp i =>
    rw [step, cleanUp]
    split
    · split <;> exact .refl _
    · exact .refl _

/-- A session keeps what it has got from the provider. -/
theorem Changes.subscription_eq {e : Event} {i : ℕ} {x x' : Session}
    (h : Changes config s e i x x') :
    x'.request = x.request ∧ x'.subscription = x.subscription := by
  cases h with
  | notify =>
    rw [Session.notifyWaiters]
    split <;> exact ⟨rfl, rfl⟩
  | act => exact ⟨(Session.act_frame ..).2.1, (Session.act_frame ..).2.2.1⟩
  | cleanUp => split <;> exact ⟨rfl, rfl⟩
  | _ => exact ⟨rfl, rfl⟩

end Server

/-! ## Subscriptions -/

namespace ServerConfig

variable {config : ServerConfig} {sources : List Source}

/-- A camera is there and admits a user. -/
def Admits (config : ServerConfig) (camera : Bytes) (user : Option Bytes) : Prop :=
  ∃ handle, config.camera? camera = some handle ∧ handle.permits user

/-- What there is a subscription to. -/
structure SubscribesTo (sources : List Source) (camera : Bytes) (kind : StreamKind)
    (subscription : Subscription) (source : Source) : Prop where
  found : sources[subscription.source]? = some source
  sdpParams : source.sdpParams = subscription.sdpParams
  subscribed : subscription.camera = camera
  camera : source.camera = camera
  kind : source.kind = kind

/-- A subscription is to a stream of a camera that the user may see, and only its lock is taken. -/
theorem subscribe_spec {camera : Bytes} {kind : StreamKind} {user : Option Bytes}
    {outcome : Except StreamError ℕ} {locks : List Bytes}
    {result : Except StreamError Subscription}
    (h : config.subscribe sources camera kind user outcome = (locks, result)) :
    (∀ lock ∈ locks, lock = camera ∧ config.Admits camera user) ∧
      ∀ subscription, result = .ok subscription →
        config.Admits camera user ∧
          ∃ source, SubscribesTo sources camera kind subscription source := by
  unfold subscribe at h
  split at h
  · cases h
    exact ⟨by simp, by simp⟩
  · next handle hhandle =>
    split at h
    · cases h
      exact ⟨by simp, by simp⟩
    · next hpermits =>
      have hadmits : config.Admits camera user := ⟨handle, hhandle, by simpa using hpermits⟩
      obtain ⟨rfl, h⟩ := Prod.mk.inj h
      refine ⟨List.forall_mem_singleton.2 ⟨rfl, hadmits⟩, fun subscription hok => ⟨hadmits, ?_⟩⟩
      rw [hok] at h
      split at h
      · cases h
      · next i =>
        split at h
        · next source hsource =>
          split at h
          · next hmatch =>
            cases h
            exact ⟨source, hsource, rfl, rfl, hmatch.1, hmatch.2⟩
          · cases h
        · cases h

theorem subscribeWithExternFallback_spec {camera : Bytes} {kind : StreamKind}
    {user : Option Bytes} {outcome fallback : Except StreamError ℕ} {locks : List Bytes}
    {result : Except StreamError Subscription}
    (h : config.subscribeWithExternFallback sources camera kind user outcome fallback =
      (locks, result)) :
    (∀ lock ∈ locks, lock = camera ∧ config.Admits camera user) ∧
      ∀ subscription, result = .ok subscription →
        config.Admits camera user ∧ ∃ kind' source,
          SubscribesTo sources camera kind' subscription source ∧
            (kind' = kind ∨ kind = .externStream ∧ kind' = .sub) := by
  unfold subscribeWithExternFallback at h
  split at h
  · next locks₀ hfirst =>
    obtain ⟨hlocks, -⟩ := subscribe_spec hfirst
    obtain ⟨hlocks', hresult⟩ :=
      @subscribe_spec config sources camera .sub user fallback _ _ rfl
    cases h
    refine ⟨fun lock hlock => ?_, fun subscription hok => ?_⟩
    · exact (List.mem_append.1 hlock).elim (hlocks lock) (hlocks' lock)
    · obtain ⟨hadmits, source, hto⟩ := hresult subscription hok
      exact ⟨hadmits, _, source, hto, .inr ⟨rfl, rfl⟩⟩
  · obtain ⟨hlocks, hresult⟩ := subscribe_spec h
    refine ⟨hlocks, fun subscription hok => ?_⟩
    obtain ⟨hadmits, source, hto⟩ := hresult subscription hok
    exact ⟨hadmits, _, source, hto, .inl rfl⟩

end ServerConfig

/-- The wake locks that a request acquires, and what it subscribes to. -/
theorem Server.subscribed_spec {config : ServerConfig} {s s' : Server} {request : ℕ}
    {target : ResolvedPath} {user : Option Bytes} {ambient : Ambient}
    {result : Except StreamError Subscription}
    (h : s.subscribed config request target user ambient = (s', result)) :
    ∃ locks : List Bytes, s' = s.emit (locks.map (.wakeLock request)) ∧
      (∀ lock ∈ locks, lock = target.camera ∧ config.Admits target.camera user) ∧
      ∀ subscription, result = .ok subscription →
        config.Admits target.camera user ∧ ∃ kind source,
          ServerConfig.SubscribesTo s.media.sources target.camera kind subscription source ∧
            (kind = target.stream ∨ target.stream = .externStream ∧ kind = .sub) := by
  obtain ⟨rfl, rfl⟩ := Prod.mk.inj h
  obtain ⟨hlocks, hresult⟩ := @ServerConfig.subscribeWithExternFallback_spec config
    s.media.sources target.camera target.stream user ambient.outcome ambient.fallback _ _ rfl
  exact ⟨_, rfl, hlocks, hresult⟩

/-- What is subscribed to is a source of the camera, for a user who may see it. -/
theorem Server.subscribed_ok {config : ServerConfig} {s : Server} {request : ℕ}
    {target : ResolvedPath} {user : Option Bytes} {ambient : Ambient} {subscription : Subscription}
    (h : (s.subscribed config request target user ambient).2 = .ok subscription) :
    config.Admits target.camera user ∧ ∃ kind source,
      ServerConfig.SubscribesTo s.media.sources target.camera kind subscription source ∧
        (kind = target.stream ∨ target.stream = .externStream ∧ kind = .sub) := by
  obtain ⟨s', result, hsubscribed⟩ : ∃ s' result,
    s.subscribed config request target user ambient = (s', result) := ⟨_, _, rfl⟩
  obtain ⟨-, -, -, hresult⟩ := subscribed_spec hsubscribed
  rw [hsubscribed] at h
  exact hresult subscription h

/-! ## What a task gives out -/

namespace Session

variable {rtp : RtpTypes} {media : Media} {x : Session}

/-- A track of a session: one that a loop has, or would look up. -/
def Uses (x : Session) (kind : TrackKind) (track : RuntimeTrack) : Prop :=
  (∃ loops position awaiting, x.task.loops? = some loops ∧
    loops.get kind = .running position (some track) awaiting) ∨
  ∃ seq, x.buildRuntimeForKind kind seq = some track

/-- The burst of a camera was recorded for it. -/
theorem mem_recorded {camera : Bytes} {burst : VideoBurst}
    (h : media.videoSnapshot camera = some burst) : (camera, burst) ∈ media.recorded := by
  rw [Media.videoSnapshot, Option.map_eq_some_iff] at h
  obtain ⟨⟨camera', burst'⟩, hfind, rfl⟩ := h
  obtain rfl : camera' = camera := by simpa using List.find?_some hfind
  exact List.mem_reverse.1 (List.mem_of_find?_eq_some hfind)

/-- The packets of a track go out by its transport. -/
theorem mem_outputs {track : RuntimeTrack} {packets : List Bytes} {transport : Transport}
    {packet : Bytes} (h : .packet transport packet ∈ outputs track packets) :
    transport = track.transport ∧ packet ∈ packets := by
  obtain ⟨packet', hpacket, h⟩ := List.mem_map.1 h
  obtain ⟨rfl, rfl⟩ := LoopOutput.packet.inj h
  exact ⟨rfl, hpacket⟩

/-- The replay of a burst, on the track that is looked up. -/
theorem startLoop_packet {kind : TrackKind} {position : ℕ} {seq : UInt16} {taken : ℕ}
    {loop : Loop} {out : List LoopOutput} {transport : Transport} {packet : Bytes}
    (h : x.startLoop rtp media kind position seq taken = some (loop, out))
    (hpacket : .packet transport packet ∈ out) :
    ∃ track, x.Uses kind track ∧ transport = track.transport ∧
      BuiltWith rtp track.counters.ssrc packet ∧
      PacketOf rtp media x.subscription.camera x.subscription.source packet := by
  unfold startLoop at h
  split at h
  · next track burst hburst htrack =>
    obtain ⟨replay, hreplay, h⟩ := Option.bind_eq_some_iff.1 h
    cases h
    obtain ⟨rfl, hmem⟩ := mem_outputs hpacket
    have hmem := List.mem_of_mem_take hmem
    exact ⟨track, .inr ⟨seq, htrack⟩, rfl, (replayBurst_builtOn hreplay).1 _ hmem,
      .burst (mem_recorded hburst) hreplay hmem⟩
  · cases h
    exact absurd hpacket List.not_mem_nil

/-- A frame, on the track of the loop, or on the one that is looked up. -/
theorem recvFrame_packet {kind : TrackKind} {position : ℕ} {track : Option RuntimeTrack}
    {awaiting : Bool} {frame : Frame} {seq : UInt16} {taken : ℕ} {loop : Loop}
    {out : List LoopOutput} {first : Option (UInt16 × UInt32)} {transport : Transport}
    {packet : Bytes}
    (h : x.recvFrame rtp kind position track awaiting frame seq taken = some (loop, out, first))
    (hpacket : .packet transport packet ∈ out) :
    ∃ track', (track = some track' ∨ x.buildRuntimeForKind kind seq = some track') ∧
      transport = track'.transport ∧ BuiltWith rtp track'.counters.ssrc packet ∧
      ∃ built, dispatch rtp frame track'.counters = some built ∧ packet ∈ built.1 := by
  rw [recvFrame] at h
  split at h
  · cases h
    exact absurd hpacket List.not_mem_nil
  · split at h
    · cases h
      exact absurd hpacket List.not_mem_nil
    · next track' htrack =>
      have hsource : track = some track' ∨ x.buildRuntimeForKind kind seq = some track' := by
        cases track with
        | none => exact .inr htrack
        | some => exact .inl htrack
      split at h
      · cases h
        exact absurd hpacket List.not_mem_nil
      · obtain ⟨⟨packets, counters⟩, hone, h⟩ := Option.bind_eq_some_iff.1 h
        rw [dispatchOne] at hone
        obtain ⟨built, hdispatch, hone⟩ := Option.bind_eq_some_iff.1 hone
        obtain ⟨rfl, -⟩ := Prod.mk.inj (Option.some.inj hone)
        have hout : .packet transport packet ∈ outputs track' (built.1.take taken) := by
          cases counters with
          | some counters =>
            cases h
            exact hpacket
          | none =>
            cases h
            simpa using hpacket
        obtain ⟨rfl, hmem⟩ := mem_outputs hout
        have hmem := List.mem_of_mem_take hmem
        exact ⟨track', hsource, rfl, (dispatch_builtOn hdispatch).1 _ hmem, built, hdispatch, hmem⟩

/-- Every packet that a step sends is built of the media for a track of the session. -/
theorem act_packet {e : TaskEvent} {kind : TrackKind} {transport : Transport} {packet : Bytes}
    (h : (kind, .packet transport packet) ∈ (x.act rtp media e).2) :
    ∃ track, x.Uses kind track ∧ transport = track.transport ∧
      BuiltWith rtp track.counters.ssrc packet ∧
      PacketOf rtp media x.subscription.camera x.subscription.source packet := by
  have hacts := acts rtp media x e
  generalize x.act rtp media e = t at hacts h
  cases hacts with
  | build hloops hloop hstart =>
    obtain ⟨o, ho, heq⟩ := List.mem_map.1 h
    obtain ⟨rfl, rfl⟩ := Prod.mk.inj heq
    exact startLoop_packet hstart ho
  | @recv kind' seq taken position loops loop track awaiting frame out first hloops _ hloop
      hframe hrecv =>
    obtain ⟨o, ho, heq⟩ := List.mem_map.1 h
    obtain ⟨rfl, rfl⟩ := Prod.mk.inj heq
    obtain ⟨track', htrack, htransport, hbuilt, built, hdispatch, hmem⟩ := recvFrame_packet hrecv ho
    have hbroadcast : ∃ source, media.sources[x.subscription.source]? = some source ∧
        frame ∈ source.broadcast := by
      rw [Media.broadcast] at hframe
      cases hsource : media.sources[x.subscription.source]? with
      | none =>
        rw [hsource] at hframe
        simp at hframe
      | some source =>
        rw [hsource] at hframe
        exact ⟨source, rfl, List.mem_of_getElem? hframe⟩
    obtain ⟨source, hsource, hframe⟩ := hbroadcast
    refine ⟨track', ?_, htransport, hbuilt, .frame hsource hframe hdispatch hmem⟩
    rcases htrack with rfl | htrack
    · exact .inl ⟨loops, position, awaiting, hloops, hloop⟩
    · exact .inr ⟨seq, htrack⟩
  | fail =>
    rw [List.mem_singleton] at h
    cases h
  | _ => cases h

end Session

end Bairelay
