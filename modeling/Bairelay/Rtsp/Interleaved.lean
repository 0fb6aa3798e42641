import Bairelay.Rtsp.Request
import Bairelay.Lib.Framing
import Bairelay.Lib.Locked

/-!
# The shared writer of a connection

The responses to the requests of a connection and the packets of all its sessions go out on one
TCP stream (`rtsp/server/transport.rs`, `write_response` in `rtsp/server/connection.rs`). The
task of the connection and the loops for video and for audio write concurrently, and each write
may be taken by the stream in parts; a lock is held for one packet or one response.

* `client_receives`: in every order of the writes, and however the stream is cut into reads,
  a client that takes the stream apart at `$`, channel and length gets what was sent, nothing
  else, and of every task in the order in which it was sent.
-/

namespace Bairelay

open Streaming Parser Incremental

namespace Interleaved

/-- What is written on a connection, and what a client reads off it. -/
inductive Message where
  | packet (channel : UInt8) (data : Bytes)
  | response (bytes : Bytes)
  deriving DecidableEq, Repr

namespace Message

/-- The check of `write_framed`: the length has 16 bits. A longer packet is an error of the
    call, before anything is written. -/
def accepted : Message → Bool
  | packet _ data => data.length ≤ 2 ^ 16 - 1
  | response _ => true

/-- What `write_framed` and `write_response` write one after the other under the lock, and
    then flush, which writes nothing. -/
def pieces : Message → List Bytes
  | packet channel data => [[0x24, channel], beBytes 2 data.length, data, []]
  | response bytes => [bytes, []]

/-- What stands on the wire for a message. -/
def bytes (m : Message) : Bytes := m.pieces.flatten

end Message

variable {τ : Type} [DecidableEq τ]

/-- The connection after some steps of the tasks that write on it. -/
def serve (calls : τ → List Message) (events : List (Locked.Event τ)) :
    Locked.State τ Message UInt8 :=
  Locked.run Message.pieces (fun t => (calls t).filter Message.accepted) events

/-! ## The client -/

/-- A packet: `$`, its channel and its length, in front of its bytes. -/
def packet : Parser Message := do
  let head ← take 4
  let data ← take (beValue (head.drop 2))
  pure (.packet (head.getD 1 0) data)

/-- What a client reads: a packet behind `$`, and else what it takes for a response. -/
def message (response : Parser Bytes) : Parser Message :=
  peek fun b => if b = 0x24 then packet else response >>= fun r => pure (.response r)

/-- The client, after some reads. -/
def receive (response : Parser Bytes) (chunks : List Bytes) :
    Incremental.Run Unit UInt8 Message (List Streaming.Frame) :=
  chunks.foldl (feed (strict (message response))) (Run.start ())

/-- A packet is not judged before it is complete. -/
theorem packet_streams : Streams packet :=
  (streams_take 4).bind fun _ => (streams_take _).bind fun _ => streams_pure _

theorem packet_reads : Reads packet fun n _ => 4 ≤ n := by
  refine (reads_take 4).bind fun n head hhead => ?_
  refine (reads_take _).bind fun k data _ => ?_
  refine (reads_pure _).mono fun j m hm => ?_
  omega

/-- The length is read as it was written. -/
theorem packet_yields {channel : UInt8} {data : Bytes} (h : data.length ≤ 2 ^ 16 - 1) :
    Yields packet (Message.packet channel data).bytes (.packet channel data) := by
  have hlen : beValue (beBytes 2 data.length) = data.length := by
    rw [beValue_beBytes, Nat.mod_eq_of_lt (by omega)]
  have hhead : ([0x24, channel] ++ beBytes 2 data.length).length = 4 := by
    rw [List.length_append, length_beBytes]
    rfl
  have hbytes : (Message.packet channel data).bytes =
      ([0x24, channel] ++ beBytes 2 data.length) ++ data := by
    simp [Message.bytes, Message.pieces]
  rw [hbytes]
  exact (yields_take_of_length hhead).bind ((yields_take_of_length hlen.symm).bind_nil
    (yields_pure _))

/-- What a response has to be for a client to read it: its end is found without what follows,
    and its first byte is none of a packet. -/
structure Readable (response : Parser Bytes) (bytes : Bytes) : Prop where
  yields : Yields response bytes bytes
  head : bytes.head? ≠ some 0x24

section Client

variable {response : Parser Bytes} (hframing : Framing response)

include hframing

theorem Readable.ne_nil {bytes : Bytes} (h : Readable response bytes) : bytes ≠ [] := by
  rintro rfl
  exact absurd (hframing.progress (h.yields [])) (lt_irrefl _)

theorem message_yields {m : Message} (haccepted : m.accepted)
    (hm : ∀ bytes, m = .response bytes → Readable response bytes) :
    Yields (message response) m.bytes m := by
  cases m with
  | packet channel data =>
    intro more
    exact packet_yields (of_decide_eq_true haccepted) more
  | response bytes =>
    have hreadable := hm bytes rfl
    have hflatten : (Message.response bytes).bytes = bytes := by
      simp [Message.bytes, Message.pieces]
    intro more
    rw [hflatten]
    match bytes with
    | [] => exact absurd rfl (hreadable.ne_nil hframing)
    | b :: bytes =>
      rw [List.cons_append, message, peek, if_neg (by simpa using hreadable.head),
        ← List.cons_append]
      exact hreadable.yields.bind_pure Message.response more

theorem message_streams : Streams (message response) :=
  .peek fun _ => packet_streams.ite (hframing.streams.bind fun _ => streams_pure _)

theorem message_framing : Framing (message response) where
  streams := message_streams hframing
  idle := ⟨1, rfl⟩
  progress {buf rest m} h := by
    match buf with
    | [] => cases h
    | b :: buf =>
      rw [message, peek] at h
      split at h
      · obtain ⟨n, hn, h4⟩ := packet_reads _ _ _ h
        omega
      · obtain ⟨mid, r, hr, hm⟩ := bind_eq_done.1 h
        obtain ⟨rfl, -⟩ := Outcome.done.inj hm
        exact hframing.progress hr

end Client

variable {calls : τ → List Message} {events : List (Locked.Event τ)}

/-- Only what passes the check is begun. -/
theorem accepted_of_mem_begun {m : τ × Message} (h : m ∈ (serve calls events).begun) :
    m.2.accepted ∧ m.2 ∈ calls m.1 := by
  have hsent : m.2 ∈ (serve calls events).sent m.1 :=
    List.mem_map.2 ⟨m, List.mem_filter.2 ⟨h, by simp⟩, rfl⟩
  have hqueue := Locked.sent_append_queue Message.pieces
    (fun t => (calls t).filter Message.accepted) events m.1
  have hmem : m.2 ∈ (calls m.1).filter Message.accepted :=
    hqueue ▸ List.mem_append_left _ hsent
  exact (List.mem_filter.1 hmem).symm

/-- What the client has received, and by whom it was sent. -/
theorem client_receives (response : Parser Bytes) (hframing : Framing response)
    (calls : τ → List Message)
    (hresponses : ∀ t bytes, .response bytes ∈ calls t → Readable response bytes)
    (events : List (Locked.Event τ)) (chunks : List Bytes)
    (hchunks : chunks.flatten = (serve calls events).wire) :
    ∃ order : List (τ × Message), (receive response chunks).items = order.map Prod.snd ∧
      (receive response chunks).error = none ∧
      (∀ t, (order.filter (·.1 = t)).map Prod.snd <+: (calls t).filter Message.accepted) ∧
      ((serve calls events).Idle → ∀ t,
        (order.filter (·.1 = t)).map Prod.snd = (calls t).filter Message.accepted) := by
  obtain ⟨whole, part, hwire, hbegun⟩ := Locked.exists_wire Message.pieces
    (fun t => (calls t).filter Message.accepted) events
  rw [← serve] at hwire hbegun
  have hyields : ∀ m ∈ (serve calls events).begun, Yields (message response) m.2.bytes m.2 := by
    intro m hm
    obtain ⟨haccepted, hmem⟩ := accepted_of_mem_begun hm
    exact message_yields hframing haccepted fun bytes hbytes =>
      hresponses m.1 bytes (hbytes ▸ hmem)
  have hmsg := message_framing hframing
  have hsub : whole <+: (serve calls events).begun := by
    rcases hbegun with ⟨h, -⟩ | ⟨m, left, h, -⟩
    · rw [h]
    · rw [h]
      exact List.prefix_append _ _
  -- A part of a message makes the client wait for the rest.
  obtain ⟨needed, hneeded⟩ : ∃ needed, message response part = .incomplete needed := by
    rcases hbegun with ⟨-, rfl⟩ | ⟨m, left, hm, hleft, hpart, -⟩
    · exact hmsg.idle
    · refine (hyields m (by rw [hm]; simp)).incomplete hmsg.streams ⟨left, hpart⟩ ?_
      rintro rfl
      exact hleft (List.append_right_eq_self.1 hpart)
  have hpasses : Passes (message response) chunks.flatten (whole.map Prod.snd) part := by
    have hbytes : whole.flatMap (fun m => m.2.pieces.flatten) =
        (whole.map Prod.snd).flatMap Message.bytes := by
      rw [List.flatMap_map]
      rfl
    rw [hchunks, hwire, hbytes]
    refine Passes.of_yields (fun v hv => ?_) part
    obtain ⟨m, hm, rfl⟩ := List.mem_map.1 hv
    exact hyields m (hsub.subset hm)
  have hsent (t : τ) : (serve calls events).sent t ++ (serve calls events).queue t =
      (calls t).filter Message.accepted := Locked.sent_append_queue _ _ events t
  refine ⟨whole, ?_, ?_, fun t => ?_, fun hidle t => ?_⟩
  · rw [receive, hmsg.foldl_strict_of_incomplete hpasses hneeded]
  · rw [receive, hmsg.foldl_strict_of_incomplete hpasses hneeded]
  · refine ((hsub.filter _).map _).trans ⟨_, hsent t⟩
  · obtain ⟨hfree, hqueue⟩ := hidle
    rcases hbegun with ⟨h, -⟩ | ⟨m, left, -, -, -, hheld⟩
    · rw [← hsent t, hqueue t, List.append_nil, Locked.State.sent, h]
    · exact absurd hfree hheld

/-- Responses are told from what follows them as requests are. -/
def framed : Parser Bytes := fun buf =>
  match tryConsumeRequest buf with
  | (rest, .ok (some r)) => .done rest r
  | (_, .ok none) => .incomplete 1
  | (_, .error _) => .error []

theorem framed_framing : Framing framed := by
  refine ⟨⟨fun {buf rest v} h more => ?_, fun {buf trace} h more => ?_,
    fun {buf rest v} h => ?_⟩, ⟨1, rfl⟩, fun {buf rest v} h => ?_⟩
  all_goals
    rw [framed] at h
    rcases tryConsumeRequest_cases buf with hc | ⟨e, hc, hmore⟩ | ⟨total, hpos, hlen, -, hc, hmore⟩
  all_goals
    rw [hc] at h
    cases h
  · rw [framed, hmore]
    dsimp only
    rw [List.drop_append_of_le_length hlen, List.take_append_of_le_length hlen]
  · rw [framed, hmore]
  · exact List.drop_suffix _ _
  · rw [List.length_drop]
    omega

/-- `RTSP/1.0 200 OK`, and no headers -/
def okResponse : Bytes :=
  [0x52, 0x54, 0x53, 0x50, 0x2f, 0x31, 0x2e, 0x30, 0x20, 0x32, 0x30, 0x30, 0x20, 0x4f, 0x4b,
    0x0d, 0x0a, 0x0d, 0x0a]

theorem okResponse_readable : Readable framed okResponse where
  yields := by
    have h : framed okResponse = .done [] okResponse := by decide +kernel
    exact fun more => framed_framing.streams.done h more
  head := by decide

/-- A loop sends two packets, and the connection a response. -/
def twoCalls (loop : Bool) : List Message :=
  if loop then [.packet 0 [0x80, 0x60], .packet 1 [0x24]] else [.response okResponse]

/-- The first packet is taken in three parts, while the response waits for the lock. -/
def twoEvents : List (Locked.Event Bool) :=
  [.lock true, .write 2, .lock false, .write 1, .write 1, .write 2, .write 0, .unlock,
    .lock false, .write 100, .write 0, .unlock, .lock true, .write 2, .write 2, .write 1,
    .write 0, .unlock]

/-- Two tasks, whose messages the client reads, each task's in its order. -/
theorem client_receives_two :
    (serve twoCalls twoEvents).Idle ∧ ∃ order : List (Bool × Message),
      (receive framed [(serve twoCalls twoEvents).wire.take 7,
        (serve twoCalls twoEvents).wire.drop 7]).items = order.map Prod.snd ∧
      ∀ t, (order.filter (·.1 = t)).map Prod.snd = twoCalls t := by
  have hidle : (serve twoCalls twoEvents).Idle := by
    unfold Locked.State.Idle
    decide +kernel
  have hresponses : ∀ t bytes, .response bytes ∈ twoCalls t → Readable framed bytes := by
    intro t bytes h
    cases t
    · obtain rfl : bytes = okResponse := by simpa [twoCalls] using h
      exact okResponse_readable
    · simp [twoCalls] at h
  obtain ⟨order, hitems, -, -, hall⟩ := client_receives framed framed_framing twoCalls hresponses
    twoEvents [(serve twoCalls twoEvents).wire.take 7, (serve twoCalls twoEvents).wire.drop 7]
    (by simp)
  refine ⟨hidle, order, hitems, fun t => (hall hidle t).trans ?_⟩
  cases t <;> decide

end Interleaved

end Bairelay
