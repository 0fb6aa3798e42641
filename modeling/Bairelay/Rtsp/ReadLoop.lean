import Bairelay.Rtsp.Request

/-!
# Reading requests

The loop of a connection (`handle_connection` in `rtsp/server/connection.rs`): after
each read, every complete request in the buffer is handed to its handler, and what is
left may not be too long. Deadlines and the shutdown of the server are left out.

* `serve_requests`: however a stream of well-formed requests is cut into reads, these
  are the requests handed over;
* `serve_interleaved_iff`: the loop knows nothing of binary packets between the requests.
  They do no harm only behind the last request, as long as they complete none.
-/

namespace Bairelay

/-- Why a connection is closed. -/
inductive Closing where
  /-- The client closed its side. -/
  | peer
  /-- The buffer holds no request, and is too long. -/
  | tooLong
  /-- What is in the buffer is no request. -/
  | malformed (error : String)
  /-- The handler of a request failed. -/
  | handler
  deriving DecidableEq, Repr

/-- The buffer of a connection, the requests handed over, and how it ended. -/
structure ReadLoop where
  buf : Bytes := []
  dispatched : List Bytes := []
  closed : Option Closing := none
  deriving DecidableEq, Repr

variable (dispatch : ℕ → Bytes → Bool)

/-- Hand over every complete request in the buffer; `dispatch` says whether the handler
    of the request of a number succeeds. -/
def drainRequests : ℕ → ReadLoop → ReadLoop
  | 0, c => c
  | fuel + 1, c =>
    match tryConsumeRequest c.buf with
    | (buf, .ok (some request)) =>
      let dispatched := c.dispatched ++ [request]
      if dispatch c.dispatched.length request then
        drainRequests fuel { c with buf, dispatched }
      else { buf, dispatched, closed := some .handler }
    | (buf, .ok none) =>
      if maxRequestBytes < buf.length then { c with buf, closed := some .tooLong }
      else { c with buf }
    | (buf, .error e) => { c with buf, closed := some (.malformed e) }

/-- A read returns a chunk, an empty one at the end of the stream. -/
def readOnceOrMore (c : ReadLoop) (chunk : Bytes) : ReadLoop :=
  match c.closed with
  | some _ => c
  | none =>
    if chunk = [] then { c with closed := some .peer }
    else
      let buf := c.buf ++ chunk
      drainRequests dispatch (buf.length + 1) { c with buf }

/-- A connection to which chunks have come. -/
def serve (chunks : List Bytes) : ReadLoop := chunks.foldl (readOnceOrMore dispatch) {}

/-- What a stream may be cut into: reads are not empty, and the buffer for one has 4096
    bytes. -/
def IsCut (chunks : List Bytes) (stream : Bytes) : Prop :=
  chunks.flatten = stream ∧ ∀ chunk ∈ chunks, chunk ≠ [] ∧ chunk.length ≤ 4096

/-- The requests up to the first one whose handler fails. -/
def untilError : ℕ → List Bytes → List Bytes
  | _, [] => []
  | n, request :: requests =>
    request :: if dispatch n request then untilError (n + 1) requests else []

/-- The handlers of some requests, the first of them of number `n`, all succeed. -/
def Accepts : ℕ → List Bytes → Prop
  | _, [] => True
  | n, request :: requests => dispatch n request ∧ Accepts (n + 1) requests

/-- Nothing can be sliced off the buffer, and it is not too long. -/
def Waits (buf : Bytes) : Prop :=
  tryConsumeRequest buf = (buf, .ok none) ∧ buf.length ≤ maxRequestBytes

theorem waits_nil : Waits [] := ⟨rfl, Nat.zero_le _⟩

/-- What starts what waits, waits. -/
theorem Waits.of_prefix {buf buf' : Bytes} (h : Waits buf') (hpre : buf <+: buf') :
    Waits buf := by
  obtain ⟨more, rfl⟩ := hpre
  obtain ⟨hnone, hlen⟩ := h
  rw [List.length_append] at hlen
  refine ⟨?_, by omega⟩
  rcases tryConsumeRequest_cases buf with hc | ⟨e, -, hmore⟩ | ⟨total, -, -, -, -, hmore⟩
  · exact hc
  · rw [hmore] at hnone
    simp at hnone
  · rw [hmore] at hnone
    simp at hnone

/-- Less than a request waits for the rest. -/
theorem waits_of_prefix_request {request : Request} {buf : Bytes} (h : buf <+: request.bytes)
    (hlt : buf.length < request.bytes.length) : Waits buf := by
  have hbytes := request.tryConsumeRequest_bytes
  have hmax : request.bytes.length ≤ maxRequestBytes := by
    rw [Request.bytes, List.length_append]
    exact request.length_le
  refine ⟨?_, by omega⟩
  obtain ⟨more, hmore⟩ := h
  rw [← hmore] at hbytes
  rcases tryConsumeRequest_cases buf with hc | ⟨e, -, hc⟩ | ⟨total, -, hle, -, -, hc⟩
  · exact hc
  · rw [hc] at hbytes
    simp at hbytes
  · -- It would take the same bytes off the whole request.
    rw [hc, List.take_append_of_le_length hle] at hbytes
    have hlen := congrArg List.length (Option.some.inj (Except.ok.inj (Prod.mk.inj hbytes).2))
    rw [hmore, List.length_take] at hlen
    omega

theorem request_bytes_ne_nil (request : Request) : request.bytes ≠ [] := by
  intro h
  have hbytes := request.tryConsumeRequest_bytes
  rw [h] at hbytes
  cases hbytes

/-- A request is sliced off, whatever follows. -/
theorem tryConsumeRequest_append (request : Request) (more : Bytes) :
    tryConsumeRequest (request.bytes ++ more) = (more, .ok (some request.bytes)) := by
  have h := tryConsumeRequest_lawful.append
    (Prod.ext_iff.2 ⟨rfl, request.tryConsumeRequest_bytes⟩ :
      requestDecoder () request.bytes = ((), [], .ok (some request.bytes))) (by simp) more
  exact (Prod.mk.inj h).2

/-- Requests are accepted one after the other. -/
theorem accepts_append {n : ℕ} {requests : List Bytes} (more : List Bytes) :
    Accepts dispatch n (requests ++ more) ↔
      Accepts dispatch n requests ∧ Accepts dispatch (n + requests.length) more := by
  induction requests generalizing n with
  | nil => simp [Accepts]
  | cons request requests ih =>
    rw [List.cons_append, Accepts, Accepts, ih, List.length_cons, and_assoc,
      Nat.add_right_comm n, Nat.add_assoc]

theorem untilError_of_accepts {n : ℕ} {requests : List Bytes} (h : Accepts dispatch n requests) :
    untilError dispatch n requests = requests := by
  induction requests generalizing n with
  | nil => rfl
  | cons request requests ih => rw [untilError, if_pos h.1, ih h.2]

/-- What comes behind a request whose handler fails, is not reached. -/
theorem untilError_append {n : ℕ} {done : List Bytes} {request : Bytes} (more : List Bytes)
    (haccepts : Accepts dispatch n done) (hfails : ¬dispatch (n + done.length) request) :
    untilError dispatch n (done ++ request :: more) = done ++ [request] := by
  induction done generalizing n with
  | nil =>
    rw [List.nil_append, untilError, if_neg (by simpa using hfails), List.nil_append]
  | cons request' done ih =>
    have hfails' : ¬dispatch (n + 1 + done.length) request := by
      rwa [List.length_cons, ← Nat.add_assoc, Nat.add_right_comm] at hfails
    rw [List.cons_append, untilError, if_pos haccepts.1, ih haccepts.2 hfails', List.cons_append]

/-! ## The requests of a stream -/

/-- Where the loop is when `arrived` is what it has read of a stream of requests. -/
inductive Follows (requests : List Request) (arrived : Bytes) : ReadLoop → Prop where
  /-- Some requests are done, and the buffer waits. -/
  | waits {done left : List Request} {buf : Bytes} (hrequests : requests = done ++ left)
      (harrived : arrived = done.flatMap Request.bytes ++ buf) (hwaits : Waits buf)
      (haccepts : Accepts dispatch 0 (done.map Request.bytes)) :
      Follows requests arrived { buf, dispatched := done.map Request.bytes }
  /-- The handler of a request has failed. -/
  | failed {done left : List Request} {request : Request} {buf : Bytes}
      (hrequests : requests = done ++ request :: left)
      (haccepts : Accepts dispatch 0 (done.map Request.bytes))
      (hfails : ¬dispatch done.length request.bytes) :
      Follows requests arrived
        { buf, dispatched := done.map Request.bytes ++ [request.bytes], closed := some .handler }

/-- The loop dispatches the requests that are complete, and keeps the beginning of the next. -/
theorem follows_drainRequests {requests done left : List Request} {buf arrived tail : Bytes}
    {fuel : ℕ} (hwaits : Waits tail) (hrequests : requests = done ++ left)
    (harrived : arrived = done.flatMap Request.bytes ++ buf)
    (hbuf : buf <+: left.flatMap Request.bytes ++ tail)
    (haccepts : Accepts dispatch 0 (done.map Request.bytes)) (hfuel : buf.length < fuel) :
    Follows dispatch requests arrived
      (drainRequests dispatch fuel { buf, dispatched := done.map Request.bytes }) := by
  induction left generalizing done buf fuel with
  | nil =>
    obtain ⟨fuel, rfl⟩ := Nat.exists_eq_succ_of_ne_zero (Nat.ne_zero_of_lt hfuel)
    have hbuf' : Waits buf := hwaits.of_prefix hbuf
    rw [drainRequests, hbuf'.1]
    dsimp only
    rw [if_neg (not_lt.2 hbuf'.2)]
    exact .waits hrequests harrived hbuf' haccepts
  | cons request left ih =>
    obtain ⟨fuel, rfl⟩ := Nat.exists_eq_succ_of_ne_zero (Nat.ne_zero_of_lt hfuel)
    rw [List.flatMap_cons, List.append_assoc] at hbuf
    by_cases hlt : buf.length < request.bytes.length
    · -- The rest of the request is still to come.
      have hpre : buf <+: request.bytes :=
        List.prefix_of_prefix_length_le hbuf (List.prefix_append ..) hlt.le
      have hbuf' := waits_of_prefix_request hpre hlt
      rw [drainRequests, hbuf'.1]
      dsimp only
      rw [if_neg (not_lt.2 hbuf'.2)]
      exact .waits hrequests harrived hbuf' haccepts
    · obtain ⟨rest, rfl⟩ : request.bytes <+: buf :=
        List.prefix_of_prefix_length_le (List.prefix_append ..) hbuf (not_lt.1 hlt)
      rw [drainRequests, tryConsumeRequest_append]
      dsimp only
      rw [List.length_map]
      split
      · next hdispatch =>
        have hpos := List.length_pos_iff.2 (request_bytes_ne_nil request)
        have hdone : done.map Request.bytes ++ [request.bytes] =
            (done ++ [request]).map Request.bytes := by
          rw [List.map_append, List.map_cons, List.map_nil]
        rw [hdone]
        apply ih
        · rw [hrequests, List.append_assoc, List.singleton_append]
        · rw [harrived, List.flatMap_append, List.flatMap_singleton, List.append_assoc]
        · exact (List.prefix_append_right_inj _).1 hbuf
        · rw [← hdone, accepts_append]
          refine ⟨haccepts, ?_, trivial⟩
          rwa [Nat.zero_add, List.length_map]
        · rw [List.length_append] at hfuel
          omega
      · next hfails => exact .failed hrequests haccepts hfails

theorem follows_readOnceOrMore {requests : List Request} {arrived chunk tail : Bytes}
    {c : ReadLoop} (hwaits : Waits tail) (h : Follows dispatch requests arrived c)
    (hchunk : chunk ≠ [])
    (hpre : arrived ++ chunk <+: requests.flatMap Request.bytes ++ tail) :
    Follows dispatch requests (arrived ++ chunk) (readOnceOrMore dispatch c chunk) := by
  cases h with
  | waits hrequests harrived hwaits' haccepts =>
    rw [readOnceOrMore]
    dsimp only
    rw [if_neg hchunk]
    refine follows_drainRequests dispatch hwaits hrequests ?_ ?_ haccepts (Nat.lt_succ_self _)
    · rw [harrived, List.append_assoc]
    · rwa [harrived, hrequests, List.flatMap_append, List.append_assoc, List.append_assoc,
        List.prefix_append_right_inj] at hpre
  | failed hrequests haccepts hfails => exact .failed hrequests haccepts hfails

/-- However a stream of requests, and bytes that wait behind them, is cut into reads. -/
theorem follows_serve {requests : List Request} {tail : Bytes} {chunks : List Bytes}
    (hwaits : Waits tail) (hchunks : ∀ chunk ∈ chunks, chunk ≠ [])
    (hpre : chunks.flatten <+: requests.flatMap Request.bytes ++ tail) :
    Follows dispatch requests chunks.flatten (serve dispatch chunks) := by
  induction chunks using List.reverseRecOn with
  | nil =>
    exact @Follows.waits dispatch requests [] [] requests [] rfl rfl waits_nil trivial
  | append_singleton chunks chunk ih =>
    rw [List.flatten_concat] at hpre ⊢
    rw [serve, List.foldl_concat]
    refine follows_readOnceOrMore dispatch hwaits (ih ?_ ?_) (hchunks chunk (by simp)) hpre
    · exact fun c hc => hchunks c (List.mem_append_left _ hc)
    · exact (List.prefix_append ..).trans hpre

/-- Once all of the stream is read, nothing but the bytes behind the requests is left. -/
theorem Follows.all {requests : List Request} {tail : Bytes} {c : ReadLoop}
    (h : Follows dispatch requests (requests.flatMap Request.bytes ++ tail) c) :
    (Accepts dispatch 0 (requests.map Request.bytes) ∧
        c = { buf := tail, dispatched := requests.map Request.bytes }) ∨
      ¬Accepts dispatch 0 (requests.map Request.bytes) ∧
        c.dispatched = untilError dispatch 0 (requests.map Request.bytes) ∧
          c.closed = some .handler := by
  cases h with
  | @waits done left buf hrequests harrived hwaits haccepts =>
    subst hrequests
    rw [List.flatMap_append, List.append_assoc] at harrived
    obtain rfl := List.append_cancel_left harrived
    cases left with
    | nil => exact .inl (by simpa using haccepts)
    | cons request left =>
      -- There would be a request in the buffer.
      have hnone := hwaits.1
      rw [List.flatMap_cons, List.append_assoc, tryConsumeRequest_append] at hnone
      simp at hnone
  | @failed done left request buf hrequests haccepts hfails =>
    rw [hrequests, List.map_append, List.map_cons]
    refine .inr ⟨?_, ?_, rfl⟩
    · rw [accepts_append, List.length_map, Nat.zero_add]
      exact fun h => hfails h.2.1
    · rw [untilError_append dispatch _ haccepts (by simpa using hfails)]

theorem follows_all {requests : List Request} {tail : Bytes} {chunks : List Bytes}
    (hwaits : Waits tail) (hcut : IsCut chunks (requests.flatMap Request.bytes ++ tail)) :
    Follows dispatch requests (requests.flatMap Request.bytes ++ tail) (serve dispatch chunks) := by
  obtain ⟨hstream, hchunks⟩ := hcut
  rw [← hstream]
  refine follows_serve dispatch hwaits (fun chunk hchunk => (hchunks chunk hchunk).1) ?_
  rw [hstream]

/-- Requests are handed over as they were sent, each once and with its body, up to one
    whose handler fails; the connection is closed for nothing else. -/
theorem serve_requests (requests : List Request) (chunks : List Bytes)
    (hcut : IsCut chunks (requests.flatMap Request.bytes)) :
    (serve dispatch chunks).dispatched = untilError dispatch 0 (requests.map Request.bytes) ∧
      (Accepts dispatch 0 (requests.map Request.bytes) →
        (serve dispatch chunks).dispatched = requests.map Request.bytes ∧
          (serve dispatch chunks).closed = none ∧ (serve dispatch chunks).buf = []) ∧
      (¬Accepts dispatch 0 (requests.map Request.bytes) →
        (serve dispatch chunks).closed = some .handler) := by
  rw [← List.append_nil (requests.flatMap Request.bytes)] at hcut
  rcases (follows_all dispatch waits_nil hcut).all with ⟨haccepts, hc⟩ | ⟨hfails, hrequests, hc⟩
  · rw [hc, untilError_of_accepts dispatch haccepts]
    exact ⟨rfl, fun _ => ⟨rfl, rfl, rfl⟩, fun h => absurd haccepts h⟩
  · exact ⟨hrequests, fun h => absurd h hfails, fun _ => hc⟩

/-- `OPTIONS * RTSP/1.0` -/
def optionsRequest : Request where
  method := [0x4f, 0x50, 0x54, 0x49, 0x4f, 0x4e, 0x53]
  uri := [0x2a]
  version := [0x52, 0x54, 0x53, 0x50, 0x2f, 0x31, 0x2e, 0x30]
  headers := [⟨[0x43, 0x53, 0x65, 0x71], [0x20, 0x31]⟩]
  body := []
  isLine := by decide +kernel
  isToken := by decide +kernel
  wellFormed := by decide +kernel
  utf8 := by decide +kernel
  announced := by rfl
  length_le := by decide +kernel

/-- `GET_PARAMETER * RTSP/1.0`, with `ping` as its body -/
def pingRequest : Request where
  method := [0x47, 0x45, 0x54, 0x5f, 0x50, 0x41, 0x52, 0x41, 0x4d, 0x45, 0x54, 0x45, 0x52]
  uri := [0x2a]
  version := [0x52, 0x54, 0x53, 0x50, 0x2f, 0x31, 0x2e, 0x30]
  headers := [⟨[0x43, 0x53, 0x65, 0x71], [0x20, 0x32]⟩, ⟨contentLength, [0x20, 0x34]⟩]
  body := [0x70, 0x69, 0x6e, 0x67]
  isLine := by decide +kernel
  isToken := by decide +kernel
  wellFormed := by decide +kernel
  utf8 := by decide +kernel
  announced := show Denotes [0x20, 0x34] 4 from
    ⟨[0x20], [0x34], [], rfl, by simp, by simp, by simp, rfl, rfl⟩
  length_le := by decide +kernel

theorem serve_requests_pipelined :
    let requests := [pingRequest, optionsRequest]
    let stream := requests.flatMap Request.bytes
    IsCut [stream.take 2, (stream.drop 2).take 60, stream.drop 62] stream ∧
      (serve (fun _ _ => true) [stream.take 2, (stream.drop 2).take 60, stream.drop 62]).closed =
        none := by
  have hcut : IsCut
      [([pingRequest, optionsRequest].flatMap Request.bytes).take 2,
        (([pingRequest, optionsRequest].flatMap Request.bytes).drop 2).take 60,
        ([pingRequest, optionsRequest].flatMap Request.bytes).drop 62]
      ([pingRequest, optionsRequest].flatMap Request.bytes) := by
    unfold IsCut
    decide +kernel
  exact ⟨hcut, ((serve_requests (fun _ _ => true) _ _ hcut).2.1 ⟨rfl, rfl, trivial⟩).2.1⟩

/-! ## Binary packets between the requests -/

/-- A piece of what a client sends whose session is carried by the connection. -/
inductive Item where
  /-- A request: its method is no `$`. -/
  | request (request : Request) (hmethod : request.bytes.head? ≠ some 0x24)
  /-- A packet behind `$`, its channel and its length. -/
  | packet (channel : UInt8) (data : Bytes) (hlen : data.length < 2 ^ 16)

namespace Item

/-- The bytes of an item. -/
def bytes : Item → Bytes
  | request r _ => r.bytes
  | packet channel data _ =>
    0x24 :: channel :: UInt8.ofNat (data.length / 256) :: UInt8.ofNat (data.length % 256) :: data

/-- The request, if it is one. -/
def request? : Item → Option Request
  | request r _ => some r
  | packet .. => none

end Item

/-- While the connection is open, what was read is in the requests and in the buffer. -/
theorem drainRequests_open {fuel : ℕ} {c : ReadLoop} (hfuel : c.buf.length < fuel)
    (hopen : (drainRequests dispatch fuel c).closed = none) :
    (drainRequests dispatch fuel c).dispatched.flatten ++ (drainRequests dispatch fuel c).buf =
        c.dispatched.flatten ++ c.buf ∧
      Waits (drainRequests dispatch fuel c).buf := by
  induction fuel generalizing c with
  | zero => exact absurd hfuel (Nat.not_lt_zero _)
  | succ fuel ih =>
    rw [drainRequests] at hopen ⊢
    rcases tryConsumeRequest_cases c.buf with hc | ⟨e, hc, -⟩ | ⟨total, hpos, hle, -, hc, -⟩
    · rw [hc] at hopen ⊢
      dsimp only at hopen ⊢
      split at hopen
      · cases hopen
      · next hlen =>
        rw [if_neg hlen]
        exact ⟨rfl, hc, not_lt.1 hlen⟩
    · rw [hc] at hopen
      cases hopen
    · rw [hc] at hopen ⊢
      dsimp only at hopen ⊢
      split at hopen
      · next hdispatch =>
        rw [if_pos hdispatch]
        have hlen : (c.buf.drop total).length < fuel := by
          rw [List.length_drop]
          omega
        obtain ⟨hbytes, hwaits⟩ := ih hlen hopen
        refine ⟨?_, hwaits⟩
        rw [hbytes, List.flatten_concat, List.append_assoc, List.take_append_drop]
      · cases hopen

/-- As long as the connection is open, what has come was dispatched or is kept. -/
theorem serve_open {chunks : List Bytes} (hopen : (serve dispatch chunks).closed = none) :
    (serve dispatch chunks).dispatched.flatten ++ (serve dispatch chunks).buf = chunks.flatten ∧
      Waits (serve dispatch chunks).buf := by
  induction chunks using List.reverseRecOn with
  | nil => exact ⟨rfl, waits_nil⟩
  | append_singleton chunks chunk ih =>
    rw [serve, List.foldl_concat, ← serve, readOnceOrMore] at hopen ⊢
    cases hclosed : (serve dispatch chunks).closed with
    | some closing =>
      rw [hclosed] at hopen
      dsimp only at hopen
      rw [hclosed] at hopen
      cases hopen
    | none =>
      rw [hclosed] at hopen
      dsimp only at hopen ⊢
      split at hopen
      · cases hopen
      · next hchunk =>
        rw [if_neg hchunk]
        obtain ⟨hbytes, hwaits⟩ := drainRequests_open dispatch (Nat.lt_succ_self _) hopen
        refine ⟨?_, hwaits⟩
        rw [hbytes, List.flatten_concat, ← (ih hclosed).1, List.append_assoc]

/-- Where the requests and what is left of the stream are all of it, no packet comes before
    a request. -/
theorem packets_last {items : List Item} {buf : Bytes}
    (h : ((items.filterMap Item.request?).map Request.bytes).flatten ++ buf =
      items.flatMap Item.bytes) :
    ∃ requests packets, items = requests ++ packets ∧
      (∀ item ∈ requests, item.request?.isSome) ∧ (∀ item ∈ packets, item.request? = none) ∧
        packets.flatMap Item.bytes = buf := by
  induction items with
  | nil =>
    obtain rfl : buf = [] := h
    exact ⟨[], [], rfl, by simp, by simp, rfl⟩
  | cons item items ih =>
    cases item with
    | request r hmethod =>
      have hcons : (Item.request r hmethod :: items).filterMap Item.request? =
          r :: items.filterMap Item.request? := rfl
      rw [hcons, List.map_cons, List.flatten_cons, List.append_assoc, List.flatMap_cons] at h
      obtain ⟨requests, packets, rfl, hrequests, hpackets, hbuf⟩ :=
        ih (List.append_cancel_left h)
      refine ⟨.request r hmethod :: requests, packets, rfl, ?_, hpackets, hbuf⟩
      exact List.forall_mem_cons.2 ⟨rfl, hrequests⟩
    | packet channel data hlen =>
      have hcons : (Item.packet channel data hlen :: items).filterMap Item.request? =
          items.filterMap Item.request? := rfl
      rw [hcons] at h
      cases hrest : items.filterMap Item.request? with
      | nil =>
        rw [hrest] at h
        refine ⟨[], .packet channel data hlen :: items, rfl, by simp, ?_, h.symm⟩
        exact List.forall_mem_cons.2 ⟨rfl, List.filterMap_eq_nil_iff.1 hrest⟩
      | cons r requests =>
        -- The stream begins with `$`, so no request is its first bytes.
        have hr : r ∈ items.filterMap Item.request? := hrest ▸ List.mem_cons_self
        obtain ⟨item, -, hitem⟩ := List.mem_filterMap.1 hr
        obtain ⟨b, rest, hb⟩ := List.exists_cons_of_ne_nil (request_bytes_ne_nil r)
        rw [hrest, List.map_cons, List.flatten_cons, hb] at h
        obtain ⟨rfl, -⟩ := List.cons.inj h
        cases item with
        | request r' hmethod =>
          obtain rfl := Option.some.inj hitem
          exact absurd (by rw [hb]; rfl) hmethod
        | packet => cases hitem

/-- The requests are all handed over, and the connection stays open, just if no packet comes
    before a request, and those behind the last one complete nothing. -/
theorem serve_interleaved_iff (items : List Item) (chunks : List Bytes)
    (hcut : IsCut chunks (items.flatMap Item.bytes))
    (haccepts : Accepts dispatch 0 ((items.filterMap Item.request?).map Request.bytes)) :
    ((serve dispatch chunks).dispatched =
          (items.filterMap Item.request?).map Request.bytes ∧
        (serve dispatch chunks).closed = none) ↔
      ∃ requests packets, items = requests ++ packets ∧
        (∀ item ∈ requests, item.request?.isSome) ∧ (∀ item ∈ packets, item.request? = none) ∧
          Waits (packets.flatMap Item.bytes) := by
  constructor
  · rintro ⟨hdispatched, hopen⟩
    obtain ⟨hbytes, hwaits⟩ := serve_open dispatch hopen
    rw [hdispatched, hcut.1] at hbytes
    obtain ⟨requests, packets, hitems, hrequests, hpackets, hbuf⟩ := packets_last hbytes
    exact ⟨requests, packets, hitems, hrequests, hpackets, hbuf ▸ hwaits⟩
  · rintro ⟨requests, packets, rfl, hrequests, hpackets, hwaits⟩
    have hnone : packets.filterMap Item.request? = [] := List.filterMap_eq_nil_iff.2 hpackets
    have hbytes : requests.flatMap Item.bytes =
        (requests.filterMap Item.request?).flatMap Request.bytes := by
      clear hcut haccepts
      induction requests with
      | nil => rfl
      | cons item requests ih =>
        obtain ⟨hitem, hrest⟩ := List.forall_mem_cons.1 hrequests
        cases item with
        | request r hmethod => exact congrArg (r.bytes ++ ·) (ih hrest)
        | packet => cases hitem
    rw [List.filterMap_append, hnone, List.append_nil] at haccepts ⊢
    rw [List.flatMap_append, hbytes] at hcut
    rcases (follows_all dispatch hwaits hcut).all with ⟨-, hc⟩ | ⟨hfails, -⟩
    · rw [hc]
      exact ⟨rfl, rfl⟩
    · exact absurd haccepts hfails

/-- The report of a receiver that has received nothing yet. -/
def receiverReport : Item := .packet 1 [0x81, 0xc9, 0, 1, 0, 0, 0, 1] (by decide)

/-- In front of a request, it is taken for the start of one. -/
theorem receiverReport_dispatched :
    let stream := receiverReport.bytes ++ optionsRequest.bytes
    IsCut [stream] stream ∧ (serve (fun _ _ => true) [stream]).dispatched = [stream] ∧
      (serve (fun _ request => request.head? ≠ some 0x24) [stream]).closed = some .handler := by
  unfold IsCut
  decide +kernel

/-- A packet between the requests of a connection is not dispatched. -/
theorem serve_interleaved_report :
    (serve (fun _ _ => true) [optionsRequest.bytes ++ receiverReport.bytes]).dispatched =
      [optionsRequest.bytes] := by
  have hcut : IsCut [optionsRequest.bytes ++ receiverReport.bytes]
      ([.request optionsRequest (by decide +kernel), receiverReport].flatMap Item.bytes) := by
    unfold IsCut
    decide +kernel
  refine ((serve_interleaved_iff (fun _ _ => true) _ _ hcut ⟨rfl, trivial⟩).2
    ⟨[.request optionsRequest (by decide +kernel)], [receiverReport], rfl, by simp [Item.request?],
      by simp [Item.request?, receiverReport], ?_⟩).1
  unfold Waits
  decide +kernel

end Bairelay
