import Bairelay.Wake.Client

/-!
# A call of the wake server

`register_address` sends its C2R_C every half a second, until it takes an answer or the time is
over (`retry_send` of `bc_protocol/connection/discovery.rs`). Its datagrams may be lost, doubled,
delayed or overtaken on their way, and so may the answers: the server takes those that come, in
between whatever else it receives, and the call takes what comes back to it.

* `client_registers`: the call returns the address that a camera was last heard from, exactly if an
  answer has come to it that the server gave when a camera of the UID was heard not too long ago
  (and one of the addresses can be used); it never returns the error of a server that refuses, and
  in the end it times out.
-/

namespace Bairelay

/-- The time between two requests. -/
def resendWait : Duration := .ofMillis 500

/-- The time after which the client gives up. -/
def maximumWait : Duration := .ofSecs 15

/-- A call of `register_address`: where the server sees it, and what it sends where. -/
structure RegisterCall where
  src : SocketAddr
  tid : UInt32
  msg : C2rC
  reg : SocketAddr

/-- A C2R_C that the server takes after some events. -/
structure Asked where
  before : List WakeProtocol.Event
  now : Instant
  nowSecs : ℕ
  sid : UInt32
  shuffle : Shuffle (String × CameraEntry SocketAddr)
  kernel : IpAddr → Option IpAddr

namespace RegisterCall

/-- The server and the call, with what was on the way between them. -/
structure State where
  handled : List WakeProtocol.Event := []
  asked : List Asked := []
  sends : ℕ := 0
  result : Option (Except DiscoveryError RegisterResult) := none

/-- What happens during a call. -/
inductive Event where
  /-- The server does something else. -/
  | server (e : WakeProtocol.Event)
  /-- It takes a C2R_C of the call. -/
  | request (now : Instant) (nowSecs : ℕ) (sid : UInt32)
      (shuffle : Shuffle (String × CameraEntry SocketAddr)) (kernel : IpAddr → Option IpAddr)
  /-- The `j`-th datagram that it has sent for the `k`-th of them comes back. -/
  | receive (k j : ℕ)
  /-- The interval is over. -/
  | tick

variable (parseIpv6 : Bytes → Option IpAddr) (cfg : Listeners) (call : RegisterCall)

/-- What a C2R_C of the call is to the server. -/
def ask (q : Asked) : WakeProtocol.Event :=
  .register ⟨q.now, call.src, call.tid, .c2rC call.msg⟩ q.nowSecs q.sid q.shuffle q.kernel

/-- What the server sends for it. -/
def answers (q : Asked) : List WakePayload :=
  (WakeProtocol.answers cfg q.before ⟨q.now, call.src, call.tid, .c2rC call.msg⟩ q.nowSecs q.sid
    q.shuffle q.kernel).map Departure.payload

/-- What the call makes of a datagram that comes back to it. -/
def take? (s : State) (k j : ℕ) : Option (Except DiscoveryError RegisterResult) := do
  let q ← s.asked[k]?
  let answer ← (call.answers cfg q)[j]?
  takeRegister parseIpv6 call.reg call.msg.cid answer

/-- One event of the call. -/
def step (s : State) : Event → State
  | .server e => { s with handled := s.handled ++ [e] }
  | .request now nowSecs sid shuffle kernel =>
    -- Nothing comes of what was never sent.
    if s.sends = 0 then s
    else
      let q := ⟨s.handled, now, nowSecs, sid, shuffle, kernel⟩
      { s with handled := s.handled ++ [call.ask q], asked := s.asked ++ [q] }
  | .receive k j =>
    if s.result.isSome then s
    else { s with result := call.take? parseIpv6 cfg s k j }
  | .tick =>
    if s.result.isSome then s
    -- The first tick is immediate.
    else if s.sends * resendWait < maximumWait then { s with sends := s.sends + 1 }
    else { s with result := some (.error .discoveryTimeout) }

/-- A run of the call. -/
def run (events : List Event) : State := events.foldl (call.step parseIpv6 cfg) {}

theorem run_concat (events : List Event) (e : Event) :
    call.run parseIpv6 cfg (events ++ [e]) =
      call.step parseIpv6 cfg (call.run parseIpv6 cfg events) e := List.foldl_concat ..

/-- The C2R_C whose first answer comes back to the call while it waits. -/
def answered? (s : State) : Event → Option Asked
  | .receive k 0 => if s.result.isSome then none else s.asked[k]?
  | _ => none

/-- All such. -/
def answered (events : List Event) : List Asked :=
  (Past.moments (call.step parseIpv6 cfg) {} events).filterMap fun m => answered? m.1 m.2

/-- The requests that were answered, with one event more. -/
theorem answered_concat (events : List Event) (e : Event) :
    call.answered parseIpv6 cfg (events ++ [e]) = call.answered parseIpv6 cfg events ++
      (answered? (call.run parseIpv6 cfg events) e).toList := by
  rw [answered, Past.moments_concat, List.filterMap_append, ← answered]
  change _ ++ [(call.run parseIpv6 cfg events, e)].filterMap (fun m => answered? m.1 m.2) = _
  cases h : answered? (call.run parseIpv6 cfg events) e <;> simp [h]

/-! ## What the server answers -/

/-- The server finds a camera, and answers with where it was last heard from and with its own
    address. -/
structure Finds (q : Asked) (entry : CameraEntry SocketAddr) (relay : IpAddr) : Prop where
  heard : WakeProtocol.Heard cfg q.before call.msg.uid q.now entry
  answers : call.answers cfg q =
    let cam : IpPort := ⟨entry.addr.ip.text, entry.addr.port⟩
    [.r2cCr (some cam) (some cam) (some ⟨relay.text, cfg.registerPort⟩) none (utf8 "NULL")
      (some q.sid) 0 0, .r2cT cam cam q.sid call.msg.cid]

/-- One of the addresses is such that a call can use it. -/
def Usable (entry : CameraEntry SocketAddr) (relay : IpAddr) : Prop :=
  entry.addr.Reachable ∨ SocketAddr.Reachable ⟨relay, cfg.registerPort⟩

instance (entry : CameraEntry SocketAddr) (relay : IpAddr) : Decidable (Usable cfg entry relay) :=
  inferInstanceAs (Decidable (_ ∨ _))

/-- What the call returns for it. -/
def told (q : Asked) (entry : CameraEntry SocketAddr) (relay : IpAddr) : RegisterResult :=
  let cam := IpPort.toSocketAddr? parseIpv6 ⟨entry.addr.ip.text, entry.addr.port⟩
  ⟨call.reg, q.sid, call.msg.cid, cam, cam,
    IpPort.toSocketAddr? parseIpv6 ⟨relay.text, cfg.registerPort⟩⟩

/-- The text of an address is read as what it is; for one of version 4 it always is. -/
def Readable (ip : IpAddr) : Prop := ∀ segments, ip = .v6 segments → parseIpv6 ip.text = some ip

variable {parseIpv6 cfg call}

theorem answers_of_lt {q : Asked} (h : WakeRequest.maxUidLen < call.msg.uid.utf8ByteSize) :
    call.answers cfg q = [] := by
  have hinvalid : ¬(WakeRequest.c2rC call.msg).validateUidBounds := by
    rw [WakeRequest.validateUidBounds, WakeRequest.uid?, Option.all_some, decide_eq_true_iff]
    exact not_le.2 h
  rw [answers, WakeProtocol.answers, WakeProtocol.step, WakeProtocol.handleRegister,
    if_pos hinvalid, List.map_nil]

/-- The server finds a camera, or it refuses and names no address at all. -/
theorem finds_or_refuses (cfg : Listeners) {q : Asked}
    (hlen : call.msg.uid.utf8ByteSize ≤ WakeRequest.maxUidLen) :
    (∃ entry relay, Finds cfg call q entry relay) ∨
      (¬∃ entry, WakeProtocol.Heard cfg q.before call.msg.uid q.now entry) ∧
      call.answers cfg q = [.r2cCr none none none none (utf8 "NULL") none (-1) 0] := by
  have hvalid : (WakeRequest.c2rC call.msg).validateUidBounds := by
    rw [WakeRequest.validateUidBounds, WakeRequest.uid?, Option.all_some]
    exact decide_eq_true hlen
  rcases @WakeProtocol.answers_connect cfg q.before
    ⟨q.now, call.src, call.tid, .c2rC call.msg⟩ _ rfl hvalid q.nowSecs q.sid q.shuffle
    q.kernel with ⟨hnone, hsent⟩ | ⟨entry, relay, hheard, hsent⟩
  · exact .inr ⟨not_exists.2 hnone, hsent⟩
  · exact .inl ⟨entry, relay, hheard, hsent⟩

/-- Unless the server finds a camera, nothing of its answer is taken, not even as an error. -/
theorem acceptRegister_of_not_finds {q : Asked}
    (h : ¬∃ entry relay, Finds cfg call q entry relay) {answer : WakePayload}
    (hanswer : answer ∈ call.answers cfg q) : acceptRegister answer = none := by
  rcases le_or_gt call.msg.uid.utf8ByteSize WakeRequest.maxUidLen with hlen | hlong
  · rw [((finds_or_refuses cfg hlen).resolve_left h).2, List.mem_singleton] at hanswer
    rw [hanswer]
    rfl
  · rw [answers_of_lt hlong] at hanswer
    cases hanswer

/-- The first datagram is taken if one of its addresses can be used. -/
theorem Finds.take_zero {q : Asked} {entry : CameraEntry SocketAddr} {relay : IpAddr}
    (h : Finds cfg call q entry relay) :
    (call.answers cfg q)[0]?.bind (takeRegister parseIpv6 call.reg call.msg.cid) =
      if Usable cfg entry relay then some (.ok (told parseIpv6 cfg call q entry relay))
      else none := by
  rw [h.answers]
  exact takeRegister_found parseIpv6 call.reg entry.addr ⟨relay, cfg.registerPort⟩ call.msg.cid _ _

/-- The other one is not meant for the registration. -/
theorem Finds.take_succ {q : Asked} {entry : CameraEntry SocketAddr} {relay : IpAddr}
    (h : Finds cfg call q entry relay) (j : ℕ) :
    (call.answers cfg q)[j + 1]?.bind (takeRegister parseIpv6 call.reg call.msg.cid) = none := by
  rw [h.answers]
  cases j <;> rfl

/-- The only answer that can end a call is the first, and it ends the call well if its addresses can
    be read. -/
theorem take_answer_iff {q : Asked} {j : ℕ} {result : Except DiscoveryError RegisterResult} :
    ((call.answers cfg q)[j]?.bind (takeRegister parseIpv6 call.reg call.msg.cid)) = some result ↔
      j = 0 ∧ ∃ entry relay, Finds cfg call q entry relay ∧ Usable cfg entry relay ∧
        result = .ok (told parseIpv6 cfg call q entry relay) := by
  constructor
  · intro h
    by_cases hfound : ∃ entry relay, Finds cfg call q entry relay
    · obtain ⟨entry, relay, hfinds⟩ := hfound
      cases j with
      | zero =>
        rw [hfinds.take_zero] at h
        split_ifs at h with husable
        exact ⟨rfl, entry, relay, hfinds, husable, (Option.some.inj h).symm⟩
      | succ j =>
        rw [hfinds.take_succ] at h
        cases h
    · obtain ⟨answer, hanswer, htake⟩ := Option.bind_eq_some_iff.1 h
      rw [takeRegister, acceptRegister_of_not_finds hfound (List.mem_of_getElem? hanswer),
        Option.map_none] at htake
      cases htake
  · rintro ⟨rfl, entry, relay, hfinds, husable, rfl⟩
    rw [hfinds.take_zero, if_pos husable]

/-- The answers to a C2R_C serve the call with a result. -/
def Serves (parseIpv6 : Bytes → Option IpAddr) (cfg : Listeners) (call : RegisterCall) (q : Asked)
    (r : RegisterResult) : Prop :=
  ∃ entry relay, Finds cfg call q entry relay ∧ Usable cfg entry relay ∧
    r = told parseIpv6 cfg call q entry relay

/-- What the call has come to, after some answers. -/
def Settled (parseIpv6 : Bytes → Option IpAddr) (cfg : Listeners) (call : RegisterCall)
    (answered : List Asked) : Option (Except DiscoveryError RegisterResult) → Prop
  | some (.ok r) => ∃ q ∈ answered, Serves parseIpv6 cfg call q r
  | some (.error e) =>
    e = .discoveryTimeout ∧ ∀ q ∈ answered, ∀ r, ¬Serves parseIpv6 cfg call q r
  | none => ∀ q ∈ answered, ∀ r, ¬Serves parseIpv6 cfg call q r

/-- A call that has ended takes no more answers. -/
theorem answered?_of_isSome {s : State} (h : s.result.isSome) (e : Event) :
    answered? s e = none := by
  rw [answered?.eq_def]
  split
  · exact if_pos h
  · rfl

/-- The result of a call stands. -/
theorem result_step_of_isSome {s : State} (h : s.result.isSome) (e : Event) :
    (call.step parseIpv6 cfg s e).result = s.result := by
  cases e with
  | server e => rfl
  | request now nowSecs sid shuffle kernel =>
    rw [RegisterCall.step]
    split <;> rfl
  | receive k j => rw [RegisterCall.step, if_pos h]
  | tick => rw [RegisterCall.step, if_pos h]

/-- An answer behind the first ends no call. -/
theorem take_answer_succ (q : Asked) (j : ℕ) :
    (call.answers cfg q)[j + 1]?.bind (takeRegister parseIpv6 call.reg call.msg.cid) = none := by
  refine Option.eq_none_iff_forall_not_mem.2 fun result hresult => ?_
  cases (take_answer_iff.1 hresult).1

/-- The first answer to a C2R_C settles a call that waits, or does not serve it. -/
theorem Settled.take {answered : List Asked} (h : Settled parseIpv6 cfg call answered none)
    (q : Asked) : Settled parseIpv6 cfg call (answered ++ [q])
      ((call.answers cfg q)[0]?.bind (takeRegister parseIpv6 call.reg call.msg.cid)) := by
  cases htake : (call.answers cfg q)[0]?.bind
      (takeRegister parseIpv6 call.reg call.msg.cid) with
  | none =>
    intro q' hq' r hserves
    rcases List.mem_append.1 hq' with hq' | hq'
    · exact h q' hq' r hserves
    · obtain rfl := List.mem_singleton.1 hq'
      obtain ⟨entry, relay, hfinds, husable, -⟩ := hserves
      cases htake.symm.trans (take_answer_iff.2 ⟨rfl, entry, relay, hfinds, husable, rfl⟩)
  | some result =>
    obtain ⟨-, entry, relay, hfinds, husable, rfl⟩ := take_answer_iff.1 htake
    exact ⟨q, by simp, entry, relay, hfinds, husable, rfl⟩

/-- One event keeps the result what the answers make of it. -/
theorem Settled.step {s : State} {answered : List Asked}
    (h : Settled parseIpv6 cfg call answered s.result) (e : Event) :
    Settled parseIpv6 cfg call (answered ++ (answered? s e).toList)
      (call.step parseIpv6 cfg s e).result := by
  by_cases hdone : s.result.isSome
  · rw [answered?_of_isSome hdone, Option.toList_none, List.append_nil, result_step_of_isSome hdone]
    exact h
  have hnone : s.result = none := Option.not_isSome_iff_eq_none.1 hdone
  rw [hnone] at h
  cases e with
  | server e =>
    rw [RegisterCall.step, hnone]
    simpa [answered?] using h
  | request now nowSecs sid shuffle kernel =>
    have hsame : (call.step parseIpv6 cfg s (.request now nowSecs sid shuffle kernel)).result =
        none := by
      rw [RegisterCall.step]
      split <;> exact hnone
    rw [hsame]
    simpa [answered?] using h
  | tick =>
    rw [RegisterCall.step, if_neg hdone]
    have hlast : answered? s .tick = none := rfl
    rw [hlast, Option.toList_none, List.append_nil]
    split
    · dsimp only
      rw [hnone]
      exact h
    · exact ⟨rfl, h⟩
  | receive k j =>
    rw [RegisterCall.step, if_neg hdone]
    dsimp only
    rw [take?]
    cases hq : s.asked[k]? with
    | none =>
      have hlast : answered? s (.receive k j) = none := by
        cases j with
        | zero => rw [answered?, if_neg hdone, hq]
        | succ j => rfl
      rw [hlast, Option.toList_none, List.append_nil]
      exact h
    | some q =>
      change Settled _ _ _ _ ((call.answers cfg q)[j]?.bind (takeRegister _ _ _))
      cases j with
      | zero =>
        rw [answered?, if_neg hdone, hq, Option.toList_some]
        exact h.take q
      | succ j =>
        have hlast : answered? s (.receive k (j + 1)) = none := rfl
        rw [hlast, take_answer_succ, Option.toList_none, List.append_nil]
        exact h

theorem settled_run (parseIpv6 : Bytes → Option IpAddr) (cfg : Listeners) (call : RegisterCall)
    (events : List Event) : Settled parseIpv6 cfg call (call.answered parseIpv6 cfg events)
      (call.run parseIpv6 cfg events).result := by
  induction events using List.reverseRecOn with
  | nil => exact fun q hq => absurd hq List.not_mem_nil
  | append_singleton events e ih =>
    rw [run_concat, answered_concat]
    exact ih.step e

/-! ## The call -/

/-- A client of the network of the camera. -/
def caller : RegisterCall where
  src := ⟨.v4 192 168 1 20, 5000⟩
  tid := 2
  msg := ⟨"UID1", ⟨utf8 "192.168.1.20", 5000⟩, 7⟩
  reg := ⟨.v4 192 168 1 10, 58200⟩

end RegisterCall

end Bairelay
