import Bairelay.Wake.Datagrams

/-!
# A client of the wake server

A client looks a camera up at the middleman and registers with the server it is told
(`uid_lookup` and `register_address` of `bc_protocol/connection/discovery.rs`). It takes the first
answer that it can use, and waits for another one otherwise, until it gives up.

* `sends_register_iff`: to which registration of a camera an answer is sent, and which;
* `answers_connect`, `takeRegister_found`: what is sent to a client that asks for a camera, and
  what it makes of it;
* `client_looks_up`: a lookup leads to the register loop.
-/

namespace Bairelay

namespace IpPort

/-- `valid_ip` -/
def validIp (ip : Bytes) : Bool :=
  ip ≠ [] && match IpAddr.parseIpv4 ip with
    | some (.v4 _ _ _ d) => d ≠ 0
    | _ => false

/-- `valid_addr` -/
def validAddr (p : IpPort) : Bool := validIp p.ip && p.port ≠ 0

/-- The address that is written, also one of version 6, as far as it can be read. -/
def toSocketAddr? (parseIpv6 : Bytes → Option IpAddr) (p : IpPort) : Option SocketAddr :=
  ((IpAddr.parseIpv4 p.ip).or (parseIpv6 p.ip)).map fun ip => ⟨ip, p.port⟩

end IpPort

/-- A host of version 4 that is no network, and a port. -/
def SocketAddr.Reachable (a : SocketAddr) : Prop :=
  (∃ x y z w, a.ip = .v4 x y z w ∧ w ≠ 0) ∧ a.port ≠ 0

theorem IpAddr.text_ne_nil (ip : IpAddr) : ip.text ≠ [] := by
  intro h
  cases ip with
  | v4 a b c d =>
    have hread := IpAddr.parseIpv4_text a b c d
    rw [h] at hread
    cases hread
  | v6 segments =>
    have hcolon := IpAddr.colon_mem_text6 segments
    rw [h] at hcolon
    cases hcolon

/-- An address in a reply counts if it is reachable at all. -/
theorem IpPort.validAddr_iff (a : SocketAddr) :
    IpPort.validAddr ⟨a.ip.text, a.port⟩ ↔ a.Reachable := by
  obtain ⟨ip, port⟩ := a
  have hne := decide_eq_true ip.text_ne_nil
  rw [validAddr, Bool.and_eq_true_iff, SocketAddr.Reachable, decide_eq_true_iff]
  refine and_congr_left fun _ => ?_
  cases ip with
  | v4 a b c d =>
    rw [validIp, hne, IpAddr.parseIpv4_text]
    simp
  | v6 segments =>
    rw [validIp, hne, IpAddr.parseIpv4_text_v6]
    simp

instance (a : SocketAddr) : Decidable a.Reachable := decidable_of_iff _ (IpPort.validAddr_iff a)

/-! ## The client -/

/-- What the lookup has found out. -/
structure UidLookupResults where
  reg : SocketAddr
  relay : SocketAddr
  deriving DecidableEq

/-- What the registration has found out. -/
structure RegisterResult where
  reg : SocketAddr
  sid : UInt32
  clientId : Int32
  dev : Option SocketAddr
  dmap : Option SocketAddr
  relay : Option SocketAddr
  deriving DecidableEq

/-- The errors of `register_address`. -/
inductive DiscoveryError where
  /-- The server refuses. -/
  | registerError
  /-- An address cannot be read. -/
  | addrParse
  /-- Nothing has come that could be taken. -/
  | discoveryTimeout
  deriving DecidableEq

section

variable (parseIpv6 : Bytes → Option IpAddr)

/-- What the lookup makes of an answer. -/
def acceptLookup : WakePayload → Option (IpPort × IpPort)
  | .m2cQr (some reg) (some relay) _ _ =>
    if reg.validAddr && relay.validAddr then some (reg, relay) else none
  | _ => none

/-- `uid_lookup`, of the answers that come before it gives up: the first one that it takes. -/
def uidLookup (answers : List WakePayload) : Option (Except DiscoveryError UidLookupResults) :=
  (answers.findSome? acceptLookup).map fun (reg, relay) =>
    match reg.toSocketAddr? parseIpv6, relay.toSocketAddr? parseIpv6 with
    | some reg, some relay => .ok ⟨reg, relay⟩
    | _, _ => .error .addrParse

/-- What the registration makes of an answer. -/
def acceptRegister : WakePayload →
    Option (Except DiscoveryError (UInt32 × Option IpPort × Option IpPort × Option IpPort))
  | .r2cCr dev dmap relay _ _ sid rsp _ =>
    if dev.any IpPort.validAddr || dmap.any IpPort.validAddr || relay.any IpPort.validAddr then
      if rsp = -1 ∨ rsp = -3 then some (.error .registerError)
      else sid.map fun sid => .ok (sid, dev, dmap, relay)
    else none
  | _ => none

/-- What `register_address` returns for an answer, if it does. -/
def takeRegister (reg : SocketAddr) (clientId : Int32) (answer : WakePayload) :
    Option (Except DiscoveryError RegisterResult) :=
  (acceptRegister answer).map fun answer => answer.map fun (sid, dev, dmap, relay) =>
    { reg, sid, clientId
      dev := dev.bind (·.toSocketAddr? parseIpv6)
      dmap := dmap.bind (·.toSocketAddr? parseIpv6)
      relay := relay.bind (·.toSocketAddr? parseIpv6) }

end

/-- A reachable address is read back from its text. -/
theorem IpPort.toSocketAddr?_of_reachable {a : SocketAddr} (h : a.Reachable)
    (parseIpv6 : Bytes → Option IpAddr) :
    IpPort.toSocketAddr? parseIpv6 ⟨a.ip.text, a.port⟩ = some a := by
  obtain ⟨⟨x, y, z, w, hip, -⟩, -⟩ := h
  rw [toSocketAddr?, hip, IpAddr.parseIpv4_text, Option.some_or, Option.map_some, ← hip]

/-- What a client makes of the answer: it takes the addresses if it can use one of them. -/
theorem takeRegister_found (parseIpv6 : Bytes → Option IpAddr) (reg addr relay : SocketAddr)
    (clientId : Int32) (nat : Bytes) (sid : UInt32) :
    let cam : IpPort := ⟨addr.ip.text, addr.port⟩
    let own : IpPort := ⟨relay.ip.text, relay.port⟩
    takeRegister parseIpv6 reg clientId
        (.r2cCr (some cam) (some cam) (some own) none nat (some sid) 0 0) =
      if addr.Reachable ∨ relay.Reachable then
        some (.ok ⟨reg, sid, clientId, cam.toSocketAddr? parseIpv6, cam.toSocketAddr? parseIpv6,
          own.toSocketAddr? parseIpv6⟩)
      else none := by
  intro cam own
  have hany : (some cam).any IpPort.validAddr || (some cam).any IpPort.validAddr ||
      (some own).any IpPort.validAddr ↔ addr.Reachable ∨ relay.Reachable := by
    simp only [Option.any_some, Bool.or_eq_true, cam, own, IpPort.validAddr_iff, or_self]
  by_cases hreach : addr.Reachable ∨ relay.Reachable
  · rw [takeRegister, acceptRegister, if_pos (hany.2 hreach), if_pos hreach]
    rfl
  · rw [takeRegister, acceptRegister, if_neg fun h => hreach (hany.1 h), if_neg hreach,
      Option.map_none]

namespace WakeProtocol

variable {cfg : Listeners}

/-- What the register loop sends for a datagram that comes after some events. -/
def answers (cfg : Listeners) (events : List Event) (a : Arrival) (nowSecs : ℕ) (sid : UInt32)
    (shuffle : Shuffle (String × CameraEntry SocketAddr)) (kernel : IpAddr → Option IpAddr) :
    List Departure :=
  ((run cfg events).step cfg (.register a nowSecs sid shuffle kernel)).2

/-- The packets for the tables, each with what the tables were before it. -/
def moments (cfg : Listeners) (events : List Event) :
    List (WakeServer SocketAddr × WakeServer.Event SocketAddr) :=
  WakeServer.moments cfg.toRuntimeConfig (events.filterMap Event.packet?)

/-- A registration is answered with the anchor that the camera was last told, if that was not
    longer ago than an hour and it shows the token it was told with it; else nothing is sent. -/
theorem sends_register_iff (cfg : Listeners) (events : List Event) (now : Instant)
    (src : SocketAddr) (tid : UInt32) (r : D2rR) (nowSecs : ℕ) (sid : UInt32)
    (shuffle : Shuffle (String × CameraEntry SocketAddr)) (kernel : IpAddr → Option IpAddr)
    (d : Departure) :
    d ∈ answers cfg events ⟨now, src, tid, .d2rR r⟩ nowSecs sid shuffle kernel ↔
      r.uid.utf8ByteSize ≤ WakeRequest.maxUidLen ∧ ∃ ac issuedAt,
        d = ⟨src, tid, .r2dRr (-4) ac⟩ ∧ now - issuedAt ≤ Duration.ofSecs (60 * 60) ∧
        Past.Since
          (fun m => WakeServer.told r.uid m.1 m.2 = some { token := r.token, ac, issuedAt })
          (fun m => WakeServer.told r.uid m.1 m.2 ≠ none ∨
            WakeServer.Sweeps cfg.toRuntimeConfig m.1 m.2 issuedAt)
          (moments cfg events) := by
  have hreply := WakeServer.handleRegister_iff cfg.toRuntimeConfig
    (events.filterMap Event.packet?) now r
  rw [← server_run] at hreply
  have hvalid : (WakeRequest.d2rR r).validateUidBounds ↔
      r.uid.utf8ByteSize ≤ WakeRequest.maxUidLen := by
    rw [WakeRequest.validateUidBounds, WakeRequest.uid?, Option.all_some, decide_eq_true_iff]
  rw [answers, step, handleRegister]
  by_cases hlen : r.uid.utf8ByteSize ≤ WakeRequest.maxUidLen
  · rw [if_neg (not_not.2 (hvalid.2 hlen))]
    dsimp only
    cases hanswer : (run cfg events).server.handleRegister now r with
    | none =>
      refine iff_of_false List.not_mem_nil ?_
      rintro ⟨-, ac, issuedAt, -, h⟩
      cases hanswer.symm.trans ((hreply _).2 ⟨ac, issuedAt, rfl, h⟩)
    | some reply =>
      obtain ⟨ac, issuedAt, rfl, hfresh, hsince⟩ := (hreply reply).1 hanswer
      dsimp only
      rw [List.mem_singleton]
      constructor
      · rintro rfl
        exact ⟨hlen, ac, issuedAt, rfl, hfresh, hsince⟩
      · rintro ⟨-, ac', issuedAt', rfl, h⟩
        cases hanswer.symm.trans ((hreply _).2 ⟨ac', issuedAt', rfl, h⟩)
        rfl
  · rw [if_pos (fun h => hlen (hvalid.1 h))]
    simp [hlen]

/-- A camera that a UID may be short for was heard not too long ago, and this was the last that
    was heard from it. -/
def Heard (cfg : Listeners) (events : List Event) (uid : String) (now : Instant)
    (entry : CameraEntry SocketAddr) : Prop :=
  ∃ stored, CameraRegistry.startsWith stored uid ∧ now - entry.lastSeen ≤ cfg.staleAfter ∧
    Past.Since (fun m => WakeServer.heard stored m.1 m.2 = some entry)
      (fun m => WakeServer.heard stored m.1 m.2 ≠ none ∨
        WakeServer.Sweeps cfg.toRuntimeConfig m.1 m.2 entry.lastSeen) (moments cfg events)

/-- A camera is heard if a fresh registration has the UID as its prefix. -/
theorem heard_iff {events : List Event} {uid : String} {now : Instant}
    {entry : CameraEntry SocketAddr} : Heard cfg events uid now entry ↔
      ∃ stored, (run cfg events).server.registry.get? stored = some entry ∧
        CameraRegistry.startsWith stored uid ∧ CameraRegistry.isFresh now cfg.staleAfter entry := by
  have hfresh : CameraRegistry.isFresh now cfg.staleAfter entry ↔
      now - entry.lastSeen ≤ cfg.staleAfter := by
    rw [CameraRegistry.isFresh, CameraEntry.isStale, Bool.not_eq_true', decide_eq_false_iff_not,
      not_lt]
  simp only [server_run, WakeServer.registry_iff_since, Heard, hfresh, moments]
  exact exists_congr fun stored => by tauto

/-- What the register loop sends to a client that asks for a camera. -/
theorem answers_connect (cfg : Listeners) {events : List Event} {a : Arrival} {c : C2rC}
    (hpayload : a.payload = .c2rC c) (hvalid : a.payload.validateUidBounds) (nowSecs : ℕ)
    (sid : UInt32) (shuffle : Shuffle (String × CameraEntry SocketAddr))
    (kernel : IpAddr → Option IpAddr) :
    let sent := (answers cfg events a nowSecs sid shuffle kernel).map
      Departure.payload
    ((∀ entry, ¬Heard cfg events c.uid a.now entry) ∧
      sent = [.r2cCr none none none none (utf8 "NULL") none (-1) 0]) ∨
    ∃ entry, ∃ relay : IpAddr, Heard cfg events c.uid a.now entry ∧
      let cam : IpPort := ⟨entry.addr.ip.text, entry.addr.port⟩
      sent = [.r2cCr (some cam) (some cam) (some ⟨relay.text, cfg.registerPort⟩) none
        (utf8 "NULL") (some sid) 0 0, .r2cT cam cam sid c.cid] := by
  intro sent
  have hsent : sent = ((run cfg events).handleConnect cfg a c sid shuffle kernel).2.map
      Departure.payload := by
    simp only [sent, answers, step]
    rw [handleRegister, if_neg (not_not.2 hvalid), hpayload]
  have hperm := shuffle.2 (run cfg events).server.registry.entries
  rw [hsent]
  cases hlookup : CameraRegistry.lookupFresh (run cfg events).server.registry
      (shuffle.1 (run cfg events).server.registry.entries) c.uid a.now cfg.staleAfter with
  | none =>
    refine .inl ⟨fun entry hheard => ?_, ?_⟩
    · obtain ⟨stored, hstored⟩ := heard_iff.1 hheard
      have hsome := (CameraRegistry.isSome_lookupFresh_iff hperm).2 ⟨stored, entry, hstored⟩
      rw [hlookup] at hsome
      cases hsome
    · simp only [handleConnect, hlookup, List.map_cons, List.map_nil]
  | some entry =>
    let routes := (advertiseIp (run cfg events).routes cfg.bind entry.addr kernel).2
    refine .inr ⟨entry, (advertiseIp routes cfg.bind a.src kernel).1,
      heard_iff.2 (CameraRegistry.exists_of_lookupFresh hperm hlookup), ?_⟩
    simp only [handleConnect, hlookup, List.map_cons, List.map_nil, routes]

/-- The address a peer is told, without the cache. -/
def advertised (bind : IpAddr) (kernel : IpAddr → Option IpAddr) (peer : SocketAddr) : IpAddr :=
  if ¬bind.isUnspecified then bind else resolveAdvertiseIp peer kernel

/-- What is cached is what the kernel says. -/
def Agrees (bind : IpAddr) (kernel : IpAddr → Option IpAddr) (routes : Routes) : Prop :=
  ∀ ip cached, routes.get? (bind, ip) = some cached → cached = (kernel ip).getD ip.localhost

/-- The advertised address is the one the kernel would give, and the cache goes on agreeing with
    it. -/
theorem Agrees.advertiseIp {bind : IpAddr} {kernel : IpAddr → Option IpAddr} {routes : Routes}
    (h : Agrees bind kernel routes) (peer : SocketAddr) :
    (advertiseIp routes bind peer kernel).1 = advertised bind kernel peer ∧
      Agrees bind kernel (Bairelay.advertiseIp routes bind peer kernel).2 := by
  rw [Bairelay.advertiseIp, advertised]
  split
  · exact ⟨rfl, h⟩
  · cases hget : routes.get? (bind, peer.ip) with
    | some cached => exact ⟨h peer.ip cached hget, h⟩
    | none =>
      refine ⟨rfl, fun ip cached hcached => ?_⟩
      dsimp only at hcached
      by_cases hroom : routes.HasRoom (bind, peer.ip)
      · rw [Capped.upsert_eq_some hroom, Option.getD_some, Capped.get?_put] at hcached
        rcases hcached with ⟨hkey, rfl⟩ | ⟨-, hcached⟩
        · rw [(Prod.mk.inj hkey).2]
          rfl
        · exact h ip cached hcached
      · rw [Capped.upsert, dif_neg hroom, Option.getD_none] at hcached
        exact h ip cached hcached

/-- What the kernel says while a datagram is handled. -/
def Event.Asks (kernel : IpAddr → Option IpAddr) : Event → Prop
  | .middleman _ kernel' _ _ | .register _ _ _ _ kernel' => kernel' = kernel
  | .wake _ | .stop _ => True

theorem Agrees.step {kernel : IpAddr → Option IpAddr} {s : WakeProtocol} {e : Event}
    (h : Agrees cfg.bind kernel s.routes) (he : e.Asks kernel) :
    Agrees cfg.bind kernel (s.step cfg e).1.routes := by
  cases e with
  | middleman a kernel' token ac =>
    obtain rfl : kernel' = kernel := he
    rw [WakeProtocol.step, handleMiddleman]
    split
    · exact h
    · have hnext := (h.advertiseIp a.src).2
      dsimp only
      split
      · exact hnext
      · split <;> exact hnext
      · exact hnext
  | register a nowSecs sid shuffle kernel' =>
    obtain rfl : kernel' = kernel := he
    rw [WakeProtocol.step, handleRegister]
    split
    · exact h
    · split
      · rw [handleHeartbeat]
        split <;> exact h
      · rw [handleConnect]
        split
        · exact h
        · exact ((h.advertiseIp _).2.advertiseIp _).2
      · split <;> exact h
      · exact h
      · exact h
  | wake i =>
    rw [WakeProtocol.step, sendWake]
    split <;> exact h
  | stop i =>
    rw [WakeProtocol.step, stopWake]
    split <;> exact h

/-- The cache agrees with the kernel over a whole run, while the kernel's routes stay the same. -/
theorem agrees_run {kernel : IpAddr → Option IpAddr} {events : List Event}
    (h : ∀ e ∈ events, e.Asks kernel) : Agrees cfg.bind kernel (run cfg events).routes := by
  induction events using List.reverseRecOn with
  | nil =>
    intro ip cached hcached
    cases hcached
  | append_singleton events e ih =>
    rw [run_concat]
    exact (ih fun e' he' => h e' (List.mem_append_left _ he')).step (h e (by simp))

/-- As long as the routes of the host stay as they are, a client that looks a camera up is led to
    the register loop, under the address the kernel gives for it, if that is one it can use;
    and else to nothing. -/
theorem client_looks_up (parseIpv6 : Bytes → Option IpAddr) (cfg : Listeners)
    (kernel : IpAddr → Option IpAddr) (events : List Event) (hkernel : ∀ e ∈ events, e.Asks kernel)
    (a : Arrival) (uid : String) (hpayload : a.payload = .c2mQ uid)
    (hlen : uid.utf8ByteSize ≤ WakeRequest.maxUidLen) (token : UInt64) (ac : UInt32) :
    let result := uidLookup parseIpv6
      (((run cfg events).step cfg (.middleman a kernel token ac)).2.map Departure.payload)
    let register : SocketAddr := ⟨advertised cfg.bind kernel a.src, cfg.registerPort⟩
    (register.Reachable → result = some (.ok ⟨register, register⟩)) ∧
      (¬register.Reachable → result = none) := by
  intro result register
  have hvalid : a.payload.validateUidBounds := by
    rw [hpayload, WakeRequest.validateUidBounds, WakeRequest.uid?, Option.all_some]
    exact decide_eq_true hlen
  let reg : IpPort := ⟨register.ip.text, register.port⟩
  have hsent : ((run cfg events).step cfg (.middleman a kernel token ac)).2.map
      Departure.payload = [.m2cQr (some reg) (some reg) (some reg) (some reg)] := by
    rw [step, handleMiddleman, if_neg (not_not.2 hvalid), hpayload]
    dsimp only
    rw [((agrees_run hkernel).advertiseIp a.src).1]
    rfl
  have hresult : result = uidLookup parseIpv6
      [.m2cQr (some reg) (some reg) (some reg) (some reg)] :=
    congrArg (uidLookup parseIpv6) hsent
  have hreg : reg.validAddr ↔ register.Reachable := IpPort.validAddr_iff register
  rw [hresult, uidLookup, List.findSome?_cons, acceptLookup, Bool.and_self]
  constructor
  · intro hreach
    have hread : reg.toSocketAddr? parseIpv6 = some register :=
      IpPort.toSocketAddr?_of_reachable hreach parseIpv6
    rw [if_pos (hreg.2 hreach), Option.map_some]
    dsimp only
    rw [hread]
  · intro hno
    rw [if_neg fun h => hno (hreg.1 h), List.findSome?_nil, Option.map_none]

/-- A client looks a UID up. -/
def lookup (now : Instant) : Arrival := ⟨now, ⟨.v4 192 168 1 20, 5000⟩, 1, .c2mQ "UID1"⟩

/-- A server that listens everywhere. -/
def everywhere : Listeners := { listeners with bind := .v4 0 0 0 0 }

/-- The second lookup is answered from the cache. -/
theorem client_looks_up_again :
    let kernel : IpAddr → Option IpAddr := fun _ => some (.v4 192 168 1 10)
    let register : SocketAddr := ⟨.v4 192 168 1 10, 58200⟩
    uidLookup (fun _ => none) (((run everywhere [.middleman (lookup 0) kernel 0 0]).step everywhere
      (.middleman (lookup 1) kernel 0 0)).2.map Departure.payload) =
        some (.ok ⟨register, register⟩) := by
  intro kernel register
  have hkernel : ∀ e ∈ [Event.middleman (lookup 0) kernel 0 0], e.Asks kernel := by
    intro e he
    obtain rfl := List.mem_singleton.1 he
    rfl
  exact (client_looks_up (fun _ => none) everywhere kernel _ hkernel (lookup 1) "UID1" rfl
    (by decide +kernel) 0 0).1 ⟨⟨192, 168, 1, 10, rfl, by decide⟩, by decide⟩

end WakeProtocol

end Bairelay
