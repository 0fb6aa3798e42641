import Bairelay.Basic

/-!
# The UDP flow

The pure state of the UDP transport (`bc_protocol/connection/udpsource.rs`,
`UdpFlowState`). A payload to send is cut into numbered packets, kept in
`sent` until they are acknowledged; packets received out of order wait in
`received` until `packetsWant`, the next id to deliver, is among them. An
acknowledgement names the last id of the contiguous part, and marks the later
ids that were received in a bitmap.

* `handleData`, `handleAck`: what an inbound packet does;
* `enqueueSend`, `drainContiguous`, `buildSendAck`: what goes out;
* one lemma for each of them says what it can do (`handleData_cases`,
  `lookup_sent_handleAck`, `drainContiguous_induction`, `buildSendAck_sound`).
-/

namespace Bairelay

/-- A packet holding (a part of) the data to transport. -/
structure UdpData where
  connectionId : Int32
  packetId : UInt32
  payload : Bytes
  deriving DecidableEq, Repr

/-- An acknowledgement: of the ids up to `packetId`, and of the ids after it
    whose byte in `payload` is not zero. -/
structure UdpAck where
  connectionId : Int32
  groupId : UInt32
  packetId : UInt32
  maybeLatency : UInt32
  payload : Bytes
  deriving DecidableEq, Repr

/-- The acknowledgement signifying that nothing was received yet. -/
def UdpAck.empty (connectionId : Int32) : UdpAck where
  connectionId := connectionId
  groupId := 0xffffffff
  packetId := 0xffffffff
  maybeLatency := 0
  payload := []

/-- The ids an acknowledgement acknowledges. -/
def UdpAck.Acknowledges (ack : UdpAck) (k : UInt32) : Prop :=
  ack.packetId ≠ Word32.maxValue ∧ (k ≤ ack.packetId ∨
    ∃ i v, ack.payload[i]? = some v ∧ 0 < v ∧ ack.packetId + 1 + UInt32.ofNat i = k)

/-! ## The latency statistic -/

/-- The time between acknowledgements, averaged over a second. -/
structure AckLatency where
  currentValues : List UInt32 := []
  lastReceiveTime : Option Instant := none
  displayValue : UInt32 := 0
  lastDisplayTime : Option Instant := none
  deriving DecidableEq, Repr

namespace AckLatency

/-- The latency the next ack reports. -/
def getValue (a : AckLatency) : UInt32 := a.displayValue

/-- The average shown: every value is divided by their number before the sum. -/
def average (values : List UInt32) : UInt32 :=
  values.foldl (fun acc value => acc + value / UInt32.ofNat values.length) 0

/-- An acknowledgement arrived at `now`. The value shown changes at most once a
    second. -/
def feedAck (a : AckLatency) (now : Instant) : AckLatency :=
  let values := match a.lastReceiveTime with
    | some last => a.currentValues ++ [UInt32.ofNat ((now - last) / 1000)]
    | none => a.currentValues
  match a.lastDisplayTime with
  | some last =>
    if now - last > Duration.ofSecs 1 then
      { currentValues := [], lastReceiveTime := some now,
        displayValue := average values, lastDisplayTime := some now }
    else { a with currentValues := values, lastReceiveTime := some now }
  | none =>
    { currentValues := values, lastReceiveTime := some now,
      displayValue := 0, lastDisplayTime := some now }

end AckLatency

/-! ## The flow -/

/-- The largest datagram the camera takes, in bytes. -/
def mtu : ℕ := 1350

/-- The bytes of a datagram that its header takes. -/
def udpdataHeaderSize : ℕ := 20

/-- The number of packets that may wait in the reorder buffer. -/
def reorderCap : ℕ := 1024

/-- The number of ids the bitmap of an acknowledgement may cover. -/
def ackBitmapCap : UInt32 := UInt32.ofNat (reorderCap * 4)

/-- The state of one side of a flow. -/
structure UdpFlowState where
  clientId : Int32
  cameraId : Int32
  packetsSent : UInt32
  packetsWant : UInt32
  sent : KeyMap UInt32 UdpData
  received : KeyMap UInt32 Bytes
  ackLatency : AckLatency

namespace UdpFlowState

/-- A fresh flow: both counters at zero, nothing outstanding. -/
def new (clientId cameraId : Int32) : UdpFlowState where
  clientId := clientId
  cameraId := cameraId
  packetsSent := 0
  packetsWant := 0
  sent := ∅
  received := ∅
  ackLatency := {}

/-- Number one chunk, and keep a copy of its packet for resending. -/
def enqueueChunk (s : UdpFlowState) (chunk : Bytes) : UdpFlowState × UdpData :=
  let udpData : UdpData := ⟨s.cameraId, s.packetsSent, chunk⟩
  ({ s with packetsSent := s.packetsSent + 1, sent := s.sent.insert udpData.packetId udpData },
    udpData)

/-- Number the chunks one after the other. -/
def enqueueChunks (s : UdpFlowState) : List Bytes → UdpFlowState × List UdpData
  | [] => (s, [])
  | chunk :: chunks =>
    let r := (s.enqueueChunk chunk).1.enqueueChunks chunks
    (r.1, (s.enqueueChunk chunk).2 :: r.2)

/-- Cut `payload` into packets, keep them for resending, and return them. -/
def enqueueSend (s : UdpFlowState) (payload : Bytes) : UdpFlowState × List UdpData :=
  s.enqueueChunks (payload.toChunks (mtu - udpdataHeaderSize))

/-- An inbound packet: buffered (`true`), or refused because it is not for this
    flow, has the largest id, is already delivered, or the buffer is full. -/
def handleData (s : UdpFlowState) (data : UdpData) : UdpFlowState × Bool :=
  if data.connectionId ≠ s.clientId then (s, false)
  else if data.packetId = Word32.maxValue then (s, false)
  else if s.packetsWant ≤ data.packetId ∧ s.received.size < reorderCap then
    ({ s with received := s.received.insert data.packetId data.payload }, true)
  else (s, false)

/-- Remove the ids after `start` whose byte in the bitmap is not zero. -/
def removeMarked (start : UInt32) (bitmap : Bytes) (sent : KeyMap UInt32 UdpData) :
    KeyMap UInt32 UdpData :=
  bitmap.zipIdx.foldl (fun sent (value, idx) =>
    if 0 < value then sent.erase (start + 1 + UInt32.ofNat idx) else sent) sent

/-- An inbound acknowledgement: what it acknowledges need not be resent. A
    bitmap reaching past the largest id is not looked at, but the ids up to
    `packetId` are removed before that is found out. -/
def handleAck (s : UdpFlowState) (ack : UdpAck) (now : Instant) : UdpFlowState :=
  let ackLatency := s.ackLatency.feedAck now
  if ack.packetId = 0xffffffff then { s with ackLatency }
  else
    let sent := s.sent.filter fun k _ => ack.packetId < k
    if ack.packetId.toNat + 1 + ack.payload.length > Word32.maxValue.toNat then
      { s with sent, ackLatency }
    else { s with sent := removeMarked ack.packetId ack.payload sent, ackLatency }

/-- The loop of `drainContiguous`, making at most `fuel` turns. -/
def drainLoop : ℕ → UdpFlowState → UdpFlowState × List Bytes
  | 0, s => (s, [])
  | fuel + 1, s =>
    match s.received[s.packetsWant]? with
    | none => (s, [])
    | some payload =>
      let r := drainLoop fuel { s with
        packetsWant := s.packetsWant + 1, received := s.received.erase s.packetsWant }
      (r.1, payload :: r.2)

/-- Deliver the packets that are contiguous from `packetsWant` on. Every turn of
    the loop takes one packet out of the buffer, so its size bounds the turns. -/
def drainContiguous (s : UdpFlowState) : UdpFlowState × List Bytes :=
  drainLoop s.received.size s

/-- The first id from `id` on that is not buffered; `none` if `fuel` turns do
    not find it. The id saturates, so the loop of the source would not end if
    the largest word were buffered. -/
def firstMissing (received : KeyMap UInt32 Bytes) : ℕ → UInt32 → Option UInt32
  | 0, _ => none
  | fuel + 1, id =>
    if received.contains id then firstMissing received fuel (Word32.saturatingAdd id 1)
    else some id

/-- The bitmap of the ids from `first` to the highest one buffered, within the
    cap; `none` if the length of its buffer underflows. -/
def missingIds (received : KeyMap UInt32 Bytes) (first : UInt32) : Option Bytes :=
  match received.keys.max? with
  | none => some []
  | some last =>
    let scanTo := min (Word32.saturatingAdd last 1) (Word32.saturatingAdd first ackBitmapCap)
    if scanTo < first then none
    else some ((List.range (scanTo - first).toNat).map fun i =>
      if received.contains (first + UInt32.ofNat i) then 1 else 0)

/-- The acknowledgement of what was received so far; `none` if the computation
    does not end or underflows. -/
def buildSendAck (s : UdpFlowState) : Option UdpAck :=
  if 0 < s.packetsWant then do
    let first ← firstMissing s.received (s.received.size + 1) s.packetsWant
    let payload ← missingIds s.received first
    if first = 0 then none
    else some {
      connectionId := s.cameraId
      packetId := first - 1
      groupId := 0
      maybeLatency := s.ackLatency.getValue
      payload }
  else some (UdpAck.empty s.cameraId)

/-- The packets to send again: every one not acknowledged. -/
def resendPackets (s : UdpFlowState) : List UdpData := s.sent.values

/-! ## Draining -/

/-- One turn of the loop of `drainContiguous`: the wanted packet is taken out. -/
def deliverNext (s : UdpFlowState) : UdpFlowState :=
  { s with packetsWant := s.packetsWant + 1, received := s.received.erase s.packetsWant }

variable {s : UdpFlowState}

/-- A flow whose wanted packet is missing drains nothing. -/
theorem drainContiguous_of_none (h : s.received[s.packetsWant]? = none) :
    s.drainContiguous = (s, []) := by
  rw [drainContiguous]
  cases s.received.size with
  | zero => rfl
  | succ n => simp only [drainLoop, h]

/-- A flow whose wanted packet is there delivers it and goes on. -/
theorem drainContiguous_of_some {payload : Bytes}
    (h : s.received[s.packetsWant]? = some payload) :
    s.drainContiguous = (s.deliverNext.drainContiguous.1,
      payload :: s.deliverNext.drainContiguous.2) := by
  have hsize : s.received.size = s.deliverNext.received.size + 1 :=
    (KeyMap.size_erase_add_one h).symm
  rw [drainContiguous, hsize]
  simp only [drainLoop, h]
  rfl

/-- What one turn of the loop preserves, the whole loop preserves. -/
theorem drainContiguous_induction {motive : UdpFlowState → UdpFlowState × List Bytes → Prop}
    (stop : ∀ s, s.received[s.packetsWant]? = none → motive s (s, []))
    (next : ∀ s payload r, s.received[s.packetsWant]? = some payload →
      motive s.deliverNext r → motive s (r.1, payload :: r.2))
    (s : UdpFlowState) : motive s s.drainContiguous := by
  -- The buffer loses a packet in every turn.
  induction hn : s.received.size generalizing s with
  | zero =>
    have h := KeyMap.lookup_of_size_eq_zero hn s.packetsWant
    rw [drainContiguous_of_none h]
    exact stop s h
  | succ n ih =>
    cases h : s.received[s.packetsWant]? with
    | none => rw [drainContiguous_of_none h]; exact stop s h
    | some payload =>
      have hsize := KeyMap.size_erase_add_one h
      rw [drainContiguous_of_some h]
      exact next s payload _ h (ih s.deliverNext (by simp only [deliverNext]; omega))

/-! ## Inbound packets -/

/-- An inbound packet is buffered, or changes nothing. -/
theorem handleData_cases (s : UdpFlowState) (data : UdpData) :
    s.handleData data = (s, false) ∨
      data.connectionId = s.clientId ∧ data.packetId ≠ Word32.maxValue ∧
        s.packetsWant ≤ data.packetId ∧ s.received.size < reorderCap ∧
        s.handleData data =
          ({ s with received := s.received.insert data.packetId data.payload }, true) := by
  unfold handleData
  split
  · exact .inl rfl
  next hid =>
    split
    · exact .inl rfl
    next hmax =>
      split
      · next h => exact .inr ⟨not_not.1 hid, hmax, h.1, h.2, rfl⟩
      · exact .inl rfl

/-- The ids removed by a bitmap, and only they, are gone. -/
theorem lookup_removeMarked (start : UInt32) (bitmap : Bytes) (sent : KeyMap UInt32 UdpData)
    (k : UInt32) : (removeMarked start bitmap sent)[k]? =
      if ∃ x ∈ bitmap.zipIdx, 0 < x.1 ∧ start + 1 + UInt32.ofNat x.2 = k then none
      else sent[k]? := by
  unfold removeMarked
  generalize bitmap.zipIdx = marks
  induction marks generalizing sent with
  | nil => simp
  | cons x marks ih =>
    rw [List.foldl_cons, ih]
    simp only [List.exists_mem_cons_iff]
    by_cases hrest : ∃ x ∈ marks, 0 < x.1 ∧ start + 1 + UInt32.ofNat x.2 = k
    · rw [if_pos hrest, if_pos (.inr hrest)]
    · by_cases hx : 0 < x.1
      · simp only [hrest, hx, if_true, if_false, true_and, or_false, KeyMap.lookup_erase]
      · simp only [hrest, hx, if_false, false_and, or_false]

/-- An acknowledgement removes nothing but ids it acknowledges. -/
theorem lookup_sent_handleAck (s : UdpFlowState) (ack : UdpAck) (now : Instant) (k : UInt32) :
    (s.handleAck ack now).sent[k]? = s.sent[k]? ∨ ack.Acknowledges k := by
  unfold handleAck
  split
  · exact .inl rfl
  next hmax =>
    by_cases hk : ack.packetId < k
    · have hkeep : (s.sent.filter fun k _ => ack.packetId < k)[k]? = s.sent[k]? := by
        rw [KeyMap.lookup_filter _ fun k => ack.packetId < k, if_pos (by simpa using hk)]
      split
      · exact .inl hkeep
      · simp only [lookup_removeMarked]
        split
        · next hmark =>
          obtain ⟨⟨v, i⟩, hmem, hpos, heq⟩ := hmark
          exact .inr ⟨hmax, .inr ⟨i, v, List.mem_zipIdx_iff_getElem?.1 hmem, hpos, heq⟩⟩
        · exact .inl hkeep
    · exact .inr ⟨hmax, .inl (UInt32.not_lt.1 hk)⟩

/-- The counter of sent packets is the sender's own. -/
theorem handleAck_packetsSent (s : UdpFlowState) (ack : UdpAck) (now : Instant) :
    (s.handleAck ack now).packetsSent = s.packetsSent := by
  simp only [handleAck]
  split
  · rfl
  · split <;> rfl

/-! ## Acknowledgements -/

section Ack

variable {received : KeyMap UInt32 Bytes}

theorem toNat_le_saturatingAdd_one (a : UInt32) :
    a.toNat ≤ (Word32.saturatingAdd a 1).toNat := by
  have h := a.toNat_lt
  rw [Word32.toNat_saturatingAdd, UInt32.toNat_one]
  omega

/-- The ids before the first missing one are buffered. -/
theorem firstMissing_spec {fuel : ℕ} {id first : UInt32}
    (h : firstMissing received fuel id = some first) :
    id ≤ first ∧ received.contains first = false ∧
      ∀ k, id ≤ k → k < first → received.contains k = true := by
  induction fuel generalizing id with
  | zero => exact absurd h (by simp [firstMissing])
  | succ fuel ih =>
    rw [firstMissing] at h
    split at h
    · next hid =>
      obtain ⟨hle, hfirst, hbetween⟩ := ih h
      have hnext := toNat_le_saturatingAdd_one id
      refine ⟨UInt32.le_iff_toNat_le.2 (hnext.trans (UInt32.le_iff_toNat_le.1 hle)), hfirst, ?_⟩
      intro k hk hlt
      by_cases heq : k = id
      · exact heq ▸ hid
      · refine hbetween k ?_ hlt
        have hne : k.toNat ≠ id.toNat := fun e => heq (UInt32.toNat_inj.1 e)
        have hk' := UInt32.le_iff_toNat_le.1 hk
        rw [UInt32.le_iff_toNat_le, Word32.toNat_saturatingAdd, UInt32.toNat_one]
        omega
    · next hid =>
      obtain rfl : id = first := by simpa using h
      refine ⟨UInt32.le_refl id, Bool.eq_false_iff.2 hid, fun k hk hlt => ?_⟩
      exact absurd (UInt32.lt_of_le_of_lt hk hlt) (UInt32.lt_irrefl id)

/-- If the search does not find a missing id, it met as many buffered ones as
    it made turns. -/
theorem contains_of_firstMissing_eq_none (hmax : received.contains Word32.maxValue = false)
    {fuel : ℕ} {id : UInt32} (h : firstMissing received fuel id = none) :
    ∀ i < fuel, id.toNat + i < 2 ^ 32 - 1 ∧ received.contains (id + UInt32.ofNat i) = true := by
  induction fuel generalizing id with
  | zero => exact fun i hi => absurd hi (Nat.not_lt_zero i)
  | succ fuel ih =>
    rw [firstMissing] at h
    split at h
    · next hid =>
      have hne : id ≠ Word32.maxValue := fun e => by simp [e, hmax] at hid
      have hlt := Word32.lt_of_ne_maxValue hne
      have hnext : Word32.saturatingAdd id 1 = id + 1 := by
        rw [Word32.saturatingAdd, if_pos (by rw [UInt32.toNat_one]; omega)]
      rw [hnext] at h
      intro i hi
      cases i with
      | zero => simpa using ⟨hlt, hid⟩
      | succ i =>
        obtain ⟨hb, hc⟩ := ih h i (Nat.lt_of_succ_lt_succ hi)
        rw [UInt32.toNat_add, UInt32.toNat_one, Nat.mod_eq_of_lt (by omega)] at hb
        refine ⟨by omega, ?_⟩
        rwa [Nat.add_comm, UInt32.ofNat_add, ← UInt32.add_assoc]
    · exact absurd h (by simp)

/-- The search for the first missing id ends: the buffered ids it meets are
    distinct, and the buffer does not hold more of them than its size. -/
theorem firstMissing_isSome (hmax : received.contains Word32.maxValue = false) (id : UInt32) :
    (firstMissing received (received.size + 1) id).isSome := by
  by_contra hnone
  have hmet := contains_of_firstMissing_eq_none hmax (Option.not_isSome_iff_eq_none.1 hnone)
  let ids := (List.range (received.size + 1)).map fun i => id + UInt32.ofNat i
  have hnodup : ids.Nodup := by
    refine List.Nodup.map_on (fun i hi j hj e => ?_) List.nodup_range
    have hi' := (hmet i (List.mem_range.1 hi)).1
    have hj' := (hmet j (List.mem_range.1 hj)).1
    have e' := congrArg UInt32.toNat e
    simp only [UInt32.toNat_add, UInt32.toNat_ofNat'] at e'
    omega
  have hsub : ids ⊆ received.keys := by
    intro k hk
    obtain ⟨i, hi, rfl⟩ := List.mem_map.1 hk
    rw [Std.ExtTreeMap.mem_keys, Std.ExtTreeMap.mem_iff_contains]
    exact (hmet i (List.mem_range.1 hi)).2
  have hlen := (hnodup.subperm hsub).length_le
  rw [Std.ExtTreeMap.length_keys, List.length_map, List.length_range] at hlen
  omega

/-- The marked ids of the bitmap are buffered. -/
theorem missingIds_spec {first : UInt32} {bitmap : Bytes}
    (h : missingIds received first = some bitmap) {i : ℕ} {v : UInt8}
    (hi : bitmap[i]? = some v) (hv : 0 < v) :
    received.contains (first + UInt32.ofNat i) = true := by
  unfold missingIds at h
  split at h
  · obtain rfl : [] = bitmap := by simpa using h
    simp at hi
  · dsimp only at h
    split at h
    · exact absurd h (by simp)
    · obtain rfl := Option.some.inj h
      rw [List.getElem?_map, Option.map_eq_some_iff] at hi
      obtain ⟨j, hj, rfl⟩ := hi
      obtain ⟨_, hij⟩ := List.getElem?_eq_some_iff.1 hj
      obtain rfl : i = j := by rwa [List.getElem_range] at hij
      by_contra hc
      simp [hc] at hv

end Ack

/-- What the flow acknowledges was delivered or is buffered. -/
theorem buildSendAck_sound {ack : UdpAck} (h : s.buildSendAck = some ack) {k : UInt32}
    (hk : ack.Acknowledges k) : k < s.packetsWant ∨ s.received.contains k = true := by
  unfold buildSendAck at h
  split at h
  · simp only [Option.bind_eq_bind, Option.bind_eq_some_iff] at h
    obtain ⟨first, hfirst, payload, hpayload, h⟩ := h
    split at h
    · exact absurd h (by simp)
    next hne =>
      obtain rfl := Option.some.inj h
      obtain ⟨-, hle | ⟨i, v, hi, hv, rfl⟩⟩ := hk
      · -- Up to the last contiguous id: delivered, or met by the search.
        by_cases hlt : k < s.packetsWant
        · exact .inl hlt
        · refine .inr ((firstMissing_spec hfirst).2.2 k (UInt32.not_lt.1 hlt) ?_)
          have hpos : first.toNat ≠ 0 := fun e => hne (UInt32.toNat_inj.1 e)
          have hone : (1 : UInt32) ≤ first :=
            UInt32.le_iff_toNat_le.2 (by rw [UInt32.toNat_one]; omega)
          rw [UInt32.le_iff_toNat_le, UInt32.toNat_sub_of_le _ _ hone, UInt32.toNat_one] at hle
          rw [UInt32.lt_iff_toNat_lt]
          omega
      · rw [UInt32.sub_add_cancel]
        exact .inr (missingIds_spec hpayload hi hv)
  · obtain rfl := Option.some.inj h
    exact absurd rfl hk.1

end UdpFlowState

end Bairelay
