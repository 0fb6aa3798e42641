import Bairelay.Udp.Flow

/-!
# Two flows over a lossy network

A sender and a receiver, two flows with swapped ids, and a network that may
lose, duplicate, delay and reorder everything: any packet the sender ever
enqueued may reach the receiver at any time, any number of times or never, and
so may any acknowledgement the receiver ever built reach the sender. A
retransmission is one more such delivery.

The link records the history: the payloads given to the sender, the packets it
made of them, the acknowledgements built, and what the receiver delivered. As
long as the ids do not wrap, in every reachable state:

* `drained_prefix`: what was delivered is a prefix of what was sent;
* `kept_or_accepted`: a packet not kept for resending was accepted.
-/

namespace Bairelay

/-- A sender, a receiver, and the history of what went between them. -/
structure Link where
  sender : UdpFlowState
  receiver : UdpFlowState
  /-- The payloads given to `enqueueSend`. -/
  payloads : List Bytes
  /-- The packets `enqueueSend` returned. -/
  enqueued : List UdpData
  /-- The acknowledgements `buildSendAck` returned. -/
  acks : List UdpAck
  /-- The payloads `drainContiguous` returned. -/
  drained : List Bytes

namespace Link

/-- Two fresh flows, with swapped ids. -/
def init (clientId cameraId : Int32) : Link where
  sender := .new clientId cameraId
  receiver := .new cameraId clientId
  payloads := []
  enqueued := []
  acks := []
  drained := []

/-- The sender is given a payload. -/
def enqueue (l : Link) (payload : Bytes) : Link :=
  { l with
    sender := (l.sender.enqueueSend payload).1
    payloads := l.payloads ++ [payload]
    enqueued := l.enqueued ++ (l.sender.enqueueSend payload).2 }

/-- A packet reaches the receiver. -/
def deliver (l : Link) (data : UdpData) : Link :=
  { l with receiver := (l.receiver.handleData data).1 }

/-- The receiver delivers what it can. -/
def drain (l : Link) : Link :=
  { l with
    receiver := l.receiver.drainContiguous.1
    drained := l.drained ++ l.receiver.drainContiguous.2 }

/-- The receiver sends an acknowledgement. -/
def emitAck (l : Link) (ack : UdpAck) : Link := { l with acks := l.acks ++ [ack] }

/-- An acknowledgement reaches the sender. -/
def receiveAck (l : Link) (ack : UdpAck) (now : Instant) : Link :=
  { l with sender := l.sender.handleAck ack now }

/-- A step of one of the two sides; the network chooses what arrives. -/
inductive Step : Link → Link → Prop
  | enqueue (l : Link) (payload : Bytes) : Step l (l.enqueue payload)
  | deliver (l : Link) {data : UdpData} : data ∈ l.enqueued → Step l (l.deliver data)
  | drain (l : Link) : Step l l.drain
  | emitAck (l : Link) {ack : UdpAck} : l.receiver.buildSendAck = some ack →
    Step l (l.emitAck ack)
  | receiveAck (l : Link) {ack : UdpAck} (now : Instant) : ack ∈ l.acks →
    Step l (l.receiveAck ack now)

/-- The states of a link, for any order of the steps. -/
def Reachable (clientId cameraId : Int32) : Link → Prop :=
  Relation.ReflTransGen Step (init clientId cameraId)

/-- The receiver has the payload of id `k`: delivered, or buffered. -/
def Accepted (l : Link) (k : UInt32) (payload : Bytes) : Prop :=
  l.drained[k.toNat]? = some payload ∨ l.receiver.received[k]? = some payload

/-- What holds in every reachable state before the ids wrap. -/
structure Inv (l : Link) : Prop where
  /-- The packets are numbered in the order they were enqueued. -/
  numbered : ∀ i data, l.enqueued[i]? = some data → data.packetId = UInt32.ofNat i
  /-- The sender's counter is the number of packets. -/
  count : l.sender.packetsSent = UInt32.ofNat l.enqueued.length
  /-- The packets hold the payloads. -/
  cut : (l.enqueued.map UdpData.payload).flatten = l.payloads.flatten
  /-- What was delivered is the packets up to the wanted one. -/
  delivered : l.drained <+: l.enqueued.map UdpData.payload
  /-- The receiver's counter is the number of packets delivered. -/
  want : l.receiver.packetsWant = UInt32.ofNat l.drained.length
  /-- What is buffered was enqueued, and is still to be delivered. -/
  buffered : ∀ {k : UInt32} {payload}, l.receiver.received[k]? = some payload →
    l.drained.length ≤ k.toNat ∧ (l.enqueued.map UdpData.payload)[k.toNat]? = some payload
  /-- A packet is kept for resending until it is accepted. -/
  kept : ∀ data ∈ l.enqueued, l.sender.sent[data.packetId]? = some data ∨
    l.Accepted data.packetId data.payload
  /-- The receiver has what it ever acknowledged. -/
  acked : ∀ ack ∈ l.acks, ∀ k, ack.Acknowledges k → ∃ payload, l.Accepted k payload

/-! ## The steps keep the invariant -/

variable {l : Link}

/-- A new link has sent nothing, and its invariant holds. -/
theorem init_inv (clientId cameraId : Int32) : (init clientId cameraId).Inv where
  numbered i data h := by simp [init] at h
  count := rfl
  cut := rfl
  delivered := List.nil_prefix
  want := rfl
  buffered h := by simp [init, UdpFlowState.new] at h
  kept data h := by simp [init] at h
  acked ack h := by simp [init] at h

namespace Inv

/-- The receiver only has what was enqueued under that id. -/
theorem payload_of_accepted (hl : l.Inv) {k : UInt32} {payload : Bytes}
    (h : l.Accepted k payload) : (l.enqueued.map UdpData.payload)[k.toNat]? = some payload := by
  rcases h with h | h
  · obtain ⟨rest, hrest⟩ := hl.delivered
    rw [← hrest, List.getElem?_append_left (List.getElem?_eq_some_iff.1 h).1, h]
  · exact (hl.buffered h).2

/-- The packet of an id, before the ids wrap. -/
theorem getElem?_toNat_packetId (hl : l.Inv) (hlen : l.enqueued.length < 2 ^ 32)
    {data : UdpData} (h : data ∈ l.enqueued) :
    l.enqueued[data.packetId.toNat]? = some data := by
  obtain ⟨i, hi⟩ := List.getElem?_of_mem h
  have hlt := (List.getElem?_eq_some_iff.1 hi).1
  rw [hl.numbered i data hi, Word32.toNat_ofNat_of_lt (by omega), hi]

/-- The receiver has the packet it has some payload for. -/
theorem accepted_of_mem (hl : l.Inv) (hlen : l.enqueued.length < 2 ^ 32)
    {data : UdpData} (hdata : data ∈ l.enqueued) {payload : Bytes}
    (h : l.Accepted data.packetId payload) : l.Accepted data.packetId data.payload := by
  have heq := hl.payload_of_accepted h
  rw [List.getElem?_map, hl.getElem?_toNat_packetId hlen hdata] at heq
  rwa [Option.some.inj heq]

/-- One chunk more is kept and enqueued under the next id. -/
theorem enqueueChunk (hl : l.Inv) (hlen : l.enqueued.length < 2 ^ 32) (chunk : Bytes) :
    Inv { l with
      sender := (l.sender.enqueueChunk chunk).1
      payloads := l.payloads ++ [chunk]
      enqueued := l.enqueued ++ [(l.sender.enqueueChunk chunk).2] } where
  numbered i data h := by
    rw [List.getElem?_append] at h
    split at h
    · exact hl.numbered i data h
    next hi =>
      obtain ⟨hlt, rfl⟩ := List.getElem?_eq_some_iff.1 h
      obtain rfl : i = l.enqueued.length := by simp at hlt; omega
      simp [UdpFlowState.enqueueChunk, hl.count]
  count := by simp [UdpFlowState.enqueueChunk, hl.count]
  cut := by simp [UdpFlowState.enqueueChunk, hl.cut]
  delivered := by
    simp only [List.map_append]
    exact hl.delivered.trans (List.prefix_append _ _)
  want := hl.want
  buffered h := by
    obtain ⟨hle, hget⟩ := hl.buffered h
    refine ⟨hle, ?_⟩
    rw [List.map_append, List.getElem?_append_left (List.getElem?_eq_some_iff.1 hget).1]
    exact hget
  kept data h := by
    rcases List.mem_append.1 h with h | h
    · refine (hl.kept data h).imp (fun hsent => ?_) id
      -- The new id is none of the old ones.
      have hne : l.sender.packetsSent ≠ data.packetId := by
        obtain ⟨i, hi⟩ := List.getElem?_of_mem h
        have hlt := (List.getElem?_eq_some_iff.1 hi).1
        rw [hl.count, hl.numbered i data hi]
        intro e
        have := congrArg UInt32.toNat e
        rw [Word32.toNat_ofNat_of_lt hlen, Word32.toNat_ofNat_of_lt (by omega)] at this
        omega
      rw [UdpFlowState.enqueueChunk, KeyMap.lookup_insert, if_neg hne]
      exact hsent
    · obtain rfl := List.mem_singleton.1 h
      left
      rw [UdpFlowState.enqueueChunk, KeyMap.lookup_insert, if_pos rfl]
  acked := hl.acked

/-- Only the bytes of the payloads matter, not how they are cut. -/
theorem recut (hl : l.Inv) {payloads : List Bytes}
    (h : payloads.flatten = l.payloads.flatten) : Inv { l with payloads } :=
  { hl with cut := hl.cut.trans h.symm }

theorem enqueueChunks (hl : l.Inv) (chunks : List Bytes)
    (hlen : (l.enqueued ++ (l.sender.enqueueChunks chunks).2).length < 2 ^ 32) :
    Inv { l with
      sender := (l.sender.enqueueChunks chunks).1
      payloads := l.payloads ++ chunks
      enqueued := l.enqueued ++ (l.sender.enqueueChunks chunks).2 } := by
  induction chunks generalizing l with
  | nil => simpa [UdpFlowState.enqueueChunks] using hl
  | cons chunk chunks ih =>
    simp only [UdpFlowState.enqueueChunks] at hlen ⊢
    rw [List.append_cons] at hlen
    rw [List.append_cons l.payloads, List.append_cons l.enqueued]
    exact ih (hl.enqueueChunk (by simp only [List.length_append] at hlen; omega) chunk) hlen

/-- A packet the network delivers is one that was enqueued: what is buffered
    stays what was enqueued, and what was accepted stays accepted. -/
theorem deliver (hl : l.Inv) (hlen : l.enqueued.length < 2 ^ 32) {data : UdpData}
    (hdata : data ∈ l.enqueued) : (l.deliver data).Inv := by
  unfold Link.deliver
  rcases UdpFlowState.handleData_cases l.receiver data with h | ⟨-, -, hle, -, h⟩
  · rw [h]; exact hl
  · rw [h]
    have hget := hl.getElem?_toNat_packetId hlen hdata
    have haccepted : ∀ k payload, l.Accepted k payload → Accepted { l with
        receiver := { l.receiver with
          received := l.receiver.received.insert data.packetId data.payload } } k payload := by
      intro k payload hk
      refine hk.imp id fun hbuf => ?_
      rw [KeyMap.lookup_insert]
      split
      · next e =>
        subst e
        have hsame := (hl.buffered hbuf).2
        rw [List.getElem?_map, hget] at hsame
        exact hsame
      · exact hbuf
    exact { hl with
      buffered := by
        intro k payload hk
        rw [KeyMap.lookup_insert] at hk
        split at hk
        · next e =>
          subst e
          obtain rfl := Option.some.inj hk
          rw [hl.want, UInt32.le_iff_toNat_le, UInt32.toNat_ofNat'] at hle
          have hdrained := hl.delivered.length_le
          rw [List.length_map] at hdrained
          rw [Nat.mod_eq_of_lt (by omega)] at hle
          exact ⟨hle, by rw [List.getElem?_map, hget]; rfl⟩
        · exact hl.buffered hk
      kept := fun d hd => (hl.kept d hd).imp id (haccepted _ _)
      acked := fun ack hack k hk => (hl.acked ack hack k hk).imp fun _ => haccepted _ _ }

/-- One turn of draining: the wanted packet goes from the buffer to what was
    delivered. -/
theorem deliverNext (hl : l.Inv) (hlen : l.enqueued.length < 2 ^ 32) {payload : Bytes}
    (h : l.receiver.received[l.receiver.packetsWant]? = some payload) :
    Inv { l with receiver := l.receiver.deliverNext, drained := l.drained ++ [payload] } := by
  have hdrained := hl.delivered.length_le
  rw [List.length_map] at hdrained
  have hwant : l.receiver.packetsWant.toNat = l.drained.length := by
    rw [hl.want, Word32.toNat_ofNat_of_lt (by omega)]
  have hnext := (hl.buffered h).2
  rw [hwant] at hnext
  have herase : ∀ k p, l.receiver.received[k]? = some p → l.receiver.packetsWant ≠ k →
      l.receiver.deliverNext.received[k]? = some p := by
    intro k p hk hne
    rwa [UdpFlowState.deliverNext, KeyMap.lookup_erase, if_neg hne]
  have haccepted : ∀ k p, l.Accepted k p → Accepted { l with
      receiver := l.receiver.deliverNext, drained := l.drained ++ [payload] } k p := by
    intro k p hk
    rcases hk with hk | hk
    · exact .inl (by rw [List.getElem?_append_left (List.getElem?_eq_some_iff.1 hk).1, hk])
    · by_cases hne : l.receiver.packetsWant = k
      · subst hne
        rw [h] at hk
        exact .inl (by simp [hwant, hk])
      · exact .inr (herase k p hk hne)
  exact { hl with
    delivered := by
      obtain ⟨rest, hrest⟩ := hl.delivered
      rw [← hrest] at hnext ⊢
      rw [List.getElem?_append_right (le_refl _), Nat.sub_self] at hnext
      obtain ⟨rest', rfl⟩ := List.head?_eq_some_iff.1 (List.head?_eq_getElem? ▸ hnext)
      exact ⟨rest', by simp⟩
    want := by simp [UdpFlowState.deliverNext, hl.want]
    buffered := by
      intro k p hk
      rw [UdpFlowState.deliverNext, KeyMap.lookup_erase] at hk
      split at hk
      · exact absurd hk (by simp)
      next hne =>
        obtain ⟨hle, hget⟩ := hl.buffered hk
        have hne' : l.drained.length ≠ k.toNat := fun e =>
          hne (UInt32.toNat_inj.1 (hwant.trans e))
        exact ⟨by rw [List.length_append, List.length_singleton]; omega, hget⟩
    kept := fun d hd => (hl.kept d hd).imp id (haccepted _ _)
    acked := fun ack hack k hk => (hl.acked ack hack k hk).imp fun _ => haccepted _ _ }

/-- Draining moves what is contiguous to the output. -/
theorem drain (hl : l.Inv) (hlen : l.enqueued.length < 2 ^ 32) : l.drain.Inv := by
  -- By induction on the turns of the loop, for the link after each of them.
  refine UdpFlowState.drainContiguous_induction (motive := fun s r => ∀ l : Link,
    l.receiver = s → l.Inv → l.enqueued.length < 2 ^ 32 →
      Inv { l with receiver := r.1, drained := l.drained ++ r.2 })
    ?_ ?_ l.receiver l rfl hl hlen
  · rintro s - l rfl hl -
    simpa using hl
  · rintro s payload r h ih l rfl hl hlen
    simpa using ih _ rfl (hl.deliverNext hlen h) hlen

/-- An ack put on the wire names what the receiver has. -/
theorem emitAck (hl : l.Inv) (hlen : l.enqueued.length < 2 ^ 32) {ack : UdpAck}
    (h : l.receiver.buildSendAck = some ack) : (l.emitAck ack).Inv := by
  refine { hl with acked := fun ack' hack k hk => ?_ }
  rcases List.mem_append.1 hack with hack | hack
  · exact hl.acked ack' hack k hk
  · obtain rfl := List.mem_singleton.1 hack
    rcases UdpFlowState.buildSendAck_sound h hk with hlt | hbuf
    · have hdrained := hl.delivered.length_le
      rw [List.length_map] at hdrained
      rw [UInt32.lt_iff_toNat_lt, hl.want, Word32.toNat_ofNat_of_lt (by omega)] at hlt
      exact ⟨l.drained[k.toNat], .inl (List.getElem?_eq_getElem hlt)⟩
    · obtain ⟨payload, hpayload⟩ := KeyMap.contains_iff_lookup.1 hbuf
      exact ⟨payload, .inr hpayload⟩

/-- A packet removed by an acknowledgement was accepted, however late the
    acknowledgement arrives. -/
theorem receiveAck (hl : l.Inv) (hlen : l.enqueued.length < 2 ^ 32) {ack : UdpAck}
    (hack : ack ∈ l.acks) (now : Instant) : (l.receiveAck ack now).Inv :=
  { hl with
    count := (UdpFlowState.handleAck_packetsSent l.sender ack now).trans hl.count
    kept := by
      intro data hdata
      rcases hl.kept data hdata with hsent | haccepted
      · rcases UdpFlowState.lookup_sent_handleAck l.sender ack now data.packetId with h | h
        · exact .inl (h.trans hsent)
        · obtain ⟨payload, hpayload⟩ := hl.acked ack hack _ h
          exact .inr (hl.accepted_of_mem hlen hdata hpayload)
      · exact .inr haccepted }

end Inv

/-! ## Reachable links -/

theorem Step.length_le {l l' : Link} (h : Step l l') : l.enqueued.length ≤ l'.enqueued.length := by
  cases h <;> simp [Link.enqueue, Link.deliver, Link.drain, Link.emitAck, Link.receiveAck]

/-- Each step keeps the invariant while the ids last. -/
theorem Step.inv {l l' : Link} (h : Step l l') (hl : l.Inv)
    (hlen : l'.enqueued.length < 2 ^ 32) : l'.Inv := by
  have hlen' := h.length_le.trans_lt hlen
  cases h with
  | enqueue payload =>
    exact (hl.enqueueChunks _ hlen).recut (by simp [flatten_toChunks])
  | deliver hdata => exact hl.deliver hlen' hdata
  | drain => exact hl.drain hlen'
  | emitAck hack => exact hl.emitAck hlen' hack
  | receiveAck now hack => exact hl.receiveAck hlen' hack now

/-- The invariant holds of every reachable link whose ids have not run out. -/
theorem Reachable.inv {clientId cameraId : Int32} (h : Reachable clientId cameraId l)
    (hlen : l.enqueued.length < 2 ^ 32) : l.Inv := by
  induction h with
  | refl => exact init_inv clientId cameraId
  | tail _ hs ih => exact hs.inv (ih (hs.length_le.trans_lt hlen)) hlen

/-- A link on which the second of three packets overtook the first one, and the
    acknowledgement of both arrived; the third is on its way. -/
def sample : Link :=
  ((((((((init 7 9).enqueue [1, 2]).enqueue [3]).enqueue [4]).deliver ⟨9, 1, [3]⟩).deliver
    ⟨9, 0, [1, 2]⟩).drain).emitAck ⟨7, 0, 1, 0, []⟩).receiveAck ⟨7, 0, 1, 0, []⟩ 0

theorem sample_reachable : Reachable 7 9 sample := by
  refine .tail (.tail (.tail (.tail (.tail (.tail (.tail (.tail .refl (.enqueue _ _))
    (.enqueue _ _)) (.enqueue _ _)) (.deliver _ ?_)) (.deliver _ ?_)) (.drain _))
    (.emitAck _ ?_)) (.receiveAck _ 0 ?_)
  all_goals decide +kernel

/-- In every reachable state, what was delivered is a prefix of what was sent:
    in order, nothing duplicated, nothing skipped. -/
theorem drained_prefix {clientId cameraId : Int32} (h : Reachable clientId cameraId l)
    (hlen : l.enqueued.length < 2 ^ 32 - 1) : l.drained.flatten <+: l.payloads.flatten := by
  have hl := h.inv (by omega)
  obtain ⟨rest, hrest⟩ := hl.delivered
  rw [← hl.cut, ← hrest, List.flatten_append]
  exact List.prefix_append _ _

theorem drained_prefix_sample : sample.drained = [[1, 2], [3]] ∧
    sample.drained.flatten <+: sample.payloads.flatten :=
  ⟨by decide +kernel, drained_prefix sample_reachable (by decide +kernel)⟩

/-- In every reachable state, an enqueued packet is kept for resending, was
    delivered, or waits in the reorder buffer. -/
theorem kept_or_accepted {clientId cameraId : Int32} (h : Reachable clientId cameraId l)
    (hlen : l.enqueued.length < 2 ^ 32 - 1) {data : UdpData} (hdata : data ∈ l.enqueued) :
    l.sender.sent[data.packetId]? = some data ∨
      l.drained[data.packetId.toNat]? = some data.payload ∨
      l.receiver.received[data.packetId]? = some data.payload :=
  (h.inv (by omega)).kept data hdata

/-- The third packet is still kept, and the first has been drained. -/
theorem kept_or_accepted_sample : sample.sender.sent.keys = [2] ∧
    (sample.sender.sent[(0 : UInt32)]? = some ⟨9, 0, [1, 2]⟩ ∨
      sample.drained[(0 : UInt32).toNat]? = some [1, 2] ∨
      sample.receiver.received[(0 : UInt32)]? = some [1, 2]) :=
  ⟨by decide +kernel, kept_or_accepted sample_reachable (by decide +kernel)
    (show (⟨9, 0, [1, 2]⟩ : UdpData) ∈ sample.enqueued by decide +kernel)⟩

end Link

end Bairelay
