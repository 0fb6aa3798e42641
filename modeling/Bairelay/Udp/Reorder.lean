import Bairelay.Udp.Flow

/-!
# The reorder buffer

The states a flow reaches from `new` (`Reachable`), for any packets, hostile
ones included. There the buffered ids are never behind `packetsWant` and never
the largest word (`Reachable.wf`), so draining never wraps and an
acknowledgement can always be built (`Wf.buildSendAck_isSome`).

The buffer is capped, and the cap also refuses the packet that would empty it:
the retransmission of a lost packet is accepted exactly when the buffer has
room left (`gapFilled_iff`). Once `reorderCap` packets followed a lost one, the
flow is stuck (`not_gapFilled_flooded`).
-/

namespace Bairelay

namespace UdpFlowState

variable {s : UdpFlowState}

/-! ## Reachable states -/

/-- The states a flow reaches, whatever the packets it is given. -/
inductive Reachable (clientId cameraId : Int32) : UdpFlowState → Prop
  | new : Reachable clientId cameraId (new clientId cameraId)
  | enqueueSend {s : UdpFlowState} (payload : Bytes) :
    Reachable clientId cameraId s → Reachable clientId cameraId (s.enqueueSend payload).1
  | handleData {s : UdpFlowState} (data : UdpData) :
    Reachable clientId cameraId s → Reachable clientId cameraId (s.handleData data).1
  | handleAck {s : UdpFlowState} (ack : UdpAck) (now : Instant) :
    Reachable clientId cameraId s → Reachable clientId cameraId (s.handleAck ack now)
  | drainContiguous {s : UdpFlowState} :
    Reachable clientId cameraId s → Reachable clientId cameraId s.drainContiguous.1

/-- The buffered ids are still to be delivered, and not the largest word. -/
structure Wf (s : UdpFlowState) : Prop where
  want_le : ∀ {k payload}, s.received[k]? = some payload → s.packetsWant ≤ k
  ne_max : ∀ {k payload}, s.received[k]? = some payload → k ≠ Word32.maxValue

theorem new_wf (clientId cameraId : Int32) : (new clientId cameraId).Wf :=
  ⟨fun h => by simp [new] at h, fun h => by simp [new] at h⟩

/-- Sending does not touch what was received. -/
theorem enqueueChunks_frame (s : UdpFlowState) (chunks : List Bytes) :
    (s.enqueueChunks chunks).1.received = s.received ∧
      (s.enqueueChunks chunks).1.packetsWant = s.packetsWant := by
  induction chunks generalizing s with
  | nil => exact ⟨rfl, rfl⟩
  | cons chunk chunks ih => exact ih (s.enqueueChunk chunk).1

/-- An ack changes nothing on the receiving side. -/
theorem handleAck_frame (s : UdpFlowState) (ack : UdpAck) (now : Instant) :
    (s.handleAck ack now).received = s.received ∧
      (s.handleAck ack now).packetsWant = s.packetsWant := by
  simp only [handleAck]
  split
  · exact ⟨rfl, rfl⟩
  · split <;> exact ⟨rfl, rfl⟩

/-- Well-formedness is about the receiving side. -/
theorem Wf.of_frame {s s' : UdpFlowState} (hs : s.Wf)
    (h : s'.received = s.received ∧ s'.packetsWant = s.packetsWant) : s'.Wf :=
  ⟨fun hk => h.2 ▸ hs.want_le (h.1 ▸ hk), fun hk => hs.ne_max (h.1 ▸ hk)⟩

/-- Data within the window and the bound is stored, and no other. -/
theorem Wf.handleData (hs : s.Wf) (data : UdpData) : (s.handleData data).1.Wf := by
  rcases handleData_cases s data with h | ⟨-, hmax, hle, -, h⟩
  · rw [h]; exact hs
  · rw [h]
    constructor <;> intro k payload hk <;> rw [KeyMap.lookup_insert] at hk <;> split at hk
    · next e => exact e ▸ hle
    · exact hs.want_le hk
    · next e => exact e ▸ hmax
    · exact hs.ne_max hk

/-- Delivering the wanted packet moves on to the next id, without wrapping. -/
theorem Wf.toNat_packetsWant_deliverNext (hs : s.Wf) {payload : Bytes}
    (h : s.received[s.packetsWant]? = some payload) :
    s.deliverNext.packetsWant.toNat = s.packetsWant.toNat + 1 := by
  have hlt := Word32.lt_of_ne_maxValue (hs.ne_max h)
  rw [deliverNext, UInt32.toNat_add, UInt32.toNat_one, Nat.mod_eq_of_lt (by omega)]

/-- Delivering the wanted packet moves the window on by one. -/
theorem Wf.deliverNext (hs : s.Wf) {payload : Bytes}
    (h : s.received[s.packetsWant]? = some payload) : s.deliverNext.Wf := by
  have herase : ∀ {k p}, s.deliverNext.received[k]? = some p →
      s.packetsWant ≠ k ∧ s.received[k]? = some p := by
    intro k p hk
    rw [UdpFlowState.deliverNext, KeyMap.lookup_erase] at hk
    split at hk
    · exact absurd hk (by simp)
    · next hne => exact ⟨hne, hk⟩
  refine ⟨fun {k _} hk => ?_, fun hk => hs.ne_max (herase hk).2⟩
  obtain ⟨hne, hk⟩ := herase hk
  have hle := UInt32.le_iff_toNat_le.1 (hs.want_le hk)
  have hne' : s.packetsWant.toNat ≠ k.toNat := fun e => hne (UInt32.toNat_inj.1 e)
  rw [UInt32.le_iff_toNat_le, hs.toNat_packetsWant_deliverNext h]
  omega

/-- Draining keeps the buffered ids ahead, and never goes back. -/
theorem Wf.drainContiguous (hs : s.Wf) :
    s.drainContiguous.1.Wf ∧ s.packetsWant ≤ s.drainContiguous.1.packetsWant := by
  refine drainContiguous_induction
    (motive := fun s r => s.Wf → r.1.Wf ∧ s.packetsWant ≤ r.1.packetsWant)
    (fun s _ hs => ⟨hs, UInt32.le_refl _⟩) (fun s payload r h ih hs => ?_) s hs
  obtain ⟨hwf, hle⟩ := ih (hs.deliverNext h)
  have hnext := hs.toNat_packetsWant_deliverNext h
  rw [UInt32.le_iff_toNat_le] at hle
  exact ⟨hwf, UInt32.le_iff_toNat_le.2 (by dsimp only; omega)⟩

theorem Reachable.wf {clientId cameraId : Int32} (h : Reachable clientId cameraId s) : s.Wf := by
  induction h with
  | new => exact new_wf clientId cameraId
  | enqueueSend payload _ ih => exact ih.of_frame (enqueueChunks_frame _ _)
  | handleData data _ ih => exact ih.handleData data
  | handleAck ack now _ ih => exact ih.of_frame (handleAck_frame _ _ _)
  | drainContiguous _ ih => exact ih.drainContiguous.1

/-! ## Acknowledging -/

/-- A stored id lies in the window, below the last id. -/
theorem Wf.lt_maxValue (hs : s.Wf) {k : UInt32} (h : s.received.contains k = true) :
    s.packetsWant.toNat ≤ k.toNat ∧ k.toNat < 2 ^ 32 - 1 := by
  obtain ⟨payload, hpayload⟩ := KeyMap.contains_iff_lookup.1 h
  exact ⟨UInt32.le_iff_toNat_le.1 (hs.want_le hpayload),
    Word32.lt_of_ne_maxValue (hs.ne_max hpayload)⟩

/-- The greatest key of the buffer is stored, and none is above it. -/
theorem contains_of_max? {received : KeyMap UInt32 Bytes} {last : UInt32}
    (h : received.keys.max? = some last) :
    received.contains last = true ∧ ∀ k, received.contains k = true → k ≤ last := by
  obtain ⟨hmem, hmax⟩ := List.max?_eq_some_iff.1 h
  refine ⟨Std.ExtTreeMap.mem_iff_contains.1 (Std.ExtTreeMap.mem_keys.1 hmem), fun k hk => ?_⟩
  exact hmax k (Std.ExtTreeMap.mem_keys.2 (Std.ExtTreeMap.mem_iff_contains.2 hk))

/-- Without a greatest key the buffer is empty. -/
theorem not_contains_of_max? {received : KeyMap UInt32 Bytes} (h : received.keys.max? = none)
    (k : UInt32) : received.contains k = false := by
  rw [List.max?_eq_none_iff] at h
  rw [Bool.eq_false_iff, ne_eq, ← Std.ExtTreeMap.mem_iff_contains, ← Std.ExtTreeMap.mem_keys, h]
  exact List.not_mem_nil

/-- The highest buffered id is at most one below the first missing one: were it further below, the
    id after it would be buffered too. -/
theorem Wf.first_le_last (hs : s.Wf) {fuel : ℕ} {first last : UInt32}
    (h : firstMissing s.received fuel s.packetsWant = some first)
    (hlast : s.received.contains last = true)
    (hmax : ∀ k, s.received.contains k = true → k ≤ last) : first.toNat ≤ last.toNat + 1 := by
  obtain ⟨-, -, hbetween⟩ := firstMissing_spec h
  obtain ⟨hwant, hlt⟩ := hs.lt_maxValue hlast
  by_contra hgt
  have hnext : (last + 1).toNat = last.toNat + 1 := by
    rw [UInt32.toNat_add, UInt32.toNat_one, Nat.mod_eq_of_lt (by omega)]
  have hbuf := hbetween (last + 1) (UInt32.le_iff_toNat_le.2 (by omega))
    (UInt32.lt_iff_toNat_lt.2 (by omega))
  have habove := UInt32.le_iff_toNat_le.1 (hmax _ hbuf)
  omega

/-- The bitmap starts at the first missing id, so the length of the bitmap does not underflow. -/
theorem Wf.missingIds_isSome (hs : s.Wf) {fuel : ℕ} {first : UInt32}
    (h : firstMissing s.received fuel s.packetsWant = some first) :
    (missingIds s.received first).isSome := by
  rw [missingIds]
  split
  · rfl
  next last hlast =>
    dsimp only
    rw [if_neg, Option.isSome_some]
    obtain ⟨hbuffered, hmax⟩ := contains_of_max? hlast
    have hle := hs.first_le_last h hbuffered hmax
    have hcap : first.toNat ≤ (Word32.saturatingAdd first ackBitmapCap).toNat := by
      have := first.toNat_lt
      rw [Word32.toNat_saturatingAdd]
      omega
    have hend : first.toNat ≤ (Word32.saturatingAdd last 1).toNat := by
      have := first.toNat_lt
      rw [Word32.toNat_saturatingAdd, UInt32.toNat_one]
      omega
    rw [UInt32.not_lt, UInt32.le_iff_toNat_le]
    show first.toNat ≤ (if _ then _ else _ : UInt32).toNat
    split
    · exact hend
    · exact hcap

/-- The acknowledgement of a reachable flow can be built: the search for the
    first missing id ends, and no subtraction underflows. -/
theorem Wf.buildSendAck_isSome (hs : s.Wf) : s.buildSendAck.isSome := by
  rw [buildSendAck]
  split
  · next hpos =>
    have hmax : s.received.contains Word32.maxValue = false := by
      rw [Bool.eq_false_iff, ne_eq, KeyMap.contains_iff_lookup]
      exact fun ⟨payload, h⟩ => hs.ne_max h rfl
    obtain ⟨first, hfirst⟩ :=
      Option.isSome_iff_exists.1 (firstMissing_isSome hmax s.packetsWant)
    obtain ⟨payload, hpayload⟩ := Option.isSome_iff_exists.1 (hs.missingIds_isSome hfirst)
    have hne : first ≠ 0 := by
      rintro rfl
      exact UInt32.not_lt.2 (firstMissing_spec hfirst).1 hpos
    simp [hfirst, hpayload, hne]
  · rfl

/-! ## Filling the gap -/

/-- The wanted packet is accepted: it is stored in the buffer, the next drain
    delivers its payload first, and the flow moves on past it. -/
def GapFilled (s : UdpFlowState) (data : UdpData) : Prop :=
  (s.handleData data).2 = true ∧
    (s.handleData data).1.received[s.packetsWant]? = some data.payload ∧
    (s.handleData data).1.drainContiguous.2.head? = some data.payload ∧
    s.packetsWant < (s.handleData data).1.drainContiguous.1.packetsWant

/-- A buffered wanted packet is delivered first, and the flow moves on past it. -/
theorem Wf.drainContiguous_of_some (hs : s.Wf) {payload : Bytes}
    (h : s.received[s.packetsWant]? = some payload) :
    s.drainContiguous.2.head? = some payload ∧
      s.packetsWant < s.drainContiguous.1.packetsWant := by
  rw [UdpFlowState.drainContiguous_of_some h]
  have hle := UInt32.le_iff_toNat_le.1 (hs.deliverNext h).drainContiguous.2
  have hnext := hs.toNat_packetsWant_deliverNext h
  exact ⟨rfl, UInt32.lt_iff_toNat_lt.2 (by dsimp only; omega)⟩

/-- Data does not move the window. Only draining does. -/
theorem handleData_packetsWant (s : UdpFlowState) (data : UdpData) :
    (s.handleData data).1.packetsWant = s.packetsWant := by
  rcases handleData_cases s data with h | ⟨-, -, -, -, h⟩ <;> rw [h]

/-- With a full buffer, no packet is accepted. -/
theorem handleData_of_full (h : reorderCap ≤ s.received.size) (data : UdpData) :
    s.handleData data = (s, false) := by
  rcases handleData_cases s data with h' | ⟨-, -, -, hlt, -⟩
  · exact h'
  · omega

/-- The wanted packet is accepted exactly when the reorder buffer has room left. -/
theorem gapFilled_iff {clientId cameraId : Int32} (hs : Reachable clientId cameraId s)
    {data : UdpData} (hid : data.connectionId = s.clientId)
    (hwant : data.packetId = s.packetsWant) (hmax : data.packetId ≠ Word32.maxValue) :
    s.GapFilled data ↔ s.received.size < reorderCap := by
  constructor
  · intro h
    by_contra hfull
    have hrefused := h.1
    rw [handleData_of_full (not_lt.1 hfull)] at hrefused
    exact Bool.false_ne_true hrefused
  · intro hlt
    have hstep : s.handleData data =
        ({ s with received := s.received.insert data.packetId data.payload }, true) := by
      simp [handleData, hid, hwant, hlt, hwant ▸ hmax]
    have hstored : (s.handleData data).1.received[s.packetsWant]? = some data.payload := by
      rw [hstep, KeyMap.lookup_insert, if_pos hwant]
    have heq := handleData_packetsWant s data
    have hdrain := (hs.wf.handleData data).drainContiguous_of_some (heq.symm ▸ hstored)
    exact ⟨by rw [hstep], hstored, hdrain.1, heq ▸ hdrain.2⟩

/-- A flow of connection `7` whose first packet was lost, after `n` packets that
    followed it. -/
def flooded (n : ℕ) : UdpFlowState :=
  (List.range n).foldl (fun s i => (s.handleData ⟨7, UInt32.ofNat (i + 1), [0xaa]⟩).1) (new 7 9)

/-- A flow that was sent every id but the first is reachable. -/
theorem flooded_reachable (n : ℕ) : Reachable 7 9 (flooded n) :=
  List.foldlRecOn _ _ .new fun _ h _ _ => h.handleData _

/-- One packet after the lost one, the retransmission of the lost one is accepted. -/
theorem gapFilled_flooded_one :
    Reachable 7 9 (flooded 1) ∧ (flooded 1).GapFilled ⟨7, 0, [0xbb]⟩ :=
  ⟨flooded_reachable 1, (gapFilled_iff (flooded_reachable 1) rfl rfl (by decide)).2
    (by decide +kernel)⟩

/-- Up to the cap, the packets that followed the lost one are all buffered. -/
theorem flooded_spec {n : ℕ} (hn : n ≤ reorderCap) :
    (flooded n).clientId = 7 ∧ (flooded n).packetsWant = 0 ∧ (flooded n).received.size = n ∧
      ∀ (k : UInt32) payload, (flooded n).received[k]? = some payload →
        1 ≤ k.toNat ∧ k.toNat ≤ n := by
  induction n with
  | zero => exact ⟨rfl, rfl, rfl, fun k payload h => by simp [flooded, new] at h⟩
  | succ n ih =>
    obtain ⟨hclient, hwant, hsize, hkeys⟩ := ih (by omega)
    have hcap : reorderCap = 1024 := rfl
    have hid : (UInt32.ofNat (n + 1)).toNat = n + 1 := Word32.toNat_ofNat_of_lt (by omega)
    have hmax : UInt32.ofNat (n + 1) ≠ Word32.maxValue := fun e => by
      have := congrArg UInt32.toNat e
      rw [hid, Word32.toNat_maxValue] at this
      omega
    have hnew : (flooded n).received.contains (UInt32.ofNat (n + 1)) = false := by
      rw [Bool.eq_false_iff, ne_eq, KeyMap.contains_iff_lookup]
      rintro ⟨payload, h⟩
      have := (hkeys _ _ h).2
      omega
    have hstep : flooded (n + 1) = { flooded n with
        received := (flooded n).received.insert (UInt32.ofNat (n + 1)) [0xaa] } := by
      rw [flooded, List.range_succ, List.foldl_append, List.foldl_cons, List.foldl_nil,
        ← flooded, handleData, if_neg (not_not.2 hclient.symm), if_neg hmax,
        if_pos ⟨by rw [hwant]; exact UInt32.zero_le, by omega⟩]
    rw [hstep]
    refine ⟨hclient, hwant, ?_, fun k payload h => ?_⟩
    · rw [Std.ExtTreeMap.size_insert, hnew, hsize]; simp
    · rw [KeyMap.lookup_insert] at h
      split at h
      · next e => rw [← e, hid]; omega
      · have := hkeys k payload h; omega

/-- After `1024` packets, the retransmission of the lost one is refused. -/
theorem not_gapFilled_flooded :
    Reachable 7 9 (flooded 1024) ∧ (flooded 1024).clientId = 7 ∧
      (flooded 1024).packetsWant = 0 ∧ ¬(flooded 1024).GapFilled ⟨7, 0, [0xbb]⟩ := by
  obtain ⟨hclient, hwant, hsize, -⟩ := flooded_spec (n := 1024) (le_refl reorderCap)
  refine ⟨flooded_reachable 1024, hclient, hwant, fun h => ?_⟩
  have hrefused := h.1
  rw [handleData_of_full hsize.ge] at hrefused
  exact Bool.false_ne_true hrefused

end UdpFlowState

end Bairelay
