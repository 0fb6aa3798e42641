import Bairelay.Udp.Reorder
import Bairelay.Lib.Past

/-!
# Acknowledgements

What an acknowledgement does to the packets kept for resending, and what the one says that a
flow sends itself.

* `appliesExactly_iff`: an acknowledgement that is refused changes nothing, and any other removes
  just the ids it acknowledges, unless a refused one is ahead of a packet that is kept;
* `buildSendAck_exact`: the acknowledgement of a flow says which packets were received, for any
  packets that the peer sends.
-/

namespace Bairelay

/-- The ids acknowledged go past the largest one. -/
def UdpAck.Crosses (ack : UdpAck) : Prop :=
  Word32.maxValue.toNat < ack.packetId.toNat + 1 + ack.payload.length

/-- The byte of `k` in the bitmap is not zero. -/
def UdpAck.Marks (ack : UdpAck) (k : UInt32) : Prop :=
  ∃ i v, ack.payload[i]? = some v ∧ 0 < v ∧ ack.packetId + 1 + UInt32.ofNat i = k

instance : DecidablePred UdpAck.Crosses := fun _ => inferInstanceAs (Decidable (_ < _))

namespace UdpFlowState

variable {s : UdpFlowState} {ack : UdpAck} {now : Instant}

/-! ## Inbound -/

/-- The kept packets are as they were if the acknowledgement crosses the largest id, and those it
    acknowledges are gone otherwise. -/
def AppliesExactly (s : UdpFlowState) (ack : UdpAck) (now : Instant) : Prop :=
  (ack.Crosses → (s.handleAck ack now).sent = s.sent) ∧
    (¬ack.Crosses → ∀ k, ((k ≤ ack.packetId ∨ ack.Marks k) →
        (s.handleAck ack now).sent[k]? = none) ∧
      (¬(k ≤ ack.packetId ∨ ack.Marks k) → (s.handleAck ack now).sent[k]? = s.sent[k]?))

/-- An ack changes what is kept of the sent packets, never the ids of the flow. -/
theorem handleAck_cameraId (s : UdpFlowState) (ack : UdpAck) (now : Instant) :
    (s.handleAck ack now).cameraId = s.cameraId := by
  simp only [handleAck]
  split
  · rfl
  · split <;> rfl

/-- The acknowledgement signifying that nothing was received is not looked at. -/
theorem sent_handleAck_of_maxValue (h : ack.packetId = Word32.maxValue) :
    (s.handleAck ack now).sent = s.sent := by
  have hmax : ack.packetId = 0xffffffff := h
  rw [handleAck, if_pos hmax]

/-- An ack whose bitmap would run past the last id frees what the cumulative id covers, and nothing
    else. -/
theorem lookup_sent_of_crosses (s : UdpFlowState) (now : Instant)
    (hmax : ack.packetId ≠ Word32.maxValue) (h : ack.Crosses) (k : UInt32) :
    (s.handleAck ack now).sent[k]? = if ack.packetId < k then s.sent[k]? else none := by
  have hmax' : ack.packetId ≠ 0xffffffff := hmax
  rw [UdpAck.Crosses, ← gt_iff_lt] at h
  rw [handleAck, if_neg hmax']
  dsimp only
  rw [if_pos h, KeyMap.lookup_filter _ fun k => ack.packetId < k]
  simp only [decide_eq_true_eq]

/-- The marks are the bytes of the bitmap that are not 0, each at its distance from the cumulative
    id. -/
theorem marks_iff_mem_zipIdx {k : UInt32} :
    ack.Marks k ↔
      ∃ x ∈ ack.payload.zipIdx, 0 < x.1 ∧ ack.packetId + 1 + UInt32.ofNat x.2 = k := by
  constructor
  · rintro ⟨i, v, hi, hv, hk⟩
    exact ⟨(v, i), List.mem_zipIdx_iff_getElem?.2 hi, hv, hk⟩
  · rintro ⟨⟨v, i⟩, hmem, hv, hk⟩
    exact ⟨i, v, List.mem_zipIdx_iff_getElem?.1 hmem, hv, hk⟩

theorem not_crosses_maxValue (h : ¬ack.Crosses) : ack.packetId ≠ Word32.maxValue := by
  rintro hmax
  refine h ?_
  rw [UdpAck.Crosses, hmax]
  omega

/-- An ack that stays below the last id frees what it covers and what it marks. -/
theorem lookup_sent_of_not_crosses (s : UdpFlowState) (now : Instant) (h : ¬ack.Crosses)
    (k : UInt32) :
    (ack.Marks k → (s.handleAck ack now).sent[k]? = none) ∧
      (¬ack.Marks k → (s.handleAck ack now).sent[k]? =
        if ack.packetId < k then s.sent[k]? else none) := by
  have hmax : ack.packetId ≠ 0xffffffff := not_crosses_maxValue h
  rw [UdpAck.Crosses, ← gt_iff_lt] at h
  rw [handleAck, if_neg hmax]
  dsimp only
  rw [if_neg h, lookup_removeMarked, marks_iff_mem_zipIdx,
    KeyMap.lookup_filter _ fun k => ack.packetId < k]
  simp only [decide_eq_true_eq]
  exact ⟨fun hmarks => if_pos hmarks, fun hmarks => if_neg hmarks⟩

/-- An acknowledgement does just what it says, unless it is refused for its range and is ahead of
    a packet that is kept. -/
theorem appliesExactly_iff (s : UdpFlowState) (ack : UdpAck) (now : Instant) :
    s.AppliesExactly ack now ↔
      ¬ack.Crosses ∨ ack.packetId = Word32.maxValue ∨
        ∀ k, s.sent.contains k = true → ack.packetId < k := by
  constructor
  · rintro ⟨hcrosses, -⟩
    by_cases h : ack.Crosses
    · by_cases hmax : ack.packetId = Word32.maxValue
      · exact .inr (.inl hmax)
      · refine .inr (.inr fun k hk => ?_)
        -- The packet was there, so it has to stay.
        obtain ⟨data, hdata⟩ := KeyMap.contains_iff_lookup.1 hk
        have hkept := lookup_sent_of_crosses s now hmax h k
        rw [hcrosses h, hdata] at hkept
        by_contra hle
        rw [if_neg hle] at hkept
        cases hkept
    · exact .inl h
  · intro h
    refine ⟨fun hcrosses => ?_, fun hnot k => ⟨?_, ?_⟩⟩
    · rcases h with h | hmax | hahead
      · exact absurd hcrosses h
      · exact sent_handleAck_of_maxValue hmax
      · by_cases hmax : ack.packetId = Word32.maxValue
        · exact sent_handleAck_of_maxValue hmax
        · refine Std.ExtTreeMap.ext_getElem? fun k => ?_
          rw [lookup_sent_of_crosses s now hmax hcrosses]
          cases hk : s.sent[k]? with
          | none => exact ite_self none
          | some data => exact if_pos (hahead k (KeyMap.contains_iff_lookup.2 ⟨data, hk⟩))
    · rintro (hle | hmarks)
      · by_cases hmarks : ack.Marks k
        · exact (lookup_sent_of_not_crosses s now hnot k).1 hmarks
        · rw [(lookup_sent_of_not_crosses s now hnot k).2 hmarks, if_neg (UInt32.not_lt.2 hle)]
      · exact (lookup_sent_of_not_crosses s now hnot k).1 hmarks
    · intro hk
      obtain ⟨hgt, hmarks⟩ := not_or.1 hk
      rw [(lookup_sent_of_not_crosses s now hnot k).2 hmarks, if_pos (UInt32.not_le.1 hgt)]

/-- A packet is kept, and an acknowledgement far ahead of it is refused: the packet is gone. -/
theorem not_appliesExactly :
    ¬∀ (s : UdpFlowState) (ack : UdpAck) (now : Instant), s.AppliesExactly ack now := by
  intro h
  have hsent := (h ((new 7 9).enqueueSend [1, 2]).1 ⟨7, 0, 0xfffffffe, 0, [0]⟩ 0).1
    (by decide +kernel)
  exact absurd (congrArg Std.ExtTreeMap.size hsent) (by decide +kernel)

/-! ## Outbound -/

/-- What a flow is given, one after the other. -/
inductive Op where
  | enqueueSend (payload : Bytes)
  | handleData (data : UdpData)
  | handleAck (ack : UdpAck) (now : Instant)
  | drainContiguous
  deriving Repr

/-- One call on the flow. -/
def apply (s : UdpFlowState) : Op → UdpFlowState
  | .enqueueSend payload => (s.enqueueSend payload).1
  | .handleData data => (s.handleData data).1
  | .handleAck ack now => s.handleAck ack now
  | .drainContiguous => s.drainContiguous.1

/-- The flow after some operations on a fresh one. -/
def run (clientId cameraId : Int32) (ops : List Op) : UdpFlowState :=
  ops.foldl apply (new clientId cameraId)

/-- The packet `k` was taken in by one of the operations. -/
def Received (clientId cameraId : Int32) (ops : List Op) (k : UInt32) : Prop :=
  ∃ m ∈ Past.moments apply (new clientId cameraId) ops, ∃ data, m.2 = .handleData data ∧
    data.packetId = k ∧ (m.1.handleData data).2 = true

section Runs

variable {clientId cameraId : Int32} {ops : List Op} {op : Op} {k : UInt32}

theorem run_concat (clientId cameraId : Int32) (ops : List Op) (op : Op) :
    run clientId cameraId (ops ++ [op]) = (run clientId cameraId ops).apply op := by
  rw [run, List.foldl_concat, ← run]

theorem reachable_run (clientId cameraId : Int32) (ops : List Op) :
    Reachable clientId cameraId (run clientId cameraId ops) := by
  induction ops using List.reverseRecOn with
  | nil => exact .new
  | append_singleton ops op ih =>
    rw [run_concat]
    cases op with
    | enqueueSend payload => exact ih.enqueueSend payload
    | handleData data => exact ih.handleData data
    | handleAck ack now => exact ih.handleAck ack now
    | drainContiguous => exact ih.drainContiguous

/-- A packet was received if an earlier call took it in, or the last one did. -/
theorem received_concat : Received clientId cameraId (ops ++ [op]) k ↔
    Received clientId cameraId ops k ∨ ∃ data, op = .handleData data ∧ data.packetId = k ∧
      ((run clientId cameraId ops).handleData data).2 = true := by
  rw [Received, Past.moments_concat]
  constructor
  · rintro ⟨m, hm, h⟩
    rcases List.mem_append.1 hm with hm | hm
    · exact .inl ⟨m, hm, h⟩
    · rw [List.mem_singleton.1 hm] at h
      exact .inr h
  · rintro (⟨m, hm, h⟩ | h)
    · exact ⟨m, List.mem_append_left _ hm, h⟩
    · exact ⟨_, List.mem_append_right _ List.mem_cons_self, h⟩

/-- Delivered, or waiting in the reorder buffer. -/
def Has (s : UdpFlowState) (k : UInt32) : Prop :=
  k < s.packetsWant ∨ s.received.contains k = true

/-- What the flow has received depends on the buffer and the wanted id alone. -/
theorem Has.of_frame {s' : UdpFlowState}
    (h : s'.received = s.received ∧ s'.packetsWant = s.packetsWant) : s'.Has k ↔ s.Has k := by
  rw [Has, h.1, h.2, Has]

/-- Data adds its own id, provided the flow took it. -/
theorem has_handleData (s : UdpFlowState) (data : UdpData) : (s.handleData data).1.Has k ↔
    s.Has k ∨ data.packetId = k ∧ (s.handleData data).2 = true := by
  rcases handleData_cases s data with h | ⟨-, -, -, -, h⟩
  · simp [h]
  · rw [h, Has, Has, KeyMap.contains_iff_lookup, KeyMap.contains_iff_lookup]
    simp only [KeyMap.lookup_insert, and_true]
    by_cases hk : data.packetId = k
    · simp [hk]
    · simp [hk]

/-- Delivering a packet does not change what the flow has. -/
theorem Wf.has_deliverNext (hs : s.Wf) {payload : Bytes}
    (h : s.received[s.packetsWant]? = some payload) : s.deliverNext.Has k ↔ s.Has k := by
  have hnext := hs.toNat_packetsWant_deliverNext h
  rw [Has, Has, KeyMap.contains_iff_lookup, KeyMap.contains_iff_lookup, UInt32.lt_iff_toNat_lt,
    UInt32.lt_iff_toNat_lt, hnext, UdpFlowState.deliverNext]
  dsimp only
  rw [KeyMap.lookup_erase]
  by_cases hk : s.packetsWant = k
  · subst hk
    exact iff_of_true (.inl (Nat.lt_succ_self _)) (.inr ⟨payload, h⟩)
  · rw [if_neg hk]
    have hne : s.packetsWant.toNat ≠ k.toNat := fun e => hk (UInt32.toNat_inj.1 e)
    exact or_congr (by omega) Iff.rfl

/-- Draining moves packets from the buffer to below the wanted id, so none is lost. -/
theorem Wf.has_drainContiguous (hs : s.Wf) : s.drainContiguous.1.Has k ↔ s.Has k := by
  refine drainContiguous_induction (motive := fun s r => s.Wf → (r.1.Has k ↔ s.Has k))
    (fun s _ _ => Iff.rfl) (fun s payload r h ih hs => ?_) s hs
  exact (ih (hs.deliverNext h)).trans (hs.has_deliverNext h)

/-- What was taken in is what the flow has. -/
theorem received_iff_has (clientId cameraId : Int32) (ops : List Op) (k : UInt32) :
    Received clientId cameraId ops k ↔ (run clientId cameraId ops).Has k := by
  induction ops using List.reverseRecOn with
  | nil =>
    refine iff_of_false ?_ ?_
    · rintro ⟨m, hm, -⟩
      cases hm
    · rintro (hlt | hbuf)
      · exact absurd hlt (UInt32.not_lt_zero)
      · simp [run, new] at hbuf
  | append_singleton ops op ih =>
    rw [received_concat, run_concat, ih]
    cases op with
    | handleData data =>
      rw [apply, has_handleData]
      refine or_congr Iff.rfl ⟨?_, fun h => ⟨data, rfl, h⟩⟩
      rintro ⟨_, he, h⟩
      cases he
      exact h
    | enqueueSend payload => simp [apply, enqueueSend, Has.of_frame (enqueueChunks_frame _ _)]
    | handleAck ack now => simp [apply, Has.of_frame (handleAck_frame _ _ _)]
    | drainContiguous =>
      simp [apply, (reachable_run clientId cameraId ops).wf.has_drainContiguous]

end Runs

/-- The buffer of a reachable flow keeps within its bound. -/
theorem Reachable.size_le {clientId cameraId : Int32} (h : Reachable clientId cameraId s) :
    s.received.size ≤ reorderCap := by
  induction h with
  | new => exact Nat.zero_le _
  | enqueueSend payload _ ih => rwa [UdpFlowState.enqueueSend, (enqueueChunks_frame _ _).1]
  | handleAck ack now _ ih => rwa [(handleAck_frame _ ack now).1]
  | @handleData s data _ ih =>
    rcases handleData_cases s data with h | ⟨-, -, -, hlt, h⟩
    · rwa [h]
    · rw [h]
      exact Std.ExtTreeMap.size_insert_le.trans hlt
  | @drainContiguous s _ ih =>
    refine drainContiguous_induction
      (motive := fun s r => s.received.size ≤ reorderCap → r.1.received.size ≤ reorderCap)
      (fun s _ h => h) (fun s payload r h ih hs => ih ?_) s ih
    have := KeyMap.size_erase_add_one h
    exact le_trans (by simp only [deliverNext]; omega) hs

/-- The bitmap goes up to the highest buffered id, within the cap. -/
theorem Wf.missingIds_exact (hs : s.Wf) {first : UInt32} {bitmap : Bytes}
    (hbitmap : missingIds s.received first = some bitmap) :
    ((∀ k, s.received.contains k = false) → bitmap = []) ∧
    (∀ last, s.received.contains last = true → (∀ k, s.received.contains k = true → k ≤ last) →
      bitmap.length = min (last.toNat + 1 - first.toNat) (4 * reorderCap)) ∧
    ∀ i < bitmap.length, bitmap[i]? =
      some (if s.received.contains (first + UInt32.ofNat i) then 1 else 0) := by
  rw [missingIds] at hbitmap
  split at hbitmap
  · next hnone =>
    obtain rfl := Option.some.inj hbitmap
    refine ⟨fun _ => rfl, fun last hlast => ?_, fun i hi => absurd hi (Nat.not_lt_zero i)⟩
    rw [not_contains_of_max? hnone last] at hlast
    cases hlast
  next highest hhighest =>
    dsimp only at hbitmap
    split at hbitmap
    · cases hbitmap
    next hle =>
      obtain rfl := Option.some.inj hbitmap
      obtain ⟨hbuffered, hmax⟩ := contains_of_max? hhighest
      refine ⟨fun hempty => ?_, fun last hlast hmost => ?_, fun i hi => ?_⟩
      · rw [hempty highest] at hbuffered
        cases hbuffered
      · obtain rfl : highest = last :=
          UInt32.le_antisymm (hmost _ hbuffered) (hmax _ hlast)
        rw [List.length_map, List.length_range,
          UInt32.toNat_sub_of_le _ _ (UInt32.not_lt.1 hle), Word32.toNat_min,
          Word32.toNat_saturatingAdd, Word32.toNat_saturatingAdd, UInt32.toNat_one]
        have hlt := (hs.lt_maxValue hbuffered).2
        have hcap : ackBitmapCap.toNat = 4 * reorderCap := rfl
        omega
      · rw [List.length_map, List.length_range] at hi
        rw [List.getElem?_map, List.getElem?_range hi]
        rfl

/-- What an acknowledgement has to say of the ids `received`, with some of them still buffered. -/
structure Acknowledged (s : UdpFlowState) (received : UInt32 → Prop) (ack : UdpAck) : Prop where
  /-- All ids up to `packetId` were received. -/
  upTo : ∀ k ≤ ack.packetId, received k
  /-- There is no later id of this kind. -/
  greatest : ∀ p, (∀ k ≤ p, received k) → p ≤ ack.packetId
  capped : ack.payload.length ≤ 4 * reorderCap
  /-- The ids of the bitmap do not wrap. -/
  notCrosses : ¬ack.Crosses
  empty : (∀ k, s.received.contains k = false) → ack.payload = []
  /-- The bitmap goes up to the highest buffered id, or the cap. -/
  covers : ∀ last, s.received.contains last = true →
    (∀ k, s.received.contains k = true → k ≤ last) →
      ack.payload.length = min (last.toNat - ack.packetId.toNat) (4 * reorderCap)
  marks : ∀ i < ack.payload.length, ack.payload[i]? =
    some (if s.received.contains (ack.packetId + 1 + UInt32.ofNat i) then 1 else 0)

/-- The last id is never stored, as it is the end of the window. -/
theorem Wf.not_contains_maxValue (hs : s.Wf) : s.received.contains Word32.maxValue = false := by
  rw [Bool.eq_false_iff]
  intro hbuffered
  exact absurd (hs.lt_maxValue hbuffered).2 (lt_irrefl _)

/-- The first missing id is the first one that the flow does not have. -/
theorem has_of_lt_firstMissing {fuel : ℕ} {first : UInt32}
    (hfirst : firstMissing s.received fuel s.packetsWant = some first) :
    (∀ k < first, s.Has k) ∧ ¬s.Has first := by
  obtain ⟨hle, hmissing, hbetween⟩ := firstMissing_spec hfirst
  constructor
  · intro k hlt
    by_cases hdelivered : k < s.packetsWant
    · exact .inl hdelivered
    · exact .inr (hbetween k (UInt32.not_lt.1 hdelivered) hlt)
  · rintro (hlt | hbuffered)
    · exact absurd hle (UInt32.not_le.2 hlt)
    · rw [hmissing] at hbuffered
      cases hbuffered

/-- The bitmap is empty, or ends at the highest buffered id. -/
theorem Wf.missingIds_length_le (hs : s.Wf) {first : UInt32} {bitmap : Bytes}
    (hbitmap : missingIds s.received first = some bitmap) :
    bitmap.length ≤ 4 * reorderCap ∧ first.toNat + bitmap.length ≤ 2 ^ 32 - 1 := by
  obtain ⟨hempty, hcovers, -⟩ := hs.missingIds_exact hbitmap
  have hfirst := first.toNat_lt
  cases hhighest : s.received.keys.max? with
  | none =>
    rw [hempty (not_contains_of_max? hhighest), List.length_nil]
    exact ⟨Nat.zero_le _, by omega⟩
  | some last =>
    obtain ⟨hlast, hmost⟩ := contains_of_max? hhighest
    have hlt := (hs.lt_maxValue hlast).2
    have hlength := hcovers last hlast hmost
    exact ⟨by omega, by omega⟩

/-- Once something was drained, the ack names exactly the packets the flow has. -/
theorem Wf.acknowledged_buildSendAck (hs : s.Wf) (hwant : 0 < s.packetsWant) :
    ∃ ack, s.buildSendAck = some ack ∧ s.Acknowledged s.Has ack := by
  obtain ⟨first, hfirst⟩ := Option.isSome_iff_exists.1
    (firstMissing_isSome hs.not_contains_maxValue s.packetsWant)
  obtain ⟨bitmap, hbitmap⟩ := Option.isSome_iff_exists.1 (hs.missingIds_isSome hfirst)
  obtain ⟨hbelow, hmissing⟩ := has_of_lt_firstMissing hfirst
  obtain ⟨hempty, hcovers, hmarks⟩ := hs.missingIds_exact hbitmap
  obtain ⟨hcap, hrange⟩ := hs.missingIds_length_le hbitmap
  have hpos : 0 < first.toNat :=
    (UInt32.lt_iff_toNat_lt.1 hwant).trans_le
      (UInt32.le_iff_toNat_le.1 (firstMissing_spec hfirst).1)
  have hne : first ≠ 0 := by
    rintro rfl
    exact lt_irrefl 0 hpos
  have hone : (1 : UInt32) ≤ first := by
    rw [UInt32.le_iff_toNat_le, UInt32.toNat_one]
    exact hpos
  have hpred : (first - 1).toNat = first.toNat - 1 := by
    rw [UInt32.toNat_sub_of_le _ _ hone, UInt32.toNat_one]
  refine ⟨⟨s.cameraId, 0, first - 1, s.ackLatency.getValue, bitmap⟩, ?_, ?_⟩
  · rw [buildSendAck, if_pos hwant, hfirst, Option.bind_eq_bind, Option.bind_some, hbitmap,
      Option.bind_eq_bind, Option.bind_some, if_neg hne]
  · constructor
    · -- The acknowledged ids are those below the first missing one.
      intro k hk
      refine hbelow k ?_
      rw [UInt32.le_iff_toNat_le] at hk
      rw [UInt32.lt_iff_toNat_lt]
      dsimp only at hk
      omega
    · intro p hp
      by_contra hgt
      refine hmissing (hp first ?_)
      rw [UInt32.le_iff_toNat_le] at hgt ⊢
      dsimp only at hgt
      omega
    · exact hcap
    · rw [UdpAck.Crosses, Word32.toNat_maxValue]
      dsimp only
      omega
    · exact hempty
    · intro last hlast hmost
      rw [hcovers last hlast hmost]
      dsimp only
      omega
    · -- The bitmap begins behind the acknowledged id, with the first missing one.
      intro i hi
      dsimp only
      rw [UInt32.sub_add_cancel]
      exact hmarks i hi

/-- The acknowledgement of a flow that has delivered something can be built, and says what was
    received; and the buffered packets are few, and still to be delivered. -/
theorem buildSendAck_exact (clientId cameraId : Int32) (ops : List Op)
    (hwant : 0 < (run clientId cameraId ops).packetsWant) :
    (∃ ack, (run clientId cameraId ops).buildSendAck = some ack ∧
      (run clientId cameraId ops).Acknowledged (Received clientId cameraId ops) ack) ∧
    (run clientId cameraId ops).received.size ≤ reorderCap ∧
    ∀ k, (run clientId cameraId ops).received.contains k = true →
      (run clientId cameraId ops).packetsWant ≤ k ∧ k < Word32.maxValue := by
  have hreachable := reachable_run clientId cameraId ops
  refine ⟨?_, hreachable.size_le, fun k hk => ?_⟩
  · obtain ⟨ack, hack, hexact⟩ := hreachable.wf.acknowledged_buildSendAck hwant
    refine ⟨ack, hack, { hexact with upTo := fun k hk => ?_, greatest := fun p hp => ?_ }⟩
    · exact (received_iff_has _ _ _ _).2 (hexact.upTo k hk)
    · exact hexact.greatest p fun k hk => (received_iff_has _ _ _ _).1 (hp k hk)
  · obtain ⟨hle, hlt⟩ := hreachable.wf.lt_maxValue hk
    exact ⟨UInt32.le_iff_toNat_le.2 hle, UInt32.lt_iff_toNat_lt.2 hlt⟩

/-- The first packet is delivered, the second one is missing, and the third one is buffered. -/
def gap : List Op :=
  [.handleData ⟨7, 0, [1]⟩, .drainContiguous, .handleData ⟨7, 2, [3]⟩]

/-- Packets 0 and 2 came, and 1 did not: the ack has a hole at 1. -/
theorem buildSendAck_exact_gap : (run 7 9 gap).buildSendAck = some ⟨9, 0, 0, 0, [0, 1]⟩ ∧
    ∃ ack, (run 7 9 gap).buildSendAck = some ack ∧
      (run 7 9 gap).Acknowledged (Received 7 9 gap) ack :=
  ⟨by decide +kernel, (buildSendAck_exact 7 9 gap (by decide +kernel)).1⟩

end UdpFlowState

end Bairelay
