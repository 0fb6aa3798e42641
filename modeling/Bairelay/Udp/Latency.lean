import Bairelay.Lib.Checked
import Bairelay.Udp.Acks

/-!
# The latency of acknowledgements

The arithmetic of `AckLatency::feed_ack` (`bc_protocol/connection/udpsource.rs`), checked. The
samples of a window are averaged by the first call more than a second after the window was opened:
each is divided by their number, of which only the low 32 bits are taken, before they are summed.

* `isSome_run?_of_samples_lt`: over calls at times that do not decrease, nothing is divided by zero
  and no sum overflows, as long as no window that is averaged has `2 ^ 32` samples;
* `isSome_run_iff`: this is so exactly if these bits are never all zero when a window is averaged,
  and only leave one if the samples together fit in a word;
* `isSome_run?_of_length_le`: in particular, up to `2 ^ 32` calls are safe;
* `ackLatency_run`: the calls of a flow are at the times of its acknowledgements.
-/

namespace Bairelay

namespace AckLatency

/-! ## Checked arithmetic -/

/-- The average, if it divides by another number than zero and every sum fits in a word. -/
def average? (values : List UInt32) : Option ℕ :=
  let count := UInt32.ofNat values.length
  values.foldlM (fun acc value => do
    let share ← Checked.div value.toNat count.toNat
    Checked.fit 32 (acc + share)) 0

/-- The samples of the window, with the one a call adds. -/
def samples (a : AckLatency) (now : Instant) : List UInt32 :=
  match a.lastReceiveTime with
  | some last => a.currentValues ++ [UInt32.ofNat ((now - last) / 1000)]
  | none => a.currentValues

/-- `feedAck` with its arithmetic checked. -/
def feedAck? (a : AckLatency) (now : Instant) : Option AckLatency :=
  match a.lastDisplayTime with
  | some last =>
    if now - last > Duration.ofSecs 1 then do
      let currentValue ← average? (a.samples now)
      some { currentValues := [], lastReceiveTime := some now,
             displayValue := UInt32.ofNat currentValue, lastDisplayTime := some now }
    else some { a with currentValues := a.samples now, lastReceiveTime := some now }
  | none =>
    some { currentValues := a.samples now, lastReceiveTime := some now,
           displayValue := 0, lastDisplayTime := some now }

/-- The statistic after calls at these times. -/
def run (times : List Instant) : AckLatency := times.foldl feedAck {}

/-- Acks at the times given, as a debug build counts them: `none` where the sum overflows and the
    task panics. -/
def run? (times : List Instant) : Option AckLatency := times.foldlM feedAck? {}

/-! ## Windows -/

/-- A call averages the window. -/
def Closes (a : AckLatency) (now : Instant) : Prop :=
  ∃ last ∈ a.lastDisplayTime, now - last > Duration.ofSecs 1

/-- The sum of the samples, beyond 32 bits. -/
def total (values : List UInt32) : ℕ := (values.map UInt32.toNat).sum

/-- If a call averages the window, it divides by another number than zero, and only divides by one
    if the samples together fit in a word. -/
def Closable (a : AckLatency) (now : Instant) : Prop :=
  a.Closes now → (a.samples now).length % 2 ^ 32 ≠ 0 ∧
    ((a.samples now).length % 2 ^ 32 = 1 → total (a.samples now) < 2 ^ 32)

instance decidableCloses (a : AckLatency) (now : Instant) : Decidable (a.Closes now) :=
  inferInstanceAs (Decidable (∃ last ∈ a.lastDisplayTime, now - last > Duration.ofSecs 1))

instance decidableClosable (a : AckLatency) (now : Instant) : Decidable (a.Closable now) :=
  inferInstanceAs (Decidable (_ → _))

/-- Neither time was set, or both were: the window was opened not more than a second before the last
    call, and its samples are of the time in between. -/
inductive Windowed : AckLatency → Prop
  | new : Windowed {}
  | opened {values : List UInt32} {shown received : Instant} {displayValue : UInt32}
      (hshown : shown ≤ received) (hreceived : received ≤ shown + Duration.ofSecs 1)
      (htotal : total values ≤ (received - shown) / 1000) :
      Windowed ⟨values, some received, displayValue, some shown⟩

variable {a a' : AckLatency} {now : Instant} {values : List UInt32} {times : List Instant}

theorem total_concat (values : List UInt32) (value : UInt32) :
    total (values ++ [value]) = total values + value.toNat := by
  rw [total, List.map_append, List.sum_append]
  rfl

/-! ## Averages -/

/-- Where the debug build has an average, the release build has the same. -/
theorem average_of_average? {n : ℕ} (h : average? values = some n) :
    average values = UInt32.ofNat n := by
  refine Checked.foldl_of_foldlM UInt32.ofNat (fun acc value sum hsum => ?_) h
  obtain ⟨share, hshare, hfit⟩ := Option.bind_eq_some_iff.1 hsum
  obtain ⟨-, rfl⟩ := Checked.fit_eq_some.1 hfit
  obtain ⟨-, rfl⟩ := Checked.div_eq_some.1 hshare
  rw [UInt32.ofNat_add, ← UInt32.toNat_div, UInt32.ofNat_toNat]

/-- The number of the samples is truncated, and what each is divided by. -/
theorem isSome_average? (hne : values ≠ []) : (average? values).isSome ↔
    values.length % 2 ^ 32 ≠ 0 ∧
      (values.map fun value => value.toNat / (values.length % 2 ^ 32)).sum < 2 ^ 32 := by
  simp only [average?, UInt32.toNat_ofNat']
  generalize values.length % 2 ^ 32 = count
  by_cases hzero : count = 0
  · obtain ⟨value, rest, rfl⟩ := List.exists_cons_of_ne_nil hne
    rw [List.foldlM_cons, Checked.div, if_pos hzero]
    exact iff_of_false Bool.false_ne_true fun h => h.1 hzero
  · have hstep : (fun (acc : ℕ) (value : UInt32) => do
        let share ← Checked.div value.toNat count
        Checked.fit 32 (acc + share)) =
          fun acc value => Checked.fit 32 (acc + value.toNat / count) := by
      funext acc value
      rw [Checked.div_of_ne_zero hzero]
      rfl
    rw [hstep, Checked.isSome_foldlM_fit (Nat.two_pow_pos 32), Nat.zero_add]
    exact (and_iff_right hzero).symm

/-- Where all samples but the last are of one second, the sum only overflows if they are divided by
    one. -/
theorem isSome_average?_concat {value : UInt32} (hle : total values ≤ 1000000) :
    (average? (values ++ [value])).isSome ↔ (values ++ [value]).length % 2 ^ 32 ≠ 0 ∧
      ((values ++ [value]).length % 2 ^ 32 = 1 → total (values ++ [value]) < 2 ^ 32) := by
  have hlt := value.toNat_lt
  have htotal := total_concat values value
  rw [isSome_average? (by simp)]
  generalize (values ++ [value]).length % 2 ^ 32 = count
  refine and_congr_right fun hzero => ?_
  by_cases hone : count = 1
  · subst hone
    simp only [Nat.div_one, forall_const]
    rfl
  · refine iff_of_true ?_ fun h => absurd h hone
    calc ((values ++ [value]).map fun value => value.toNat / count).sum
        ≤ total (values ++ [value]) / count := Checked.sum_div_le
      _ ≤ total (values ++ [value]) / 2 := Nat.div_le_div_left (by omega) Nat.two_pos
      _ < 2 ^ 32 := by omega

/-! ## Calls -/

/-- With a window open, an ack closes it if it has lasted over a second, and only samples
    otherwise. -/
theorem feedAck_of_some {last : Instant} (hlast : a.lastDisplayTime = some last) :
    a.feedAck now = if now - last > Duration.ofSecs 1
      then ⟨[], some now, average (a.samples now), some now⟩
      else ⟨a.samples now, some now, a.displayValue, some last⟩ := by
  rw [feedAck, hlast]
  rfl

theorem feedAck_of_none (hnone : a.lastDisplayTime = none) :
    a.feedAck now = ⟨a.samples now, some now, 0, some now⟩ := by
  rw [feedAck, hnone]
  rfl

/-- The checks change nothing else. -/
theorem feedAck_of_feedAck? (h : a.feedAck? now = some a') : a.feedAck now = a' := by
  rw [feedAck?] at h
  split at h
  · next last hlast =>
    rw [feedAck_of_some hlast]
    split at h
    · next hclosed =>
      obtain ⟨n, hn, hsome⟩ := Option.bind_eq_some_iff.1 h
      rw [if_pos hclosed, average_of_average? hn]
      exact Option.some.inj hsome
    · next hclosed =>
      rw [if_neg hclosed, ← hlast]
      exact Option.some.inj h
  · next hnone =>
    rw [feedAck_of_none hnone]
    exact Option.some.inj h

/-- A call that averages nothing has nothing to check. -/
theorem isSome_feedAck? :
    (a.feedAck? now).isSome ↔ (a.Closes now → (average? (a.samples now)).isSome) := by
  rw [feedAck?]
  split
  · next last hlast =>
    split
    · next hclosed =>
      have hcloses : a.Closes now := ⟨last, hlast, hclosed⟩
      rw [imp_iff_right hcloses, Checked.isSome_bind]
      exact ⟨fun ⟨n, hn, _⟩ => Option.isSome_iff_exists.2 ⟨n, hn⟩, fun h =>
        (Option.isSome_iff_exists.1 h).imp fun n hn => ⟨hn, rfl⟩⟩
    · next hclosed =>
      refine iff_of_true rfl ?_
      rintro ⟨last', hlast', hclosed'⟩
      obtain rfl := Option.some.inj (hlast.symm.trans hlast')
      exact absurd hclosed' hclosed
  · next hnone =>
    refine iff_of_true rfl ?_
    rintro ⟨last, hlast, -⟩
    cases hnone.symm.trans hlast

/-- The samples of a window are of one second, so the last one alone can be large. -/
theorem Windowed.isSome_feedAck?_iff (h : a.Windowed) :
    (a.feedAck? now).isSome ↔ a.Closable now := by
  rw [isSome_feedAck?, Closable]
  refine imp_congr_right fun hcloses => ?_
  cases h with
  | new =>
    obtain ⟨last, hlast, -⟩ := hcloses
    cases hlast
  | opened hshown hreceived htotal =>
    refine isSome_average?_concat (htotal.trans (Nat.div_le_of_le_mul ?_))
    exact Nat.sub_le_iff_le_add'.2 hreceived

/-- An ack that comes no earlier than the last one keeps the window in order. -/
theorem Windowed.feedAck (h : a.Windowed) (hnow : ∀ last ∈ a.lastReceiveTime, last ≤ now) :
    (a.feedAck now).Windowed := by
  cases h with
  | new => exact .opened le_rfl (Nat.le_add_right _ _) (Nat.zero_le _)
  | @opened values shown received displayValue hshown hreceived htotal =>
    have hle : received ≤ now := hnow received rfl
    rw [feedAck_of_some rfl]
    split
    · exact .opened le_rfl (Nat.le_add_right _ _) (Nat.zero_le _)
    · next hopen =>
      refine .opened (hshown.trans hle) (Nat.sub_le_iff_le_add'.1 (not_lt.1 hopen)) ?_
      -- The sample is of the time since the last call, rounded down.
      calc total (values ++ [UInt32.ofNat ((now - received) / 1000)])
          = total values + (now - received) / 1000 % 2 ^ 32 := by
            rw [total_concat, UInt32.toNat_ofNat']
        _ ≤ (received - shown) / 1000 + (now - received) / 1000 :=
            Nat.add_le_add htotal (Nat.mod_le _ _)
        _ ≤ ((received - shown) + (now - received)) / 1000 := Nat.div_add_div_le_add_div
        _ = (now - shown) / 1000 := by rw [Nat.add_comm, Nat.sub_add_sub_cancel hle hshown]

/-- A window of fewer samples than a word can count is safe to average. -/
theorem Windowed.closable_of_length_lt (h : a.Windowed)
    (hlt : (a.samples now).length < 2 ^ 32) : a.Closable now := by
  intro hcloses
  rw [Nat.mod_eq_of_lt hlt]
  cases h with
  | new =>
    obtain ⟨last, hlast, -⟩ := hcloses
    cases hlast
  | @opened values shown received displayValue =>
    rw [samples, List.length_append, List.length_singleton]
    refine ⟨Nat.succ_ne_zero _, fun hone => ?_⟩
    obtain rfl := List.eq_nil_of_length_eq_zero (Nat.succ.inj hone)
    exact (total_concat [] _).trans_lt ((Nat.zero_add _).trans_lt (UInt32.toNat_lt _))

/-! ## Runs -/

theorem run_concat (times : List Instant) (now : Instant) :
    run (times ++ [now]) = (run times).feedAck now := by
  rw [run, List.foldl_concat, ← run]

theorem run?_concat (times : List Instant) (now : Instant) :
    run? (times ++ [now]) = (run? times).bind (feedAck? · now) := by
  rw [run?, List.foldlM_append, ← run?]
  simp only [List.foldlM_cons, List.foldlM_nil, bind_pure]
  rfl

theorem run_of_run? (h : run? times = some a) : run times = a :=
  Checked.foldl_of_foldlM id (fun _ _ _ => feedAck_of_feedAck?) h

theorem lastReceiveTime_run (times : List Instant) :
    (run times).lastReceiveTime = times.getLast? := by
  induction times using List.reverseRecOn with
  | nil => rfl
  | append_singleton times now =>
    rw [run_concat, List.getLast?_concat, feedAck]
    split
    · split <;> rfl
    · rfl

theorem windowed_run (hsorted : times.Pairwise (· ≤ ·)) : (run times).Windowed := by
  induction times using List.reverseRecOn with
  | nil => exact .new
  | append_singleton times now ih =>
    obtain ⟨hbefore, -, hnow⟩ := List.pairwise_append.1 hsorted
    rw [run_concat]
    refine (ih hbefore).feedAck fun last hlast => ?_
    rw [lastReceiveTime_run] at hlast
    exact hnow last (List.mem_of_getLast? hlast) now (List.mem_singleton.2 rfl)

/-- One more call. -/
theorem isSome_run?_concat (hsorted : times.Pairwise (· ≤ ·)) :
    (run? (times ++ [now])).isSome ↔ (run? times).isSome ∧ (run times).Closable now := by
  rw [← (windowed_run hsorted).isSome_feedAck?_iff, run?_concat]
  cases htimes : run? times with
  | none => exact iff_of_false Bool.false_ne_true fun h => Bool.false_ne_true h.1
  | some a =>
    rw [run_of_run? htimes]
    exact (and_iff_right rfl).symm

/-- No call of a run divides by zero or overflows its sum exactly if each can average its window. -/
theorem isSome_run_iff (hsorted : times.Pairwise (· ≤ ·)) : (run? times).isSome ↔
    Past.Always (fun before now => (run before).Closable now) times := by
  induction times using List.reverseRecOn with
  | nil => exact iff_of_true rfl Past.always_nil
  | append_singleton times now ih =>
    have hbefore := (List.pairwise_append.1 hsorted).1
    rw [isSome_run?_concat hbefore, ih hbefore, Past.always_concat]

/-! ## Short windows -/

/-- What a call averages is safe to average where it has fewer samples than a word can count. -/
theorem closable_run {before after : List Instant}
    (hsorted : (before ++ now :: after).Pairwise (· ≤ ·))
    (hlt : ((run before).samples now).length < 2 ^ 32) : (run before).Closable now :=
  (windowed_run (List.pairwise_append.1 hsorted).1).closable_of_length_lt hlt

/-- Windows of fewer samples than a word can count are averaged safely. -/
theorem isSome_run?_of_samples_lt (hsorted : times.Pairwise (· ≤ ·))
    (hlt : Past.Always (fun before now => (run before).Closes now →
      ((run before).samples now).length < 2 ^ 32) times) : (run? times).isSome := by
  refine (isSome_run_iff hsorted).2 ?_
  rintro before now after rfl
  intro hcloses
  exact closable_run hsorted (hlt before now after rfl hcloses) hcloses

/-- Two acknowledgements a quarter of a second apart, and a third that averages them. -/
theorem quarterSecond_isSome_run :
    (run? [0, Duration.ofMillis 250, Duration.ofMillis 1750]).isSome :=
  isSome_run?_of_samples_lt (by decide) (by decide +kernel)

theorem length_samples_le (a : AckLatency) (now : Instant) :
    (a.samples now).length ≤ a.currentValues.length + 1 := by
  rw [samples]
  split
  · exact List.length_append.le
  · exact Nat.le_succ _

/-- An ack keeps the samples or drops them all. -/
theorem length_currentValues_feedAck (a : AckLatency) (now : Instant) :
    (a.feedAck now).currentValues.length ≤ (a.samples now).length := by
  cases hlast : a.lastDisplayTime with
  | none => rw [feedAck_of_none hlast]
  | some last =>
    rw [feedAck_of_some hlast]
    split
    · exact Nat.zero_le _
    · exact le_rfl

/-- Every call adds a sample at most, and the first one none. -/
theorem length_samples_run (times : List Instant) (now : Instant) :
    ((run times).samples now).length ≤ times.length := by
  induction times using List.reverseRecOn generalizing now with
  | nil => exact le_rfl
  | append_singleton times last ih =>
    rw [run_concat, List.length_append, List.length_singleton]
    calc (((run times).feedAck last).samples now).length
        ≤ ((run times).feedAck last).currentValues.length + 1 := length_samples_le _ _
      _ ≤ ((run times).samples last).length + 1 :=
          Nat.succ_le_succ (length_currentValues_feedAck _ _)
      _ ≤ times.length + 1 := Nat.succ_le_succ (ih last)

/-- Up to `2 ^ 32` acks in order, no sum has overflowed. -/
theorem isSome_run?_of_length_le (hsorted : times.Pairwise (· ≤ ·))
    (hle : times.length ≤ 2 ^ 32) : (run? times).isSome := by
  refine (isSome_run_iff hsorted).2 ?_
  rintro before now after rfl
  refine closable_run hsorted ((length_samples_run before now).trans_lt ?_)
  refine Nat.lt_of_lt_of_le ?_ hle
  simp

/-! ## A full window -/

/-- Calls at one time only open a window. -/
theorem run?_replicate (n : ℕ) :
    run? (List.replicate (n + 1) 0) = some ⟨List.replicate n 0, some 0, 0, some 0⟩ := by
  induction n with
  | zero => rfl
  | succ n ih =>
    rw [List.replicate_succ', run?_concat, ih, Option.bind_some, feedAck?]
    dsimp only
    rw [if_neg (Nat.not_lt_zero _), samples, List.replicate_succ']
    rfl

/-- A window of as many samples as its number has no bits for cannot be averaged. -/
theorem run?_replicate_concat {n : ℕ} (h : (n + 1) % 2 ^ 32 = 0) {now : Instant}
    (hnow : Duration.ofSecs 1 < now) : run? (List.replicate (n + 1) 0 ++ [now]) = none := by
  rw [run?_concat, run?_replicate, Option.bind_some, ← Option.not_isSome_iff_eq_none,
    isSome_feedAck?]
  intro hsome
  have hsamples := (isSome_average? (by simp [samples])).1 (hsome ⟨0, rfl, hnow⟩)
  rw [samples, List.length_append, List.length_replicate] at hsamples
  exact hsamples.1 h

/-- `2 ^ 32` acknowledgements at one time, and one more than a second after them: the number of
    their samples is truncated to zero. -/
theorem fullWindow_not_isSome_run :
    (List.replicate (2 ^ 32) 0 ++ [Duration.ofSecs 1 + 1]).Pairwise (· ≤ ·) ∧
      ¬(run? (List.replicate (2 ^ 32) 0 ++ [Duration.ofSecs 1 + 1])).isSome := by
  refine ⟨List.pairwise_append.2 ⟨List.pairwise_replicate.2 (.inr le_rfl),
    List.pairwise_singleton _ _, fun x hx y _ => ?_⟩, ?_⟩
  · rw [List.eq_of_mem_replicate hx]
    exact Nat.zero_le y
  · have hnone : run? (List.replicate (2 ^ 32 - 1 + 1) 0 ++ [Duration.ofSecs 1 + 1]) = none :=
      run?_replicate_concat rfl (Nat.lt_succ_self _)
    exact Option.not_isSome_iff_eq_none.2 hnone

end AckLatency

/-! ## Flows -/

namespace UdpFlowState

/-- The time an acknowledgement is handled at. -/
def Op.ackTime? : Op → Option Instant
  | .handleAck _ now => some now
  | _ => none

/-- Of the calls of the flow it is `handleAck` that feeds the latency. -/
theorem ackLatency_handleAck (s : UdpFlowState) (ack : UdpAck) (now : Instant) :
    (s.handleAck ack now).ackLatency = s.ackLatency.feedAck now := by
  rw [handleAck]
  dsimp only
  split
  · rfl
  · split <;> rfl

theorem ackLatency_enqueueChunks (s : UdpFlowState) (chunks : List Bytes) :
    (s.enqueueChunks chunks).1.ackLatency = s.ackLatency := by
  induction chunks generalizing s with
  | nil => rfl
  | cons chunk chunks ih => exact ih (s.enqueueChunk chunk).1

theorem ackLatency_handleData (s : UdpFlowState) (data : UdpData) :
    (s.handleData data).1.ackLatency = s.ackLatency := by
  rcases handleData_cases s data with h | ⟨-, -, -, -, h⟩ <;> rw [h]

theorem ackLatency_drainContiguous (s : UdpFlowState) :
    s.drainContiguous.1.ackLatency = s.ackLatency :=
  drainContiguous_induction (motive := fun s r => r.1.ackLatency = s.ackLatency)
    (fun _ _ => rfl) (fun _ _ _ _ ih => ih) s

/-- The statistic of a flow is fed at the times its acknowledgements are handled at, and by nothing
    else. -/
theorem ackLatency_run (clientId cameraId : Int32) (ops : List Op) :
    (run clientId cameraId ops).ackLatency = AckLatency.run (ops.filterMap Op.ackTime?) := by
  induction ops using List.reverseRecOn with
  | nil => rfl
  | append_singleton ops op ih =>
    rw [run_concat, List.filterMap_append]
    cases op with
    | handleAck ack now =>
      rw [apply, ackLatency_handleAck, ih]
      exact (AckLatency.run_concat _ now).symm
    | enqueueSend payload =>
      rw [apply, enqueueSend, ackLatency_enqueueChunks, ih]
      exact congrArg AckLatency.run (List.append_nil _).symm
    | handleData data =>
      rw [apply, ackLatency_handleData, ih]
      exact congrArg AckLatency.run (List.append_nil _).symm
    | drainContiguous =>
      rw [apply, ackLatency_drainContiguous, ih]
      exact congrArg AckLatency.run (List.append_nil _).symm

end UdpFlowState

end Bairelay
