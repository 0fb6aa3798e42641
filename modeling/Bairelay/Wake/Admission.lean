import Bairelay.Wake.Server
import Bairelay.Lib.Past

/-!
# Who is let into the wake server

The tables are capped, and stale entries are only purged by a heartbeat, after it was taken in.
A camera that is new is refused by a full table whether its entries are stale or not, and then
nothing is purged.

* `admits_iff_settled`: a run admits every new camera for which the fresh entries leave room,
  just if no new camera meets a full table with a stale entry;
* `flooded_not_admits`: a table that was filled once and is all stale stays closed.
-/

namespace Bairelay.WakeServer

variable {α : Type*} (cfg : RuntimeConfig)

/-- A new camera is let in when fewer entries than the cap are fresh. -/
def Admits (s : WakeServer α) (e : Event α) : Prop :=
  match e with
  | .query now uid _ _ =>
    uid ∉ s.anchors →
    (s.anchors.entries.countP fun entry => !entry.2.isStale now cfg.staleAfter) < maxMapEntries →
    uid ∈ (s.step cfg e).1.anchors ∧ (s.step cfg e).2 ≠ none
  | .heartbeat now _ _ hb =>
    hb.uid ∉ s.registry →
    (s.registry.entries.countP fun entry => !entry.2.isStale now cfg.staleAfter) < maxMapEntries →
    hb.uid ∈ (s.step cfg e).1.registry
  | .register .. => True

/-- When a new camera comes to a full table, none of its entries is stale. -/
def Settled (s : WakeServer α) (e : Event α) : Prop :=
  match e with
  | .query now uid _ _ =>
    uid ∉ s.anchors → s.anchors.entries.length = maxMapEntries →
    ∀ entry ∈ s.anchors.entries, !entry.2.isStale now cfg.staleAfter
  | .heartbeat now _ _ hb =>
    hb.uid ∉ s.registry → s.registry.entries.length = maxMapEntries →
    ∀ entry ∈ s.registry.entries, !entry.2.isStale now cfg.staleAfter
  | .register .. => True

variable {cfg} {s : WakeServer α} {now : Instant}

/-- A query is answered just if its anchor is stored. -/
theorem handleQuery_iff {uid : String} {token : UInt64} {ac : UInt32} (hnew : uid ∉ s.anchors) :
    uid ∈ (s.handleQuery now uid token ac).1.anchors ∧ (s.handleQuery now uid token ac).2 ≠ none ↔
      (Capped.upsert s.anchors uid ({ token, ac, issuedAt := now } : SessionAnchor)).isSome := by
  by_cases hroom : uid ∈ s.anchors ∨ s.anchors.entries.length < maxMapEntries
  · have hput := Capped.upsert_eq_some (a := { token, ac, issuedAt := now }) hroom
    rw [handleQuery, SessionAnchors.issue, hput]
    exact iff_of_true ⟨Capped.mem_put hroom, Option.some_ne_none _⟩ rfl
  · have hnone : Capped.upsert s.anchors uid { token, ac, issuedAt := now } = none := dif_neg hroom
    rw [handleQuery, SessionAnchors.issue, hnone]
    exact iff_of_false (fun h => hnew h.1) Bool.false_ne_true

/-- A heartbeat is stored just if the table takes it in; what it has written is not stale. -/
theorem handleHeartbeat_iff {nowSecs : ℕ} {src : α} {hb : D2rHb} (hnew : hb.uid ∉ s.registry) :
    hb.uid ∈ (s.handleHeartbeat cfg now nowSecs src hb).1.registry ↔
      (Capped.upsert s.registry hb.uid
        { addr := src, token := hb.token, lastSeen := now }).isSome := by
  by_cases hroom : hb.uid ∈ s.registry ∨ s.registry.entries.length < maxMapEntries
  · have hput := Capped.upsert_eq_some
      (a := ({ addr := src, token := hb.token, lastSeen := now } : CameraEntry α)) hroom
    rw [handleHeartbeat, CameraRegistry.upsert, hput]
    refine iff_of_true (Capped.mem_purge (Capped.mem_entries_put hroom) ?_) rfl
    rw [CameraEntry.isStale, Nat.sub_self]
    exact decide_eq_false (Nat.not_lt_zero _)
  · have hnone : Capped.upsert s.registry hb.uid
        { addr := src, token := hb.token, lastSeen := now } = none := dif_neg hroom
    rw [handleHeartbeat, CameraRegistry.upsert, hnone]
    exact iff_of_false hnew Bool.false_ne_true

/-- An event is admitted as the state before it would have it. -/
theorem admits_iff_settled_step (s : WakeServer α) (e : Event α) :
    s.Admits cfg e ↔ s.Settled cfg e := by
  cases e with
  | query now uid token ac =>
    refine forall_congr' fun hnew => ?_
    rw [← Capped.admits_iff (p := fun a => !a.isStale now cfg.staleAfter) hnew]
    exact imp_congr_right fun _ => handleQuery_iff hnew
  | register now r => exact Iff.rfl
  | heartbeat now nowSecs src hb =>
    refine forall_congr' fun hnew => ?_
    rw [← Capped.admits_iff (p := fun e => !e.isStale now cfg.staleAfter) hnew]
    exact imp_congr_right fun _ => handleHeartbeat_iff hnew

/-- New cameras are let in along a run, just if none of them meets a full table in which an entry
    has become stale. -/
theorem admits_iff_settled (cfg : RuntimeConfig) (events : List (Event α)) :
    Past.Always (fun before e => (run cfg before).Admits cfg e) events ↔
      Past.Always (fun before e => (run cfg before).Settled cfg e) events := by
  rw [Past.always_iff_getElem, Past.always_iff_getElem]
  exact forall_congr' fun i => forall_congr' fun hi => admits_iff_settled_step _ _

/-! ## A flood -/

/-- Each camera sends one heartbeat, all at one time. -/
def flood (now : Instant) (src : α) (uids : List String) : List (Event α) :=
  uids.map fun uid => .heartbeat now 0 src { uid, token := 0 }

/-- After a flood of distinct UIDs the registry holds each of them. -/
theorem entries_run_flood {src : α} {uids : List String} (hnodup : uids.Nodup)
    (hle : uids.length ≤ maxMapEntries) : (run cfg (flood now src uids)).registry.entries =
      uids.reverse.map fun uid => (uid, { addr := src, token := 0, lastSeen := now }) := by
  induction uids using List.reverseRecOn with
  | nil => rfl
  | append_singleton uids uid ih =>
    rw [List.length_append, List.length_singleton] at hle
    obtain ⟨hnodup, hnew⟩ := (List.nodup_append_comm.trans List.nodup_cons).1 hnodup |>.symm
    have hentries := ih hnodup (Nat.le_of_succ_le hle)
    have hroom : (run cfg (flood now src uids)).registry.entries.length < maxMapEntries := by
      rw [hentries, List.length_map, List.length_reverse]
      exact hle
    have hnot : uid ∉ (run cfg (flood now src uids)).registry := by
      rw [Capped.mem_def, hentries, List.map_map]
      simpa using hnew
    rw [flood, List.map_append, List.map_singleton, ← flood, run_concat]
    rw [step, handleHeartbeat, CameraRegistry.upsert, Capped.upsert_eq_some (.inr hroom)]
    refine (Capped.entries_purge ?_).trans ?_
    · rw [Capped.entries_put_of_not_mem hnot, hentries]
      simp [CameraEntry.isStale]
    · rw [Capped.entries_put_of_not_mem hnot, hentries, List.reverse_append]
      rfl

/-- A UID for each number below the cap, of no more than 64 characters. -/
def floodUid (n : ℕ) : String :=
  String.ofList (List.replicate (n / 32) 'A' ++ List.replicate (n % 32) 'B')

/-- As many different UIDs as a table can hold. -/
def floodUids : List String := (List.range maxMapEntries).map floodUid

theorem length_floodUids : floodUids.length = maxMapEntries := by
  rw [floodUids, List.length_map, List.length_range]

/-- The two letters count the quotient and the remainder. -/
theorem floodUid_injective : Function.Injective floodUid := by
  intro m n heq
  have hlist := String.ofList_injective heq
  have hquot := congrArg (List.count 'A') hlist
  have hrem := congrArg (List.count 'B') hlist
  simp only [List.count_append, List.count_replicate] at hquot hrem
  simp at hquot hrem
  omega

theorem nodup_floodUids : floodUids.Nodup := List.nodup_range.map floodUid_injective

theorem not_mem_floodUids : "C" ∉ floodUids := by
  rw [floodUids, List.mem_map]
  rintro ⟨n, -, heq⟩
  have hmem : 'C' ∈ List.replicate (n / 32) 'A' ++ List.replicate (n % 32) 'B' := by
    rw [String.ofList_injective (heq.trans (by decide : "C" = String.ofList ['C']))]
    exact List.mem_singleton_self _
  rcases List.mem_append.1 hmem with hmem | hmem
  · exact absurd (List.eq_of_mem_replicate hmem) (by decide)
  · exact absurd (List.eq_of_mem_replicate hmem) (by decide)

/-- No UID is longer than what the server reads. -/
theorem utf8ByteSize_floodUids : ∀ uid ∈ floodUids, uid.utf8ByteSize ≤ 64 := by
  have hall : ∀ n < maxMapEntries, (floodUid n).utf8ByteSize ≤ 64 := by decide +kernel
  intro uid huid
  obtain ⟨n, hn, rfl⟩ := List.mem_map.1 huid
  exact hall n (List.mem_range.1 hn)

/-- The flood, and a new camera once all of it is stale. -/
def flooded : List (Event Unit) :=
  flood 0 () floodUids ++ [.heartbeat (Duration.ofSecs 81) 0 () { uid := "C", token := 0 }]

/-- The times do not go back, the UIDs are short enough, and nobody in the table is fresh, but the
    new camera is refused. -/
theorem flooded_not_admits :
    flooded.Pairwise (fun e e' => e.now ≤ e'.now) ∧ (∀ uid ∈ floodUids, uid.utf8ByteSize ≤ 64) ∧
      ¬Past.Always (fun before e => (run {} before).Admits {} e) flooded := by
  refine ⟨?_, utf8ByteSize_floodUids, ?_⟩
  · have hzero : ∀ e ∈ flood 0 () floodUids, e.now = 0 := by
      intro e he
      obtain ⟨uid, -, rfl⟩ := List.mem_map.1 he
      rfl
    refine List.pairwise_append.2 ⟨?_, List.pairwise_singleton _ _, fun e he _ _ => ?_⟩
    · refine List.Pairwise.imp_of_mem (fun he _ _ => ?_)
        (List.pairwise_of_forall fun _ _ => trivial)
      rw [hzero _ he]
      exact Nat.zero_le _
    · rw [hzero _ he]
      exact Nat.zero_le _
  · intro hadmits
    have hentries : (run {} (flood 0 () floodUids)).registry.entries = _ :=
      entries_run_flood nodup_floodUids length_floodUids.le
    have hsettled := (admits_iff_settled_step _ _).1 (Past.always_concat.1 hadmits).2
    have hnew : "C" ∉ (run {} (flood 0 () floodUids)).registry := by
      rw [Capped.mem_def, hentries, List.map_map]
      simpa using not_mem_floodUids
    have hfull : (run {} (flood 0 () floodUids)).registry.entries.length = maxMapEntries := by
      rw [hentries, List.length_map, List.length_reverse, length_floodUids]
    have hfresh := hsettled hnew hfull
    have hmem : ("", { addr := (), token := 0, lastSeen := 0 }) ∈
        (run {} (flood 0 () floodUids)).registry.entries := by
      rw [hentries]
      refine List.mem_map.2 ⟨"", List.mem_reverse.2 (List.mem_map.2 ⟨0, ?_, rfl⟩), rfl⟩
      exact List.mem_range.2 (by decide)
    exact absurd (hfresh _ hmem) (by decide +kernel)

end Bairelay.WakeServer
