import Bairelay.Lib.Past
import Bairelay.Wake.Server

/-!
# What the wake server remembers

The two tables of the wake server after any packets: what a camera was last told and where it
was last heard from, unless the table was full or the entry was swept since.

* `registry_iff_since`, `anchors_iff_since`: what is in the tables;
* `handleRegister_iff`: a camera is answered exactly with the anchor that it was last given, if it
  shows the token that went with it;
* `exists_fresh`: a camera that was heard not too long ago is found.
-/

namespace Bairelay.WakeServer

variable {α : Type*} (cfg : RuntimeConfig)

/-- What a packet stores for a camera. -/
def heard (uid : String) (s : WakeServer α) : Event α → Option (CameraEntry α)
  | .heartbeat now _ src hb =>
    if hb.uid = uid ∧ s.registry.HasRoom uid then
      some { addr := src, token := hb.token, lastSeen := now }
    else none
  | _ => none

/-- What a camera is told with a packet. -/
def told (uid : String) (s : WakeServer α) : Event α → Option SessionAnchor
  | .query now uid' token ac =>
    if uid' = uid ∧ s.anchors.HasRoom uid then some { token, ac, issuedAt := now } else none
  | _ => none

/-- A packet sweeps what is of that time: a heartbeat that is not refused, once it is stale. -/
def Sweeps (s : WakeServer α) (e : Event α) (time : Instant) : Prop :=
  match e with
  | .heartbeat now _ _ hb => s.registry.HasRoom hb.uid ∧ cfg.staleAfter < now - time
  | _ => False

/-- The packets of a run, each with what the server was before it. -/
def moments (events : List (Event α)) : List (WakeServer α × Event α) :=
  Past.moments (fun s e => (s.step cfg e).1) {} events

variable {cfg} {s : WakeServer α} {e : Event α} {uid : String}

/-- A heartbeat that has room is stored before the stale ones are purged. -/
theorem handleHeartbeat_of_hasRoom {now : Instant} {nowSecs : ℕ} {src : α} {hb : D2rHb}
    (h : s.registry.HasRoom hb.uid) : (s.handleHeartbeat cfg now nowSecs src hb).1 =
      { registry := (Capped.put s.registry hb.uid
          { addr := src, token := hb.token, lastSeen := now } h).purge
            (CameraEntry.isStale now cfg.staleAfter)
        anchors := s.anchors.purge (SessionAnchor.isStale now cfg.staleAfter) } := by
  rw [handleHeartbeat, CameraRegistry.upsert, Capped.upsert_eq_some h]
  rfl

/-- A heartbeat without room changes nothing, the purge included. -/
theorem handleHeartbeat_of_not_hasRoom {now : Instant} {nowSecs : ℕ} {src : α} {hb : D2rHb}
    (h : ¬s.registry.HasRoom hb.uid) : s.handleHeartbeat cfg now nowSecs src hb = (s, none) := by
  rw [handleHeartbeat, CameraRegistry.upsert, Capped.upsert, dif_neg h]

theorem handleQuery_of_hasRoom {now : Instant} {token : UInt64} {ac : UInt32}
    (h : s.anchors.HasRoom uid) : s.handleQuery now uid token ac =
      ({ s with anchors := Capped.put s.anchors uid { token, ac, issuedAt := now } h },
        some (.m2dQr 0 token ac)) := by
  rw [handleQuery, SessionAnchors.issue, Capped.upsert_eq_some h]

theorem handleQuery_of_not_hasRoom {now : Instant} {token : UInt64} {ac : UInt32}
    (h : ¬s.anchors.HasRoom uid) : s.handleQuery now uid token ac = (s, none) := by
  rw [handleQuery, SessionAnchors.issue, Capped.upsert, dif_neg h]

/-- After an event the registry has what the event put there, or else what was there and was not
    swept. -/
theorem registry_step (entry : CameraEntry α) : (s.step cfg e).1.registry.get? uid = some entry ↔
    heard uid s e = some entry ∨ heard uid s e = none ∧ s.registry.get? uid = some entry ∧
      ¬Sweeps cfg s e entry.lastSeen := by
  cases e with
  | query now uid' token ac =>
    have hsame : (s.handleQuery now uid' token ac).1.registry = s.registry := by
      by_cases h : s.anchors.HasRoom uid'
      · rw [handleQuery_of_hasRoom h]
      · rw [handleQuery_of_not_hasRoom h]
    simp [step, heard, Sweeps, hsame]
  | register now r => simp [step, heard, Sweeps]
  | heartbeat now nowSecs src hb =>
    dsimp only [step, heard, Sweeps]
    by_cases h : s.registry.HasRoom hb.uid
    · rw [handleHeartbeat_of_hasRoom h]
      dsimp only
      rw [Capped.get?_purge, Capped.get?_put]
      by_cases huid : hb.uid = uid
      · subst huid
        simp only [h, and_self, if_true, Option.some.injEq, true_and, ne_eq, not_true_eq_false,
          false_and, or_false, reduceCtorEq]
        constructor
        · rintro ⟨rfl, -⟩
          rfl
        · rintro rfl
          exact ⟨rfl, by simp [CameraEntry.isStale]⟩
      · simp [huid, Ne.symm huid, h, CameraEntry.isStale]
    · rw [handleHeartbeat_of_not_hasRoom h]
      have hno : ¬(hb.uid = uid ∧ s.registry.HasRoom uid) := by
        rintro ⟨rfl, h'⟩
        exact h h'
      simp [h, hno]

theorem anchors_step (a : SessionAnchor) : (s.step cfg e).1.anchors.get? uid = some a ↔
    told uid s e = some a ∨ told uid s e = none ∧ s.anchors.get? uid = some a ∧
      ¬Sweeps cfg s e a.issuedAt := by
  cases e with
  | query now uid' token ac =>
    dsimp only [step, told, Sweeps]
    by_cases h : s.anchors.HasRoom uid'
    · rw [handleQuery_of_hasRoom h]
      dsimp only
      rw [Capped.get?_put]
      by_cases huid : uid' = uid
      · subst huid
        simp [h, eq_comm]
      · simp [huid, Ne.symm huid]
    · rw [handleQuery_of_not_hasRoom h]
      have hno : ¬(uid' = uid ∧ s.anchors.HasRoom uid) := by
        rintro ⟨rfl, h'⟩
        exact h h'
      simp [hno]
  | register now r => simp [step, told, Sweeps]
  | heartbeat now nowSecs src hb =>
    dsimp only [step, told, Sweeps]
    by_cases h : s.registry.HasRoom hb.uid
    · rw [handleHeartbeat_of_hasRoom h]
      dsimp only
      rw [Capped.get?_purge]
      simp [h, SessionAnchor.isStale]
    · rw [handleHeartbeat_of_not_hasRoom h]
      simp [h]

/-- Where a camera was last heard from. -/
theorem registry_iff_since (events : List (Event α)) (uid : String) (entry : CameraEntry α) :
    (run cfg events).registry.get? uid = some entry ↔
      Past.Since (fun m => heard uid m.1 m.2 = some entry)
        (fun m => heard uid m.1 m.2 ≠ none ∨ Sweeps cfg m.1 m.2 entry.lastSeen)
        (moments cfg events) :=
  Past.cell_iff_since _ (fun s : WakeServer α => s.registry.get? uid) rfl
    (fun _ _ => registry_step) events entry

/-- What a camera was last told. -/
theorem anchors_iff_since (events : List (Event α)) (uid : String) (a : SessionAnchor) :
    (run cfg events).anchors.get? uid = some a ↔
      Past.Since (fun m => told uid m.1 m.2 = some a)
        (fun m => told uid m.1 m.2 ≠ none ∨ Sweeps cfg m.1 m.2 a.issuedAt)
        (moments cfg events) :=
  Past.cell_iff_since _ (fun s : WakeServer α => s.anchors.get? uid) rfl
    (fun _ _ => anchors_step) events a

/-- What is in the registry was heard. -/
theorem exists_heartbeat {events : List (Event α)} {entry : CameraEntry α}
    (h : (run cfg events).registry.get? uid = some entry) :
    ∃ nowSecs hb, .heartbeat entry.lastSeen nowSecs entry.addr hb ∈ events ∧ hb.uid = uid := by
  obtain ⟨before, ⟨s, e⟩, after, hlog, hheard, -⟩ := (registry_iff_since events uid entry).1 h
  have hmem : e ∈ events := Past.mem_of_mem_moments (fun s e => (step cfg s e).1)
    (hlog ▸ List.mem_append_right _ List.mem_cons_self : (s, e) ∈ moments cfg events)
  cases e with
  | heartbeat now nowSecs src hb =>
    dsimp only [heard] at hheard
    split at hheard
    · next huid =>
      obtain rfl := Option.some.inj hheard
      exact ⟨nowSecs, hb, hmem, huid.1⟩
    · cases hheard
  | _ => cases hheard

/-- A registration is answered with the anchor that the camera was last told, if that was not
    longer ago than an hour and it shows the token it was told with it, and else not at all. -/
theorem handleRegister_iff (cfg : RuntimeConfig) (events : List (Event α)) (now : Instant)
    (r : D2rR) (reply : WakeReply) : (run cfg events).handleRegister now r = some reply ↔
      ∃ ac issuedAt, reply = .r2dRr (-4) ac ∧ now - issuedAt ≤ Duration.ofSecs (60 * 60) ∧
        Past.Since (fun m => told r.uid m.1 m.2 = some { token := r.token, ac, issuedAt })
          (fun m => told r.uid m.1 m.2 ≠ none ∨ Sweeps cfg m.1 m.2 issuedAt)
          (moments cfg events) := by
  have hlookup (a : SessionAnchor) :
      (run cfg events).anchors.lookup r.uid now (.ofSecs (60 * 60)) = some a ↔
        (run cfg events).anchors.get? r.uid = some a ∧
          now - a.issuedAt ≤ Duration.ofSecs (60 * 60) := by
    rw [SessionAnchors.lookup, Option.filter_eq_some_iff, SessionAnchor.isStale,
      Bool.not_eq_true', decide_eq_false_iff_not, not_lt]
  simp only [← anchors_iff_since events]
  rw [handleRegister]
  constructor
  · intro h
    split at h
    · next a ha =>
      split at h
      · next htoken =>
        obtain rfl := Option.some.inj h
        obtain ⟨hget, hfresh⟩ := (hlookup a).1 ha
        exact ⟨a.ac, a.issuedAt, rfl, hfresh, htoken ▸ hget⟩
      · cases h
    · cases h
  · rintro ⟨ac, issuedAt, rfl, hfresh, hget⟩
    rw [(hlookup _).2 ⟨hget, hfresh⟩]
    exact if_pos rfl

end Bairelay.WakeServer
