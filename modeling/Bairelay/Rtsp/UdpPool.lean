import Mathlib

/-!
# The pool of UDP ports

Sessions over UDP lease a pair of ports each, an even one for RTP and the next one for
RTCP (`rtsp/server/udp_pool.rs`). The pool keeps the RTP ports in use behind a lock; a
lease gives its pair back when it is dropped, whenever and from wherever that is. Every
call holds the lock from its beginning to its end, so a history is a list of acquires
and drops (`Event`).

* `acquire_ok`, `acquire_error`: an acquire leases the lowest free pair, and fails only
  if there is none.
* `leases_run`: after any history, the leases alive hold different pairs, the ports in
  use are theirs, and a dropped pair is free again.
* `run_acquires`: the pairs are leased in order, up to the one whose RTP port is the end
  of the pool. Its RTCP port lies just behind the end.
-/

namespace Bairelay

/-- The first port for RTP. -/
def poolStart : ℕ := 40000

/-- The last one. -/
def poolEnd : ℕ := 40998

/-- Why no ports are given. -/
inductive PortPoolError where
  | exhausted
  deriving DecidableEq, Repr

/-- The RTP ports in use. -/
structure UdpPortPool where
  used : Finset ℕ
  deriving DecidableEq

/-- Two ports next to each other, the even one for RTP. -/
structure UdpPortLease where
  rtpPort : ℕ
  rtcpPort : ℕ
  deriving DecidableEq, Repr

/-- The ports of a lease. -/
def UdpPortLease.ports (lease : UdpPortLease) : Finset ℕ := {lease.rtpPort, lease.rtcpPort}

namespace UdpPortPool

/-- Nothing is in use. -/
def new : UdpPortPool := ⟨∅⟩

/-- The first free port from a port on. -/
def freePort (used : Finset ℕ) (port : ℕ) : Option ℕ :=
  if port ≤ poolEnd then
    if port ∉ used then some port else freePort used (port + 2)
  else none
termination_by poolEnd + 2 - port

/-- Take the lowest pair that is free. -/
def acquire (pool : UdpPortPool) : Except PortPoolError (UdpPortPool × UdpPortLease) :=
  match freePort pool.used poolStart with
  | some port => .ok (⟨insert port pool.used⟩, ⟨port, port + 1⟩)
  | none => .error .exhausted

/-- What dropping a lease does. -/
def release (pool : UdpPortPool) (rtpPort : ℕ) : UdpPortPool := ⟨pool.used.erase rtpPort⟩

/-- The RTP ports of the pool. -/
def IsRtpPort (port : ℕ) : Prop := port % 2 = 0 ∧ poolStart ≤ port ∧ port ≤ poolEnd

/-- The port that is found is the lowest free one. -/
theorem freePort_eq_some {used : Finset ℕ} {port free : ℕ} (heven : port % 2 = 0)
    (h : freePort used port = some free) :
    free % 2 = 0 ∧ port ≤ free ∧ free ≤ poolEnd ∧ free ∉ used ∧
      ∀ p, p % 2 = 0 → port ≤ p → p < free → p ∈ used := by
  fun_induction freePort used port with
  | case1 port hle hfree =>
    cases h
    exact ⟨heven, le_rfl, hle, hfree, fun p _ hport hlt => absurd hport (not_le.2 hlt)⟩
  | case2 port hle hused ih =>
    obtain ⟨hfree, hport, hend, hnot, hbelow⟩ := ih (by omega) h
    refine ⟨hfree, by omega, hend, hnot, fun p hp hle hlt => ?_⟩
    -- The next even port is two further on.
    rcases hle.eq_or_lt with rfl | hlt'
    · exact not_not.1 hused
    · exact hbelow p hp (by omega) hlt
  | case3 port hgt => cases h

theorem freePort_eq_none {used : Finset ℕ} {port : ℕ} (heven : port % 2 = 0)
    (h : freePort used port = none) : ∀ p, p % 2 = 0 → port ≤ p → p ≤ poolEnd → p ∈ used := by
  fun_induction freePort used port with
  | case1 port hle hfree => cases h
  | case2 port hle hused ih =>
    intro p hp hport hend
    rcases hport.eq_or_lt with rfl | hlt
    · exact not_not.1 hused
    · exact ih (by omega) h p hp (by omega) hend
  | case3 port hgt => exact fun p _ hport hend => absurd (hport.trans hend) hgt

theorem even_poolStart : poolStart % 2 = 0 := by decide

/-- An acquire leases the lowest free pair. -/
theorem acquire_ok {pool pool' : UdpPortPool} {lease : UdpPortLease}
    (h : pool.acquire = .ok (pool', lease)) :
    IsRtpPort lease.rtpPort ∧ lease.rtcpPort = lease.rtpPort + 1 ∧ lease.rtpPort ∉ pool.used ∧
      pool'.used = insert lease.rtpPort pool.used ∧
      ∀ port, IsRtpPort port → port < lease.rtpPort → port ∈ pool.used := by
  rw [acquire] at h
  split at h
  · next port hport =>
    cases h
    obtain ⟨heven, hstart, hend, hfree, hbelow⟩ := freePort_eq_some even_poolStart hport
    exact ⟨⟨heven, hstart, hend⟩, rfl, hfree, rfl, fun p hp => hbelow p hp.1 hp.2.1⟩
  · cases h

/-- It fails only if there is none. -/
theorem acquire_error {pool : UdpPortPool} {error : PortPoolError}
    (h : pool.acquire = .error error) : ∀ port, IsRtpPort port → port ∈ pool.used := by
  rw [acquire] at h
  split at h
  · cases h
  · next hnone => exact fun p hp => freePort_eq_none even_poolStart hnone p hp.1 hp.2.1 hp.2.2

end UdpPortPool

/-! ## Histories -/

/-- The pool, and the leases that are alive. -/
structure Leases where
  pool : UdpPortPool
  live : List UdpPortLease
  deriving DecidableEq

namespace Leases

open UdpPortPool

/-- Nothing is held. -/
def new : Leases := ⟨.new, []⟩

/-- Some task acquires a pair, or drops one of the leases. -/
inductive Event where
  | acquire
  | drop (lease : UdpPortLease)
  deriving DecidableEq, Repr

/-- A lease is dropped once: it cannot be copied, and it is gone afterwards. -/
def step (s : Leases) : Event → Leases
  | .acquire => match s.pool.acquire with
    | .ok (pool, lease) => ⟨pool, lease :: s.live⟩
    | .error _ => s
  | .drop lease =>
    if lease ∈ s.live then ⟨s.pool.release lease.rtpPort, s.live.erase lease⟩ else s

/-- The leases after some events. -/
def run (s : Leases) (events : List Event) : Leases := events.foldl step s

/-- What the leases alive have to do with the pool. -/
structure Sound (s : Leases) : Prop where
  ports : ∀ lease ∈ s.live, IsRtpPort lease.rtpPort ∧ lease.rtcpPort = lease.rtpPort + 1
  nodup : (s.live.map (·.rtpPort)).Nodup
  used : ∀ port, port ∈ s.pool.used ↔ ∃ lease ∈ s.live, lease.rtpPort = port

theorem sound_new : new.Sound where
  ports := by simp [new]
  nodup := List.nodup_nil
  used := by simp [new, UdpPortPool.new]

namespace Sound

variable {s : Leases}

/-- A lease is known by its RTP port. -/
theorem eq_of_rtpPort (h : s.Sound) {a b : UdpPortLease} (ha : a ∈ s.live) (hb : b ∈ s.live)
    (hport : a.rtpPort = b.rtpPort) : a = b :=
  List.inj_on_of_nodup_map h.nodup ha hb hport

theorem live_nodup (h : s.Sound) : s.live.Nodup := h.nodup.of_map _

theorem acquire (h : s.Sound) : (s.step .acquire).Sound := by
  rw [step]
  split
  · next pool lease hok =>
    obtain ⟨hport, hrtcp, hfree, hused, -⟩ := acquire_ok hok
    refine ⟨List.forall_mem_cons.2 ⟨⟨hport, hrtcp⟩, h.ports⟩, ?_, fun port => ?_⟩
    · rw [List.map_cons, List.nodup_cons]
      refine ⟨fun hmem => hfree ?_, h.nodup⟩
      exact (h.used _).2 (List.mem_map.1 hmem)
    · rw [hused, Finset.mem_insert, h.used]
      simp [eq_comm]
  · exact h

theorem drop (h : s.Sound) (lease : UdpPortLease) : (s.step (.drop lease)).Sound := by
  rw [step]
  split
  · next hmem =>
    refine ⟨fun l hl => h.ports l (List.mem_of_mem_erase hl),
      h.nodup.sublist (List.erase_sublist.map _), fun port => ?_⟩
    rw [release, Finset.mem_erase, h.used]
    constructor
    · rintro ⟨hne, l, hl, rfl⟩
      exact ⟨l, (List.mem_erase_of_ne fun heq => hne (congrArg _ heq)).2 hl, rfl⟩
    · rintro ⟨l, hl, rfl⟩
      obtain ⟨hne, hl⟩ := h.live_nodup.mem_erase_iff.1 hl
      exact ⟨fun hport => hne (h.eq_of_rtpPort hl hmem hport), l, hl, rfl⟩
  · exact h

/-- One step keeps the pool in step with the leases. -/
theorem step (h : s.Sound) (e : Event) : (s.step e).Sound := by
  cases e with
  | acquire => exact h.acquire
  | drop lease => exact h.drop lease

theorem run (h : s.Sound) (events : List Event) : (s.run events).Sound := by
  induction events generalizing s with
  | nil => exact h
  | cons e events ih => exact ih (h.step e)

end Sound

theorem run_append (s : Leases) (events events' : List Event) :
    s.run (events ++ events') = (s.run events).run events' :=
  List.foldl_append

theorem run_concat (s : Leases) (events : List Event) (e : Event) :
    s.run (events ++ [e]) = (s.run events).step e :=
  run_append s events [e]

/-- The free RTP ports below a port. -/
def freeBelow (s : Leases) (port : ℕ) : Finset ℕ :=
  (Finset.Ico poolStart port).filter fun p => p % 2 = 0 ∧ p ∉ s.pool.used

/-- A free pair is leased after at most as many acquires as there are free pairs before it. -/
theorem exists_leased (s : Leases) {port : ℕ} (hport : IsRtpPort port)
    (hfree : port ∉ s.pool.used) :
    ∃ n ≤ (s.freeBelow port).card + 1,
      ⟨port, port + 1⟩ ∈ (s.run (List.replicate n .acquire)).live := by
  induction hn : (s.freeBelow port).card using Nat.strong_induction_on generalizing s with
  | _ n ih =>
    have hok : ∃ pool lease, s.pool.acquire = .ok (pool, lease) := by
      rcases hacquire : s.pool.acquire with error | ⟨pool, lease⟩
      · exact absurd (acquire_error hacquire port hport) hfree
      · exact ⟨pool, lease, rfl⟩
    obtain ⟨pool, lease, hok⟩ := hok
    obtain ⟨hlease, hrtcp, hfree', hused, hbelow⟩ := acquire_ok hok
    have hstep : s.step .acquire = ⟨pool, lease :: s.live⟩ := by rw [step, hok]
    rcases lt_trichotomy lease.rtpPort port with hlt | heq | hgt
    · -- The pair leased now was one of those before it.
      have hssubset : (s.step .acquire).freeBelow port ⊂ s.freeBelow port := by
        rw [hstep]
        refine (Finset.ssubset_iff_of_subset fun p hp => ?_).2 ⟨lease.rtpPort, ?_, ?_⟩
        · simp only [freeBelow, Finset.mem_filter, hused, Finset.mem_insert, not_or] at hp ⊢
          exact ⟨hp.1, hp.2.1, hp.2.2.2⟩
        · exact Finset.mem_filter.2 ⟨Finset.mem_Ico.2 ⟨hlease.2.1, hlt⟩, hlease.1, hfree'⟩
        · simp [freeBelow, hused]
      have hcard := Finset.card_lt_card hssubset
      have hstill : port ∉ (s.step .acquire).pool.used := by
        rw [hstep]
        simp only [hused, Finset.mem_insert, not_or]
        exact ⟨hlt.ne', hfree⟩
      obtain ⟨m, hm, hmem⟩ := ih _ (hn ▸ hcard) (s.step .acquire) hstill rfl
      exact ⟨m + 1, by omega, hmem⟩
    · refine ⟨1, by omega, ?_⟩
      have hpair : lease = ⟨port, port + 1⟩ := by
        rw [← heq, ← hrtcp]
      rw [← hpair]
      show lease ∈ (s.step .acquire).live
      rw [hstep]
      exact List.mem_cons_self
    · exact absurd (hbelow port hport hgt) hfree

/-- Two even ports and the ones behind them are four ports. -/
theorem disjoint_ports {a b : UdpPortLease} (ha : IsRtpPort a.rtpPort ∧ a.rtcpPort = a.rtpPort + 1)
    (hb : IsRtpPort b.rtpPort ∧ b.rtcpPort = b.rtpPort + 1) (hne : a.rtpPort ≠ b.rtpPort) :
    Disjoint a.ports b.ports := by
  have heven := ha.1.1
  have heven' := hb.1.1
  rw [Finset.disjoint_left]
  intro p hp hp'
  simp only [UdpPortLease.ports, Finset.mem_insert, Finset.mem_singleton] at hp hp'
  omega

/-- Leases that are held have no port in common. -/
theorem Sound.pairwise_disjoint {s : Leases} (h : s.Sound) :
    s.live.Pairwise fun a b => Disjoint a.ports b.ports := by
  refine (List.pairwise_map.1 h.nodup).imp_of_mem fun {a b} ha hb hne => ?_
  exact disjoint_ports (h.ports a ha) (h.ports b hb) hne

/-- After any history. -/
theorem leases_run (events : List Event) :
    (∀ lease ∈ (new.run events).live,
        IsRtpPort lease.rtpPort ∧ lease.rtcpPort = lease.rtpPort + 1) ∧
      ((new.run events).live.Pairwise fun a b => Disjoint a.ports b.ports) ∧
      (∀ port, port ∈ (new.run events).pool.used ↔
        ∃ lease ∈ (new.run events).live, lease.rtpPort = port) ∧
      (∀ error, (new.run events).pool.acquire = .error error →
        ∀ port, IsRtpPort port → ∃ lease ∈ (new.run events).live, lease.rtpPort = port) ∧
      ∀ lease ∈ (new.run events).live,
        lease.rtpPort ∉ (new.run (events ++ [.drop lease])).pool.used ∧
          ∃ n, lease ∈ (new.run (events ++ .drop lease :: List.replicate n .acquire)).live := by
  have hsound := sound_new.run events
  refine ⟨hsound.ports, hsound.pairwise_disjoint, hsound.used, fun error herror port hport => ?_,
    fun lease hmem => ?_⟩
  · exact (hsound.used port).1 (acquire_error herror port hport)
  · have hfree : lease.rtpPort ∉ (new.run (events ++ [.drop lease])).pool.used := by
      rw [run_concat, step, if_pos hmem]
      exact Finset.notMem_erase _ _
    obtain ⟨hport, hrtcp⟩ := hsound.ports lease hmem
    obtain ⟨n, -, hleased⟩ := exists_leased _ hport hfree
    refine ⟨hfree, n, ?_⟩
    rwa [← hrtcp, ← run_append, List.append_assoc] at hleased

/-- The pairs in the order in which they are leased. -/
def pair (n : ℕ) : UdpPortLease := ⟨poolStart + 2 * n, poolStart + 2 * n + 1⟩

theorem run_acquires {n : ℕ} (h : n ≤ 500) :
    (new.run (List.replicate n .acquire)).live = ((List.range n).map pair).reverse := by
  induction n with
  | zero => rfl
  | succ n ih =>
    have hlive := ih (Nat.le_of_succ_le h)
    have hsound := sound_new.run (List.replicate n .acquire)
    have hused (port : ℕ) : port ∈ (new.run (List.replicate n .acquire)).pool.used ↔
        ∃ i < n, port = poolStart + 2 * i := by
      rw [hsound.used, hlive]
      simp [pair, eq_comm]
    have hend : IsRtpPort (poolStart + 2 * n) := by
      simp only [IsRtpPort, poolStart, poolEnd]
      omega
    have hfree : poolStart + 2 * n ∉ (new.run (List.replicate n .acquire)).pool.used := by
      rw [hused]
      rintro ⟨i, hi, heq⟩
      omega
    rw [List.replicate_succ', run_concat, step, List.range_succ, List.map_append,
      List.reverse_append, ← hlive]
    split
    · next pool lease hok =>
      obtain ⟨hport, hrtcp, hnew, -, hbelow⟩ := acquire_ok hok
      have hrtp : lease.rtpPort = poolStart + 2 * n := by
        rcases lt_trichotomy lease.rtpPort (poolStart + 2 * n) with hlt | heq | hgt
        · -- The lower even ports are taken.
          have heven := hport.1
          have hstart := hport.2.1
          have hevenStart := even_poolStart
          refine absurd ((hused _).2 ⟨(lease.rtpPort - poolStart) / 2, ?_, ?_⟩) hnew <;> omega
        · exact heq
        · exact absurd (hbelow _ hend hgt) hfree
      have hlease : lease = pair n := by
        rw [pair, ← hrtp, ← hrtcp]
      rw [hlease]
      rfl
    · next error herror => exact absurd (acquire_error herror _ hend) hfree

/-- The RTCP port of the last pair is not one of the pool. -/
theorem run_acquires_all :
    ∃ lease ∈ (new.run (List.replicate 500 .acquire)).live,
      lease.rtcpPort = 40999 ∧ poolEnd < lease.rtcpPort := by
  refine ⟨pair 499, ?_, rfl, by decide⟩
  rw [run_acquires le_rfl, List.mem_reverse]
  exact List.mem_map_of_mem (List.mem_range.2 (by decide))

end Leases

end Bairelay
