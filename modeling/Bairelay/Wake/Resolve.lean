import Bairelay.Config.Model
import Bairelay.Lib.AnyOrder
import Bairelay.Wake.Server

/-!
# Whom a UID is of

A camera registers under its UID with a suffix of its firmware, and is configured with the UID
alone. The wake server looks for the one by the other (`CameraRegistry::lookup_fresh` of
`wake_server/registry.rs`), and the push listener for the other by the one (`match_camera_by_uid` of
`push_listener.rs`). Both go through a hash map, in whatever order.

`resolves_iff`: the camera of a UID is that with the longest prefix, whatever the order; for the
entry of a UID the order does not matter exactly if the UID itself is fresh in the registry, or
all that is fresh and starts with it is one entry.
-/

namespace Bairelay

/-! ## The registry -/

namespace CameraRegistry

variable {α : Type*}

/-- `str::starts_with` -/
def startsWith (stored uid : String) : Bool := (utf8 uid).isPrefixOf (utf8 stored)

/-- An entry that is not stale. -/
def isFresh (now : Instant) (staleAfter : Duration) (e : CameraEntry α) : Bool :=
  !e.isStale now staleAfter

/-- An entry that a UID may be short for. -/
def isHit (uid : String) (now : Instant) (staleAfter : Duration)
    (entry : String × CameraEntry α) : Bool :=
  startsWith entry.1 uid && isFresh now staleAfter entry.2

/-- The entries are gone through in this `order`. -/
def lookupFresh (registry : CameraRegistry α) (order : List (String × CameraEntry α))
    (uid : String) (now : Instant) (staleAfter : Duration) : Option (CameraEntry α) :=
  match (registry.get? uid).filter (isFresh now staleAfter) with
  | some e => some e
  | none => (order.find? (isHit uid now staleAfter)).map (·.2)

/-- The UID itself is there and fresh, or all that it may be short for is one entry. -/
def Settles (registry : CameraRegistry α) (uid : String) (now : Instant)
    (staleAfter : Duration) : Prop :=
  (∃ e, registry.get? uid = some e ∧ isFresh now staleAfter e) ∨
    ∀ entry ∈ registry.entries, ∀ entry' ∈ registry.entries,
      isHit uid now staleAfter entry → isHit uid now staleAfter entry' → entry.2 = entry'.2

variable {registry : CameraRegistry α} {order : List (String × CameraEntry α)} {uid : String}
  {now : Instant} {staleAfter : Duration} {e : CameraEntry α}

/-- A fresh entry under the whole UID is found first, whatever the order of the map. -/
theorem lookupFresh_exact (h : registry.get? uid = some e) (hfresh : isFresh now staleAfter e) :
    lookupFresh registry order uid now staleAfter = some e := by
  rw [lookupFresh, h, Option.filter_some_pos hfresh]

/-- The order of the map makes no difference exactly if the lookup settles. -/
theorem lookupFresh_stable_iff :
    (∀ order order' : List (String × CameraEntry α), order.Perm registry.entries →
        order'.Perm registry.entries → lookupFresh registry order uid now staleAfter =
          lookupFresh registry order' uid now staleAfter) ↔
      Settles registry uid now staleAfter := by
  cases hexact : (registry.get? uid).filter (isFresh now staleAfter) with
  | some e =>
    obtain ⟨hget, hfresh⟩ := Option.filter_eq_some_iff.1 hexact
    refine iff_of_true (fun order order' _ _ => ?_) (.inl ⟨e, hget, hfresh⟩)
    rw [lookupFresh_exact hget hfresh, lookupFresh_exact hget hfresh]
  | none =>
    simp only [lookupFresh, hexact]
    rw [AnyOrder.find?_map_stable_iff, Settles]
    refine (or_iff_right ?_).symm
    rintro ⟨e, hget, hfresh⟩
    rw [hget, Option.filter_some_pos hfresh] at hexact
    cases hexact

theorem startsWith_self (uid : String) : startsWith uid uid :=
  List.isPrefixOf_iff_prefix.2 List.prefix_rfl

/-- What is found is in the registry, fresh, and under a UID that the one asked for may be short
    for. -/
theorem exists_of_lookupFresh (hperm : order.Perm registry.entries)
    (h : lookupFresh registry order uid now staleAfter = some e) :
    ∃ stored, registry.get? stored = some e ∧ startsWith stored uid ∧
      isFresh now staleAfter e := by
  rw [lookupFresh] at h
  split at h
  · next e' hexact =>
    obtain rfl := Option.some.inj h
    obtain ⟨hget, hfresh⟩ := Option.filter_eq_some_iff.1 hexact
    exact ⟨uid, hget, startsWith_self uid, hfresh⟩
  · obtain ⟨⟨stored, e'⟩, hfind, rfl⟩ := Option.map_eq_some_iff.1 h
    have hmem := hperm.mem_iff.1 (List.mem_of_find?_eq_some hfind)
    have hhit : isHit uid now staleAfter (stored, e') := List.find?_some hfind
    obtain ⟨hstarts, hfresh⟩ := Bool.and_eq_true_iff.1 hhit
    exact ⟨stored, Capped.get?_eq_some_iff.2 hmem, hstarts, hfresh⟩

/-- Something is found whenever there is something to be found. -/
theorem isSome_lookupFresh_iff (hperm : order.Perm registry.entries) :
    (lookupFresh registry order uid now staleAfter).isSome ↔
      ∃ stored e, registry.get? stored = some e ∧ startsWith stored uid ∧
        isFresh now staleAfter e := by
  constructor
  · intro h
    obtain ⟨e, he⟩ := Option.isSome_iff_exists.1 h
    obtain ⟨stored, hstored⟩ := exists_of_lookupFresh hperm he
    exact ⟨stored, e, hstored⟩
  · rintro ⟨stored, e, hget, hstarts, hfresh⟩
    have hmem := hperm.mem_iff.2 (Capped.get?_eq_some_iff.1 hget)
    have hfind : (order.find? (isHit uid now staleAfter)).isSome :=
      List.find?_isSome.2 ⟨(stored, e), hmem, Bool.and_eq_true_iff.2 ⟨hstarts, hfresh⟩⟩
    rw [lookupFresh]
    split
    · rfl
    · rw [Option.isSome_map]
      exact hfind

end CameraRegistry

/-! ## The cameras -/

section

variable {γ : Type*} (config : γ → Config.CameraConfig)

/-- Whether the UID that a camera is configured with may be short for another. -/
def matchesUid (registryUid : Bytes) (h : γ) : Bool :=
  (config h).uid.any (·.isPrefixOf registryUid)

/-- The entries of the map of cameras are gone through in this `order`. -/
def matchCameraByUid (order : List (Bytes × γ)) (registryUid : Bytes) : Option γ :=
  AnyOrder.maxByKey (fun h => (config h).uid.elim 0 List.length)
    ((order.map (·.2)).filter (matchesUid config registryUid))

/-- No two cameras are configured with one UID. -/
def DistinctUids (cameras : List (Bytes × γ)) : Prop :=
  (cameras.filterMap fun entry => (config entry.2).uid).Nodup

instance instDecidableDistinctUids (cameras : List (Bytes × γ)) :
    Decidable (DistinctUids config cameras) :=
  inferInstanceAs (Decidable (List.Nodup _))

/-- The camera has a UID that is a prefix, and no other has a longer one. -/
def IsLongest (cameras : List (Bytes × γ)) (registryUid : Bytes) (h : γ) : Prop :=
  ∃ name uid, (name, h) ∈ cameras ∧ (config h).uid = some uid ∧ uid <+: registryUid ∧
    ∀ name' h' uid', (name', h') ∈ cameras → (config h').uid = some uid' →
      uid' <+: registryUid → uid'.length ≤ uid.length

variable {config} {cameras order : List (Bytes × γ)} {registryUid : Bytes} {h : γ}

/-- A camera matches if it is configured with a prefix of the registered UID. -/
theorem matchesUid_iff : matchesUid config registryUid h ↔
    ∃ uid, (config h).uid = some uid ∧ uid <+: registryUid := by
  rw [matchesUid, Option.any_eq_true]
  simp only [List.isPrefixOf_iff_prefix]

/-- Prefixes of the same length are the same, and so are the cameras. -/
theorem DistinctUids.eq_of_length (hdistinct : DistinctUids config cameras) {name name' : Bytes}
    {h' : γ} {uid uid' : Bytes} (hmem : (name, h) ∈ cameras) (hmem' : (name', h') ∈ cameras)
    (huid : (config h).uid = some uid) (huid' : (config h').uid = some uid')
    (hstart : uid <+: registryUid) (hstart' : uid' <+: registryUid)
    (hlength : uid.length = uid'.length) : h = h' := by
  obtain rfl := (List.prefix_of_prefix_length_le hstart hstart' hlength.le).eq_of_length hlength
  by_contra hne
  have hpairs : cameras.Pairwise fun entry entry' => ∀ u ∈ (config entry.2).uid,
      ∀ u' ∈ (config entry'.2).uid, u ≠ u' := List.pairwise_filterMap.1 hdistinct
  have : Std.Symm fun entry entry' : Bytes × γ => ∀ u ∈ (config entry.2).uid,
      ∀ u' ∈ (config entry'.2).uid, u ≠ u' :=
    ⟨fun _ _ hne u hu u' hu' => (hne u' hu' u hu).symm⟩
  have hentries : (name, h) ≠ (name', h') := fun heq => hne (congrArg Prod.snd heq)
  exact hpairs.forall hmem hmem' hentries uid huid uid huid' rfl

/-- The camera with the longest prefix is found, in whatever order the map is gone through. -/
theorem matchCameraByUid_eq_some_iff (hdistinct : DistinctUids config cameras)
    (horder : order.Perm cameras) :
    matchCameraByUid config order registryUid = some h ↔
      IsLongest config cameras registryUid h := by
  have hmem : ∀ h, h ∈ (order.map (·.2)).filter (matchesUid config registryUid) ↔
      ∃ name uid, (name, h) ∈ cameras ∧ (config h).uid = some uid ∧ uid <+: registryUid := by
    intro h
    rw [List.mem_filter, matchesUid_iff, List.mem_map]
    constructor
    · rintro ⟨⟨⟨name, _⟩, hin, rfl⟩, uid, huid, hstart⟩
      exact ⟨name, uid, horder.mem_iff.1 hin, huid, hstart⟩
    · rintro ⟨name, uid, hin, huid, hstart⟩
      exact ⟨⟨_, horder.mem_iff.2 hin, rfl⟩, uid, huid, hstart⟩
  rw [matchCameraByUid, AnyOrder.maxByKey_eq_some_iff, hmem, IsLongest]
  · constructor
    · rintro ⟨⟨name, uid, hin, huid, hstart⟩, hle⟩
      refine ⟨name, uid, hin, huid, hstart, fun name' h' uid' hin' huid' hstart' => ?_⟩
      have hlength := hle h' ((hmem h').2 ⟨name', uid', hin', huid', hstart'⟩)
      rwa [huid, huid'] at hlength
    · rintro ⟨name, uid, hin, huid, hstart, hle⟩
      refine ⟨⟨name, uid, hin, huid, hstart⟩, fun h' hmem' => ?_⟩
      obtain ⟨name', uid', hin', huid', hstart'⟩ := (hmem h').1 hmem'
      rw [huid, huid']
      exact hle name' h' uid' hin' huid' hstart'
  · intro a ha b hb hlength
    obtain ⟨name, uid, hin, huid, hstart⟩ := (hmem a).1 ha
    obtain ⟨name', uid', hin', huid', hstart'⟩ := (hmem b).1 hb
    rw [huid, huid'] at hlength
    exact hdistinct.eq_of_length hin hin' huid huid' hstart hstart' hlength

end

/-! ## Both -/

/-- Neither depends on the order; the one prefers the UID itself, the other the longest prefix. -/
structure Resolves {α γ : Type*} (config : γ → Config.CameraConfig) (registry : CameraRegistry α)
    (cameras : List (Bytes × γ)) (uid : String) (now : Instant) (staleAfter : Duration)
    (registryUid : Bytes) : Prop where
  lookup_order : ∀ order order' : List (String × CameraEntry α), order.Perm registry.entries →
    order'.Perm registry.entries → registry.lookupFresh order uid now staleAfter =
      registry.lookupFresh order' uid now staleAfter
  lookup_exact : ∀ order : List (String × CameraEntry α), order.Perm registry.entries →
    ∀ e, registry.get? uid = some e → CameraRegistry.isFresh now staleAfter e →
      registry.lookupFresh order uid now staleAfter = some e
  match_order : ∀ order order' : List (Bytes × γ), order.Perm cameras → order'.Perm cameras →
    matchCameraByUid config order registryUid = matchCameraByUid config order' registryUid
  match_longest : ∀ order : List (Bytes × γ), order.Perm cameras → ∀ h,
    matchCameraByUid config order registryUid = some h ↔ IsLongest config cameras registryUid h

variable {α γ : Type*} {config : γ → Config.CameraConfig}

/-- UIDs are resolved as they should be exactly if the registry settles what the UID is short
    for. -/
theorem resolves_iff (registry : CameraRegistry α) {cameras : List (Bytes × γ)}
    (hdistinct : DistinctUids config cameras) (uid : String) (now : Instant)
    (staleAfter : Duration) (registryUid : Bytes) :
    Resolves config registry cameras uid now staleAfter registryUid ↔
      registry.Settles uid now staleAfter := by
  rw [← CameraRegistry.lookupFresh_stable_iff]
  constructor
  · exact Resolves.lookup_order
  · intro hlookup
    refine
      { lookup_order := hlookup
        lookup_exact := fun _ _ e hget hfresh => CameraRegistry.lookupFresh_exact hget hfresh
        match_order := fun order order' horder horder' => Option.ext fun h => ?_
        match_longest := fun order horder h => matchCameraByUid_eq_some_iff hdistinct horder }
    exact (matchCameraByUid_eq_some_iff hdistinct horder).trans
      (matchCameraByUid_eq_some_iff hdistinct horder').symm

/-- Two cameras that are configured with the UIDs `UID-A` and `UID-AB`. -/
def sharedRoot : List (Bytes × Config.CameraConfig) :=
  [(utf8 "front", { name := utf8 "front", uid := some (utf8 "UID-A") }),
    (utf8 "back", { name := utf8 "back", uid := some (utf8 "UID-AB") })]

/-- Both have sent a heartbeat, the front camera from address 1 and under this UID, the other from
    address 2 and under its UID with a suffix. -/
def sharedRegistry (front : String) (h : front ≠ "UID-ABFW02") : CameraRegistry ℕ where
  entries := [(front, ⟨1, 7, 0⟩), ("UID-ABFW02", ⟨2, 7, 0⟩)]
  nodup := List.nodup_cons.2 ⟨mt List.mem_singleton.1 h, List.nodup_singleton _⟩
  length_le := by
    show 2 ≤ 1024
    decide

/-- The front camera is there under its own UID, which settles it. -/
theorem exact_resolves :
    Resolves id (sharedRegistry "UID-A" (by decide)) sharedRoot "UID-A" 0 (.ofSecs 80)
      (utf8 "UID-ABFW02") :=
  (resolves_iff _ (by decide +kernel) _ _ _ _).2 (.inl ⟨_, rfl, rfl⟩)

/-- With suffixes to both of them, `UID-A` is short for either. -/
theorem sharedRoot_not_resolves :
    DistinctUids id sharedRoot ∧
      ¬Resolves id (sharedRegistry "UID-AFW01" (by decide)) sharedRoot "UID-A" 0 (.ofSecs 80)
        (utf8 "UID-ABFW02") := by
  refine ⟨by decide +kernel, fun h => ?_⟩
  have heq := congrArg (Option.map CameraEntry.addr)
    (h.lookup_order _ _ (.refl _) (List.reverse_perm _))
  revert heq
  decide +kernel

end Bairelay
