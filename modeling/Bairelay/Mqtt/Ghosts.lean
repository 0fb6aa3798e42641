import Bairelay.Lib.Past
import Bairelay.Mqtt.Discovery

/-!
# Ghosts of discovery

Each config that the broker retains is to be on the record of its camera (`Recorded`), from where
the next call learns what to clear. But the record is swapped before the broker is written to,
and a call ends at the first write that fails.

* `recorded_iff_clears`: along a run the record is complete, just if no call fails before it has
  cleared what it takes off the record;
* `ghostPreset_not_recorded`: the preset list stays at the broker, and no call to come knows it.
-/

namespace Bairelay.Discovery

/-- Each config at the broker is on the record of the camera that it was published for. -/
def Recorded (s : Discovery) : Prop :=
  ∀ topic camera, s.retained topic = some camera → topic ∈ s.lastPublished camera

/-- The camera that a call is about. -/
def Call.camera : Call → Bytes
  | .publish args .. | .unpublish args .. => args.cameraName

/-- How many writes the broker takes before one fails. -/
def Call.done : Call → ℕ
  | .publish _ _ done | .unpublish _ _ done => done

variable (p : DiscoveryPublisher) (s : Discovery)

/-- The topics that a call puts on record. -/
def published : Call → List Bytes
  | .publish args .. => p.computePayloads args
  | .unpublish .. => []

/-- The topics that a call is to clear. -/
def cleared : Call → List Bytes
  | .publish args order _ => s.removed p args order
  | .unpublish args order _ => s.toClear p args order

/-- What a call is to clear and does not get to is not at the broker. -/
def Clears (call : Call) : Prop :=
  ∀ topic ∈ s.cleared p call, (topic, none) ∉ (s.writes p call).take call.done →
    s.retained topic ≠ some call.camera

variable {p s} {call : Call} {topic camera : Bytes}

/-- A call records what is published now for its camera, and for no other. -/
theorem step_lastPublished (call : Call) : (s.step p call).lastPublished =
    Function.update s.lastPublished call.camera (published p call) := by
  cases call <;> rfl

/-- A call writes in its order, until a write fails. -/
theorem step_retained (call : Call) : (s.step p call).retained =
    Writes.apply s.retained ((s.writes p call).take call.done) := by
  cases call <;> rfl

/-- A call publishes for its camera, on the topics that it puts on record. -/
theorem of_mem_writes (h : (topic, some camera) ∈ s.writes p call) :
    camera = call.camera ∧ topic ∈ published p call := by
  cases call with
  | publish args order done =>
    rw [writes, List.mem_append, List.mem_append, List.mem_map, List.mem_map] at h
    rcases h with (⟨topic', hmem, heq⟩ | ⟨topic', -, heq⟩) | h
    · cases heq
      exact ⟨rfl, hmem⟩
    · cases heq
    · cases List.mem_singleton.1 h
  | unpublish args order done =>
    obtain ⟨topic', -, heq⟩ := List.mem_map.1 h
    cases heq

/-- What is cleared is not published at the same time. -/
theorem not_mem_published_of_cleared (h : topic ∈ s.cleared p call) : topic ∉ published p call := by
  cases call with
  | publish args order done => exact of_decide_eq_true (List.mem_filter.1 h).2
  | unpublish args order done => exact List.not_mem_nil

/-- What is on record stays there, or is to be cleared. -/
theorem published_or_cleared (h : topic ∈ s.lastPublished call.camera) :
    topic ∈ published p call ∨ topic ∈ s.cleared p call := by
  cases call with
  | publish args order done =>
    by_cases hnew : topic ∈ p.computePayloads args
    · exact .inl hnew
    · exact .inr (List.mem_filter.2 ⟨(order.perm _).mem_iff.2 h, decide_eq_true hnew⟩)
  | unpublish args order done =>
    exact .inr ((order.perm _).mem_iff.2 (List.mem_union_iff.2 (.inr h)))

/-- One call leaves the record right if it clears what it no longer shows. -/
theorem recorded_step_iff (hrecorded : s.Recorded) :
    (s.step p call).Recorded ↔ s.Clears p call := by
  constructor
  · intro hstep topic hcleared hnot hretained
    have hunpublished := not_mem_published_of_cleared hcleared
    -- No write of the call is to the topic, so the config is still there.
    have hstays : (s.step p call).retained topic = some call.camera := by
      rw [step_retained, Writes.apply_of_not_mem, hretained]
      rintro ⟨topic', none | camera⟩ hw rfl
      · exact hnot hw
      · exact hunpublished (of_mem_writes (List.mem_of_mem_take hw)).2
    have hmem := hstep topic call.camera hstays
    rw [step_lastPublished, Function.update_self] at hmem
    exact hunpublished hmem
  · intro hclears topic camera hretained
    rw [step_retained] at hretained
    rw [step_lastPublished]
    rcases Writes.of_apply_eq_some hretained with hw | ⟨hold, hnot⟩
    · obtain ⟨rfl, hmem⟩ := of_mem_writes (List.mem_of_mem_take hw)
      rw [Function.update_self]
      exact hmem
    · have hmem := hrecorded topic camera hold
      by_cases hcamera : camera = call.camera
      · subst hcamera
        rw [Function.update_self]
        rcases @published_or_cleared p _ _ _ hmem with hmem | hcleared
        · exact hmem
        · exact absurd hold (hclears topic hcleared hnot)
      · rw [Function.update_of_ne hcamera]
        exact hmem

/-- The record is complete in every state of a run, just if each call that fails has cleared by
    then what it takes off the record. -/
theorem recorded_iff_clears (p : DiscoveryPublisher) (calls : List Call) :
    (∀ before, before <+: calls → (run p before).Recorded) ↔
      Past.Always (fun before call => (run p before).Clears p call) calls := by
  induction calls using List.reverseRecOn with
  | nil =>
    refine iff_of_true (fun before hbefore => ?_) Past.always_nil
    rw [List.prefix_nil.1 hbefore]
    rintro topic camera ⟨⟩
  | append_singleton calls call ih =>
    rw [Past.always_concat, ← ih]
    constructor
    · intro hall
      have hbefore : ∀ before, before <+: calls → (run p before).Recorded :=
        fun before h => hall before (h.trans (List.prefix_append _ _))
      refine ⟨hbefore, (recorded_step_iff (hbefore calls List.prefix_rfl)).1 ?_⟩
      rw [← run_concat]
      exact hall _ List.prefix_rfl
    · rintro ⟨hbefore, hclears⟩ before h
      rcases List.prefix_concat_iff.1 h with rfl | h
      · rw [run_concat]
        exact (recorded_step_iff (hbefore calls List.prefix_rfl)).2 hclears
      · exact hbefore before h

/-- A publisher of presets only. -/
def presetPublisher : DiscoveryPublisher :=
  { topicPrefix := utf8 "bairelay", haTopic := utf8 "homeassistant", features := [.ptPreset] }

/-- A camera that can turn, with these presets. -/
def turning (presets : List (UInt8 × Bytes)) : DiscoveryArgs :=
  { cameraName := utf8 "cam", capabilities := { hasPtz := true }, presets }

/-- Hash maps are gone through as they are. -/
def inOrder : HashOrder := ⟨id, fun _ => List.Perm.refl _⟩

/-- The presets are published; then there are none, and the first write fails. -/
def ghostPreset : List Call :=
  [.publish (turning [(1, utf8 "Gate")]) inOrder 2, .publish (turning []) inOrder 0]

/-- The list of presets is a ghost: a later call that succeeds does not clear it either. -/
theorem ghostPreset_not_recorded :
    (run presetPublisher (ghostPreset ++ [.publish (turning []) inOrder 1])).retained
        (utf8 "homeassistant/select/bairelay_cam_preset/config") = some (utf8 "cam") ∧
      ¬(run presetPublisher ghostPreset).Recorded := by
  refine ⟨by decide +kernel, fun hrecorded => ?_⟩
  have hmem := hrecorded (utf8 "homeassistant/select/bairelay_cam_preset/config") (utf8 "cam")
    (by decide +kernel)
  exact absurd hmem (by decide +kernel)

end Bairelay.Discovery
