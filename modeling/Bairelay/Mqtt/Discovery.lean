import Bairelay.Lib.Writes
import Bairelay.Mqtt.Topics

/-!
# Discovery

What a camera announces to Home Assistant (`mqtt/discovery/mod.rs`, `mqtt/discovery/publisher.rs`):
a retained config on one topic for each entity, cleared when the entity is gone. The publisher
records for each camera on which topics it has published. Of a config, which is never empty, only
the camera is kept that it was published for.
-/

namespace Bairelay

/-- What of a camera may be shown to the home. -/
inductive Feature where
  | floodlight
  | camera
  | motion
  | led
  | ir
  | reboot
  | pt
  | ptPreset
  | battery
  | siren
  | pir
  deriving DecidableEq, Repr

/-- All features, in the order of the source. -/
def Feature.all : List Feature :=
  [.floodlight, .camera, .motion, .led, .ir, .reboot, .pt, .ptPreset, .battery, .siren, .pir]

/-- What the configuration of a camera allows. -/
structure CameraEnableFlags where
  motion : Bool := true
  battery : Bool := true
  floodlight : Bool := true
  light : Bool := true
  pir : Bool := true

/-- A feature without a flag is always allowed. -/
def CameraEnableFlags.allows (flags : CameraEnableFlags) : Feature → Bool
  | .motion => flags.motion
  | .battery => flags.battery
  | .floodlight => flags.floodlight
  | .led => flags.light
  | .pir => flags.pir
  | .camera | .ir | .reboot | .pt | .ptPreset | .siren => true

/-- What the camera can do. -/
structure CameraCapabilitiesView where
  hasPtz : Bool := false

/-! ## The entities -/

/-- Everything that the topics of a camera's entities are made of. -/
structure DiscoveryContext where
  topicPrefix : Bytes
  haTopic : Bytes
  cameraName : Bytes
  capabilities : CameraCapabilitiesView
  presets : List (UInt8 × Bytes)

namespace DiscoveryContext

variable (ctx : DiscoveryContext)

/-- The id of an entity. -/
def unique (suffix : String) : Bytes :=
  ctx.topicPrefix ++ utf8 "_" ++ ctx.cameraName ++ utf8 "_" ++ utf8 suffix

/-- The topic of an entity. -/
def configTopic (component suffix : String) : Bytes :=
  Topics.join [ctx.haTopic, utf8 component, ctx.unique suffix, utf8 "config"]

def buildFloodlightLight : Bytes := ctx.configTopic "light" "floodlight"
def buildFloodlightTasksSwitch : Bytes := ctx.configTopic "switch" "floodlight_tasks"
def buildCamera : Bytes := ctx.configTopic "camera" "camera"
def buildMotion : Bytes := ctx.configTopic "binary_sensor" "md"
def buildLed : Bytes := ctx.configTopic "switch" "led"
def buildIr : Bytes := ctx.configTopic "select" "ir"
def buildPir : Bytes := ctx.configTopic "switch" "pir"
def buildReboot : Bytes := ctx.configTopic "button" "reboot"
def buildBattery : Bytes := ctx.configTopic "sensor" "battery"
def buildSiren : Bytes := ctx.configTopic "button" "siren"

/-- The entity for presets, if the camera turns and has some. -/
def buildPtzPresets : Option Bytes :=
  if !ctx.capabilities.hasPtz then none
  else if ctx.presets.isEmpty then none
  else some (ctx.configTopic "select" "preset")

/-- The buttons that turn the camera. -/
def buildPtButtons : List Bytes :=
  if !ctx.capabilities.hasPtz then []
  else ["left", "right", "up", "down"].map fun dir => ctx.configTopic "button" ("pan_" ++ dir)

/-- The topics of a feature. -/
def build : Feature → List Bytes
  | .floodlight => [ctx.buildFloodlightLight, ctx.buildFloodlightTasksSwitch]
  | .camera => [ctx.buildCamera]
  | .motion => [ctx.buildMotion]
  | .led => [ctx.buildLed]
  | .ir => [ctx.buildIr]
  | .reboot => [ctx.buildReboot]
  | .pt => ctx.buildPtButtons
  | .ptPreset => ctx.buildPtzPresets.toList
  | .battery => [ctx.buildBattery]
  | .siren => [ctx.buildSiren]
  | .pir => [ctx.buildPir]

end DiscoveryContext

/-! ## The publisher -/

/-- What a publisher is made with. -/
structure DiscoveryPublisher where
  topicPrefix : Bytes
  haTopic : Bytes
  features : List Feature

/-- The order in which a hash set happens to be gone through. -/
structure HashOrder where
  order : List Bytes → List Bytes
  perm : ∀ topics, (order topics).Perm topics

/-- What a call is made for. -/
structure DiscoveryArgs where
  cameraName : Bytes
  capabilities : CameraCapabilitiesView := {}
  enableFlags : CameraEnableFlags := {}
  presets : List (UInt8 × Bytes) := []

/-- The topics of all entities that are to be shown. -/
def DiscoveryPublisher.computePayloads (p : DiscoveryPublisher) (args : DiscoveryArgs) :
    List Bytes :=
  let ctx : DiscoveryContext :=
    { topicPrefix := p.topicPrefix
      haTopic := p.haTopic
      cameraName := args.cameraName
      capabilities := args.capabilities
      presets := args.presets }
  (Feature.all.filter fun f => p.features.contains f && args.enableFlags.allows f).flatMap ctx.build

/-- The record of the publisher, and the configs that the broker retains. -/
structure Discovery where
  lastPublished : Bytes → List Bytes := fun _ => []
  retained : Bytes → Option Bytes := fun _ => none

namespace Discovery

/-- A call; `done` says how many of its writes are made before one fails. -/
inductive Call where
  | publish (args : DiscoveryArgs) (order : HashOrder) (done : ℕ)
  | unpublish (args : DiscoveryArgs) (order : HashOrder) (done : ℕ)

variable (p : DiscoveryPublisher) (s : Discovery)

/-- The topics that a `publish` clears: those on record that it does not publish on. -/
def removed (args : DiscoveryArgs) (order : HashOrder) : List Bytes :=
  (order.order (s.lastPublished args.cameraName)).filter (· ∉ p.computePayloads args)

/-- The topics that an `unpublish` clears. -/
def toClear (args : DiscoveryArgs) (order : HashOrder) : List Bytes :=
  order.order (p.computePayloads args ∪ s.lastPublished args.cameraName)

/-- The writes of a call, in their order. -/
def writes : Call → List (Bytes × Option Bytes)
  | .publish args order _ =>
    (p.computePayloads args).map (·, some args.cameraName) ++
      (s.removed p args order).map (·, none) ++
      [(Topics.statusPtzPreset p.topicPrefix args.cameraName, none)]
  | .unpublish args order _ => (s.toClear p args order).map (·, none)

/-- The record is swapped, or taken out, before the first write. -/
def step (call : Call) : Discovery :=
  match call with
  | .publish args _ done =>
    { lastPublished := Function.update s.lastPublished args.cameraName (p.computePayloads args)
      retained := Writes.apply s.retained ((s.writes p call).take done) }
  | .unpublish args _ done =>
    { lastPublished := Function.update s.lastPublished args.cameraName []
      retained := Writes.apply s.retained ((s.writes p call).take done) }

/-- The record and the broker after some calls. -/
def run (calls : List Call) : Discovery := calls.foldl (step p) {}

theorem run_concat (calls : List Call) (call : Call) :
    run p (calls ++ [call]) = (run p calls).step p call := by
  rw [run, List.foldl_concat, ← run]

end Discovery

end Bairelay
