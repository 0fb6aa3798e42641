import Bairelay.Rtsp.Url

/-!
# Topics

The topics of a camera (`mqtt/topics.rs`): `{prefix}/{camera}/{category}/{rest}`, as bytes.
-/

namespace Bairelay.Topics

/-- The parts of a topic, with slashes between them. -/
def join : List Bytes → Bytes
  | [] => []
  | [part] => part
  | part :: rest => part ++ 0x2f :: join rest

/-- The topic of a camera with these parts behind it. -/
def ofCamera (pfx cam : Bytes) (rest : List String) : Bytes := join (pfx :: cam :: rest.map utf8)

variable (pfx cam : Bytes)

/-! ## Status -/

def status : Bytes := ofCamera pfx cam ["status"]
def statusPtzPreset : Bytes := ofCamera pfx cam ["status", "ptz", "preset"]

/-! ## Control -/

def controlFloodlight : Bytes := ofCamera pfx cam ["control", "floodlight"]
def controlFloodlightTasks : Bytes := ofCamera pfx cam ["control", "floodlight_tasks"]
def controlLed : Bytes := ofCamera pfx cam ["control", "led"]
def controlIr : Bytes := ofCamera pfx cam ["control", "ir"]
def controlPir : Bytes := ofCamera pfx cam ["control", "pir"]
def controlReboot : Bytes := ofCamera pfx cam ["control", "reboot"]
def controlPtz : Bytes := ofCamera pfx cam ["control", "ptz"]
def controlPtzPreset : Bytes := ofCamera pfx cam ["control", "ptz", "preset"]
def controlPtzAssign : Bytes := ofCamera pfx cam ["control", "ptz", "assign"]
def controlZoom : Bytes := ofCamera pfx cam ["control", "zoom"]
def controlSiren : Bytes := ofCamera pfx cam ["control", "siren"]
def controlWakeup : Bytes := ofCamera pfx cam ["control", "wakeup"]

/-! ## Query -/

def queryBattery : Bytes := ofCamera pfx cam ["query", "battery"]
def queryPreview : Bytes := ofCamera pfx cam ["query", "preview"]
def queryPir : Bytes := ofCamera pfx cam ["query", "pir"]
def queryPtzPreset : Bytes := ofCamera pfx cam ["query", "ptz", "preset"]

/-- The topics on which the bridge listens for a camera. -/
def subscribeTopics : List Bytes :=
  [controlFloodlight pfx cam, controlFloodlightTasks pfx cam, controlLed pfx cam,
    controlIr pfx cam, controlPir pfx cam, controlReboot pfx cam, controlPtz pfx cam,
    controlPtzPreset pfx cam, controlPtzAssign pfx cam, controlZoom pfx cam,
    controlSiren pfx cam, controlWakeup pfx cam, queryBattery pfx cam, queryPreview pfx cam,
    queryPir pfx cam, queryPtzPreset pfx cam]

/-! ## The parts of a topic -/

/-- What `topic.split('/')` gives. -/
def parts (topic : Bytes) : List Bytes := topic.splitOn 0x2f

theorem join_eq_intercalate (l : List Bytes) : join l = [0x2f].intercalate l := by
  induction l using join.induct with
  | case1 => rfl
  | case2 part => simp [join]
  | case3 part rest hne ih =>
    obtain ⟨next, rest, rfl⟩ := List.exists_cons_of_ne_nil hne
    rw [join, ih, List.intercalate_cons_cons]
    · simp
    · exact hne

/-- No byte is lost in the parts. -/
@[simp] theorem join_parts (topic : Bytes) : join (parts topic) = topic := by
  rw [join_eq_intercalate, parts, List.intercalate_splitOn]

end Bairelay.Topics
