import Bairelay.Lib.Binary64
import Bairelay.Mqtt.Discovery

/-!
# Configuration

The configuration (`config.rs`, `wake_server/config.rs`), as it is read from the file, with the
default of every field that has one.
-/

namespace Bairelay

namespace Config

/-- Whether clients have to show a certificate. -/
inductive TlsClientAuth where
  | none
  | request
  | require
  deriving DecidableEq

/-- Which streams of a camera are served. -/
inductive StreamConfig where
  | none
  | all
  | main
  | sub
  | externStream
  deriving DecidableEq

/-- How a camera may be looked for. -/
inductive DiscoveryMethod where
  | local
  | remote
  | map
  | relay
  | cellular
  /-- A camera of an account. -/
  | cloud
  deriving DecidableEq

/-- The strongest encryption that a camera is asked for. -/
inductive MaxEncryption where
  | none
  | aes
  | bcEncrypt
  deriving DecidableEq

/-- Three seconds. -/
def defaultGapThreshold : F64 := .ofNat 3 (by norm_num)

/-- Half a minute. -/
def defaultMotionWakeHoldSecs : F64 := .ofNat 30 (by norm_num)

/-- `[wake_server]` -/
structure WakeServerConfig where
  enable : Bool := false
  middlemanPort : UInt16 := 9999
  registerPort : UInt16 := 58200
  heartbeatMs : UInt32 := 20000
  staleAfterMs : UInt64 := 80000
  /-- Not read from the file. -/
  bind : Option (BitVec 32 ⊕ BitVec 128) := none
  deriving DecidableEq

/-- `[push_listener]` -/
structure PushListenerConfig where
  enable : Bool := false
  pushListenerAddr : Option Bytes := none
  pushListenerPort : UInt16 := 443
  motionWakeHoldSecs : F64 := defaultMotionWakeHoldSecs
  deriving DecidableEq

/-- A user of the server. -/
structure UserConfig where
  name : Bytes
  pass : Bytes := []
  deriving DecidableEq

/-- `[mqtt.discovery]` -/
structure MqttDiscoveryConfig where
  topic : Bytes
  features : Finset Feature := Feature.all.toFinset
  deriving DecidableEq

/-- `[mqtt]` -/
structure MqttServerConfig where
  brokerAddr : Bytes := []
  port : UInt16 := 1883
  credentials : Option (Bytes × Bytes) := none
  ca : Option Bytes := none
  clientAuth : Option (Bytes × Bytes) := none
  topicPrefix : Bytes := utf8 "bairelay"
  discovery : Option MqttDiscoveryConfig := none
  deriving DecidableEq

/-- `[cameras.mqtt]` -/
structure MqttConfig where
  enableMotion : Bool := true
  enableLight : Bool := true
  enableBattery : Bool := true
  batteryUpdate : UInt64 := 2000
  enablePreview : Bool := true
  previewUpdate : UInt64 := 2000
  enableFloodlight : Bool := false
  floodlightUpdate : UInt64 := 2000
  enablePir : Bool := false
  discovery : Option MqttDiscoveryConfig := none
  deriving DecidableEq

/-- `[cameras.pause]` -/
structure PauseConfig where
  bridgeGaps : Bool := true
  gapThresholdSecs : F64 := defaultGapThreshold
  previewOverlay : Bool := true
  onMotion : Option Bool := none
  onClient : Option Bool := none
  onDisconnect : Option Bool := none
  motionTimeout : Option F64 := none
  mode : Option Bytes := none
  timeout : Option F64 := none
  deriving DecidableEq

/-- `[[cameras]]` -/
structure CameraConfig where
  name : Bytes := []
  address : Option Bytes := none
  uid : Option Bytes := none
  username : Bytes := []
  password : Option Bytes := none
  -- These four are not read from the file.
  cloudAccount : Option Bytes := none
  cloudPassword : Option Bytes := none
  cloudMfaTrustToken : Option Bytes := none
  cloudRefreshToken : Option Bytes := none
  channelId : UInt8 := 0
  stream : StreamConfig := .all
  discovery : DiscoveryMethod := .relay
  maxEncryption : MaxEncryption := .aes
  idleDisconnect : Bool := false
  idleDisconnectTimeoutSecs : Option F64 := none
  motionWakeHoldSecs : F64 := defaultMotionWakeHoldSecs
  enabled : Bool := true
  mqtt : MqttConfig := {}
  pause : PauseConfig := {}
  permittedUsers : List Bytes := []
  debug : Option Bool := none
  printFormat : Option Bytes := none
  updateTime : Option Bool := none
  bufferDuration : Option UInt64 := none
  useSplash : Option Bool := none
  splashPattern : Option Bytes := none
  maxDiscoveryRetries : Option UInt64 := none
  pushNotifications : Option Bool := none
  strict : Option Bool := none
  deriving DecidableEq

end Config

/-- The whole configuration, with the defaults of its fields. -/
structure Config where
  bindAddr : Bytes := utf8 "0.0.0.0"
  bindPort : UInt16 := 8554
  certificate : Option Bytes := none
  tlsClientAuth : Config.TlsClientAuth := .none
  tlsBindPort : Option UInt16 := none
  tlsClientCa : Option Bytes := none
  users : List Config.UserConfig := []
  mqtt : Option Config.MqttServerConfig := none
  wakeServer : Option Config.WakeServerConfig := none
  pushListener : Option Config.PushListenerConfig := none
  tokioConsole : Option Bool := none
  streamPruneGraceSecs : UInt64 := 30
  cloudAccount : Option Bytes := none
  cloudPassword : Option Bytes := none
  cameras : List Config.CameraConfig := []
  deriving DecidableEq

end Bairelay
