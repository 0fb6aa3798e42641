import Bairelay.Config.Model
import Bairelay.Mqtt.Presets
import Bairelay.Rtsp.Tracks

/-!
# Validating a configuration

What `validate_config` (`config.rs`) refuses, check by check, with its messages; in these a number
of `f64` stands as it is, and not as it is printed.

* `durations_of_validateConfig`: the numbers of seconds that pass;
* `validateNames_of_validateConfig`, `DiscoveryContext.valid_of_validateConfig`: the names that
  pass are those of URLs and of topics.
-/

namespace Bairelay

namespace Config

/-! ## Messages -/

/-- A part of a message. -/
inductive Piece where
  | text (s : Bytes)
  /-- `{}` of an `f64` -/
  | number (x : F64)
  /-- `{:.1}` of the seconds of a duration -/
  | tenths (d : Duration)
  deriving DecidableEq

/-- A message, in which numbers stand unprinted. -/
abbrev Message := List Piece

/-- A message without numbers. -/
def text (s : String) : Message := [.text (utf8 s)]

/-- One check: if it fails, the message is the error, and no later check is made. -/
def refuseIf (bad : Prop) [Decidable bad] (message : Message) : Except Message Unit :=
  if bad then .error message else .ok ()

@[simp] theorem refuseIf_eq_ok {bad : Prop} [Decidable bad] {message : Message} :
    refuseIf bad message = .ok () ↔ ¬bad := by
  by_cases h : bad <;> simp [refuseIf, h]

/-- One check after the other. -/
theorem bind_eq_ok {first second : Except Message Unit} :
    (first >>= fun _ => second) = .ok () ↔ first = .ok () ∧ second = .ok () := by
  cases first with
  | error message => exact iff_of_false nofun fun h => nomatch h.1
  | ok => exact (and_iff_right rfl).symm

/-! ## The checks -/

/-- The port of RTSP over TLS, if none is given. -/
def defaultTlsBindPort : UInt16 := 8555

/-- TLS needs a port and, to ask for certificates of clients, an authority to check them against. -/
def validateTls (config : Config) : Except Message Unit :=
  match config.certificate with
  | some _ => do
    let tlsPort := config.tlsBindPort.getD defaultTlsBindPort
    refuseIf (tlsPort = 0) (text "tls_bind_port must be greater than 0")
    refuseIf (config.bindPort ≠ 0 ∧ config.bindPort = tlsPort)
      [.text (utf8 "bind_port (" ++ decimal config.bindPort.toNat ++
        utf8 ") and tls_bind_port (" ++ decimal tlsPort.toNat ++ utf8 ") must differ")]
    refuseIf (config.tlsClientAuth ≠ .none ∧ config.tlsClientCa = none)
      [.text (utf8 "tls_client_auth = \"" ++
        utf8 (if config.tlsClientAuth = .request then "request" else "require") ++
        utf8 "\" requires tls_client_ca to be set")]
  | none =>
    refuseIf (config.tlsClientAuth ≠ .none) (text "tls_client_auth requires certificate to be set")

/-- The prefix of topics must be one level of a topic. -/
def validateMqtt (mqtt : MqttServerConfig) : Except Message Unit := do
  refuseIf (mqtt.topicPrefix = []) (text "mqtt.topic_prefix must not be empty")
  refuseIf (¬mqtt.topicPrefix.all ControlCommand.isNameByte)
    [.text (utf8 "mqtt.topic_prefix '" ++ mqtt.topicPrefix ++ utf8 ("' must contain only ASCII " ++
      "alphanumeric characters, underscores, and hyphens"))]
  mqtt.discovery.forM fun d => do
    refuseIf (d.topic = []) (text "mqtt.discovery.topic must not be empty")
    refuseIf (d.topic.contains 0x2f)
      [.text (utf8 "mqtt.discovery.topic '" ++ d.topic ++ utf8 "' must not contain '/'")]

/-- The users from the `i`-th one on, with the names of those before. -/
def validateUsers (names : List Bytes) (i : ℕ) : List UserConfig → Except Message Unit
  | [] => .ok ()
  | user :: users => do
    refuseIf (trim user.name = [])
      [.text (utf8 "User #" ++ decimal i ++ utf8 ": name must not be empty")]
    refuseIf (user.pass = [])
      [.text (utf8 "User '" ++ user.name ++
        utf8 "' has an empty password; set a non-empty pass or remove the user")]
    refuseIf (names.contains user.name)
      [.text (utf8 "Duplicate user name: '" ++ user.name ++ utf8 "'")]
    validateUsers (user.name :: names) (i + 1) users

/-- The part of a message on a camera. -/
def CameraConfig.about (cam : CameraConfig) (s : String) : Bytes :=
  utf8 "Camera '" ++ cam.name ++ utf8 "': " ++ utf8 s

/-- An update interval. -/
def CameraConfig.validateUpdate (cam : CameraConfig) (field : String) (interval : UInt64) :
    Except Message Unit :=
  refuseIf (interval < 500)
    [.text (cam.about (field ++ " must be >= 500ms, got ") ++ decimal interval.toNat)]

/-- The message about seconds that are not positive, or not finite. -/
def CameraConfig.notPositive (cam : CameraConfig) (field : String) (secs : F64) : Message :=
  [.text (cam.about (field ++ " must be a positive finite number (got ")), .number secs,
    .text (utf8 ")")]

/-- A number of seconds that has to be positive. -/
def CameraConfig.validatePositive (cam : CameraConfig) (field : String) (secs : F64) :
    Except Message Unit :=
  refuseIf (¬secs.isFinite ∨ secs.le 0) (cam.notPositive field secs)

/-- The checks of one camera, in their order. The names before it must differ from its own. -/
def validateCamera (names : List Bytes) (i : ℕ) (cam : CameraConfig) : Except Message Unit := do
  -- The first refusal is reported, in the order of the checks.
  refuseIf (trim cam.name = [])
    [.text (utf8 "Camera #" ++ decimal i ++ utf8 ": name must not be empty")]
  refuseIf (¬cam.name.all ControlCommand.isNameByte)
    [.text (cam.about ("name must contain only ASCII alphanumeric characters, underscores, " ++
      "and hyphens"))]
  refuseIf (names.contains cam.name)
    [.text (utf8 "Duplicate camera name: '" ++ cam.name ++ utf8 "'")]
  -- With the cloud the password comes from the account.
  refuseIf (cam.password = none ∧ cam.discovery ≠ .cloud)
    [.text (cam.about "password is required")]
  refuseIf (cam.discovery = .cloud ∧ (cam.cloudAccount = none ∨ cam.cloudPassword = none))
    [.text (cam.about ("discovery = \"cloud\" requires top-level cloud_account and " ++
      "cloud_password"))]
  refuseIf (cam.discovery = .cloud ∧ cam.uid = none)
    [.text (cam.about "discovery = \"cloud\" requires a uid")]
  refuseIf (cam.address = none ∧ cam.uid = none)
    [.text (cam.about "either address or uid must be provided")]
  cam.validateUpdate "battery_update" cam.mqtt.batteryUpdate
  cam.validateUpdate "preview_update" cam.mqtt.previewUpdate
  cam.validateUpdate "floodlight_update" cam.mqtt.floodlightUpdate
  -- Without the bridging of gaps the threshold is not looked at.
  refuseIf (cam.pause.bridgeGaps ∧
      (¬cam.pause.gapThresholdSecs.isFinite ∨ cam.pause.gapThresholdSecs.le 0))
    (cam.notPositive "pause.gap_threshold_secs" cam.pause.gapThresholdSecs)
  cam.idleDisconnectTimeoutSecs.forM (cam.validatePositive "idle_disconnect_timeout_secs")
  cam.pause.timeout.forM (cam.validatePositive "pause.timeout")
  -- Zero is allowed here: no hold.
  refuseIf (¬cam.motionWakeHoldSecs.isFinite ∨ cam.motionWakeHoldSecs.lt 0)
    [.text (cam.about "motion_wake_hold_secs must be a non-negative finite number (got "),
      .number cam.motionWakeHoldSecs, .text (utf8 ")")]

/-- The cameras from the `i`-th one on, with the names of those before. -/
def validateCameras (names : List Bytes) (i : ℕ) : List CameraConfig → Except Message Unit
  | [] => .ok ()
  | cam :: cameras => do
    validateCamera names i cam
    validateCameras (cam.name :: names) (i + 1) cameras

/-- The listener of push messages is checked only if it is enabled. -/
def validatePushListener (config : Config) (pl : PushListenerConfig) : Except Message Unit :=
  if pl.enable then do
    refuseIf (¬pl.motionWakeHoldSecs.isFinite ∨ pl.motionWakeHoldSecs.lt 0)
      [.text (utf8 ("[push_listener]: motion_wake_hold_secs must be a non-negative finite " ++
        "number (got ")), .number pl.motionWakeHoldSecs, .text (utf8 ")")]
    refuseIf (pl.pushListenerPort = 0)
      (text "[push_listener]: push_listener_port must be greater than 0")
    refuseIf (¬config.wakeServer.any (·.enable))
      (text ("[push_listener] requires [wake_server] enable = true; the push listener resolves " ++
        "peer IPs against the wake server's heartbeat registry"))
  else .ok ()

/-- A camera permits only users that there are. -/
def validatePermittedUsers (users : List Bytes) (camera : CameraConfig) : Except Message Unit :=
  camera.permittedUsers.forM fun pu =>
    refuseIf (¬users.contains pu)
      [.text (utf8 "camera '" ++ camera.name ++
        utf8 "' permitted_users references unknown user '" ++ pu ++ utf8 "'")]

/-- All checks, in the order in which they are made. -/
def validateConfig (config : Config) : Except Message Unit := do
  refuseIf (config.bindPort = 0 ∧ config.certificate = none)
    (text "bind_port must be greater than 0 unless certificate is set (TLS-only mode)")
  validateTls config
  config.mqtt.forM validateMqtt
  validateUsers [] 0 config.users
  validateCameras [] 0 config.cameras
  config.pushListener.forM (validatePushListener config)
  config.cameras.forM (validatePermittedUsers (config.users.map (·.name)))

/-! ## What passes -/

variable {config : Config} {cam : CameraConfig}

theorem validateCameras_eq_ok {names : List Bytes} {i : ℕ} {cameras : List CameraConfig}
    (h : validateCameras names i cameras = .ok ()) :
    ∀ cam ∈ cameras, ∃ names i, validateCamera names i cam = .ok () := by
  induction cameras generalizing names i with
  | nil => exact fun _ hcam => absurd hcam List.not_mem_nil
  | cons cam cameras ih =>
    obtain ⟨hcam, hrest⟩ := bind_eq_ok.1 h
    exact List.forall_mem_cons.2 ⟨⟨names, i, hcam⟩, ih hrest⟩

/-- What is optional is checked if it is there. -/
theorem forM_eq_ok {α : Type*} {value : Option α} {check : α → Except Message Unit} :
    value.forM check = .ok () ↔ ∀ a ∈ value, check a = .ok () := by
  cases value with
  | none => exact iff_of_true rfl nofun
  | some a => exact ⟨fun h a' ha' => Option.some.inj ha' ▸ h, fun h => h a rfl⟩

/-- What was accepted has passed the checks of the broker and of the cameras. -/
theorem validateConfig_eq_ok (h : validateConfig config = .ok ()) :
    (∀ mqtt ∈ config.mqtt, validateMqtt mqtt = .ok ()) ∧
      validateCameras [] 0 config.cameras = .ok () := by
  simp only [validateConfig, bind_eq_ok] at h
  obtain ⟨-, -, hmqtt, -, hcameras, -⟩ := h
  exact ⟨forM_eq_ok.1 hmqtt, hcameras⟩

/-- The seconds are finite and greater than zero. -/
theorem validatePositive_eq_ok {field : String} {secs : F64} :
    cam.validatePositive field secs = .ok () ↔ secs.isFinite ∧ ¬secs.le 0 := by
  rw [CameraConfig.validatePositive, refuseIf_eq_ok, not_or, not_not]

/-- Where there is a number of seconds, it is finite and positive. -/
theorem durations_of_validateConfig (h : validateConfig config = .ok ())
    (hcam : cam ∈ config.cameras) :
    (cam.pause.bridgeGaps →
        cam.pause.gapThresholdSecs.isFinite ∧ ¬cam.pause.gapThresholdSecs.le 0) ∧
      (∀ secs ∈ cam.idleDisconnectTimeoutSecs, secs.isFinite ∧ ¬secs.le 0) ∧
        ∀ secs ∈ cam.pause.timeout, secs.isFinite ∧ ¬secs.le 0 := by
  obtain ⟨names, i, hok⟩ := validateCameras_eq_ok (validateConfig_eq_ok h).2 cam hcam
  simp only [validateCamera, bind_eq_ok] at hok
  obtain ⟨-, -, -, -, -, -, -, -, -, -, hgap, hidle, htimeout, -⟩ := hok
  refine ⟨fun hbridge => ?_,
    fun secs hsecs => validatePositive_eq_ok.1 (forM_eq_ok.1 hidle secs hsecs),
    fun secs hsecs => validatePositive_eq_ok.1 (forM_eq_ok.1 htimeout secs hsecs)⟩
  rw [refuseIf_eq_ok, not_and, not_or, not_not] at hgap
  exact hgap hbridge

/-- What the server has of a camera. -/
def CameraConfig.served (cam : CameraConfig) : Bairelay.CameraConfig where
  name := cam.name
  enabled := cam.enabled
  permittedUsers := cam.permittedUsers

@[simp] theorem CameraConfig.name_served : cam.served.name = cam.name := rfl

/-- Names are of the same bytes in URLs as in topics. -/
theorem isNameByte_eq : ControlCommand.isNameByte = Bairelay.isNameByte := by
  funext b
  simp only [ControlCommand.isNameByte, Bairelay.isNameByte, isDigit, beq_eq_decide]

/-- Among the checks of the cameras are those of their names. -/
theorem validateNames_of_validateCameras {names : List Bytes} {i : ℕ} {cameras : List CameraConfig}
    (h : validateCameras names i cameras = .ok ()) :
    validateNames names i (cameras.map CameraConfig.served) = .ok () := by
  induction cameras generalizing names i with
  | nil => rfl
  | cons cam cameras ih =>
    obtain ⟨hcam, hrest⟩ := bind_eq_ok.1 h
    simp only [validateCamera, bind_eq_ok, refuseIf_eq_ok] at hcam
    obtain ⟨hne, hbytes, hnew, -⟩ := hcam
    rw [isNameByte_eq] at hbytes
    rw [List.map_cons, validateNames, CameraConfig.name_served, if_neg hne, if_neg hbytes,
      if_neg hnew]
    exact ih hrest

/-- The names that the server goes by are checked. -/
theorem validateNames_of_validateConfig (h : validateConfig config = .ok ()) :
    validateNames [] 0 (config.cameras.map CameraConfig.served) = .ok () :=
  validateNames_of_validateCameras (validateConfig_eq_ok h).2

/-- The names of the cameras, and the prefix of the topics. -/
theorem names_of_validateConfig (h : validateConfig config = .ok ()) :
    (∀ cam ∈ config.cameras,
        cam.name ≠ [] ∧ ∀ b ∈ cam.name, ControlCommand.isNameByte b = true) ∧
      ∀ mqtt ∈ config.mqtt, ∀ b ∈ mqtt.topicPrefix, ControlCommand.isNameByte b = true := by
  obtain ⟨hmqtt, hcameras⟩ := validateConfig_eq_ok h
  constructor
  · intro cam hcam
    obtain ⟨names, i, hok⟩ := validateCameras_eq_ok hcameras cam hcam
    simp only [validateCamera, bind_eq_ok, refuseIf_eq_ok, not_not] at hok
    obtain ⟨hne, hbytes, -⟩ := hok
    refine ⟨fun hnil => hne ?_, List.all_eq_true.1 hbytes⟩
    rw [hnil]
    rfl
  · intro mqtt hmem
    have hok := hmqtt mqtt hmem
    simp only [validateMqtt, bind_eq_ok, refuseIf_eq_ok, not_not] at hok
    exact List.all_eq_true.1 hok.2.1

end Config

/-- What is announced for a camera of a configuration that is accepted. -/
theorem DiscoveryContext.valid_of_validateConfig {config : Config} {ctx : DiscoveryContext}
    {cam : Config.CameraConfig} {mqtt : Config.MqttServerConfig}
    (h : config.validateConfig = .ok ()) (hcam : cam ∈ config.cameras)
    (hmqtt : config.mqtt = some mqtt) (hname : ctx.cameraName = cam.name)
    (htopic : ctx.topicPrefix = mqtt.topicPrefix)
    (hpresets : ∀ preset ∈ ctx.presets, isUtf8 preset.2 = true) : ctx.Valid := by
  obtain ⟨hcameras, hprefixes⟩ := Config.names_of_validateConfig h
  refine ⟨?_, ?_, hpresets⟩
  · rw [htopic]
    exact hprefixes mqtt hmqtt
  · rw [hname]
    exact hcameras cam hcam

end Bairelay
