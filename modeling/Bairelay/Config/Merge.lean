import Bairelay.Config.Model
import Bairelay.Lib.Overlay

/-!
# Merging configurations

The configuration that an overlay makes of that of the add-on (`hassio/merge.rs`): field by field,
and the cameras by their names.

`merge_complete_iff`: exactly when no field is forgotten. The merge takes the fields one by one, and
has none for `tokio_console` and for the account.
-/

namespace Bairelay.Config

/-! ## The fields -/

section

variable {α : Type*}

/-- The overlay's value, if it is not the default. No default is a NaN, which is not even equal to
    itself. -/
def overlayField [DecidableEq α] (defs o base : α) : α := if o ≠ defs then o else base

/-- `@opt` -/
def overlayOpt (o base : Option α) : Option α := if o.isSome then o else base

/-- `@str_nonempty` and `@vec_nonempty` -/
def overlayNonempty (o base : List α) : List α := if !o.isEmpty then o else base

variable [DecidableEq α]

/-- An optional field is one whose default is nothing. -/
theorem overlayOpt_eq (o base : Option α) : overlayOpt o base = overlayField none o base := by
  cases o <;> rfl

/-- A list is a field whose default is the empty list. -/
theorem overlayNonempty_eq (o base : List α) :
    overlayNonempty o base = overlayField [] o base := by
  cases o <;> rfl

/-- A field is left alone if the overlay has the default, or the same value. -/
theorem overlayField_eq_base {defs o base : α} :
    overlayField defs o base = base ↔ o = defs ∨ o = base := by
  rw [overlayField]
  split
  · next hne => exact (or_iff_right hne).symm
  · next heq => exact iff_of_true rfl (.inl (not_not.1 heq))

/-- Laying the same value over a field again changes nothing. -/
theorem overlayField_self (defs o base : α) :
    overlayField defs o (overlayField defs o base) = overlayField defs o base := by
  rw [overlayField, overlayField]
  split <;> rfl

end

/-! ## The merge -/

/-- The fields of a camera whose name is there already. The name is the key, and stays. -/
def mergeCamera (entry o : CameraConfig) : CameraConfig :=
  -- A field of the overlay counts as set if it is not the default.
  let defs : CameraConfig := {}
  { entry with
    address := overlayOpt o.address entry.address
    uid := overlayOpt o.uid entry.uid
    username := overlayNonempty o.username entry.username
    password := overlayOpt o.password entry.password
    channelId := overlayField defs.channelId o.channelId entry.channelId
    stream := overlayField defs.stream o.stream entry.stream
    discovery := overlayField defs.discovery o.discovery entry.discovery
    maxEncryption := overlayField defs.maxEncryption o.maxEncryption entry.maxEncryption
    idleDisconnect := overlayField defs.idleDisconnect o.idleDisconnect entry.idleDisconnect
    idleDisconnectTimeoutSecs :=
      overlayOpt o.idleDisconnectTimeoutSecs entry.idleDisconnectTimeoutSecs
    motionWakeHoldSecs :=
      overlayField defs.motionWakeHoldSecs o.motionWakeHoldSecs entry.motionWakeHoldSecs
    enabled := overlayField defs.enabled o.enabled entry.enabled
    mqtt := overlayField defs.mqtt o.mqtt entry.mqtt
    pause := overlayField defs.pause o.pause entry.pause
    permittedUsers := overlayNonempty o.permittedUsers entry.permittedUsers
    debug := overlayOpt o.debug entry.debug
    printFormat := overlayOpt o.printFormat entry.printFormat
    updateTime := overlayOpt o.updateTime entry.updateTime
    bufferDuration := overlayOpt o.bufferDuration entry.bufferDuration
    useSplash := overlayOpt o.useSplash entry.useSplash
    splashPattern := overlayOpt o.splashPattern entry.splashPattern
    maxDiscoveryRetries := overlayOpt o.maxDiscoveryRetries entry.maxDiscoveryRetries
    pushNotifications := overlayOpt o.pushNotifications entry.pushNotifications
    strict := overlayOpt o.strict entry.strict }

/-- Each camera of the overlay goes over the first of its name, or behind all of them. -/
def mergeCameras (base overlay : List CameraConfig) : List CameraConfig :=
  Overlay.putAll (·.name) mergeCamera base overlay

/-- The section of the broker, where either side may lack one. -/
def mergeMqtt : Option MqttServerConfig → Option MqttServerConfig → Option MqttServerConfig
  | none, none => none
  | some b, none => some b
  | none, some o => some o
  | some b, some o =>
    -- The block is there in both, so its fields are merged.
    let defs : MqttServerConfig := {}
    some
      { brokerAddr := overlayField defs.brokerAddr o.brokerAddr b.brokerAddr
        port := overlayField defs.port o.port b.port
        topicPrefix := overlayField defs.topicPrefix o.topicPrefix b.topicPrefix
        credentials := overlayOpt o.credentials b.credentials
        ca := overlayOpt o.ca b.ca
        clientAuth := overlayOpt o.clientAuth b.clientAuth
        discovery := overlayOpt o.discovery b.discovery }

/-- The cameras are left to `mergeCameras`. -/
def mergeTopLevel (base overlay : Config) : Config :=
  let defaults : Config := {}
  { base with
    bindAddr := overlayField defaults.bindAddr overlay.bindAddr base.bindAddr
    bindPort := overlayField defaults.bindPort overlay.bindPort base.bindPort
    certificate := overlayOpt overlay.certificate base.certificate
    tlsBindPort := overlayOpt overlay.tlsBindPort base.tlsBindPort
    tlsClientCa := overlayOpt overlay.tlsClientCa base.tlsClientCa
    tlsClientAuth :=
      overlayField defaults.tlsClientAuth overlay.tlsClientAuth base.tlsClientAuth
    users := overlayNonempty overlay.users base.users
    mqtt := mergeMqtt base.mqtt overlay.mqtt
    wakeServer := overlayOpt overlay.wakeServer base.wakeServer
    pushListener := overlayOpt overlay.pushListener base.pushListener
    streamPruneGraceSecs := overlayField defaults.streamPruneGraceSecs
      overlay.streamPruneGraceSecs base.streamPruneGraceSecs }

/-- The merged configuration. -/
def merge (base overlay : Config) : Config :=
  { mergeTopLevel base overlay with cameras := mergeCameras base.cameras overlay.cameras }

/-! ## Every field -/

/-- Each field of a camera: the overlay's, if it is not the default. -/
def CameraConfig.overlaid (base o : CameraConfig) : CameraConfig :=
  let defs : CameraConfig := {}
  { name := overlayField defs.name o.name base.name
    address := overlayField defs.address o.address base.address
    uid := overlayField defs.uid o.uid base.uid
    username := overlayField defs.username o.username base.username
    password := overlayField defs.password o.password base.password
    cloudAccount := overlayField defs.cloudAccount o.cloudAccount base.cloudAccount
    cloudPassword := overlayField defs.cloudPassword o.cloudPassword base.cloudPassword
    cloudMfaTrustToken :=
      overlayField defs.cloudMfaTrustToken o.cloudMfaTrustToken base.cloudMfaTrustToken
    cloudRefreshToken :=
      overlayField defs.cloudRefreshToken o.cloudRefreshToken base.cloudRefreshToken
    channelId := overlayField defs.channelId o.channelId base.channelId
    stream := overlayField defs.stream o.stream base.stream
    discovery := overlayField defs.discovery o.discovery base.discovery
    maxEncryption := overlayField defs.maxEncryption o.maxEncryption base.maxEncryption
    idleDisconnect := overlayField defs.idleDisconnect o.idleDisconnect base.idleDisconnect
    idleDisconnectTimeoutSecs := overlayField defs.idleDisconnectTimeoutSecs
      o.idleDisconnectTimeoutSecs base.idleDisconnectTimeoutSecs
    motionWakeHoldSecs :=
      overlayField defs.motionWakeHoldSecs o.motionWakeHoldSecs base.motionWakeHoldSecs
    enabled := overlayField defs.enabled o.enabled base.enabled
    mqtt := overlayField defs.mqtt o.mqtt base.mqtt
    pause := overlayField defs.pause o.pause base.pause
    permittedUsers := overlayField defs.permittedUsers o.permittedUsers base.permittedUsers
    debug := overlayField defs.debug o.debug base.debug
    printFormat := overlayField defs.printFormat o.printFormat base.printFormat
    updateTime := overlayField defs.updateTime o.updateTime base.updateTime
    bufferDuration := overlayField defs.bufferDuration o.bufferDuration base.bufferDuration
    useSplash := overlayField defs.useSplash o.useSplash base.useSplash
    splashPattern := overlayField defs.splashPattern o.splashPattern base.splashPattern
    maxDiscoveryRetries :=
      overlayField defs.maxDiscoveryRetries o.maxDiscoveryRetries base.maxDiscoveryRetries
    pushNotifications :=
      overlayField defs.pushNotifications o.pushNotifications base.pushNotifications
    strict := overlayField defs.strict o.strict base.strict }

/-- Each field of the MQTT block. -/
def MqttServerConfig.overlaid (base o : MqttServerConfig) : MqttServerConfig :=
  let defs : MqttServerConfig := {}
  { brokerAddr := overlayField defs.brokerAddr o.brokerAddr base.brokerAddr
    port := overlayField defs.port o.port base.port
    credentials := overlayField defs.credentials o.credentials base.credentials
    ca := overlayField defs.ca o.ca base.ca
    clientAuth := overlayField defs.clientAuth o.clientAuth base.clientAuth
    topicPrefix := overlayField defs.topicPrefix o.topicPrefix base.topicPrefix
    discovery := overlayField defs.discovery o.discovery base.discovery }

/-- Each field of a configuration but the cameras. -/
def overlaid (base overlay : Config) (cameras : List CameraConfig) : Config :=
  let defs : Config := {}
  { bindAddr := overlayField defs.bindAddr overlay.bindAddr base.bindAddr
    bindPort := overlayField defs.bindPort overlay.bindPort base.bindPort
    certificate := overlayField defs.certificate overlay.certificate base.certificate
    tlsClientAuth := overlayField defs.tlsClientAuth overlay.tlsClientAuth base.tlsClientAuth
    tlsBindPort := overlayField defs.tlsBindPort overlay.tlsBindPort base.tlsBindPort
    tlsClientCa := overlayField defs.tlsClientCa overlay.tlsClientCa base.tlsClientCa
    users := overlayField defs.users overlay.users base.users
    mqtt := Option.merge MqttServerConfig.overlaid base.mqtt overlay.mqtt
    wakeServer := overlayField defs.wakeServer overlay.wakeServer base.wakeServer
    pushListener := overlayField defs.pushListener overlay.pushListener base.pushListener
    tokioConsole := overlayField defs.tokioConsole overlay.tokioConsole base.tokioConsole
    streamPruneGraceSecs := overlayField defs.streamPruneGraceSecs
      overlay.streamPruneGraceSecs base.streamPruneGraceSecs
    cloudAccount := overlayField defs.cloudAccount overlay.cloudAccount base.cloudAccount
    cloudPassword := overlayField defs.cloudPassword overlay.cloudPassword base.cloudPassword
    cameras := cameras }

/-- What is to become of a camera: every overlay camera of its name is laid over it, and without
    one it stays as it is. -/
def LaidOver (overlay : List CameraConfig) (b merged : CameraConfig) : Prop :=
  (∀ o ∈ overlay, o.name = b.name → merged = b.overlaid o) ∧
    ((∀ o ∈ overlay, o.name ≠ b.name) → merged = b)

/-- The cameras keep their order and their number, and those of the overlay that have no name of
    theirs come behind them, as they are. -/
structure CamerasComplete (base overlay merged : List CameraConfig) : Prop where
  kept : ∃ kept, merged = kept ++ overlay.filter (fun o => o.name ∉ base.map (·.name)) ∧
    List.Forall₂ (LaidOver overlay) base kept

/-- Every field is the overlay's where this differs from the default. -/
structure Complete (base overlay merged : Config) : Prop where
  fields : merged = base.overlaid overlay merged.cameras
  cameras : CamerasComplete base.cameras overlay.cameras merged.cameras

/-! ## What is forgotten -/

/-- The overlay has nothing to say on a field that is not merged. -/
def Spares {α : Type*} (o base : Option α) : Prop := o = none ∨ o = base

/-- The fields of a camera that are not merged. -/
structure CameraConfig.Spares (b o : CameraConfig) : Prop where
  cloudAccount : Config.Spares o.cloudAccount b.cloudAccount
  cloudPassword : Config.Spares o.cloudPassword b.cloudPassword
  cloudMfaTrustToken : Config.Spares o.cloudMfaTrustToken b.cloudMfaTrustToken
  cloudRefreshToken : Config.Spares o.cloudRefreshToken b.cloudRefreshToken

/-- The overlay has nothing to say on what is not merged, and no name asks for two things. -/
structure Mergeable (base overlay : Config) : Prop where
  tokioConsole : Spares overlay.tokioConsole base.tokioConsole
  cloudAccount : Spares overlay.cloudAccount base.cloudAccount
  cloudPassword : Spares overlay.cloudPassword base.cloudPassword
  spares : ∀ b ∈ base.cameras, ∀ o ∈ overlay.cameras, o.name = b.name → b.Spares o
  /-- Where several overlay cameras have the name of a camera, they say the same. -/
  agree : ∀ b ∈ base.cameras, ∀ o ∈ overlay.cameras, o.name = b.name →
    ∀ o' ∈ overlay.cameras, o'.name = b.name → b.overlaid o = b.overlaid o'
  /-- Only the first of several cameras of one name is merged. -/
  again : base.cameras.Pairwise fun b b' => b.name = b'.name →
    ∀ o ∈ overlay.cameras, o.name = b'.name → b'.overlaid o = b'
  new : ((overlay.cameras.filter fun o => o.name ∉ base.cameras.map (·.name)).map
    (·.name)).Nodup

theorem mergeMqtt_eq (base o : Option MqttServerConfig) :
    mergeMqtt base o = Option.merge MqttServerConfig.overlaid base o := by
  cases base <;> cases o <;>
    simp only [mergeMqtt, Option.merge, MqttServerConfig.overlaid, overlayOpt_eq]

/-- The merge of a camera forgets the fields that are not read from the file. -/
theorem mergeCamera_eq (b o : CameraConfig) :
    mergeCamera b o =
      { b.overlaid o with
        name := b.name
        cloudAccount := b.cloudAccount
        cloudPassword := b.cloudPassword
        cloudMfaTrustToken := b.cloudMfaTrustToken
        cloudRefreshToken := b.cloudRefreshToken } := by
  simp only [mergeCamera, CameraConfig.overlaid, overlayOpt_eq, overlayNonempty_eq]

theorem name_overlaid {b o : CameraConfig} (h : o.name = b.name) : (b.overlaid o).name = b.name :=
  overlayField_eq_base.2 (.inr h)

/-- A camera spares another if the rule leaves all four secrets alone. -/
theorem spares_iff {b o : CameraConfig} :
    b.Spares o ↔ (b.overlaid o).cloudAccount = b.cloudAccount ∧
      (b.overlaid o).cloudPassword = b.cloudPassword ∧
      (b.overlaid o).cloudMfaTrustToken = b.cloudMfaTrustToken ∧
      (b.overlaid o).cloudRefreshToken = b.cloudRefreshToken := by
  simp only [CameraConfig.overlaid, overlayField_eq_base]
  exact ⟨fun h => ⟨h.1, h.2, h.3, h.4⟩, fun ⟨h₁, h₂, h₃, h₄⟩ => ⟨h₁, h₂, h₃, h₄⟩⟩

/-- Apart from the secrets a camera is merged by the rule. -/
theorem mergeCamera_eq_overlaid {b o : CameraConfig} (hname : o.name = b.name)
    (h : b.Spares o) : mergeCamera b o = b.overlaid o := by
  obtain ⟨haccount, hpassword, htrust, hrefresh⟩ := spares_iff.1 h
  rw [mergeCamera_eq, ← haccount, ← hpassword, ← htrust, ← hrefresh, ← name_overlaid hname]

/-- Once laid over a camera, an overlay camera has nothing more to change. -/
theorem mergeCamera_overlaid (b o : CameraConfig) :
    mergeCamera (b.overlaid o) o = b.overlaid o := by
  rw [mergeCamera_eq]
  simp only [CameraConfig.overlaid, overlayField_self]

/-- Merging never writes the secrets, however many cameras there are of the name. -/
theorem foldl_mergeCamera_secrets (b : CameraConfig) (os : List CameraConfig) :
    (os.foldl mergeCamera b).cloudAccount = b.cloudAccount ∧
      (os.foldl mergeCamera b).cloudPassword = b.cloudPassword ∧
      (os.foldl mergeCamera b).cloudMfaTrustToken = b.cloudMfaTrustToken ∧
      (os.foldl mergeCamera b).cloudRefreshToken = b.cloudRefreshToken := by
  induction os generalizing b with
  | nil => exact ⟨rfl, rfl, rfl, rfl⟩
  | cons o os ih => exact ih (mergeCamera b o)

/-- The overlay cameras of one name make of a camera what each of them asks for exactly if they
    ask for the same, and for nothing that is not merged. -/
theorem foldl_mergeCamera_iff {b : CameraConfig} {os : List CameraConfig}
    (hname : ∀ o ∈ os, o.name = b.name) :
    (∀ o ∈ os, os.foldl mergeCamera b = b.overlaid o) ↔
      (∀ o ∈ os, b.Spares o) ∧ ∀ o ∈ os, ∀ o' ∈ os, b.overlaid o = b.overlaid o' := by
  constructor
  · intro h
    refine ⟨fun o ho => spares_iff.2 ?_, fun o ho o' ho' => (h o ho).symm.trans (h o' ho')⟩
    rw [← h o ho]
    exact foldl_mergeCamera_secrets b os
  · rintro ⟨hspares, hagree⟩ o ho
    have hstays : ∀ os' ⊆ os, os'.foldl mergeCamera (b.overlaid o) = b.overlaid o := by
      intro os' hsub
      induction os' with
      | nil => rfl
      | cons o' os' ih =>
        obtain ⟨ho', hsub⟩ := List.cons_subset.1 hsub
        rw [List.foldl_cons, hagree o ho o' ho', mergeCamera_overlaid, ← hagree o ho o' ho']
        exact ih hsub
    cases os with
    | nil => cases ho
    | cons first os =>
      have hfirst : first ∈ first :: os := List.mem_cons_self
      rw [List.foldl_cons, mergeCamera_eq_overlaid (hname first hfirst) (hspares first hfirst),
        hagree first hfirst o ho]
      exact hstays os (List.subset_cons_self first os)

section

variable {overlay : List CameraConfig}

/-- No overlay camera changes a camera. -/
def Unchanged (overlay : List CameraConfig) (b : CameraConfig) : Prop :=
  ∀ o ∈ overlay, o.name = b.name → b.overlaid o = b

/-- The overlay cameras of its name ask for the same of a camera, and for nothing that is not
    merged. -/
def Agreed (overlay : List CameraConfig) (b : CameraConfig) : Prop :=
  ∀ o ∈ overlay, o.name = b.name →
    b.Spares o ∧ ∀ o' ∈ overlay, o'.name = b.name → b.overlaid o = b.overlaid o'

/-- Where nothing is to change, all overlays agree. -/
theorem Unchanged.agreed {b : CameraConfig} (h : Unchanged overlay b) : Agreed overlay b := by
  intro o ho hname
  have hb := h o ho hname
  refine ⟨spares_iff.2 ?_, fun o' ho' hname' => hb.trans (h o' ho' hname').symm⟩
  rw [hb]
  exact ⟨rfl, rfl, rfl, rfl⟩

/-- Of a camera whose name has been seen, or else of one that takes the overlay cameras. -/
theorem laidOver_foldl_iff (seen : List Bytes) (b : CameraConfig) :
    LaidOver overlay b (((overlay.filter fun o => o.name ∉ seen).filter
      fun o => o.name = b.name).foldl mergeCamera b) ↔
      (b.name ∈ seen → Unchanged overlay b) ∧ Agreed overlay b := by
  by_cases hseen : b.name ∈ seen
  · have hnone :
        (overlay.filter fun o => o.name ∉ seen).filter (fun o => o.name = b.name) = [] := by
      rw [List.filter_filter, List.filter_eq_nil_iff]
      simp only [Bool.and_eq_true, decide_eq_true_eq, not_and, not_not]
      rintro o - hname
      rwa [hname]
    rw [hnone, List.foldl_nil]
    constructor
    · intro h
      have hunchanged : Unchanged overlay b := fun o ho hname => (h.1 o ho hname).symm
      exact ⟨fun _ => hunchanged, hunchanged.agreed⟩
    · rintro ⟨hunchanged, -⟩
      exact ⟨fun o ho hname => (hunchanged hseen o ho hname).symm, fun _ => rfl⟩
  · have hall : (overlay.filter fun o => o.name ∉ seen).filter (fun o => o.name = b.name) =
        overlay.filter fun o => o.name = b.name := by
      rw [List.filter_filter]
      refine List.filter_congr fun o _ => ?_
      by_cases hname : o.name = b.name
      · simp [hname, hseen]
      · simp [hname]
    have hnames : ∀ o ∈ overlay.filter (fun o => o.name = b.name), o.name = b.name :=
      fun o ho => of_decide_eq_true (List.mem_filter.1 ho).2
    have hfold := foldl_mergeCamera_iff hnames
    simp only [List.mem_filter, decide_eq_true_eq, and_imp] at hfold
    rw [hall, LaidOver, hfold]
    constructor
    · rintro ⟨⟨hspares, hagree⟩, -⟩
      exact ⟨fun h => absurd h hseen, fun o ho hname => ⟨hspares o ho hname, hagree o ho hname⟩⟩
    · rintro ⟨-, hagreed⟩
      refine ⟨⟨fun o ho hname => (hagreed o ho hname).1, fun o ho hname => (hagreed o ho hname).2⟩,
        fun hnone => ?_⟩
      rw [List.filter_eq_nil_iff.2 fun o ho => by simpa using hnone o ho]
      rfl

/-- The cameras one after the other, the names of those before being `seen`. -/
theorem forall₂_laidOver_iff (seen : List Bytes) (base : List CameraConfig) :
    List.Forall₂ (LaidOver overlay) base
        (Overlay.merged (·.name) mergeCamera base (overlay.filter fun o => o.name ∉ seen)) ↔
      (∀ b ∈ base, b.name ∈ seen → Unchanged overlay b) ∧ (∀ b ∈ base, Agreed overlay b) ∧
        base.Pairwise fun b b' => b.name = b'.name → Unchanged overlay b' := by
  induction base generalizing seen with
  | nil => simp [Overlay.merged]
  | cons b base ih =>
    have hrest : (overlay.filter fun o => o.name ∉ seen).filter (fun o => o.name ≠ b.name) =
        overlay.filter fun o => o.name ∉ b.name :: seen := by
      rw [List.filter_filter]
      refine List.filter_congr fun o _ => ?_
      simp only [List.mem_cons, not_or, Bool.decide_and]
    rw [Overlay.merged, List.forall₂_cons, laidOver_foldl_iff, hrest, ih, List.pairwise_cons,
      List.forall_mem_cons, List.forall_mem_cons]
    simp only [List.mem_cons]
    constructor
    · rintro ⟨⟨hseen, hagreed⟩, hunchanged, hall, hpairs⟩
      exact ⟨⟨hseen, fun b' hb' h => hunchanged b' hb' (.inr h)⟩, ⟨hagreed, hall⟩,
        fun b' hb' h => hunchanged b' hb' (.inl h.symm), hpairs⟩
    · rintro ⟨⟨hseen, hunchanged⟩, ⟨hagreed, hall⟩, hsame, hpairs⟩
      refine ⟨⟨hseen, hagreed⟩, fun b' hb' h => ?_, hall, hpairs⟩
      rcases h with heq | hmem
      · exact hsame b' hb' heq.symm
      · exact hunchanged b' hb' hmem

/-- Merging two cameras keeps the name of the first. -/
theorem keeps_name : Overlay.Keeps CameraConfig.name mergeCamera := fun _ _ _ => rfl

/-- The cameras are merged by the rule if those of one name in the overlay agree, and the base has
    each name with something to change only once, and new names come once. -/
theorem mergeCameras_complete_iff (base : List CameraConfig) :
    CamerasComplete base overlay (mergeCameras base overlay) ↔
      ((∀ b ∈ base, Agreed overlay b) ∧
        base.Pairwise fun b b' => b.name = b'.name → Unchanged overlay b') ∧
      ((overlay.filter fun o => o.name ∉ base.map (·.name)).map (·.name)).Nodup := by
  have hlaid := @forall₂_laidOver_iff overlay [] base
  have hself : overlay.filter (fun o => o.name ∉ ([] : List Bytes)) = overlay :=
    List.filter_eq_self.2 fun _ _ => decide_eq_true List.not_mem_nil
  rw [hself] at hlaid
  simp only [List.not_mem_nil, false_implies, implies_true, true_and] at hlaid
  have hput : mergeCameras base overlay = Overlay.merged (·.name) mergeCamera base overlay ++
      Overlay.putAll (·.name) mergeCamera []
        (overlay.filter fun o => o.name ∉ base.map (·.name)) := by
    rw [mergeCameras, Overlay.putAll_eq keeps_name]
    congr!
  rw [← hlaid, ← Overlay.putAll_nil_eq_self keeps_name, hput]
  constructor
  · rintro ⟨kept, hmerged, hkept⟩
    obtain ⟨rfl, hnew⟩ := List.append_inj hmerged
      (Overlay.length_merged.trans hkept.length_eq)
    exact ⟨hkept, hnew⟩
  · rintro ⟨hkept, hnew⟩
    exact ⟨_, by rw [hnew], hkept⟩

end

/-- The three fields that the merge forgets are all that is missing from it. -/
theorem fields_merge_iff (base overlay : Config) :
    merge base overlay = base.overlaid overlay (merge base overlay).cameras ↔
      Spares overlay.tokioConsole base.tokioConsole ∧
        Spares overlay.cloudAccount base.cloudAccount ∧
          Spares overlay.cloudPassword base.cloudPassword := by
  simp only [merge, mergeTopLevel, overlaid, overlayOpt_eq, overlayNonempty_eq, mergeMqtt_eq,
    Config.mk.injEq, true_and, and_true, eq_comm (b := overlayField _ _ _), overlayField_eq_base,
    Spares]

/-- The merge is complete exactly if the overlay has nothing to say on the fields that are not
    merged, and no name asks for two things. -/
theorem merge_complete_iff (base overlay : Config) :
    Complete base overlay (merge base overlay) ↔ Mergeable base overlay := by
  have hcameras := @mergeCameras_complete_iff overlay.cameras base.cameras
  constructor
  · rintro ⟨hfields, hcomplete⟩
    obtain ⟨hconsole, haccount, hpassword⟩ := (fields_merge_iff base overlay).1 hfields
    obtain ⟨⟨hagreed, hagain⟩, hnew⟩ := hcameras.1 hcomplete
    exact
      { tokioConsole := hconsole
        cloudAccount := haccount
        cloudPassword := hpassword
        spares := fun b hb o ho hname => (hagreed b hb o ho hname).1
        agree := fun b hb o ho hname => (hagreed b hb o ho hname).2
        again := hagain
        new := hnew }
  · intro h
    refine ⟨(fields_merge_iff base overlay).2 ⟨h.tokioConsole, h.cloudAccount, h.cloudPassword⟩,
      hcameras.2 ⟨⟨fun b hb o ho hname => ?_, h.again⟩, h.new⟩⟩
    exact ⟨h.spares b hb o ho hname, h.agree b hb o ho hname⟩

/-- The account in an overlay is lost. -/
theorem account_not_complete :
    ¬Complete {} { cloudAccount := some (utf8 "home@example.org") }
      (merge {} { cloudAccount := some (utf8 "home@example.org") }) := by
  rintro ⟨hfields, -⟩
  have haccount := congrArg Config.cloudAccount hfields
  revert haccount
  decide +kernel

end Bairelay.Config
