import Bairelay.Mqtt.Control
import Bairelay.Mqtt.Discovery
import Bairelay.Rtsp.Digest

/-!
# Presets

The select entity with the presets of a camera (`build_ptz_presets` of `mqtt/discovery/mod.rs`):
its options are the names that the camera gives. What is selected comes back as a control message,
and is dispatched (`mqtt_dispatch.rs`) as a move, with the presets that are cached (`camera.rs`).

`selects_iff`: exactly which options move the camera to a preset of that name. Names are free text,
but a control message is trimmed, may be the number of a preset or a reply, and the case of its
letters does not matter.
-/

namespace Bairelay

/-! ## The cache -/

/-- The presets that are cached for a camera, with their names. -/
abbrev PresetCache := List (UInt8 × Bytes)

namespace PresetCache

variable (presets : PresetCache)

/-- The first preset of the name, in any case of letters. -/
def presetIdForName (name : Bytes) : Option UInt8 :=
  (presets.find? fun preset => eqIgnoreAsciiCase preset.2 name).map (·.1)

/-- The name of a preset. -/
def presetNameForId (presetId : UInt8) : Option Bytes :=
  (presets.find? fun preset => preset.1 = presetId).map (·.2)

end PresetCache

/-! ## The entity -/

/-- The entity with which a preset is selected. -/
structure DiscoverySelect where
  uniqueId : Bytes
  commandTopic : Bytes
  options : List Bytes
  stateTopic : Option Bytes
  deriving DecidableEq

namespace DiscoveryContext

variable (ctx : DiscoveryContext)

/-- What `buildPtzPresets` publishes on its topic. -/
def ptzPresetsSelect : Option DiscoverySelect :=
  if !ctx.capabilities.hasPtz then none
  else if ctx.presets.isEmpty then none
  else some
    { uniqueId := ctx.unique "preset"
      commandTopic := Topics.controlPtzPreset ctx.topicPrefix ctx.cameraName
      -- Each name once, where it stands first.
      options := (ctx.presets.map (·.2)).eraseDups
      stateTopic := some (Topics.statusPtzPreset ctx.topicPrefix ctx.cameraName) }

/-- The names that `validate_config` accepts; the names of presets are strings. -/
structure Valid : Prop where
  topicPrefix : ∀ b ∈ ctx.topicPrefix, ControlCommand.isNameByte b = true
  cameraName : ctx.cameraName ≠ [] ∧ ∀ b ∈ ctx.cameraName, ControlCommand.isNameByte b = true
  presets : ∀ preset ∈ ctx.presets, isUtf8 preset.2 = true

end DiscoveryContext

/-! ## The dispatch -/

/-- What comes of a command for a preset. -/
structure PresetDispatch where
  /-- The preset that the camera is told to move to. -/
  moveto : Option UInt8
  /-- The status, if it is published, which is retained. -/
  status : Option (Bytes × Bytes)
  reply : Bytes × Bytes
  deriving DecidableEq

/-- A move to a preset, and its name as the status if the camera `accepts` it. -/
def movetoPtzPreset (pfx : Bytes) (accepts : UInt8 → Bool) (command : ControlCommand)
    (presetId : UInt8) (name : Option Bytes) : PresetDispatch where
  moveto := some presetId
  status := if accepts presetId then
    name.map fun name => (Topics.statusPtzPreset pfx command.cameraName, name) else none
  reply := (command.controlTopic pfx, ControlCommand.reply (accepts presetId))

/-- The commands for a preset, once the camera is connected. -/
def dispatchPtzPreset (pfx : Bytes) (presets : PresetCache) (accepts : UInt8 → Bool) :
    ControlCommand → Option PresetDispatch
  | .ptzPreset camera presetId =>
    some (movetoPtzPreset pfx accepts (.ptzPreset camera presetId) (.ofNat presetId)
      (presets.presetNameForId (.ofNat presetId)))
  | .ptzPresetByName camera name =>
    let command := .ptzPresetByName camera name
    match presets.presetIdForName name with
    | some presetId => some (movetoPtzPreset pfx accepts command presetId (some name))
    -- The name is not in the cache.
    | none => some ⟨none, none, (command.controlTopic pfx, ControlCommand.reply false)⟩
  | _ => none

/-! ## Selecting an option -/

/-- A message on the topic of the select with the label for its payload is parsed as a command for
    the camera, and dispatched as a move to a preset with this name. -/
def DiscoveryContext.Selects (ctx : DiscoveryContext) (select : DiscoverySelect)
    (accepts : UInt8 → Bool) (label : Bytes) : Prop :=
  ∃ command, ControlCommand.parseControlMessage ctx.topicPrefix select.commandTopic label =
      some command ∧ command.cameraName = ctx.cameraName ∧
    ∃ dispatch, dispatchPtzPreset ctx.topicPrefix ctx.presets accepts command = some dispatch ∧
      ∃ presetId, dispatch.moveto = some presetId ∧ (presetId, label) ∈ ctx.presets

/-- Read as a number, the label is that of a preset with this name. If it is none, it is a name
    that is not taken for a reply, and the first preset which has that name, but for the blanks and
    the case, has the label for a name too. -/
def PresetCache.Selectable (presets : PresetCache) (label : Bytes) : Prop :=
  match parseUint 8 (trim label) with
  | some presetId => (UInt8.ofNat presetId, label) ∈ presets
  | none => trim label ≠ [] ∧ ¬ControlCommand.isReservedReplyToken (trim label) ∧
      ∃ preset ∈ presets.find? fun preset => eqIgnoreAsciiCase preset.2 (trim label),
        (preset.1, label) ∈ presets

open ControlCommand

variable {ctx : DiscoveryContext} {select : DiscoverySelect} {label : Bytes}

/-- The entity offers the names of the presets, each once. -/
theorem DiscoveryContext.eq_of_ptzPresetsSelect (h : ctx.ptzPresetsSelect = some select) :
    select.commandTopic = Topics.controlPtzPreset ctx.topicPrefix ctx.cameraName ∧
      select.options = (ctx.presets.map (·.2)).eraseDups := by
  rw [ptzPresetsSelect] at h
  split at h
  · cases h
  · split at h
    · cases h
    · obtain rfl := Option.some.inj h
      exact ⟨rfl, rfl⟩

/-- The options are the names of presets. -/
theorem DiscoveryContext.mem_options (h : ctx.ptzPresetsSelect = some select) :
    label ∈ select.options ↔ ∃ presetId, (presetId, label) ∈ ctx.presets := by
  rw [(eq_of_ptzPresetsSelect h).2, List.mem_eraseDups, List.mem_map]
  constructor
  · rintro ⟨preset, hmem, rfl⟩
    exact ⟨preset.1, hmem⟩
  · rintro ⟨presetId, hmem⟩
    exact ⟨_, hmem, rfl⟩

/-- Names have no slash, so that they are one level of a topic. -/
theorem slash_notMem {name : Bytes} (h : ∀ b ∈ name, isNameByte b = true) : 0x2f ∉ name :=
  fun hmem => absurd (h _ hmem) (by decide)

/-- The parts of the topic are those that it is made of. -/
theorem parts_controlPtzPreset {pfx cam : Bytes} (hpfx : ∀ b ∈ pfx, isNameByte b = true)
    (hcam : ∀ b ∈ cam, isNameByte b = true) :
    Topics.parts (Topics.controlPtzPreset pfx cam) =
      [pfx, cam, utf8 "control", utf8 "ptz", utf8 "preset"] := by
  have hwords : (0x2f : UInt8) ∉ utf8 "control" ∧ 0x2f ∉ utf8 "ptz" ∧ 0x2f ∉ utf8 "preset" := by
    decide +kernel
  rw [Topics.controlPtzPreset, Topics.ofCamera, Topics.join_eq_intercalate, Topics.parts]
  refine List.splitOn_intercalate _ ?_ (List.cons_ne_nil _ _)
  simp only [List.map_cons, List.map_nil, List.forall_mem_cons, List.not_mem_nil,
    false_implies, implies_true, and_true]
  exact ⟨slash_notMem hpfx, slash_notMem hcam, hwords⟩

/-- A message on the topic is for the camera, and has a number or a name. -/
theorem parseControlMessage_preset (hctx : ctx.Valid) (hlabel : isUtf8 label = true) :
    parseControlMessage ctx.topicPrefix
        (Topics.controlPtzPreset ctx.topicPrefix ctx.cameraName) label =
      parsePreset ctx.cameraName (trim label) := by
  obtain ⟨hne, hname⟩ := hctx.cameraName
  rw [parseControlMessage, parts_controlPtzPreset hctx.topicPrefix hname]
  simp only [ne_eq, not_true_eq_false, if_false, hne, List.all_eq_true.2 hname, hlabel, or_self]
  rw [parseRest, if_pos ⟨rfl, rfl⟩, parseControlPtzSub, if_pos rfl]

/-- The name leads back to a preset of this label if the first preset that matches has it. -/
theorem mem_of_presetIdForName {presets : PresetCache} {name : Bytes} :
    (∃ presetId, presets.presetIdForName name = some presetId ∧ (presetId, label) ∈ presets) ↔
      ∃ preset ∈ presets.find? fun preset => eqIgnoreAsciiCase preset.2 name,
        (preset.1, label) ∈ presets := by
  simp only [PresetCache.presetIdForName, Option.map_eq_some_iff, Option.mem_def]
  constructor
  · rintro ⟨_, ⟨preset, hfind, rfl⟩, hmem⟩
    exact ⟨preset, hfind, hmem⟩
  · rintro ⟨preset, hfind, hmem⟩
    exact ⟨preset.1, ⟨preset, hfind, rfl⟩, hmem⟩

/-- A name is dispatched as a move to the first preset that has it. -/
theorem moveto_ptzPresetByName {presets : PresetCache} {pfx camera name : Bytes}
    {accepts : UInt8 → Bool} {presetId : UInt8} :
    (∃ dispatch, dispatchPtzPreset pfx presets accepts (.ptzPresetByName camera name) =
      some dispatch ∧ dispatch.moveto = some presetId) ↔
        presets.presetIdForName name = some presetId := by
  rw [dispatchPtzPreset]
  cases presets.presetIdForName name with
  | none => simp
  | some found => simp [movetoPtzPreset]

/-- Every preset can be selected if its name is one that is neither a number nor a reply, without
    blanks around it, and no two names differ in the case of their letters alone. -/
theorem PresetCache.selectable_of_plain {presets : PresetCache} {presetId : UInt8}
    (hplain : ∀ preset ∈ presets, IsTrimmed preset.2 ∧ parseUint 8 preset.2 = none ∧
      preset.2 ≠ [] ∧ ¬isReservedReplyToken preset.2)
    (hcase : ∀ preset ∈ presets, ∀ preset' ∈ presets,
      eqIgnoreAsciiCase preset.2 preset'.2 → preset.2 = preset'.2)
    (h : (presetId, label) ∈ presets) : presets.Selectable label := by
  obtain ⟨htrimmed, hnumber, hne, hreply⟩ := hplain _ h
  obtain ⟨preset, hfind⟩ : ∃ preset,
      presets.find? (fun preset => eqIgnoreAsciiCase preset.2 label) = some preset :=
    Option.isSome_iff_exists.1 (List.find?_isSome.2 ⟨_, h, decide_eq_true rfl⟩)
  have hmem := List.mem_of_find?_eq_some hfind
  have hfound : eqIgnoreAsciiCase preset.2 label = true :=
    List.find?_some (p := fun preset : UInt8 × Bytes => eqIgnoreAsciiCase preset.2 label) hfind
  have hname : preset.2 = label := hcase _ hmem _ h hfound
  rw [Selectable, trim_of_isTrimmed htrimmed, hnumber]
  refine ⟨hne, hreply, preset, hfind, ?_⟩
  rw [← hname]
  exact hmem

/-- Exactly the selectable ones of the options move the camera to a preset of that name. -/
theorem DiscoveryContext.selects_iff (hctx : ctx.Valid) (h : ctx.ptzPresetsSelect = some select)
    (hlabel : label ∈ select.options) (accepts : UInt8 → Bool) :
    ctx.Selects select accepts label ↔ PresetCache.Selectable ctx.presets label := by
  obtain ⟨_, hmem⟩ := (mem_options h).1 hlabel
  have hutf8 : isUtf8 label = true := hctx.presets _ hmem
  rw [Selects, (eq_of_ptzPresetsSelect h).1, parseControlMessage_preset hctx hutf8,
    PresetCache.Selectable, parsePreset]
  cases parseUint 8 (trim label) with
  | some presetId =>
    -- The number is not looked up.
    simp [ControlCommand.cameraName, dispatchPtzPreset, movetoPtzPreset]
  | none =>
    dsimp only
    rw [trim_trim]
    by_cases hdropped : trim label = [] ∨ isReservedReplyToken (trim label)
    · rw [if_pos hdropped]
      constructor
      · rintro ⟨_, hnone, -⟩
        cases hnone
      · rintro ⟨hne, hreply, -⟩
        exact absurd hdropped (not_or.2 ⟨hne, hreply⟩)
    · obtain ⟨hne, hreply⟩ := not_or.1 hdropped
      rw [if_neg hdropped, ← mem_of_presetIdForName]
      constructor
      · rintro ⟨_, hcommand, -, dispatch, hdispatch, presetId, hmove, hin⟩
        obtain rfl := Option.some.inj hcommand
        exact ⟨hne, hreply, presetId, moveto_ptzPresetByName.1 ⟨dispatch, hdispatch, hmove⟩, hin⟩
      · rintro ⟨-, -, presetId, hid, hin⟩
        obtain ⟨dispatch, hdispatch, hmove⟩ := moveto_ptzPresetByName.2 hid
        exact ⟨_, rfl, rfl, dispatch, hdispatch, presetId, hmove, hin⟩

/-- A camera `yard` with these presets. -/
def yardContext (presets : PresetCache) : DiscoveryContext where
  topicPrefix := utf8 "bairelay"
  haTopic := utf8 "homeassistant"
  cameraName := utf8 "yard"
  capabilities := { hasPtz := true }
  presets := presets

/-- The entity of the yard. -/
def yardSelect (options : List Bytes) : DiscoverySelect where
  uniqueId := utf8 "bairelay_yard_preset"
  commandTopic := utf8 "bairelay/yard/control/ptz/preset"
  options := options
  stateTopic := some (utf8 "bairelay/yard/status/ptz/preset")

theorem yardContext_valid {presets : PresetCache}
    (h : ∀ preset ∈ presets, isUtf8 preset.2 = true) : (yardContext presets).Valid := by
  have hnames : (∀ b ∈ utf8 "bairelay", isNameByte b = true) ∧
      utf8 "yard" ≠ [] ∧ ∀ b ∈ utf8 "yard", isNameByte b = true := by decide +kernel
  exact ⟨hnames.1, hnames.2, h⟩

/-- With plain names, the name brings the camera to the preset. -/
theorem gate_selects : (yardContext [(1, utf8 "Porch"), (2, utf8 "Gate")]).Selects
    (yardSelect [utf8 "Porch", utf8 "Gate"]) (fun _ => true) (utf8 "Gate") :=
  (DiscoveryContext.selects_iff (yardContext_valid (by decide +kernel)) (by decide +kernel)
    (by decide +kernel) _).2 (PresetCache.selectable_of_plain (by decide +kernel)
      (by decide +kernel) (List.mem_cons_of_mem _ List.mem_cons_self))

/-- The name `5` of the preset 2 brings the camera to the preset 5. -/
theorem five_not_selects :
    (yardContext [(2, utf8 "5"), (5, utf8 "Gate")]).Valid ∧
    (yardContext [(2, utf8 "5"), (5, utf8 "Gate")]).ptzPresetsSelect =
      some (yardSelect [utf8 "5", utf8 "Gate"]) ∧
    utf8 "5" ∈ (yardSelect [utf8 "5", utf8 "Gate"]).options ∧
    ¬(yardContext [(2, utf8 "5"), (5, utf8 "Gate")]).Selects
      (yardSelect [utf8 "5", utf8 "Gate"]) (fun _ => true) (utf8 "5") := by
  refine ⟨yardContext_valid (by decide +kernel), by decide +kernel, List.mem_cons_self, ?_⟩
  rintro ⟨command, hcommand, -, dispatch, hdispatch, presetId, hmove, hmem⟩
  have hparsed : parseControlMessage (utf8 "bairelay") (utf8 "bairelay/yard/control/ptz/preset")
      (utf8 "5") = some (.ptzPreset (utf8 "yard") 5) := by decide +kernel
  obtain rfl := Option.some.inj (hcommand.symm.trans hparsed)
  obtain rfl := Option.some.inj hdispatch
  obtain rfl := Option.some.inj hmove
  revert hmem
  decide +kernel

end Bairelay
