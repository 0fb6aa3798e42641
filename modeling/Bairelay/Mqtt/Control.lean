import Bairelay.Mqtt.Topics
import Mathlib.Data.Int.Log
import Mathlib.Data.Rat.Floor

/-!
# Control messages

What a message on a topic below `{prefix}/{camera}/control` or `{prefix}/{camera}/query` asks
for (`mqtt/control.rs`), and the reply that the dispatcher publishes on the topic of the
command (`mqtt_dispatch.rs`), where the bridge listens itself.

* `ControlCommand.parseControlMessage_reply`: a reply is never a command;
* `ControlCommand.parseControlMessage_agrees`: a command goes back to the topic it came
  from, which is one of those the bridge listens on for its camera;
* `ControlBus.dispatched_le_published`: so there is no loop of commands and replies.
-/

namespace Bairelay

/-! ## Numbers -/

/-- A number of `f32`. The sign of a zero is not kept: nothing looks at it. -/
inductive F32 where
  | finite (value : ℚ)
  | infinite (negative : Bool)
  | nan
  deriving DecidableEq, Repr

namespace F32

/-- The nearest integer, the even one of two. -/
def roundHalfEven (q : ℚ) : ℤ :=
  let rest := q - ⌊q⌋
  if rest < 1 / 2 ∨ rest = 1 / 2 ∧ ⌊q⌋ % 2 = 0 then ⌊q⌋ else ⌊q⌋ + 1

/-- The nearest number of the format, which keeps 24 bits of it. -/
def ofRat (q : ℚ) : F32 :=
  let ulp : ℚ := 2 ^ max (Int.log 2 |q| - 23) (-149)
  let value := roundHalfEven (q / ulp) * ulp
  if |value| < 2 ^ 128 then .finite value else .infinite (value < 0)

/-- A number, neither infinite nor NaN. -/
def isFinite : F32 → Bool
  | .finite _ => true
  | _ => false

/-- Below zero; a zero with a sign and a NaN are not. -/
def isNegative : F32 → Bool
  | .finite value => value < 0
  | .infinite negative => negative
  | .nan => false

end F32

/-- Whether there is a minus in front, and what is behind the sign. -/
def takeSign : Bytes → Bool × Bytes
  | 0x2d :: rest => (true, rest)
  | 0x2b :: rest => (false, rest)
  | s => (false, s)

/-- Digits with a point among them or none, exactly. -/
def parseDecimal (s : Bytes) : Option ℚ :=
  let (whole, frac) := (splitOnce 0x2e s).getD (s, [])
  if whole ++ frac = [] ∨ ¬(whole ++ frac).all isDigit then none
  else some (digitsValue (whole ++ frac) / 10 ^ frac.length)

/-- The exponent, with its sign. -/
def parseExponent (s : Bytes) : Option ℤ :=
  let (negative, digits) := takeSign s
  if digits = [] ∨ ¬digits.all isDigit then none
  else if negative then some (-digitsValue digits) else some (digitsValue digits)

/-- A number without its sign, in lower case. -/
def parseNumber (s : Bytes) : Option ℚ :=
  match splitOnce 0x65 s with
  | some (decimal, exponent) => do
    let value ← parseDecimal decimal
    let exponent ← parseExponent exponent
    return value * 10 ^ exponent
  | none => parseDecimal s

/-- A number as Rust reads it: decimal, infinite or NaN, in any case of letters. -/
def parseF32 (s : Bytes) : Option F32 :=
  let (negative, rest) := takeSign (s.map toAsciiLowercase)
  if rest = utf8 "inf" ∨ rest = utf8 "infinity" then some (.infinite negative)
  else if rest = utf8 "nan" then some .nan
  else (parseNumber rest).map fun value => .ofRat (if negative then -value else value)

example : parseF32 (utf8 "16777217") = some (.finite 16777216) := by decide +kernel
example : parseF32 (utf8 "-.5E1") = some (.finite (-5)) := by decide +kernel
example : parseF32 (utf8 "1e39") = some (.infinite false) := by decide +kernel

/-! ## Words -/

/-- The words of a text, behind what is read of the first of them. -/
def wordsFrom (word : Bytes) : ℕ → Bytes → List Bytes
  | fuel + 1, b :: rest =>
    match whitespace.find? (·.isPrefixOf (b :: rest)) with
    | some w =>
      (if word = [] then [] else [word]) ++ wordsFrom [] fuel ((b :: rest).drop w.length)
    | none => wordsFrom (word ++ [b]) fuel rest
  | _, _ => if word = [] then [] else [word]

/-- The words between whitespace. -/
def splitWhitespace (s : Bytes) : List Bytes := wordsFrom [] s.length s

/-! ## Commands -/

/-- Where to turn a camera. -/
inductive PtzDirection where
  | up
  | down
  | left
  | right
  deriving DecidableEq, Repr

/-- When the infrared light is on. -/
inductive IrMode where
  | on
  | off
  | auto
  deriving DecidableEq, Repr

/-- What can be asked of a camera. -/
inductive ControlCommand where
  | floodlight (camera : Bytes) (state : Bool)
  | floodlightTasks (camera : Bytes) (state : Bool)
  | led (camera : Bytes) (state : Bool)
  | ir (camera : Bytes) (mode : IrMode)
  | pir (camera : Bytes) (state : Bool)
  | reboot (camera : Bytes)
  | ptz (camera : Bytes) (direction : PtzDirection) (amount : F32)
  | ptzPreset (camera : Bytes) (presetId : ℕ)
  | ptzPresetByName (camera : Bytes) (name : Bytes)
  | ptzAssign (camera : Bytes) (presetId : ℕ) (name : Bytes)
  | zoom (camera : Bytes) (level : F32)
  | siren (camera : Bytes) (state : Bool)
  | wakeup (camera : Bytes) (minutes : ℕ)
  | queryBattery (camera : Bytes)
  | queryPreview (camera : Bytes)
  | queryPir (camera : Bytes)
  | queryPtzPreset (camera : Bytes)
  deriving DecidableEq, Repr

namespace ControlCommand

open Topics

/-- The camera that the command is for. -/
def cameraName : ControlCommand → Bytes
  | floodlight camera _ | floodlightTasks camera _ | led camera _ | ir camera _ | pir camera _
  | reboot camera | ptz camera _ _ | ptzPreset camera _ | ptzPresetByName camera _
  | ptzAssign camera _ _ | zoom camera _ | siren camera _ | wakeup camera _
  | queryBattery camera | queryPreview camera | queryPir camera | queryPtzPreset camera => camera

/-- The topic that the reply to the command is published on. -/
def controlTopic (command : ControlCommand) (pfx : Bytes) : Bytes :=
  let cam := command.cameraName
  match command with
  | floodlight .. => ofCamera pfx cam ["control", "floodlight"]
  | floodlightTasks .. => ofCamera pfx cam ["control", "floodlight_tasks"]
  | led .. => ofCamera pfx cam ["control", "led"]
  | ir .. => ofCamera pfx cam ["control", "ir"]
  | pir .. => ofCamera pfx cam ["control", "pir"]
  | reboot .. => ofCamera pfx cam ["control", "reboot"]
  | ptz .. => ofCamera pfx cam ["control", "ptz"]
  | ptzPreset .. => ofCamera pfx cam ["control", "ptz", "preset"]
  | ptzPresetByName .. => ofCamera pfx cam ["control", "ptz", "preset"]
  | ptzAssign .. => ofCamera pfx cam ["control", "ptz", "assign"]
  | zoom .. => ofCamera pfx cam ["control", "zoom"]
  | siren .. => ofCamera pfx cam ["control", "siren"]
  | wakeup .. => ofCamera pfx cam ["control", "wakeup"]
  | queryBattery .. => ofCamera pfx cam ["query", "battery"]
  | queryPreview .. => ofCamera pfx cam ["query", "preview"]
  | queryPir .. => ofCamera pfx cam ["query", "pir"]
  | queryPtzPreset .. => ofCamera pfx cam ["query", "ptz", "preset"]

/-! ## Payloads

`to_lowercase` maps no letter but those of ASCII, and the sign for kelvin, to letters of
ASCII, and no word that is looked for has a `k`. -/

/-- `OK` and `FAIL` are answers, never commands. -/
def isReservedReplyToken (payload : Bytes) : Bool :=
  eqIgnoreAsciiCase payload (utf8 "OK") || eqIgnoreAsciiCase payload (utf8 "FAIL")

/-- A word for on or off. -/
def parseOnOff (payload : Bytes) : Option Bool :=
  let word := payload.map toAsciiLowercase
  if word = utf8 "on" ∨ word = utf8 "true" ∨ word = utf8 "1" then some true
  else if word = utf8 "off" ∨ word = utf8 "false" ∨ word = utf8 "0" then some false
  else none

/-- A word for on, off or auto. -/
def parseIrMode (payload : Bytes) : Option IrMode :=
  let word := payload.map toAsciiLowercase
  if word = utf8 "on" ∨ word = utf8 "true" ∨ word = utf8 "1" then some .on
  else if word = utf8 "off" ∨ word = utf8 "false" ∨ word = utf8 "0" then some .off
  else if word = utf8 "auto" then some .auto
  else none

/-- The name of a direction. -/
def parsePtzDirection (s : Bytes) : Option PtzDirection :=
  let word := s.map toAsciiLowercase
  if word = utf8 "up" then some .up
  else if word = utf8 "down" then some .down
  else if word = utf8 "left" then some .left
  else if word = utf8 "right" then some .right
  else none

/-- How far to move or to zoom: a number, not below zero. -/
def parseAmount (s : Bytes) : Option F32 :=
  (parseF32 s).filter fun amount => amount.isFinite && !amount.isNegative

/-- A direction, and how far: 32 if nothing is said. -/
def parsePtz (camera payload : Bytes) : Option ControlCommand :=
  match splitWhitespace payload with
  | [] => none
  | [direction] => do return ptz camera (← parsePtzDirection direction) (.finite 32)
  | direction :: amount :: _ => do
    let direction ← parsePtzDirection direction
    let amount ← parseAmount amount
    return ptz camera direction amount

/-- How long to keep a camera awake: at most a day. -/
def parseMinutes (s : Bytes) : Option ℕ :=
  (parseUint 32 s).filter fun minutes => minutes ≠ 0 && minutes ≤ 1440

/-- A command under `control`, by the last level of its topic. -/
def parseControlAction (camera action payload : Bytes) : Option ControlCommand :=
  -- The replies come in on the same topic.
  if isReservedReplyToken payload then none
  else if action = utf8 "floodlight" then (parseOnOff payload).map (floodlight camera)
  else if action = utf8 "floodlight_tasks" then (parseOnOff payload).map (floodlightTasks camera)
  else if action = utf8 "led" then (parseOnOff payload).map (led camera)
  else if action = utf8 "ir" then (parseIrMode payload).map (ir camera)
  else if action = utf8 "pir" then (parseOnOff payload).map (pir camera)
  -- Any payload will do.
  else if action = utf8 "reboot" then some (reboot camera)
  else if action = utf8 "ptz" then parsePtz camera payload
  else if action = utf8 "zoom" then (parseAmount payload).map (zoom camera)
  else if action = utf8 "siren" then (parseOnOff payload).map (siren camera)
  else if action = utf8 "wakeup" then (parseMinutes payload).map (wakeup camera)
  else none

/-- A question, by the last level of its topic. -/
def parseQueryAction (camera action : Bytes) : Option ControlCommand :=
  if action = utf8 "battery" then some (queryBattery camera)
  else if action = utf8 "preview" then some (queryPreview camera)
  else if action = utf8 "pir" then some (queryPir camera)
  else none

/-- The number of a preset, or else its name. -/
def parsePreset (camera payload : Bytes) : Option ControlCommand :=
  match parseUint 8 payload with
  -- A name that is a number is never looked up.
  | some presetId => some (ptzPreset camera presetId)
  | none =>
    let name := trim payload
    if name = [] ∨ isReservedReplyToken name then none else some (ptzPresetByName camera name)

/-- A number and a name, with a blank between them. -/
def parseAssign (camera payload : Bytes) : Option ControlCommand := do
  let (id, name) ← splitOnce 0x20 payload
  let presetId ← parseUint 8 id
  let name := trim name
  if name = [] then none else some (ptzAssign camera presetId name)

/-- A command under `control/ptz`. -/
def parseControlPtzSub (camera sub payload : Bytes) : Option ControlCommand :=
  if sub = utf8 "preset" then parsePreset camera payload
  else if sub = utf8 "assign" then parseAssign camera payload
  else none

/-- A question under `query/ptz`. -/
def parseQueryPtzSub (camera sub : Bytes) : Option ControlCommand :=
  if sub = utf8 "preset" then some (queryPtzPreset camera) else none

/-! ## Messages -/

/-- Letters, digits, underscores and hyphens make up the names of cameras. -/
def isNameByte (b : UInt8) : Bool :=
  isDigit b || (0x41 ≤ b && b ≤ 0x5a) || (0x61 ≤ b && b ≤ 0x7a) || b == 0x5f || b == 0x2d

/-- The command of a topic with these parts behind the camera's name. -/
def parseRest (camera category : Bytes) (rest : List Bytes) (payload : Bytes) :
    Option ControlCommand :=
  match rest with
  | [action, sub] =>
    if category = utf8 "control" ∧ action = utf8 "ptz" then parseControlPtzSub camera sub payload
    else if category = utf8 "query" ∧ action = utf8 "ptz" then
      -- A query takes any payload but the replies to it.
      if isReservedReplyToken payload then none else parseQueryPtzSub camera sub
    else none
  | [action] =>
    if category = utf8 "control" then parseControlAction camera action payload
    else if category = utf8 "query" then
      if isReservedReplyToken payload then none else parseQueryAction camera action
    else none
  | _ => none

/-- What a message on some topic asks for, if it is for a camera and asks for anything. -/
def parseControlMessage (pfx topic payload : Bytes) : Option ControlCommand :=
  match parts topic with
  | head :: camera :: category :: rest =>
    -- The prefix is one part of the topic.
    if head ≠ pfx then none
    -- The name goes into other topics and must not add parts to them.
    else if camera = [] ∨ ¬camera.all isNameByte then none
    else if ¬isUtf8 payload then none
    -- Blanks around the payload do not count.
    else parseRest camera category rest (trim payload)
  | _ => none

/-! ## The topic of a command -/

/-- The bridge listens on the topic of every command for a camera. -/
theorem controlTopic_mem (command : ControlCommand) (pfx : Bytes) :
    command.controlTopic pfx ∈ subscribeTopics pfx command.cameraName := by
  simp only [subscribeTopics, List.mem_cons]
  cases command <;> simp [controlTopic, controlFloodlight, controlFloodlightTasks, controlLed,
    controlIr, controlPir, controlReboot, controlPtz, controlPtzPreset, controlPtzAssign,
    controlZoom, controlSiren, controlWakeup, Topics.queryBattery, Topics.queryPreview,
    Topics.queryPir, Topics.queryPtzPreset]

/-- The command is for a camera, and its topic has these parts behind the camera's name. -/
def IsAt (command : ControlCommand) (camera : Bytes) (path : List Bytes) : Prop :=
  command.cameraName = camera ∧ ∀ pfx, command.controlTopic pfx = join (pfx :: camera :: path)

variable {camera category action sub payload pfx topic : Bytes} {rest : List Bytes}
  {command : ControlCommand}

/-- A command made of a value is where its maker says. -/
theorem isAt_of_map {α : Type*} {value : Option α} {make : α → ControlCommand}
    {path : List Bytes} (hmake : ∀ a, (make a).IsAt camera path)
    (h : value.map make = some command) : command.IsAt camera path := by
  obtain ⟨a, -, rfl⟩ := Option.map_eq_some_iff.1 h
  exact hmake a

/-- A turn of the camera is published on its own topic. -/
theorem parsePtz_isAt (h : parsePtz camera payload = some command) :
    command.IsAt camera [utf8 "control", utf8 "ptz"] := by
  rw [parsePtz] at h
  split at h
  · cases h
  · obtain ⟨direction, -, h⟩ := Option.bind_eq_some_iff.1 h
    cases h
    exact ⟨rfl, fun pfx => rfl⟩
  · obtain ⟨direction, -, h⟩ := Option.bind_eq_some_iff.1 h
    obtain ⟨amount, -, h⟩ := Option.bind_eq_some_iff.1 h
    cases h
    exact ⟨rfl, fun pfx => rfl⟩

/-- Commands under `control` are published where they were read. -/
theorem parseControlAction_isAt (h : parseControlAction camera action payload = some command) :
    command.IsAt camera [utf8 "control", action] := by
  rw [parseControlAction] at h
  rcases ite_eq_iff.1 h with ⟨-, h⟩ | ⟨-, h⟩
  · cases h
  -- One action after the other.
  rcases ite_eq_iff.1 h with ⟨rfl, harm⟩ | ⟨-, h⟩
  · exact isAt_of_map (fun state => ⟨rfl, fun pfx => rfl⟩) harm
  rcases ite_eq_iff.1 h with ⟨rfl, harm⟩ | ⟨-, h⟩
  · exact isAt_of_map (fun state => ⟨rfl, fun pfx => rfl⟩) harm
  rcases ite_eq_iff.1 h with ⟨rfl, harm⟩ | ⟨-, h⟩
  · exact isAt_of_map (fun state => ⟨rfl, fun pfx => rfl⟩) harm
  rcases ite_eq_iff.1 h with ⟨rfl, harm⟩ | ⟨-, h⟩
  · exact isAt_of_map (fun mode => ⟨rfl, fun pfx => rfl⟩) harm
  rcases ite_eq_iff.1 h with ⟨rfl, harm⟩ | ⟨-, h⟩
  · exact isAt_of_map (fun state => ⟨rfl, fun pfx => rfl⟩) harm
  rcases ite_eq_iff.1 h with ⟨rfl, harm⟩ | ⟨-, h⟩
  · cases harm
    exact ⟨rfl, fun pfx => rfl⟩
  rcases ite_eq_iff.1 h with ⟨rfl, harm⟩ | ⟨-, h⟩
  · exact parsePtz_isAt harm
  rcases ite_eq_iff.1 h with ⟨rfl, harm⟩ | ⟨-, h⟩
  · exact isAt_of_map (fun level => ⟨rfl, fun pfx => rfl⟩) harm
  rcases ite_eq_iff.1 h with ⟨rfl, harm⟩ | ⟨-, h⟩
  · exact isAt_of_map (fun state => ⟨rfl, fun pfx => rfl⟩) harm
  rcases ite_eq_iff.1 h with ⟨rfl, harm⟩ | ⟨-, h⟩
  · exact isAt_of_map (fun minutes => ⟨rfl, fun pfx => rfl⟩) harm
  cases h

/-- Questions are published where they were read. -/
theorem parseQueryAction_isAt (h : parseQueryAction camera action = some command) :
    command.IsAt camera [utf8 "query", action] := by
  rw [parseQueryAction] at h
  split_ifs at h with h₁ h₂ h₃
  · cases h
    subst h₁
    exact ⟨rfl, fun pfx => rfl⟩
  · cases h
    subst h₂
    exact ⟨rfl, fun pfx => rfl⟩
  · cases h
    subst h₃
    exact ⟨rfl, fun pfx => rfl⟩

/-- Presets by number and by name have one topic. -/
theorem parsePreset_isAt (h : parsePreset camera payload = some command) :
    command.IsAt camera [utf8 "control", utf8 "ptz", utf8 "preset"] := by
  rw [parsePreset] at h
  split at h
  · cases h
    exact ⟨rfl, fun pfx => rfl⟩
  · dsimp only at h
    split_ifs at h
    cases h
    exact ⟨rfl, fun pfx => rfl⟩

theorem parseAssign_isAt (h : parseAssign camera payload = some command) :
    command.IsAt camera [utf8 "control", utf8 "ptz", utf8 "assign"] := by
  obtain ⟨⟨id, name⟩, -, h⟩ := Option.bind_eq_some_iff.1 h
  obtain ⟨presetId, -, h⟩ := Option.bind_eq_some_iff.1 h
  dsimp only at h
  split_ifs at h
  cases h
  exact ⟨rfl, fun pfx => rfl⟩

/-- Commands under `control/ptz` are published where they were read. -/
theorem parseControlPtzSub_isAt (h : parseControlPtzSub camera sub payload = some command) :
    command.IsAt camera [utf8 "control", utf8 "ptz", sub] := by
  rw [parseControlPtzSub] at h
  split_ifs at h with hpreset hassign
  · exact hpreset ▸ parsePreset_isAt h
  · exact hassign ▸ parseAssign_isAt h

theorem parseQueryPtzSub_isAt (h : parseQueryPtzSub camera sub = some command) :
    command.IsAt camera [utf8 "query", utf8 "ptz", sub] := by
  rw [parseQueryPtzSub] at h
  split_ifs at h with hpreset
  cases h
  exact hpreset ▸ ⟨rfl, fun pfx => rfl⟩

theorem parseRest_isAt (h : parseRest camera category rest payload = some command) :
    command.IsAt camera (category :: rest) := by
  rw [parseRest.eq_def] at h
  split at h
  · split_ifs at h with hcontrol hquery hreply
    · obtain ⟨rfl, rfl⟩ := hcontrol
      exact parseControlPtzSub_isAt h
    · obtain ⟨rfl, rfl⟩ := hquery
      exact parseQueryPtzSub_isAt h
  · split_ifs at h with hcontrol hquery hreply
    · exact hcontrol ▸ parseControlAction_isAt h
    · exact hquery ▸ parseQueryAction_isAt h
  · cases h

/-- What is read of a message that is taken for a command. -/
theorem parseControlMessage_parts (h : parseControlMessage pfx topic payload = some command) :
    ∃ path, parts topic = pfx :: command.cameraName :: path ∧
      command.controlTopic pfx = topic := by
  rw [parseControlMessage] at h
  split at h
  · next head camera category rest hparts =>
    split_ifs at h with hhead hcamera hutf8
    obtain ⟨hname, htopic⟩ := parseRest_isAt h
    rw [not_ne_iff] at hhead
    subst hhead hname
    exact ⟨_, hparts, by rw [htopic, ← hparts, join_parts]⟩
  · cases h

/-! ## Replies -/

/-- What the dispatcher publishes when it is done with a command. -/
def reply (ok : Bool) : Bytes := if ok then utf8 "OK" else utf8 "FAIL"

theorem trim_reply (ok : Bool) : trim (reply ok) = reply ok := by
  cases ok <;> decide +kernel

theorem isReservedReplyToken_reply (ok : Bool) : isReservedReplyToken (reply ok) := by
  cases ok <;> decide +kernel

/-- Neither a number nor a name. -/
theorem parsePreset_reply (ok : Bool) : parsePreset camera (reply ok) = none := by
  have hnumber : parseUint 8 (reply ok) = none := by cases ok <;> decide +kernel
  simp only [parsePreset, hnumber, trim_reply, isReservedReplyToken_reply, or_true, if_true]

/-- There is no blank in it. -/
theorem parseAssign_reply (ok : Bool) : parseAssign camera (reply ok) = none := by
  have hblank : splitOnce 0x20 (reply ok) = none := by cases ok <;> decide +kernel
  rw [parseAssign, hblank]
  rfl

/-- An answer on any topic of a camera is no command. -/
theorem parseRest_reply (ok : Bool) : parseRest camera category rest (reply ok) = none := by
  rw [parseRest.eq_def]
  split
  · simp only [parseControlPtzSub, parsePreset_reply, parseAssign_reply,
      isReservedReplyToken_reply, ite_self, if_true]
  · simp only [parseControlAction, isReservedReplyToken_reply, ite_self, if_true]
  · rfl

/-- A reply is no command, on whatever topic. -/
theorem parseControlMessage_reply (pfx topic : Bytes) (ok : Bool) :
    parseControlMessage pfx topic (reply ok) = none := by
  rw [parseControlMessage]
  split
  · simp only [trim_reply, parseRest_reply, ite_self]
  · rfl

/-- The topic of a command is the one it came from, with its camera for the second part;
    the bridge listens on it, and does not take the reply there for another command. -/
theorem parseControlMessage_agrees (h : parseControlMessage pfx topic payload = some command) :
    command.controlTopic pfx = topic ∧ (parts topic)[1]? = some command.cameraName ∧
      topic ∈ subscribeTopics pfx command.cameraName ∧
        ∀ ok, parseControlMessage pfx (command.controlTopic pfx) (reply ok) = none := by
  obtain ⟨path, hparts, htopic⟩ := parseControlMessage_parts h
  refine ⟨htopic, by rw [hparts]; rfl, ?_, parseControlMessage_reply pfx _⟩
  rw [← htopic]
  exact controlTopic_mem command pfx

/-- A preset by name, which no answer on its topic is mistaken for. -/
theorem parseControlMessage_agrees_goto :
    (parseControlMessage (utf8 "bairelay") (utf8 "bairelay/cam-1/control/ptz/preset")
        (utf8 " Front door ")) =
      some (ptzPresetByName (utf8 "cam-1") (utf8 "Front door")) ∧
    ∀ ok, parseControlMessage (utf8 "bairelay") ((ptzPresetByName (utf8 "cam-1")
      (utf8 "Front door")).controlTopic (utf8 "bairelay")) (reply ok) = none := by
  have h : parseControlMessage (utf8 "bairelay") (utf8 "bairelay/cam-1/control/ptz/preset")
      (utf8 " Front door ") = some (ptzPresetByName (utf8 "cam-1") (utf8 "Front door")) := by
    decide +kernel
  exact ⟨h, (parseControlMessage_agrees h).2.2.2⟩

end ControlCommand

/-! ## Messages and replies

The bridge gets its own replies back from the broker, as it listens on their topics. -/

/-- The messages on their way to the bridge, and the commands that are under way there. -/
structure ControlBus where
  inbox : List (Bytes × Bytes) := []
  running : List ControlCommand := []
  /-- How many messages clients have published. -/
  published : ℕ := 0
  dispatched : ℕ := 0
  deriving DecidableEq, Repr

namespace ControlBus

/-- Messages, from clients or from the dispatcher itself, and commands that are done. -/
inductive Event where
  | publish (topic payload : Bytes)
  | receive
  /-- A command is done; it is not answered if its camera is not there, or it is a wakeup. -/
  | finish (i : ℕ) (result : Option Bool)
  deriving DecidableEq, Repr

variable (pfx : Bytes)

/-- A step. The answers of the dispatcher come in like any other message. -/
def step (b : ControlBus) : Event → ControlBus
  | .publish topic payload =>
    { b with inbox := b.inbox ++ [(topic, payload)], published := b.published + 1 }
  | .receive =>
    match b.inbox with
    | [] => b
    | (topic, payload) :: inbox =>
      -- What is no command is dropped, the replies of the bridge among it.
      match ControlCommand.parseControlMessage pfx topic payload with
      | none => { b with inbox }
      | some command =>
        { b with inbox, running := b.running ++ [command], dispatched := b.dispatched + 1 }
  | .finish i result =>
    match b.running[i]? with
    | none => b
    | some command =>
      -- The reply goes out on the topic of the command, which the bridge listens to.
      let replies := result.toList.map fun ok =>
        (command.controlTopic pfx, ControlCommand.reply ok)
      { b with inbox := b.inbox ++ replies, running := b.running.eraseIdx i }

/-- The bus after some events. -/
def run (events : List Event) : ControlBus := events.foldl (step pfx) {}

/-- Whether a message is taken for a command. -/
def isCommand (message : Bytes × Bytes) : Bool :=
  (ControlCommand.parseControlMessage pfx message.1 message.2).isSome

variable {pfx}

/-- A step dispatches a message that was there, and brings no command but those of clients. -/
theorem countP_step (b : ControlBus) (e : Event) :
    (b.step pfx e).inbox.countP (isCommand pfx) + (b.step pfx e).dispatched + b.published ≤
      b.inbox.countP (isCommand pfx) + b.dispatched + (b.step pfx e).published := by
  cases e with
  | publish topic payload =>
    simp only [step, List.countP_append]
    have hle := List.countP_le_length (p := isCommand pfx) (l := [(topic, payload)])
    rw [List.length_singleton] at hle
    omega
  | receive =>
    rw [step]
    split
    · exact le_rfl
    · next topic payload inbox hinbox =>
      rw [hinbox, List.countP_cons]
      split
      · dsimp only
        omega
      · next command hcommand =>
        have hcounts : isCommand pfx (topic, payload) := Option.isSome_iff_exists.2 ⟨_, hcommand⟩
        rw [if_pos hcounts]
        dsimp only
        omega
  | finish i result =>
    rw [step]
    split
    · exact le_rfl
    · next command _ =>
      have hreplies : (result.toList.map fun ok => (command.controlTopic pfx,
          ControlCommand.reply ok)).countP (isCommand pfx) = 0 := by
        refine List.countP_eq_zero.2 (List.forall_mem_map.2 fun ok _ => ?_)
        rw [isCommand, ControlCommand.parseControlMessage_reply]
        exact Bool.false_ne_true
      simp only [List.countP_append, hreplies, Nat.add_zero]
      exact le_rfl

/-- There are no more dispatches than messages that clients have published, however many
    replies come back. -/
theorem dispatched_le_published (events : List Event) :
    (run pfx events).dispatched ≤ (run pfx events).published := by
  suffices h : (run pfx events).inbox.countP (isCommand pfx) + (run pfx events).dispatched ≤
      (run pfx events).published from le_trans (Nat.le_add_left ..) h
  induction events using List.reverseRecOn with
  | nil => exact le_rfl
  | append_singleton events e ih =>
    rw [run, List.foldl_concat, ← run]
    have hstep := @countP_step pfx (run pfx events) e
    omega

end ControlBus

end Bairelay
