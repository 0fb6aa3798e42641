import Bairelay.Config.Validate
import Bairelay.Lib.Checked

/-!
# The durations of a configuration

What is made of the numbers of seconds in a configuration: the grace period of a camera
(`resolve_idle_disconnect_timeout` and `warn_idle_timeout_below_prune_floor` of `config.rs`) and the
length of a gap (`CameraHandle::stream_source` of `camera.rs`). The seconds of a duration are a
`u64`; what does not fit panics, here `none`.

`durationsFit_iff`: a configuration that is accepted has no number that panics exactly if all of
them are below `2 ^ 64`, and the seconds of the prune grace by 15.
-/

namespace Bairelay

/-! ## Durations -/

namespace Duration

/-- `Duration::from_secs_f64`: the nearest nanosecond. -/
def fromSecsF64 : F64 → Option Duration
  | .finite secs =>
    if secs.1 < 0 then none
    else
      let nanos := (F32.roundHalfEven (secs.1 * 10 ^ 9)).toNat
      if nanos ≤ Duration.max then some nanos else none
  | _ => none

/-- The sum of two durations. -/
def add (a b : Duration) : Option Duration := if a + b ≤ Duration.max then some (a + b) else none

/-- Whole seconds. -/
def asSecs (d : Duration) : ℕ := d / 10 ^ 9

/-- Addition of durations panics past the largest of them. -/
theorem isSome_add {a b : Duration} : (add a b).isSome ↔ a + b ≤ Duration.max := by
  rw [add]
  split <;> simp_all

end Duration

namespace F32

/-- Rounding does not pass an integer from below. -/
theorem roundHalfEven_le {q : ℚ} {n : ℤ} (h : q ≤ n) : roundHalfEven q ≤ n := by
  have hfloor : ⌊q⌋ ≤ n := Int.floor_le_iff.2 (h.trans_lt (lt_add_one _))
  rw [roundHalfEven]
  split
  · exact hfloor
  · next hup =>
    -- It is not rounded up from a whole number.
    have hne : ⌊q⌋ ≠ n := by
      rintro rfl
      have hrest : q - ⌊q⌋ ≤ 0 := sub_nonpos.2 h
      exact hup (.inl (hrest.trans_lt (by norm_num)))
    omega

/-- Rounding does not pass an integer from above. -/
theorem le_roundHalfEven {q : ℚ} {n : ℤ} (h : n ≤ q) : n ≤ roundHalfEven q := by
  have hfloor : n ≤ ⌊q⌋ := Int.le_floor.2 h
  rw [roundHalfEven]
  split <;> omega

end F32

/-- Seconds make a duration exactly if their number is below `2 ^ 64`: the greatest such number is
    too far from it to be rounded up. -/
theorem Duration.isSome_fromSecsF64 {secs : F64} (hfinite : secs.isFinite) (hpos : ¬secs.le 0) :
    (Duration.fromSecsF64 secs).isSome ↔ secs.lt (2 ^ 64) := by
  cases secs with
  | infinite negative => cases hfinite
  | nan => cases hfinite
  | finite secs =>
    obtain ⟨q, hq⟩ := secs
    simp only [F64.le, F64.lt, decide_eq_true_eq, not_le] at hpos ⊢
    rw [Duration.fromSecsF64, if_neg hpos.not_gt]
    dsimp only
    rw [apply_ite Option.isSome, Option.isSome_some, Option.isSome_none]
    simp only [Bool.ite_eq_true_distrib, Bool.false_eq_true, if_false_right, and_true]
    constructor
    · intro hle
      by_contra hge
      have hround : ((2 ^ 64 * 10 ^ 9 : ℕ) : ℤ) ≤ F32.roundHalfEven (q * 10 ^ 9) := by
        refine F32.le_roundHalfEven ?_
        push_cast
        linarith only [not_lt.1 hge]
      rw [Duration.max] at hle
      omega
    · intro hlt
      have hsub : q ≤ 2 ^ 64 - 2 ^ 11 := hq.le_sub_of_lt (k := 11) hlt
      have hround : F32.roundHalfEven (q * 10 ^ 9) ≤ (((2 ^ 64 - 2 ^ 11) * 10 ^ 9 : ℕ) : ℤ) := by
        refine F32.roundHalfEven_le ?_
        push_cast
        linarith only [hsub]
      rw [Duration.max]
      omega

namespace Config

/-! ## The code -/

/-- How long a camera may be idle, in seconds. -/
def CameraConfig.idleSecs (cam : CameraConfig) : F64 :=
  (cam.idleDisconnectTimeoutSecs.or cam.pause.timeout).getD (.ofNat 45 (by norm_num))

/-- The timeout that is used: one below the grace of sources is raised above it, or the camera would
    be parked under a stream that is still being watched. -/
def resolveIdleDisconnectTimeout (cam : CameraConfig) (pruneGrace : Duration) :
    Option Duration := do
  let configured ← Duration.fromSecsF64 cam.idleSecs
  if configured < pruneGrace then Duration.add pruneGrace (.ofSecs 15) else some configured

/-- A warning about a camera, or about the configuration as a whole. -/
structure ConfigWarning where
  camera : Option Bytes
  message : Message
  deriving DecidableEq

/-- The text of the warning, with the three durations in it. -/
def belowPruneFloor (cam : CameraConfig) (configured prune safeFloor : Duration) :
    ConfigWarning where
  camera := some cam.name
  message :=
    [.text (utf8 "config: idle_disconnect_timeout_secs ("), .tenths configured,
      .text (utf8 "s) is shorter than stream_prune_grace_secs (" ++ decimal prune.asSecs ++
        utf8 "s); clamped at runtime to " ++ decimal safeFloor.asSecs ++
        utf8 ("s so the cached StreamSource cannot outlive the Baichuan session. " ++
          "Raise idle_disconnect_timeout_secs (recommended >= ") ++ decimal safeFloor.asSecs ++
        utf8 "s) or lower stream_prune_grace_secs.")]

/-- The warnings on the cameras, one after the other. -/
def warnCameras (prune safeFloor : Duration) : List CameraConfig → Option (List ConfigWarning)
  | [] => some []
  | cam :: cameras => do
    let configured ← Duration.fromSecsF64 cam.idleSecs
    let out ← warnCameras prune safeFloor cameras
    some (if configured < prune then belowPruneFloor cam configured prune safeFloor :: out else out)

/-- The warnings that are printed at startup. -/
def warnIdleTimeoutBelowPruneFloor (config : Config) : Option (List ConfigWarning) := do
  let prune := Duration.ofSecs config.streamPruneGraceSecs.toNat
  -- For any configuration, before the first camera.
  let safeFloor ← prune.add (.ofSecs 15)
  warnCameras prune safeFloor config.cameras

/-- The gap threshold that a stream of the camera is started with. -/
def CameraConfig.gapThreshold (cam : CameraConfig) : Option Duration :=
  if cam.pause.bridgeGaps then Duration.fromSecsF64 cam.pause.gapThresholdSecs
  else some Duration.max

/-! ## What fits -/

/-- Nothing panics. -/
structure DurationsFit (config : Config) : Prop where
  warn : config.warnIdleTimeoutBelowPruneFloor.isSome
  resolve : ∀ cam ∈ config.cameras,
    (resolveIdleDisconnectTimeout cam (.ofSecs config.streamPruneGraceSecs.toNat)).isSome
  gap : ∀ cam ∈ config.cameras, cam.gapThreshold.isSome

/-- Every number of seconds is below the bound of a duration. -/
structure DurationsBounded (config : Config) : Prop where
  grace : config.streamPruneGraceSecs.toNat + 15 < 2 ^ 64
  idle : ∀ cam ∈ config.cameras, cam.idleSecs.lt (2 ^ 64)
  gap : ∀ cam ∈ config.cameras, cam.pause.bridgeGaps → cam.pause.gapThresholdSecs.lt (2 ^ 64)

variable {config : Config} {cam : CameraConfig}

/-- The floor exists if the grace leaves room for a quarter of a minute. -/
theorem isSome_graceFloor {secs : ℕ} :
    ((Duration.ofSecs secs).add (.ofSecs 15)).isSome ↔ secs + 15 < 2 ^ 64 := by
  rw [Duration.isSome_add, Duration.ofSecs, Duration.ofSecs, Duration.max]
  show secs * 1000000000 + 15 * 1000000000 ≤ 2 ^ 64 * 1000000000 - 1 ↔ secs + 15 < 2 ^ 64
  omega

/-- Only the timeouts of the cameras can panic in the loop. -/
theorem isSome_warnCameras {prune safeFloor : Duration} {cameras : List CameraConfig} :
    (warnCameras prune safeFloor cameras).isSome ↔
      ∀ cam ∈ cameras, (Duration.fromSecsF64 cam.idleSecs).isSome := by
  induction cameras with
  | nil => exact iff_of_true rfl fun _ hcam => absurd hcam List.not_mem_nil
  | cons cam cameras ih =>
    rw [List.forall_mem_cons, ← ih, warnCameras]
    cases Duration.fromSecsF64 cam.idleSecs with
    | none => simp
    | some configured => cases warnCameras prune safeFloor cameras <;> simp

/-- Startup refuses timeouts that are not positive. -/
theorem idleSecs_of_validateConfig (h : validateConfig config = .ok ())
    (hcam : cam ∈ config.cameras) : cam.idleSecs.isFinite ∧ ¬cam.idleSecs.le 0 := by
  obtain ⟨-, hidle, htimeout⟩ := durations_of_validateConfig h hcam
  rw [CameraConfig.idleSecs]
  cases hsecs : cam.idleDisconnectTimeoutSecs with
  | some secs => exact hidle secs hsecs
  | none =>
    cases hsecs' : cam.pause.timeout with
    | some secs => exact htimeout secs hsecs'
    | none => exact ⟨rfl, by decide +kernel⟩

/-- Exactly the bounds are missing in the validation. -/
theorem durationsFit_iff (h : validateConfig config = .ok ()) :
    DurationsFit config ↔ DurationsBounded config := by
  have hidle : ∀ cam ∈ config.cameras,
      (Duration.fromSecsF64 cam.idleSecs).isSome ↔ cam.idleSecs.lt (2 ^ 64) := fun cam hcam =>
    have hsecs := idleSecs_of_validateConfig h hcam
    Duration.isSome_fromSecsF64 hsecs.1 hsecs.2
  have hgap : ∀ cam ∈ config.cameras, cam.gapThreshold.isSome ↔
      (cam.pause.bridgeGaps → cam.pause.gapThresholdSecs.lt (2 ^ 64)) := by
    intro cam hcam
    rw [CameraConfig.gapThreshold]
    split
    · next hbridge =>
      have hsecs := (durations_of_validateConfig h hcam).1 hbridge
      rw [Duration.isSome_fromSecsF64 hsecs.1 hsecs.2]
      exact (imp_iff_right hbridge).symm
    · next hbridge => exact iff_of_true rfl fun h => absurd h hbridge
  constructor
  · rintro ⟨hwarn, -, hgaps⟩
    obtain ⟨safeFloor, hfloor, hwarnings⟩ := Checked.isSome_bind.1 hwarn
    exact ⟨isSome_graceFloor.1 (Option.isSome_iff_exists.2 ⟨_, hfloor⟩),
      fun cam hcam => (hidle cam hcam).1 (isSome_warnCameras.1 hwarnings cam hcam),
      fun cam hcam => (hgap cam hcam).1 (hgaps cam hcam)⟩
  · rintro ⟨hgrace, hsecs, hgaps⟩
    have hfloor := isSome_graceFloor.2 hgrace
    refine ⟨?_, fun cam hcam => ?_, fun cam hcam => (hgap cam hcam).2 (hgaps cam hcam)⟩
    · obtain ⟨safeFloor, hsafe⟩ := Option.isSome_iff_exists.1 hfloor
      exact Checked.isSome_bind.2 ⟨safeFloor, hsafe,
        isSome_warnCameras.2 fun cam hcam => (hidle cam hcam).2 (hsecs cam hcam)⟩
    · obtain ⟨configured, hconfigured⟩ :=
        Option.isSome_iff_exists.1 ((hidle cam hcam).2 (hsecs cam hcam))
      refine Checked.isSome_bind.2 ⟨configured, hconfigured, ?_⟩
      split
      · exact hfloor
      · rfl

/-- One camera, with this idle timeout. -/
def yardConfig (secs : F64) : Config where
  cameras :=
    [{ name := utf8 "yard"
       address := some (utf8 "192.168.1.9")
       username := utf8 "admin"
       password := some (utf8 "secret")
       idleDisconnectTimeoutSecs := some secs }]

theorem minute_durationsFit : DurationsFit (yardConfig (.ofNat 60 (by norm_num))) :=
  (durationsFit_iff (by decide +kernel)).2
    ⟨by decide +kernel, by decide +kernel, by decide +kernel⟩

/-- `1e20` -/
def tenToTheTwenty : F64 :=
  .finite ⟨10 ^ 20, 5 ^ 20, 20, by norm_num, by norm_num, by norm_num, by norm_num⟩

/-- An idle timeout of `1e20` seconds is accepted, and panics. -/
theorem tenToTheTwenty_not_durationsFit :
    validateConfig (yardConfig tenToTheTwenty) = .ok () ∧
      ¬DurationsFit (yardConfig tenToTheTwenty) := by
  refine ⟨by decide +kernel, fun h => ?_⟩
  have hwarn := h.warn
  revert hwarn
  decide +kernel

end Config

end Bairelay
