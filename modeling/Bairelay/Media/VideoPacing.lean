import Bairelay.Media.PacerSchedule
import Bairelay.Media.StreamTranslate

/-!
# The pace of video

The translation attaches to each video frame the time since the one before it
(`videoFrameDuration`), and the pacer waits for the duration of a frame behind that frame.

* `followsPts_iff`: frames that are paced without a re-anchor keep their spacing just when each of
  them is as far from the frame before it as from the one behind it.
-/

namespace Bairelay

/-- The video frames of some effects, by their timestamps, as they are queued for the pacer. -/
def videoItems (emits : List Emit) : List (PacedFrame UInt32) :=
  emits.filterMap fun
    | .video (.video _ _ pts90khz _ _) pace => some ⟨pts90khz, pace⟩
    | _ => none

/-- How many ticks the translation sees between a frame and the one before it. -/
def paceTicks (last : Option UInt32) (pts90khz : UInt32) : ℕ :=
  match last with
  | some prev => if pacerAnomalyCapTicks < pts90khz - prev then 0 else (pts90khz - prev).toNat
  | none => 0

/-- The durations are those that the translation gives, with `last` as the timestamp before. -/
def Paces : Option UInt32 → List (PacedFrame UInt32) → Prop
  | _, [] => True
  | last, item :: items =>
    item.duration = Duration.ofMicros (paceTicks last item.frame * 1000000 / 90000) ∧
      Paces (some item.frame) items

/-- Each frame but the last one is as far from the one before as from the one behind it. -/
def Even : Option UInt32 → List UInt32 → Prop
  | last, a :: b :: rest => paceTicks last a = (b - a).toNat ∧ Even (some a) (b :: rest)
  | _, _ => True

/-- The timestamp goes on, by five seconds at most. -/
def Increases (a b : UInt32) : Prop := 0 < (b - a).toNat ∧ b - a ≤ pacerAnomalyCapTicks

/-- The targets are as far apart as the timestamps, up to a microsecond. A tick of the video clock
    is `100000 / 9` ns. -/
def FollowsPts (a b : Pacer.Turn UInt32) : Prop :=
  |((b.target : ℤ) - a.target) * 9 - (b.item.frame - a.item.frame).toNat * 100000| < 9 * 1000

instance (a b : UInt32) : Decidable (Increases a b) := inferInstanceAs (Decidable (_ ∧ _))
instance (a b : Pacer.Turn UInt32) : Decidable (FollowsPts a b) :=
  inferInstanceAs (Decidable (_ < _))

instance decidableEven : (last : Option UInt32) → (pts : List UInt32) → Decidable (Even last pts)
  | last, a :: b :: rest =>
    have := decidableEven (some a) (b :: rest)
    inferInstanceAs (Decidable (paceTicks last a = (b - a).toNat ∧ Even (some a) (b :: rest)))
  | _, [] => inferInstanceAs (Decidable True)
  | _, [_] => inferInstanceAs (Decidable True)

/-- The duration of a frame is the time since the one before, in microseconds. -/
theorem snd_videoFrameDuration (state : StreamTranslatorState) (pts90khz : UInt32) :
    (videoFrameDuration state pts90khz).2 =
      Duration.ofMicros (paceTicks state.lastVideoPts90khz pts90khz * 1000000 / 90000) := by
  rw [videoFrameDuration]
  cases state.lastVideoPts90khz with
  | none => simp [paceTicks, Duration.ofMicros]
  | some prev =>
    rw [paceTicks]
    dsimp only
    split <;> rfl

theorem videoItems_eq_nil {emits : List Emit} (h : ∀ e ∈ emits, ¬e.IsVideo) :
    videoItems emits = [] := by
  refine List.filterMap_eq_nil_iff.2 fun e he => ?_
  cases e with
  | video frame pace => exact absurd trivial (h _ he)
  | audio | sdpVideo | sdpAudio | replaceVideoBurst | appendPframe | audioSeen => rfl

/-- A packet gives no video frame, or one with its time since the one before. -/
def GivesVideo (state : StreamTranslatorState) (translated : Translated) : Prop :=
  (videoItems translated.2.1 = [] ∧
    translated.1.lastVideoPts90khz = state.lastVideoPts90khz) ∨
  ∃ pts90khz, videoItems translated.2.1 = [⟨pts90khz,
      Duration.ofMicros (paceTicks state.lastVideoPts90khz pts90khz * 1000000 / 90000)⟩] ∧
    translated.1.lastVideoPts90khz = some pts90khz

/-- A key frame queues its frame with the time since the last one. -/
theorem translateIframe_givesVideo (iframe : BcMediaIframe) (state : StreamTranslatorState)
    (now : Instant) : GivesVideo state (translateIframe iframe state now) := by
  rw [translateIframe]
  dsimp only
  split
  · exact .inl ⟨rfl, rfl⟩
  · split
    · exact .inl ⟨rfl, rfl⟩
    · split
      · exact .inl ⟨rfl, rfl⟩
      · split
        · exact .inl ⟨videoItems_eq_nil fun e => replaceVideoBurst_not_isVideo, rfl⟩
        · refine .inr ⟨microsTo90khz iframe.microseconds, ?_, rfl⟩
          have hpace := snd_videoFrameDuration (latchCodec state (splitAnnexB iframe.data))
            (microsTo90khz iframe.microseconds)
          rw [videoItems, List.filterMap_append, ← videoItems,
            videoItems_eq_nil fun e => replaceVideoBurst_not_isVideo, List.nil_append, hpace]
          rfl

theorem translatePframe_givesVideo (pframe : BcMediaPframe) (state : StreamTranslatorState) :
    GivesVideo state (translatePframe pframe state) := by
  rw [translatePframe]
  split
  · exact .inl ⟨rfl, rfl⟩
  · dsimp only
    split
    · exact .inl ⟨rfl, rfl⟩
    · refine .inr ⟨microsTo90khz pframe.microseconds, ?_, rfl⟩
      rw [snd_videoFrameDuration]
      rfl

theorem translate_givesVideo (packet : BcMedia) (state : StreamTranslatorState) (now : Instant)
    (bridging : Bool) : GivesVideo state (translate packet state now bridging) := by
  cases packet with
  | infoV1 | infoV2 => exact .inl ⟨rfl, rfl⟩
  | iframe frame => exact translateIframe_givesVideo frame state now
  | pframe frame => exact translatePframe_givesVideo frame state
  | aac frame =>
    obtain ⟨hkeeps, haudio⟩ := translateAac_spec frame state bridging
    exact .inl ⟨videoItems_eq_nil fun e he => (haudio e he).not_isVideo, hkeeps.lastVideoPts90khz⟩
  | adpcm frame =>
    obtain ⟨hkeeps, haudio⟩ := translateAdpcm_spec frame state bridging
    exact .inl ⟨videoItems_eq_nil fun e he => (haudio e he).not_isVideo, hkeeps.lastVideoPts90khz⟩

/-- The frames of a run, with their durations. -/
def videoRun (state : StreamTranslatorState) (inputs : List Input) : List (PacedFrame UInt32) :=
  (translateAll state inputs).flatMap fun translated => videoItems translated.2

/-- Along a run, each duration is measured from the frame before. -/
theorem paces_videoRun (state : StreamTranslatorState) (inputs : List Input) :
    Paces state.lastVideoPts90khz (videoRun state inputs) := by
  induction inputs generalizing state with
  | nil => trivial
  | cons input inputs ih =>
    have hrest := ih (translate input.packet state input.now input.bridging).1
    rw [videoRun, translateAll, List.flatMap_cons, ← videoRun]
    rcases translate_givesVideo input.packet state input.now input.bridging with
      ⟨hnone, hlast⟩ | ⟨pts90khz, hone, hlast⟩
    · rw [hnone, List.nil_append]
      rwa [hlast] at hrest
    · rw [hone, List.singleton_append]
      rw [hlast] at hrest
      exact ⟨rfl, hrest⟩

/-! ## Spacing -/

open Pacer

/-- A target that was kept follows the timestamps if the pace is that of the timestamps. -/
theorem followsPts_of_target_eq {a b : Turn UInt32} {last : Option UInt32}
    (htarget : b.target = a.target + a.item.duration)
    (hpace : a.item.duration = Duration.ofMicros (paceTicks last a.item.frame * 1000000 / 90000)) :
    FollowsPts a b ↔ paceTicks last a.item.frame = (b.item.frame - a.item.frame).toNat := by
  rw [FollowsPts, htarget, hpace, Duration.ofMicros]
  generalize paceTicks last a.item.frame = ticks
  generalize (b.item.frame - a.item.frame).toNat = gap
  have hround : ticks * 1000000 / 90000 * 9 ≤ ticks * 100 ∧
      ticks * 100 < ticks * 1000000 / 90000 * 9 + 9 := by
    omega
  generalize ticks * 1000000 / 90000 = micros at hround
  have hspan : (((a.target + micros * 1000 : ℕ) : ℤ) - a.target) * 9 = micros * 9 * 1000 := by
    push_cast
    ring
  rw [hspan, abs_lt]
  omega

/-- Without a re-anchor, the frames keep their spacing when the durations of them are those of the
    gaps behind them. -/
theorem isChain_followsPts_iff {cur : Option Instant} {last : Option UInt32}
    {ts : List (Turn UInt32)} (h : Scheduled .video cur ts) (hpaces : Paces last (ts.map Turn.item))
    (hlead : ts.IsChain fun a b => ¬LeadReanchor .video a b) :
    ts.IsChain FollowsPts ↔ Even last (ts.map fun turn => turn.item.frame) := by
  induction ts generalizing cur last with
  | nil => exact iff_of_true .nil trivial
  | cons a ts ih =>
    cases ts with
    | nil => exact iff_of_true (.singleton a) trivial
    | cons b ts =>
      obtain ⟨hfirst, hrest⟩ := List.isChain_cons_cons.1 hlead
      have htarget : b.target = a.target + a.item.duration :=
        h.target_eq ⟨[], ts, rfl⟩ hfirst fun hs => Bool.false_ne_true hs.1
      rw [List.isChain_cons_cons, followsPts_of_target_eq htarget hpaces.1,
        ih h.2 hpaces.2 hrest]
      rfl

/-- The frames of a camera, taken by the pacer one after the other without a re-anchor, are as far
    apart as their timestamps just when each of them is as far from the one before it as from the
    one behind it. -/
theorem followsPts_iff {state : StreamTranslatorState} {inputs : List Input}
    {events : List (Event UInt32)} {ts : List (Turn UInt32)}
    (hts : ts <:+: schedule .video events)
    (hitems : ts.map Turn.item = videoRun state inputs)
    (hlead : ts.IsChain fun a b => ¬LeadReanchor .video a b) :
    ts.IsChain FollowsPts ↔
      Even state.lastVideoPts90khz (ts.map fun turn => turn.item.frame) := by
  obtain ⟨before, after, hturns⟩ := hts
  have hscheduled : Scheduled .video none (schedule .video events) :=
    scheduled_turns .video {} events
  rw [← hturns, List.append_assoc] at hscheduled
  obtain ⟨cur, h⟩ := hscheduled.of_append
  exact isChain_followsPts_iff h.of_prefix (hitems ▸ paces_videoRun state inputs) hlead

/-- A frame of a camera, so many milliseconds after its start. -/
def frameAt (millis : UInt32) : Input :=
  ⟨.pframe ⟨.h264, millis * 1000, [0, 0, 0, 1, 0x41, 0x9a]⟩, 0, false⟩

/-- The frames are all queued, and then emitted so many milliseconds after the start. -/
def queueAll (items : List (PacedFrame UInt32)) (times : List ℕ) : List (Event UInt32) :=
  items.map .trySend ++ ((0 :: times).zip times).flatMap fun time =>
    [.recv (Duration.ofMillis time.1), .emit (Duration.ofMillis time.2)]

/-- A frame that comes late, between others at a steady rate. -/
def uneven : List Input := [40, 80, 160, 200].map frameAt

/-- A stream whose codec is known, and whose last frame was at zero. -/
def known : StreamTranslatorState := { detectedCodec := some .h264, lastVideoPts90khz := some 0 }

/-- The gaps are 40, 80 and 40 ms, the targets are 40, 40 and 80 ms apart. -/
theorem uneven_not_followsPts :
    ¬∀ (state : StreamTranslatorState) (inputs : List Input) (events : List (Event UInt32))
      (ts : List (Turn UInt32)), ts <:+: schedule .video events →
      ts.map Turn.item = videoRun state inputs →
      (ts.map fun turn => turn.item.frame).IsChain Increases →
      (ts.IsChain fun a b => ¬LeadReanchor .video a b) → ts.IsChain FollowsPts := by
  intro h
  have hfollows := h known uneven (queueAll (videoRun known uneven) [1500, 1540, 1580, 1660]) _
    List.infix_rfl (by decide +kernel) (by decide +kernel) (by decide +kernel)
  exact absurd hfollows (by decide +kernel)

/-- At a steady rate, from the second frame on. -/
def steady : List Input := [40, 80, 120].map frameAt

/-- Frames at a steady pace keep their distance. -/
theorem steady_followsPts :
    (schedule .video (queueAll (videoRun known steady) [1500, 1540, 1580])).IsChain FollowsPts :=
  (@followsPts_iff known steady _ _ List.infix_rfl (by decide +kernel) (by decide +kernel)).2
    (by decide +kernel)

end Bairelay
