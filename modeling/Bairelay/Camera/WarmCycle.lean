import Bairelay.Lib.Past
import Bairelay.Media.StreamSource

/-!
# Warming up and the presence of audio

What is known of the audio of a camera (`audio_presence.rs`) is written by the readers of its
streams, which fold in each codec they see, and by the warm cycle (`warm_one` in
`startup_wake.rs`), which watches the parameters of one stream for a while and then assigns what
it has found.

* `stays_present_iff`: audio that is present stays so, with its codec, just if each warm cycle that
  commits after audio was heard has found the codec that was heard first;
* `cancelledWarm_not_stable`: a warm cycle that is cancelled says that there is no audio.
-/

namespace Bairelay

/-- How the window of a warm cycle ends. -/
inductive WindowEnd where
  /-- There is audio in the parameters. -/
  | found (codec : AudioCodec)
  | expired
  | cancelled
  deriving DecidableEq, Repr

/-- What is assigned after the window: there is audio if it was found, else none. -/
def WindowEnd.newPresence : WindowEnd → AudioPresence
  | .found codec => .present codec
  | .expired | .cancelled => .absent

/-- A call of `warm_one`, from the first picture on. -/
inductive WarmCycle where
  /-- It watches the parameters of a source. -/
  | observing (source : ℕ)
  /-- The window is over, and what it says is not assigned yet. -/
  | ended (how : WindowEnd)
  | done
  deriving DecidableEq, Repr

/-- The audio of a camera: the codec in the parameters of each source, and what is known. -/
structure CameraAudio where
  sdpAudio : List (Option AudioCodec) := []
  presence : AudioPresence := .unknown
  warmCycles : List WarmCycle := []
  deriving DecidableEq, Repr

namespace CameraAudio

/-- Sources, readers, and the steps of warm cycles. -/
inductive Event where
  /-- A source is started. -/
  | source
  /-- A reader announces audio in the parameters of its source. -/
  | announce (source : ℕ) (codec : AudioCodec)
  /-- A reader has put out an audio frame. -/
  | audioSeen (codec : AudioCodec)
  | warm (source : ℕ)
  /-- A warm cycle looks at the parameters; `late` says whether the window is over then. -/
  | observe (i : ℕ) (late : Bool)
  /-- It is cancelled, and settles for no audio. -/
  | cancel (i : ℕ)
  | commit (i : ℕ)
  /-- It is dropped where it is. -/
  | drop (i : ℕ)
  deriving DecidableEq, Repr

/-- One cycle goes on. -/
def setCycle (a : CameraAudio) (i : ℕ) (cycle : WarmCycle) : CameraAudio :=
  { a with warmCycles := a.warmCycles.set i cycle }

/-- `observe_audio_presence`, up to its next look. -/
def observe (a : CameraAudio) (i source : ℕ) (late : Bool) : CameraAudio :=
  match a.sdpAudio[source]?.join with
  | some codec => a.setCycle i (.ended (.found codec))
  | none => if late then a.setCycle i (.ended .expired) else a

/-- A step. A reader folds what it has heard into the presence; a cycle overwrites it with its own
    finding. -/
def step (a : CameraAudio) : Event → CameraAudio
  | .source => { a with sdpAudio := a.sdpAudio ++ [none] }
  | .announce source codec =>
    { a with sdpAudio := a.sdpAudio.modify source fun audio => audio.or (some codec) }
  | .audioSeen codec => { a with presence := a.presence.observed codec }
  | .warm source => { a with warmCycles := a.warmCycles ++ [.observing source] }
  | .observe i late =>
    match a.warmCycles[i]? with
    | some (.observing source) => a.observe i source late
    | _ => a
  | .cancel i =>
    match a.warmCycles[i]? with
    | some (.observing _) => a.setCycle i (.ended .cancelled)
    | _ => a
  | .commit i =>
    match a.warmCycles[i]? with
    | some (.ended how) => { a.setCycle i .done with presence := how.newPresence }
    | _ => a
  | .drop i => a.setCycle i .done

/-- The audio of a camera after some steps. -/
def run (events : List Event) : CameraAudio := events.foldl step {}

theorem run_concat (events : List Event) (e : Event) :
    run (events ++ [e]) = (run events).step e := by
  rw [run, List.foldl_concat, ← run]

/-- Audio that is present is still present, with the same codec, at any later time. -/
def StaysPresent (events : List Event) : Prop :=
  ∀ codec, Past.Stable (fun before => (run before).presence = .present codec) events

/-- The codec that a step lets be heard: that of a frame which a reader has put out, or the one that
    a window has found, once it is committed. -/
def hears? (a : CameraAudio) : Event → Option AudioCodec
  | .audioSeen codec => some codec
  | .commit i =>
    match a.warmCycles[i]? with
    | some (.ended (.found codec)) => some codec
    | _ => none
  | _ => none

/-- The codec that was heard first. -/
def heard? (events : List Event) : Option AudioCodec :=
  (Past.moments step {} events).findSome? fun moment => moment.1.hears? moment.2

/-- A window whose cycle commits after audio was heard has found the codec that was heard first: it
    neither expired nor was it cancelled. -/
def Agrees (before : List Event) : Event → Prop
  | .commit i => ∀ how, (run before).warmCycles[i]? = some (.ended how) →
    ∀ codec, heard? before = some codec → how = .found codec
  | _ => True

variable {a : CameraAudio} {codec : AudioCodec}

theorem heard?_concat (events : List Event) (e : Event) :
    heard? (events ++ [e]) = (heard? events).or ((run events).hears? e) := by
  rw [heard?, Past.moments_concat, List.findSome?_append, ← heard?, ← run]
  cases heard? events <;> simp

/-- What a step does to the presence of audio: a commit assigns, and the first audio is kept. -/
theorem presence_step (a : CameraAudio) (e : Event) :
    (∃ i how, e = .commit i ∧ a.warmCycles[i]? = some (.ended how) ∧
      (a.step e).presence = how.newPresence) ∨
    (∃ codec, e = .audioSeen codec ∧ (a.step e).presence = a.presence.observed codec) ∨
    (a.hears? e = none ∧ (a.step e).presence = a.presence) := by
  cases e with
  | source | announce | warm | drop => exact .inr (.inr ⟨rfl, rfl⟩)
  | audioSeen codec => exact .inr (.inl ⟨codec, rfl, rfl⟩)
  | observe i late =>
    refine .inr (.inr ⟨rfl, ?_⟩)
    rw [CameraAudio.step]
    split
    · rw [CameraAudio.observe]
      split
      · rfl
      · split <;> rfl
    · rfl
  | cancel i =>
    refine .inr (.inr ⟨rfl, ?_⟩)
    rw [CameraAudio.step]
    split <;> rfl
  | commit i =>
    rw [CameraAudio.step, hears?]
    split
    · next how hi => exact .inl ⟨i, how, rfl, hi, rfl⟩
    · next hnot =>
      refine .inr (.inr ⟨?_, rfl⟩)
      split
      · next codec hi => exact absurd hi (hnot _)
      · rfl

/-- As long as the windows agree, what is present is what was heard first. -/
theorem presence_run_iff {events : List Event} (hagrees : Past.Always Agrees events) :
    (run events).presence = .present codec ↔ heard? events = some codec := by
  induction events using List.reverseRecOn generalizing codec with
  | nil => exact iff_of_false (by rintro ⟨⟩) (by rintro ⟨⟩)
  | append_singleton events e ih =>
    obtain ⟨hpast, hlast⟩ := Past.always_concat.1 hagrees
    rw [run_concat, heard?_concat]
    rcases presence_step (run events) e with
      ⟨i, how, rfl, hi, hpresence⟩ | ⟨codec', rfl, hpresence⟩ | ⟨hnone, hpresence⟩
    · rw [hpresence]
      cases hheard : heard? events with
      | some codec' =>
        -- The window has found what is present already.
        obtain rfl := hlast how hi codec' hheard
        rw [Option.some_or, Option.some.injEq]
        simp [WindowEnd.newPresence]
      | none =>
        rw [Option.none_or, hears?, hi]
        cases how <;> simp [WindowEnd.newPresence]
    · rw [hpresence]
      cases hheard : heard? events with
      | some codec' =>
        rw [(ih hpast).2 hheard, Option.some_or]
        simp [AudioPresence.observed]
      | none =>
        have hnot : ∀ codec, (run events).presence ≠ .present codec := fun codec h => by
          cases hheard.symm.trans ((ih hpast).1 h)
        rw [Option.none_or, hears?]
        cases hp : (run events).presence with
        | present codec => exact absurd hp (hnot codec)
        | _ => simp [AudioPresence.observed]
    · rw [hpresence, hnone, Option.or_none]
      exact ih hpast

/-- Audio stays present along a run, just if each window that is over after audio was heard has
    found it. -/
theorem stays_present_iff (events : List Event) :
    StaysPresent events ↔ Past.Always Agrees events := by
  constructor
  · intro hstable
    induction events using List.reverseRecOn with
    | nil => exact Past.always_nil
    | append_singleton events e ih =>
      have hstep : ∀ codec, (run events).presence = .present codec →
          (run (events ++ [e])).presence = .present codec := fun codec =>
        (Past.always_concat.1 (Past.stable_iff.1 (hstable codec))).2
      have hpast := ih fun codec => Past.stable_iff.2
        (Past.always_concat.1 (Past.stable_iff.1 (hstable codec))).1
      refine Past.always_concat.2 ⟨hpast, ?_⟩
      cases e with
      | commit i =>
        intro how hi codec hheard
        have hpresent := hstep codec ((presence_run_iff hpast).2 hheard)
        rw [run_concat, CameraAudio.step, hi] at hpresent
        cases how with
        | found codec' =>
          cases hpresent
          rfl
        | expired | cancelled => cases hpresent
      | _ => trivial
  · intro hagrees codec
    induction events using List.reverseRecOn with
    | nil => exact Past.stable_iff.2 Past.always_nil
    | append_singleton events e ih =>
      have hpast := (Past.always_concat.1 hagrees).1
      refine Past.stable_iff.2
        (Past.always_concat.2 ⟨Past.stable_iff.1 (ih hpast), fun hpresent => ?_⟩)
      rw [presence_run_iff hagrees, heard?_concat, (presence_run_iff hpast).1 hpresent,
        Option.some_or]

/-- Audio is seen, and then the warm cycle is cancelled, before it has looked. -/
def cancelledWarm : List Event :=
  [.source, .warm 0, .announce 0 .aac, .audioSeen .aac, .cancel 0, .commit 0]

/-- A cancelled cycle takes back what a reader has heard. -/
theorem cancelledWarm_not_stable :
    (run (cancelledWarm.take 4)).presence = .present .aac ∧
      (run cancelledWarm).presence = .absent ∧ ¬StaysPresent cancelledWarm := by
  refine ⟨by decide, by decide, fun hstays => ?_⟩
  have hlast := hstays .aac (cancelledWarm.take 4) (cancelledWarm.drop 4)
    (by rw [List.take_append_drop]) (by decide)
  exact absurd hlast (by decide)

end CameraAudio

end Bairelay
