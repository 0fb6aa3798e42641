import Bairelay.Lib.Backlog
import Bairelay.Rtsp.KeyFrame

/-!
# The last frame

The buffer of a stream (`rtsp/buffer.rs`): a burst of video, replaced with every key
frame and extended by the frames after it, and a preview picture.

After any calls, the burst is the key frame of the last replacement, and its further
frames are the backlog of those appended since then (`LastFrameBuffer.video_run`): as
many of the last ones as fit the cap. The guard of the eviction counts the new frame
twice, so that the loop is entered too often, but the loop counts right
(`VideoBurst.appendPframe_eq`).

The source of a stream keeps its burst by the same calls (`lastFrame_foldl_applyEmit`),
and the translator inserts key frames without further frames (`translate_burst`).
-/

namespace Bairelay

open Backlog

namespace VideoBurst

/-- The size of a frame. -/
def frameBytes (nals : List Bytes) : ℕ := (nals.map List.length).sum

theorem pframeBytes_eq (frames : List (List Bytes)) :
    pframeBytes frames = total frameBytes frames := rfl

/-- The total that is decreased is the size of what is left. -/
theorem evict_eq (frames : List (List Bytes)) :
    evict (pframeBytes frames) frames = fit frameBytes maxPframeBytes frames := by
  induction frames with
  | nil => rfl
  | cons nals frames ih =>
    have hrest :
        pframeBytes (nals :: frames) - (nals.map List.length).sum = pframeBytes frames := by
      rw [pframeBytes_eq, total_cons, frameBytes, Nat.add_sub_cancel_left, pframeBytes_eq]
    rw [evict, fit, hrest, ih, pframeBytes_eq]

/-- Whether or not the guard lets the eviction happen, the frames are those that fit. -/
theorem appendPframe_eq (burst : VideoBurst) (nals : List Bytes) :
    burst.appendPframe nals = { burst with
      pframeNals := fit frameBytes maxPframeBytes (burst.pframeNals ++ [nals]) } := by
  rw [appendPframe]
  split
  · rw [evict_eq]
  · next hle =>
    rw [fit_of_le]
    rw [← pframeBytes_eq]
    omega

end VideoBurst

/-- The burst and the preview of a stream. -/
structure LastFrameBuffer where
  video : Option VideoBurst
  jpeg : Option Bytes
  deriving DecidableEq, Repr

namespace LastFrameBuffer

/-- Nothing yet. -/
def new : LastFrameBuffer := ⟨none, none⟩

/-- A key frame begins a new burst. -/
def replaceVideo (buffer : LastFrameBuffer) (burst : VideoBurst) : LastFrameBuffer :=
  { buffer with video := some burst }

/-- A frame between key frames is added, if there is a burst. -/
def appendPframe (buffer : LastFrameBuffer) (nals : List Bytes) : LastFrameBuffer :=
  { buffer with video := buffer.video.map (·.appendPframe nals) }

/-- The picture of the camera. -/
def setJpeg (buffer : LastFrameBuffer) (bytes : Bytes) : LastFrameBuffer :=
  { buffer with jpeg := some bytes }

/-- A call that writes to the buffer. -/
inductive Call where
  | replaceVideo (burst : VideoBurst)
  | appendPframe (nals : List Bytes)
  | setJpeg (bytes : Bytes)
  deriving DecidableEq, Repr

/-- One call. -/
def call (buffer : LastFrameBuffer) : Call → LastFrameBuffer
  | .replaceVideo burst => buffer.replaceVideo burst
  | .appendPframe nals => buffer.appendPframe nals
  | .setJpeg bytes => buffer.setJpeg bytes

/-- The buffer after some calls. -/
def run (buffer : LastFrameBuffer) (calls : List Call) : LastFrameBuffer :=
  calls.foldl call buffer

/-- The frames that some calls append. -/
def appended (calls : List Call) : List (List Bytes) :=
  calls.filterMap fun
    | .appendPframe nals => some nals
    | .replaceVideo _ | .setJpeg _ => none

/-- The calls replace the burst nowhere. -/
def Appends (calls : List Call) : Prop := ∀ burst, Call.replaceVideo burst ∉ calls

/-- Appending leaves the key frame as it is, with its parameter sets and its time. -/
theorem appendPframe_video (buffer : LastFrameBuffer) (nals : List Bytes) :
    (buffer.appendPframe nals).video.map (fun burst => { burst with pframeNals := [] }) =
      buffer.video.map fun burst => { burst with pframeNals := [] } := by
  rw [appendPframe, Option.map_map]
  rfl

/-- There is no burst without a key frame. -/
theorem video_run_eq_none {calls : List Call} (h : Appends calls) :
    (new.run calls).video = none := by
  induction calls using List.reverseRecOn with
  | nil => rfl
  | append_singleton calls c ih =>
    have hnone := ih fun burst hmem => h burst (List.mem_append_left _ hmem)
    rw [run, List.foldl_concat]
    cases c with
    | replaceVideo burst => exact absurd (List.mem_append_right _ List.mem_cons_self) (h burst)
    | appendPframe nals => exact congrArg (Option.map _) hnone
    | setJpeg bytes => exact hnone

/-- The frames kept behind a key frame. -/
theorem video_run_replaceVideo (buffer : LastFrameBuffer) {burst : VideoBurst}
    (hburst : burst.pframeNals = []) {calls : List Call} (h : Appends calls) :
    ∃ frames, ((buffer.replaceVideo burst).run calls).video =
        some { burst with pframeNals := frames } ∧
      IsBacklog VideoBurst.frameBytes VideoBurst.maxPframeBytes (appended calls) frames := by
  induction calls using List.reverseRecOn with
  | nil => exact ⟨[], congrArg some (hburst ▸ rfl), isBacklog_nil⟩
  | append_singleton calls c ih =>
    obtain ⟨frames, hvideo, hbacklog⟩ := ih fun burst hmem => h burst (List.mem_append_left _ hmem)
    rw [run, List.foldl_concat]
    rw [run] at hvideo
    cases c with
    | replaceVideo burst => exact absurd (List.mem_append_right _ List.mem_cons_self) (h burst)
    | appendPframe nals =>
      refine ⟨fit VideoBurst.frameBytes VideoBurst.maxPframeBytes (frames ++ [nals]), ?_, ?_⟩
      · rw [call, appendPframe, hvideo, Option.map_some, VideoBurst.appendPframe_eq]
      · rw [appended, List.filterMap_append]
        exact hbacklog.concat nals
    | setJpeg bytes =>
      refine ⟨frames, hvideo, ?_⟩
      rw [appended, List.filterMap_append]
      exact (List.append_nil (appended calls)).symm ▸ hbacklog

/-- After any calls the frames behind the key frame are the last ones of those appended
    since it was put in, as many as fit the cap. Before the first key frame appending has
    no effect, and it never changes the key frame. -/
theorem video_run (before : List Call) {burst : VideoBurst} (hburst : burst.pframeNals = [])
    {calls : List Call} (h : Appends calls) (buffer : LastFrameBuffer) (nals : List Bytes) :
    (∃ frames, (new.run (before ++ .replaceVideo burst :: calls)).video =
        some { burst with pframeNals := frames } ∧
      IsBacklog VideoBurst.frameBytes VideoBurst.maxPframeBytes (appended calls) frames) ∧
    (new.run calls).appendPframe nals = new.run calls ∧
    (buffer.appendPframe nals).video.map (fun burst => { burst with pframeNals := [] }) =
      buffer.video.map fun burst => { burst with pframeNals := [] } := by
  refine ⟨?_, ?_, appendPframe_video buffer nals⟩
  · rw [run, List.foldl_append]
    exact video_run_replaceVideo (new.run before) hburst h
  · rw [appendPframe, video_run_eq_none h, Option.map_none, ← video_run_eq_none h]

/-- A frame behind a key frame. -/
theorem video_run_sample :
    (new.run ([.appendPframe [[1]]] ++ .replaceVideo ⟨.h264, [[0x67]], [[0x65]], [], 0, 9⟩ ::
        [.appendPframe [[2]]])).video.isSome ∧
      (new.run [.appendPframe [[2]]]).appendPframe [[3]] = new.run [.appendPframe [[2]]] := by
  obtain ⟨⟨frames, hvideo, -⟩, hnone, -⟩ := @video_run [.appendPframe [[1]]]
    ⟨.h264, [[0x67]], [[0x65]], [], 0, 9⟩ rfl [.appendPframe [[2]]] (by
      intro burst hmem
      cases List.mem_singleton.1 hmem) new [[3]]
  exact ⟨by rw [hvideo]; rfl, hnone⟩

end LastFrameBuffer

/-! ## The buffer of a source -/

/-- The call to the buffer that an effect is. -/
def Emit.bufferCall? : Emit → Option LastFrameBuffer.Call
  | .replaceVideoBurst burst => some (.replaceVideo burst)
  | .appendPframe nals => some (.appendPframe nals)
  | .video _ _ | .audio _ _ | .sdpVideo _ | .sdpAudio _ | .audioSeen _ => none

/-- A source keeps its burst by these calls. -/
theorem lastFrame_foldl_applyEmit (s : StreamSource) (jpeg : Option Bytes) (emits : List Emit) :
    (emits.foldl StreamSource.applyEmit s).lastFrame =
      (LastFrameBuffer.run ⟨s.lastFrame, jpeg⟩ (emits.filterMap Emit.bufferCall?)).video := by
  induction emits generalizing s with
  | nil => rfl
  | cons e emits ih =>
    rw [List.foldl_cons, ih, List.filterMap_cons]
    cases e <;> rfl

/-- The translator inserts key frames only without further frames. -/
theorem translate_burst {packet : BcMedia} {state : StreamTranslatorState} {now : Instant}
    {bridging : Bool} {burst : VideoBurst}
    (h : .replaceVideoBurst burst ∈ (translate packet state now bridging).2.1) :
    burst.pframeNals = [] := by
  have haudio {emits : List Emit} (hemits : ∀ e ∈ emits, e.IsAudio) :
      .replaceVideoBurst burst ∉ emits := fun hmem => hemits _ hmem
  cases packet with
  | infoV1 | infoV2 => cases h
  | aac frame => exact absurd h (haudio (translateAac_spec frame state bridging).2)
  | adpcm frame => exact absurd h (haudio (translateAdpcm_spec frame state bridging).2)
  | pframe frame =>
    rw [translate, translatePframe] at h
    split at h
    · cases h
    · dsimp only at h
      split at h
      · cases h
      · simp at h
  | iframe frame =>
    rcases translateIframe_emits frame state now with hnil | ⟨codec, -, parts, frames, hframes, heq⟩
    · rw [translate, hnil] at h
      cases h
    · rw [translate, heq, List.mem_append, List.mem_cons] at h
      rcases h with hsdp | hburst | hframe
      · cases (sdpVideo?_leavesBurst hsdp).1
      · cases hburst
        rfl
      · exact (hframes _ hframe).elim

end Bairelay
