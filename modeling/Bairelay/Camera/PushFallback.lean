import Bairelay.Lib.Past
import Bairelay.Lib.Slots

/-!
# The fallback of a push

A push of a camera reports motion, holds the camera awake, and then reports the end of the motion
itself (`fire_motion` in `push_listener.rs`), in case nobody else does. Each push is a task of its
own, next to the listener of the session (`motion_listener` in `camera_tasks.rs`), and a task
knows nothing of the others.

* `not_hides_iff_covered`: no fallback hides the motion that somebody else has reported, just if
  every push and every `Start` that comes in during a hold is followed, before the hold is over, by
  a `Stop` or another end of the motion;
* `secondPush_hides`: a second push during the hold of the first.
-/

namespace Bairelay

/-- Who reports motion. -/
inductive MotionAuthor where
  | push (i : ℕ)
  | listener
  deriving DecidableEq, Repr

/-- What happens to the camera's motion, as the broker and the listener have it. -/
inductive MotionEntry where
  /-- A report that the broker has taken. -/
  | reported (author : MotionAuthor) (detected : Bool)
  /-- The listener has got a `Stop`, which it is about to report. -/
  | stopArrived
  deriving DecidableEq, Repr

/-- A task of `fire_motion`. -/
inductive FireMotion where
  | firing
  /-- It holds the camera awake; `fired` says whether its report of motion was taken. -/
  | holding (fired : Bool)
  | finished
  deriving DecidableEq, Repr

/-- How far the listener of the session is. -/
inductive MotionListener where
  | listening
  /-- It reports what it has got from the camera. -/
  | reporting (detected : Bool)
  deriving DecidableEq, Repr

/-- The reports of motion of a camera, the newest at the end of the log. -/
structure CameraMotion where
  tasks : List FireMotion := []
  listener : MotionListener := .listening
  log : List MotionEntry := []
  deriving DecidableEq, Repr

namespace CameraMotion

/-- Pushes, the steps of their tasks, and those of the listener. -/
inductive Event where
  /-- A push comes in. -/
  | push
  /-- A task reports motion; `ok` says whether the broker takes it. -/
  | fire (i : ℕ) (ok : Bool)
  /-- The hold of a task is over, and it reports the end of the motion. -/
  | fallback (i : ℕ) (ok : Bool)
  /-- The camera says that motion starts or stops. -/
  | motion (detected : Bool)
  | listenerReports (ok : Bool)
  deriving DecidableEq, Repr

/-- A report is logged if the broker has taken it. -/
def record (s : CameraMotion) (ok : Bool) (entry : MotionEntry) : CameraMotion :=
  if ok then { s with log := s.log ++ [entry] } else s

/-- One task goes on. -/
def setTask (s : CameraMotion) (i : ℕ) (task : FireMotion) : CameraMotion :=
  { s with tasks := s.tasks.set i task }

/-- A step. Each task has its own hold, and knows of no other task nor of the listener. -/
def step (s : CameraMotion) : Event → CameraMotion
  | .push => { s with tasks := s.tasks ++ [.firing] }
  | .fire i ok =>
    match s.tasks[i]? with
    | some .firing => (s.record ok (.reported (.push i) true)).setTask i (.holding ok)
    | _ => s
  | .fallback i ok =>
    match s.tasks[i]? with
    | some (.holding _) => (s.record ok (.reported (.push i) false)).setTask i .finished
    | _ => s
  | .motion detected =>
    match s.listener with
    | .listening =>
      { s.record (!detected) .stopArrived with listener := .reporting detected }
    | .reporting _ => s
  | .listenerReports ok =>
    match s.listener with
    | .listening => s
    | .reporting detected =>
      { s.record ok (.reported .listener detected) with listener := .listening }

/-- The reports after some steps. -/
def run (events : List Event) : CameraMotion := events.foldl step {}

theorem run_concat (events : List Event) (e : Event) :
    run (events ++ [e]) = (run events).step e := by
  rw [run, List.foldl_concat, ← run]

/-! ## Hidden motion -/

/-- A fallback follows the motion that somebody else has reported after the task's own. -/
def Hides (log : List MotionEntry) : Prop :=
  ∃ i author before between after, author ≠ .push i ∧
    log = before ++ .reported (.push i) true :: between ++ .reported author true ::
      .reported (.push i) false :: after

/-- A push or a `Start` of the camera brings a report of motion to the broker. -/
def StartsMotion (author : MotionAuthor) (moment : CameraMotion × Event) : Prop :=
  match author with
  | .push i => moment.2 = .fire i true ∧ moment.1.tasks[i]? = some .firing
  | .listener => moment.2 = .listenerReports true ∧ moment.1.listener = .reporting true

/-- A `Stop` arrives, or the end of the motion is reported: by the listener, or by a push whose hold
    is over. -/
def EndsMotion (moment : CameraMotion × Event) : Prop :=
  moment.2 = .motion false ∧ moment.1.listener = .listening ∨
    moment.2 = .listenerReports true ∧ moment.1.listener = .reporting false ∨
    ∃ i fired, moment.2 = .fallback i true ∧ moment.1.tasks[i]? = some (.holding fired)

/-- When the hold of a push ends, each motion that somebody else has started since its own report
    has ended. -/
def Covered (before : List Event) : Event → Prop
  | .fallback i ok => ok → (run before).tasks[i]? = some (.holding true) →
    ∀ author ≠ .push i, ¬Past.Since (StartsMotion author)
      (fun m => EndsMotion m ∨ StartsMotion (.push i) m) (Past.moments step {} before)
  | _ => True

theorem not_hides_nil : ¬Hides [] := by
  rintro ⟨i, author, before, between, after, -, h⟩
  simp at h

/-- A new entry hides motion if it is a fallback that follows the motion of somebody else. -/
theorem hides_concat {log : List MotionEntry} {entry : MotionEntry} :
    Hides (log ++ [entry]) ↔ Hides log ∨ ∃ i author, author ≠ .push i ∧
      entry = .reported (.push i) false ∧ log.getLast? = some (.reported author true) ∧
      .reported (.push i) true ∈ log := by
  constructor
  · rintro ⟨i, author, before, between, after, hne, h⟩
    rcases List.eq_nil_or_concat after with rfl | ⟨after, last, rfl⟩
    · rw [List.append_cons _ _ [_]] at h
      obtain ⟨rfl, rfl⟩ := List.append_singleton_inj.1 h
      exact .inr ⟨i, author, hne, rfl, List.getLast?_concat .., by simp⟩
    · rw [List.concat_eq_append, ← List.cons_append, ← List.cons_append, ← List.append_assoc] at h
      obtain ⟨rfl, rfl⟩ := List.append_singleton_inj.1 h
      exact .inl ⟨i, author, before, between, after, hne, rfl⟩
  · rintro (⟨i, author, before, between, after, hne, rfl⟩ | ⟨i, author, hne, rfl, hlast, hown⟩)
    · exact ⟨i, author, before, between, after ++ [entry], hne, by simp⟩
    · obtain ⟨init, rfl⟩ := List.getLast?_eq_some_iff.1 hlast
      have hinit : .reported (.push i) true ∈ init := by
        rcases List.mem_append.1 hown with hown | hown
        · exact hown
        · cases List.mem_singleton.1 hown
          exact absurd rfl hne
      obtain ⟨before, between, rfl⟩ := List.append_of_mem hinit
      exact ⟨i, author, before, between, [], hne, by simp⟩

/-- A task has its report of motion in the log just if it was taken. -/
structure Logged (s : CameraMotion) : Prop where
  holding : ∀ i fired, s.tasks[i]? = some (.holding fired) →
    (.reported (.push i) true ∈ s.log ↔ fired = true)
  firing : ∀ i, s.tasks[i]? = none ∨ s.tasks[i]? = some .firing →
    .reported (.push i) true ∉ s.log

variable {s : CameraMotion}

theorem logged_new : Logged {} where
  holding := by simp
  firing := by simp

/-- The log grows by something that is not the report of a push. -/
theorem Logged.append (hlogged : s.Logged) {log : List MotionEntry} {listener : MotionListener}
    (hlog : ∀ i, .reported (.push i) true ∈ log ↔ .reported (.push i) true ∈ s.log) :
    Logged { s with log, listener } where
  holding i fired hi := (hlog i).trans (hlogged.holding i fired hi)
  firing i hi := mt (hlog i).1 (hlogged.firing i hi)

theorem Logged.push (hlogged : s.Logged) : Logged { s with tasks := s.tasks ++ [.firing] } where
  holding i fired hi := hlogged.holding i fired (Slots.of_concat hi (by rintro ⟨⟩))
  firing i hi := by
    by_cases hlt : i < s.tasks.length
    · rw [List.getElem?_append_left hlt] at hi
      exact hlogged.firing i hi
    · exact hlogged.firing i (.inl (List.getElem?_eq_none (not_lt.1 hlt)))

/-- A task reports motion, or tries to. -/
theorem Logged.fire (hlogged : s.Logged) {i : ℕ} {ok : Bool} (hi : s.tasks[i]? = some .firing) :
    ((s.record ok (.reported (.push i) true)).setTask i (.holding ok)).Logged := by
  have hlt := (List.getElem?_eq_some_iff.1 hi).1
  have hnot := hlogged.firing i (.inr hi)
  have hother : ∀ k ≠ i, .reported (.push k) true ∈ (s.record ok (.reported (.push i) true)).log →
      .reported (.push k) true ∈ s.log := by
    intro k hne hmem
    cases ok with
    | false => exact hmem
    | true =>
      rcases List.mem_append.1 hmem with hmem | hmem
      · exact hmem
      · cases List.mem_singleton.1 hmem
        exact absurd rfl hne
  have hkeep : ∀ entry ∈ s.log, entry ∈ (s.record ok (.reported (.push i) true)).log := by
    intro entry hmem
    cases ok with
    | false => exact hmem
    | true => exact List.mem_append_left _ hmem
  have htasks : ((s.record ok (.reported (.push i) true)).setTask i (.holding ok)).tasks =
      s.tasks.set i (.holding ok) := by
    cases ok <;> rfl
  constructor
  · intro k fired hk
    rw [htasks] at hk
    rcases Slots.set_cases hk with ⟨rfl, hnew⟩ | ⟨hki, hk⟩
    · cases hnew
      cases ok with
      | false => exact iff_of_false hnot Bool.false_ne_true
      | true => exact iff_of_true (List.mem_concat_self ..) rfl
    · exact ⟨fun hmem => (hlogged.holding k fired hk).1 (hother k hki hmem),
        fun hfired => hkeep _ ((hlogged.holding k fired hk).2 hfired)⟩
  · intro k hk
    rw [htasks] at hk
    by_cases hki : k = i
    · subst hki
      rw [List.getElem?_set_self hlt] at hk
      rcases hk with hk | hk <;> cases hk
    · rw [List.getElem?_set_ne (Ne.symm hki)] at hk
      exact fun hmem => hlogged.firing k hk (hother k hki hmem)

/-- A task is through with its hold. -/
theorem Logged.finish (hlogged : s.Logged) (i : ℕ) : (s.setTask i .finished).Logged := by
  constructor
  · exact fun k fired' hk => hlogged.holding k fired' (Slots.of_set hk (by rintro ⟨⟩)).2
  · intro k hk
    refine hlogged.firing k (hk.imp (fun hnone => ?_) fun hk => (Slots.of_set hk (by rintro ⟨⟩)).2)
    rw [List.getElem?_eq_none_iff] at hnone ⊢
    exact (List.length_set ..).symm.trans_le hnone

/-- Other entries do not report motion for a task. -/
theorem mem_record_iff (ok : Bool) {entry : MotionEntry} {i : ℕ}
    (hne : entry ≠ .reported (.push i) true) :
    .reported (.push i) true ∈ (s.record ok entry).log ↔ .reported (.push i) true ∈ s.log := by
  cases ok with
  | false => exact Iff.rfl
  | true =>
    refine List.mem_append.trans (or_iff_left ?_)
    exact fun hmem => hne (List.mem_singleton.1 hmem).symm

/-- What a step keeps. -/
theorem Logged.step (hlogged : s.Logged) (e : Event) : (s.step e).Logged := by
  cases e with
  | push => exact hlogged.push
  | fire i ok =>
    rw [CameraMotion.step]
    split
    · next hi => exact hlogged.fire hi
    · exact hlogged
  | fallback i ok =>
    rw [CameraMotion.step]
    split
    · have hrecord : (s.record ok (.reported (.push i) false)).Logged := by
        cases ok with
        | false => exact hlogged
        | true => exact hlogged.append fun k => mem_record_iff true (by rintro ⟨⟩)
      exact hrecord.finish i
    · exact hlogged
  | motion detected =>
    rw [CameraMotion.step]
    split
    · cases detected with
      | false => exact hlogged.append fun k => mem_record_iff true (by rintro ⟨⟩)
      | true => exact hlogged.append fun k => Iff.rfl
    · exact hlogged
  | listenerReports ok =>
    rw [CameraMotion.step]
    split
    · exact hlogged
    · cases ok with
      | false => exact hlogged.append fun k => Iff.rfl
      | true => exact hlogged.append fun k => mem_record_iff true (by rintro ⟨⟩)

/-- In every run the log has what the tasks say they have reported. -/
theorem logged_run (events : List Event) : (run events).Logged := by
  induction events using List.reverseRecOn with
  | nil => exact logged_new
  | append_singleton events e ih =>
    rw [run_concat]
    exact ih.step e

/-! ## What a step adds to the log -/

/-- The entry that a step adds, if any. -/
def logged? (s : CameraMotion) : Event → Option MotionEntry
  | .push => none
  | .fire i ok => if ok ∧ s.tasks[i]? = some .firing then some (.reported (.push i) true) else none
  | .fallback i ok =>
    match s.tasks[i]? with
    | some (.holding _) => if ok then some (.reported (.push i) false) else none
    | _ => none
  | .motion detected =>
    if detected = false ∧ s.listener = .listening then some .stopArrived else none
  | .listenerReports ok =>
    match s.listener with
    | .listening => none
    | .reporting detected => if ok then some (.reported .listener detected) else none

/-- A report is in the log if the broker has taken it. -/
theorem log_record (s : CameraMotion) (ok : Bool) (entry : MotionEntry) :
    (s.record ok entry).log = s.log ++ (if ok then some entry else none).toList := by
  cases ok with
  | false => exact (List.append_nil _).symm
  | true => rfl

theorem log_step (s : CameraMotion) (e : Event) :
    (s.step e).log = s.log ++ (s.logged? e).toList := by
  cases e with
  | push => exact (List.append_nil _).symm
  | fire i ok =>
    rw [CameraMotion.step, logged?]
    split
    · next hi =>
      rw [setTask, log_record]
      simp [hi]
    · next hi =>
      rw [if_neg fun h => hi h.2]
      exact (List.append_nil _).symm
  | fallback i ok =>
    rw [CameraMotion.step, logged?]
    split
    · exact log_record ..
    · exact (List.append_nil _).symm
  | motion detected =>
    rw [CameraMotion.step, logged?]
    split
    · next hlistening =>
      rw [log_record]
      simp [hlistening]
    · next hreporting => simp [hreporting]
  | listenerReports ok =>
    rw [CameraMotion.step, logged?]
    split
    · exact (List.append_nil _).symm
    · exact log_record ..

/-- A motion starts for others with an entry of theirs. -/
theorem startsMotion_iff {author : MotionAuthor} {e : Event} :
    StartsMotion author (s, e) ↔ s.logged? e = some (.reported author true) := by
  cases author with
  | push i => cases e <;> grind [StartsMotion, logged?]
  | listener => cases e <;> grind [StartsMotion, logged?]

/-- A motion ends with an entry that says so, whoever writes it. -/
theorem endsMotion_iff {e : Event} : EndsMotion (s, e) ↔
    s.logged? e = some .stopArrived ∨ ∃ author, s.logged? e = some (.reported author false) := by
  cases e <;> grind [EndsMotion, logged?]

/-- The last entry of the log is the motion of somebody else, just if somebody else has started one
    that has not ended since. -/
theorem last_iff_since (i : ℕ) (events : List Event) :
    (∃ author ≠ .push i, (run events).log.getLast? = some (.reported author true)) ↔
      ∃ author ≠ .push i, Past.Since (StartsMotion author)
        (fun m => EndsMotion m ∨ StartsMotion (.push i) m) (Past.moments step {} events) := by
  induction events using List.reverseRecOn with
  | nil =>
    refine iff_of_false ?_ ?_
    · rintro ⟨author, -, hlast⟩
      cases hlast
    · rintro ⟨author, -, hsince⟩
      exact Past.not_since_nil hsince
  | append_singleton events e ih =>
    rw [run_concat, log_step, Past.moments_concat]
    simp only [Past.since_concat, startsMotion_iff, endsMotion_iff]
    rw [← run]
    cases hentry : (run events).logged? e with
    | none => simpa using ih
    | some entry =>
      cases entry with
      | stopArrived => simp
      | reported author detected =>
        cases detected with
        | false => simp
        | true =>
          by_cases hown : author = .push i
          · subst hown
            simp
          · refine iff_of_true ⟨author, hown, by simp⟩ ⟨author, hown, .inl rfl⟩

/-- A step hides motion just if it is a fallback after the motion of somebody else. -/
theorem hides_step_iff (e : Event) : Hides (s.step e).log ↔ Hides s.log ∨
    ∃ i author, author ≠ .push i ∧ s.logged? e = some (.reported (.push i) false) ∧
      s.log.getLast? = some (.reported author true) ∧ .reported (.push i) true ∈ s.log := by
  rw [log_step]
  cases s.logged? e with
  | none => simp
  | some entry =>
    rw [Option.toList_some, hides_concat]
    simp only [Option.some.injEq]

/-- Only the fallback of a task that holds reports the end for it. -/
theorem logged?_fallback_iff {e : Event} {i : ℕ} :
    s.logged? e = some (.reported (.push i) false) ↔
      e = .fallback i true ∧ ∃ fired, s.tasks[i]? = some (.holding fired) := by
  cases e <;> grind [logged?]

/-- No fallback of a run hides the motion of somebody else, just if each fallback is covered. -/
theorem not_hides_iff_covered (events : List Event) :
    ¬Hides (run events).log ↔ Past.Always Covered events := by
  induction events using List.reverseRecOn with
  | nil => exact iff_of_true not_hides_nil Past.always_nil
  | append_singleton events e ih =>
    have hlogged := logged_run events
    rw [run_concat, hides_step_iff, not_or, Past.always_concat, ih]
    refine and_congr_right fun _ => ?_
    constructor
    · intro hnot
      cases e with
      | fallback i ok =>
        intro hok hi author hne hsince
        obtain ⟨author, hne, hlast⟩ := (last_iff_since i events).2 ⟨author, hne, hsince⟩
        refine hnot ⟨i, author, hne, ?_, hlast, (hlogged.holding i true hi).2 rfl⟩
        exact logged?_fallback_iff.2 ⟨by rw [hok], true, hi⟩
      | _ => trivial
    · rintro hcovered ⟨i, author, hne, hentry, hlast, hown⟩
      obtain ⟨rfl, fired, hi⟩ := logged?_fallback_iff.1 hentry
      obtain ⟨author, hne, hsince⟩ := (last_iff_since i events).1 ⟨author, hne, hlast⟩
      -- Its own motion is in the log, so its report was taken.
      have hfired := (hlogged.holding i fired hi).1 hown
      exact hcovered rfl (by rw [hi, hfired]) author hne hsince

/-- The camera pushes once more during the hold of the first push. -/
def secondPush : List Event :=
  [.push, .fire 0 true, .push, .fire 1 true, .fallback 0 true]

/-- The first push's fallback follows the report of the second push. -/
theorem secondPush_hides : Hides (run secondPush).log :=
  ⟨0, .push 1, [], [], [], by rintro ⟨⟩, by decide⟩

end CameraMotion

end Bairelay
