import Bairelay.Lib.Past
import Bairelay.Wake.Client

/-!
# Four ways to a camera

When a camera is registered, it is tried in four ways at once (`connection/discovery.rs`, and
`find_camera_with_discoverer` of `bc_protocol.rs`): the client calls its address or is called from
there, or the camera calls from its outer address, or both call a relay. The first way that
succeeds is taken, and the register is told which one (`C2R_CFM`), five times. So that it is told
about one only, they compete for a permit, which is closed by the one that is done.

* `returned_unique`: one way at most is done;
* `sent_of_outcome`: the way that is taken is the one that the register was told about last, and
  all that it was told before is of ways that had failed.
-/

namespace Bairelay

/-- The four ways to reach a registered camera that end with a confirmation to the register. -/
inductive ConnectMethod where
  | clientInitiatedDev
  | deviceInitiatedDev
  | deviceInitiatedMap
  | clientInitiatedRelay
  deriving DecidableEq, Repr

/-- Whether the camera calls. -/
def ConnectMethod.deviceInitiated : ConnectMethod → Bool
  | .deviceInitiatedDev | .deviceInitiatedMap => true
  | .clientInitiatedDev | .clientInitiatedRelay => false

/-- What the messages call it. -/
def ConnectMethod.conn : ConnectMethod → String
  | .clientInitiatedDev | .deviceInitiatedDev => "local"
  | .deviceInitiatedMap => "map"
  | .clientInitiatedRelay => "relay"

/-- The branch of `find_camera` that a method belongs to. -/
inductive DiscoveryBranch where
  | remote
  | map
  | relay
  deriving DecidableEq, Repr

/-- The task that a way belongs to. -/
def ConnectMethod.branch : ConnectMethod → DiscoveryBranch
  | .clientInitiatedDev | .deviceInitiatedDev => .remote
  | .deviceInitiatedMap => .map
  | .clientInitiatedRelay => .relay

/-- A camera that calls the client. -/
structure D2cT where
  sid : UInt32
  cid : Int32
  did : Int32
  conn : String
  deriving DecidableEq

/-- A camera that confirms. -/
structure D2cCfm where
  sid : UInt32
  cid : Int32
  did : Int32
  conn : String
  deriving DecidableEq

/-- What tells the register which way was taken. -/
structure C2rCfm where
  sid : UInt32
  cid : Int32
  did : Int32
  conn : String
  rsp : ℤ
  deriving DecidableEq

/-- A camera that was reached, and with which ids. -/
structure ConnectResult where
  addr : SocketAddr
  clientId : Int32
  cameraId : Int32
  sid : UInt32
  deriving DecidableEq

/-- Where a method is; `found` are the address and the id of the camera. -/
inductive MethodPhase where
  | idle
  | seeking
  /-- It waits for the permit. -/
  | queued (found : Option (SocketAddr × Int32))
  | confirming (found : Option (SocketAddr × Int32))
  | registering (result : ConnectResult) (sent : ℕ)
  | returned (result : ConnectResult)
  | failed
  /-- Another one was taken. -/
  | dropped
  deriving DecidableEq

namespace MethodPhase

/-- The way has the permit. -/
def holds : MethodPhase → Bool
  | .confirming _ | .registering _ _ => true
  | _ => false

/-- It has the permit, or had it and is done. -/
def isActive : MethodPhase → Bool
  | .confirming _ | .registering _ _ | .returned _ => true
  | _ => false

/-- The way has come to nothing. -/
def isOver : MethodPhase → Bool
  | .failed | .dropped => true
  | _ => false

/-- What becomes of it when it is dropped. -/
def drop : MethodPhase → MethodPhase
  | .returned result => .returned result
  | .failed => .failed
  | _ => .dropped

@[simp]
theorem holds_drop (phase : MethodPhase) : phase.drop.holds = false := by cases phase <;> rfl

theorem isOver_drop {phase : MethodPhase} (h : phase.isOver = true) : phase.drop.isOver = true := by
  cases phase <;> first | rfl | cases h

/-- Dropping leaves alone what is not under way. -/
theorem isActive_of_drop {phase : MethodPhase} (h : phase.drop.isActive = true) :
    phase.isActive = true ∧ phase.drop = phase := by
  cases phase <;> first | exact ⟨rfl, rfl⟩ | cases h

/-- The permit is with a way that is under way. -/
theorem isActive_of_holds {phase : MethodPhase} (h : phase.holds = true) :
    phase.isActive = true := by
  cases phase <;> first | rfl | cases h

/-- What is dropped and not under way has come to nothing. -/
theorem isOver_drop_of_not_isActive {phase : MethodPhase} (h : phase.drop.isActive = false) :
    phase.drop.isOver = true := by
  cases phase <;> first | rfl | cases h

theorem not_isOver_of_isActive {phase : MethodPhase} (h : phase.isActive = true) :
    phase.isOver = false := by
  cases phase <;> first | rfl | cases h

end MethodPhase

/-- The ways, the permit they compete for, and the confirmations sent. -/
structure FindCamera where
  phase : ConnectMethod → MethodPhase := fun _ => .idle
  /-- Who has the permit of the semaphore. -/
  permit : Option ConnectMethod := none
  closed : Bool := false
  /-- What the register was told. -/
  sent : List (ConnectMethod × C2rCfm) := []
  /-- The branches that have ended in vain, or are not allowed. -/
  ended : DiscoveryBranch → Bool := fun _ => false
  /-- What is returned: a camera, or that the time is over. -/
  outcome : Option (Option ConnectResult) := none

namespace FindCamera

/-- What happens on the ways: answers of cameras and relays, steps of their tasks, and their
    ends. -/
inductive Event where
  | begin (m : ConnectMethod)
  | d2cT (m : ConnectMethod) (msg : D2cT) (addr : SocketAddr)
  | acquire (m : ConnectMethod)
  | d2cCfm (m : ConnectMethod) (msg : D2cCfm) (addr : SocketAddr)
  /-- The register is told once more. -/
  | tell (m : ConnectMethod)
  /-- Nobody answers in time, or something cannot be sent. -/
  | fail (m : ConnectMethod)
  | finish (m : ConnectMethod)
  /-- The result of a method is looked at. -/
  | poll (m : ConnectMethod)

variable (reg : RegisterResult) (d : FindCamera)

/-- One way goes on. -/
def setPhase (m : ConnectMethod) (phase : MethodPhase) : FindCamera :=
  { d with phase := Function.update d.phase m phase }

/-- The permit of a method that is at its end goes back. -/
def release (m : ConnectMethod) : FindCamera :=
  { d with permit := if d.permit = some m then none else d.permit }

/-- The camera calls from the address that was registered, with the ids of the registration. -/
def acceptT (m : ConnectMethod) (msg : D2cT) (addr : SocketAddr) : Bool :=
  msg.cid = reg.clientId && msg.sid = reg.sid && reg.dmap = some addr && msg.conn = m.conn

/-- The client does not look at the way when it has called the camera itself. -/
def acceptCfm (m : ConnectMethod) (found : Option (SocketAddr × Int32)) (msg : D2cCfm) : Bool :=
  msg.cid = reg.clientId && msg.sid = reg.sid &&
    match m with
    | .clientInitiatedDev => true
    | .deviceInitiatedDev | .deviceInitiatedMap =>
      found.any (·.2 = msg.did) && msg.conn = m.conn
    | .clientInitiatedRelay => msg.conn = m.conn

/-- The camera that was found, with the ids of the registration. -/
def result (found : SocketAddr × Int32) : ConnectResult :=
  { addr := found.1, clientId := reg.clientId, cameraId := found.2, sid := reg.sid }

/-- The confirmation for a way. -/
def c2rCfm (m : ConnectMethod) (result : ConnectResult) : C2rCfm :=
  { sid := result.sid, cid := result.clientId, did := result.cameraId, conn := m.conn, rsp := 0 }

/-- A way begins. Those that call need an address to call. -/
def begin (m : ConnectMethod) : MethodPhase :=
  match m with
  | .clientInitiatedDev => if reg.dev.isSome then .seeking else .failed
  | .deviceInitiatedDev | .deviceInitiatedMap => .seeking
  | .clientInitiatedRelay => if reg.relay.isSome then .queued none else .failed

/-- What a method does with the permit. -/
def admitted (m : ConnectMethod) (found : Option (SocketAddr × Int32)) : MethodPhase :=
  match m, found with
  -- It has its answer already.
  | .clientInitiatedDev, some found => .registering (result reg found) 0
  | _, _ => .confirming found

/-- All that go on are dropped. -/
def dropAll (p : ConnectMethod → Bool) : FindCamera :=
  { d with
    phase := fun m => if p m then (d.phase m).drop else d.phase m
    permit := if d.permit.any p then none else d.permit }

/-- One step, until the outcome is there. -/
def progress : Event → FindCamera
  | .begin m =>
    if d.phase m = .idle ∧ d.ended m.branch = false then d.setPhase m (begin reg m) else d
  | .d2cT m msg addr =>
    -- The device-initiated ways wait for a D2C_T, and only for one.
    if m.deviceInitiated = true ∧ d.phase m = .seeking ∧ acceptT reg m msg addr = true then
      d.setPhase m (.queued (some (addr, msg.did)))
    else d
  | .acquire m =>
    -- The semaphore has one permit, and is closed by the first way that is done.
    match d.phase m with
    | .queued found =>
      if d.closed then d.setPhase m .failed
      else if d.permit = none then { d.setPhase m (admitted reg m found) with permit := some m }
      else d
    | _ => d
  | .d2cCfm m msg addr =>
    match d.phase m with
    -- This way waits for its D2C_CFM before it takes the permit.
    | .seeking =>
      if m = .clientInitiatedDev ∧ acceptCfm reg m none msg = true then
        d.setPhase m (.queued (some (addr, msg.did)))
      else d
    | .confirming found =>
      if acceptCfm reg m found msg then
        d.setPhase m (.registering (result reg (found.getD (addr, msg.did))) 0)
      else d
    | _ => d
  | .tell m =>
    match d.phase m with
    | .registering result sent =>
      -- The register hears it five times, with a pause behind each.
      if sent < 5 then
        { d.setPhase m (.registering result (sent + 1)) with
          sent := d.sent ++ [(m, c2rCfm m result)] }
      else d
    | _ => d
  | .fail m =>
    -- A way that fails gives its permit back, unless it is done.
    match d.phase m with
    | .seeking | .confirming _ => (d.setPhase m .failed).release m
    | .registering _ sent => if sent < 5 then (d.setPhase m .failed).release m else d
    | _ => d
  | .finish m =>
    match d.phase m with
    | .registering result 5 => { (d.setPhase m (.returned result)).release m with closed := true }
    | _ => d
  | .poll m =>
    -- What has ended is polled no more.
    if d.ended m.branch then d
    else match d.phase m with
    | .returned result => { d.dropAll fun _ => true with outcome := some (some result) }
    | .failed =>
      -- Of the two that call or are called, the one that is done first decides.
      let ended := Function.update d.ended m.branch true
      { d.dropAll (·.branch = m.branch) with
        ended
        outcome :=
          if ended .remote && ended .map && ended .relay then some none else none }
    | _ => d

/-- A step, as long as nothing has been returned. -/
def step (e : Event) : FindCamera := if d.outcome = none then d.progress reg e else d

/-- The branches that are allowed are tried. -/
def run (allowed : DiscoveryBranch → Bool) (events : List Event) : FindCamera :=
  events.foldl (step reg) { ended := fun branch => !allowed branch }

theorem run_concat (allowed : DiscoveryBranch → Bool) (events : List Event) (e : Event) :
    run reg allowed (events ++ [e]) = (run reg allowed events).step reg e := List.foldl_concat ..

/-! ## The permit -/

variable {reg d}

/-- What a method has told the register. -/
def told (m : ConnectMethod) : MethodPhase → List (ConnectMethod × C2rCfm)
  | .registering result sent => List.replicate sent (m, c2rCfm m result)
  | .returned result => List.replicate 5 (m, c2rCfm m result)
  | _ => []

/-- A way that is not under way has sent no confirmation. -/
theorem told_of_not_active {m : ConnectMethod} {phase : MethodPhase}
    (h : phase.isActive = false) : told m phase = [] := by
  cases phase <;> first | rfl | cases h

/-- A way sends confirmations for itself only. -/
theorem fst_of_mem_told {m : ConnectMethod} {phase : MethodPhase} {x : ConnectMethod × C2rCfm}
    (h : x ∈ told m phase) : x.1 = m := by
  cases phase with
  | registering _ _ | returned _ => rw [List.eq_of_mem_replicate h]
  | _ => cases h

/-- One method is in front at most; what the register was told before is of methods that are
    over. -/
structure Front (d : FindCamera) (front : Option ConnectMethod)
    (past : List (ConnectMethod × C2rCfm)) : Prop where
  active : ∀ m, (d.phase m).isActive = true → front = some m
  permit : ∀ m, d.permit = some m ↔ (d.phase m).holds = true
  closed : ∀ m result, d.phase m = .returned result → d.closed = true
  sent : d.sent = past ++ (front.map fun m => told m (d.phase m)).getD []
  past : ∀ x ∈ past, (d.phase x.1).isOver = true
  outcome : ∀ result, d.outcome = some (some result) → ∃ m, d.phase m = .returned result

variable {front : Option ConnectMethod} {past : List (ConnectMethod × C2rCfm)}
  {m : ConnectMethod} {phase : MethodPhase}

@[simp]
theorem setPhase_phase_self : (d.setPhase m phase).phase m = phase := Function.update_self ..

theorem setPhase_phase_of_ne {m' : ConnectMethod} (h : m' ≠ m) :
    (d.setPhase m phase).phase m' = d.phase m' := Function.update_of_ne h ..

/-- A method that is not in front goes on. -/
theorem Front.quiet (h : Front d front past) (hold : (d.phase m).isActive = false)
    (hover : (d.phase m).isOver = false) (hnew : phase.isActive = false) :
    Front (d.setPhase m phase) front past where
  active m' hm' := by
    by_cases hne : m' = m
    · subst hne
      rw [setPhase_phase_self, hnew] at hm'
      cases hm'
    · rw [setPhase_phase_of_ne hne] at hm'
      exact h.active m' hm'
  permit m' := by
    by_cases hne : m' = m
    · subst hne
      rw [setPhase_phase_self]
      refine (h.permit m').trans ?_
      cases hphase : d.phase m' <;> cases phase <;>
        simp_all [MethodPhase.holds, MethodPhase.isActive]
    · rw [setPhase_phase_of_ne hne]
      exact h.permit m'
  closed m' result hm' := by
    by_cases hne : m' = m
    · subst hne
      rw [setPhase_phase_self] at hm'
      rw [hm'] at hnew
      cases hnew
    · rw [setPhase_phase_of_ne hne] at hm'
      exact h.closed m' result hm'
  sent := by
    refine h.sent.trans (congrArg (past ++ ·) ?_)
    cases front with
    | none => rfl
    | some m' =>
      dsimp only [Option.map_some, Option.getD_some]
      by_cases hne : m' = m
      · subst hne
        rw [setPhase_phase_self, told_of_not_active hold, told_of_not_active hnew]
      · rw [setPhase_phase_of_ne hne]
  past x hx := by
    have hne : x.1 ≠ m := by
      rintro rfl
      rw [h.past x hx] at hover
      cases hover
    rw [setPhase_phase_of_ne hne]
    exact h.past x hx
  outcome result hresult := by
    obtain ⟨m', hm'⟩ := h.outcome result hresult
    have hne : m' ≠ m := by
      rintro rfl
      rw [hm'] at hold
      cases hold
    exact ⟨m', (setPhase_phase_of_ne hne).trans hm'⟩

/-- The method in front goes on, or one comes to the front. -/
theorem Front.move (h : Front d front past) {d' : FindCamera}
    {past' : List (ConnectMethod × C2rCfm)}
    (halone : ∀ m', (d.phase m').isActive = true → m' = m)
    (hphase : d'.phase = Function.update d.phase m phase)
    (hpermit : d'.permit = if phase.holds then some m else none)
    (hclosed : (∃ result, phase = .returned result) ∨ d.closed = true → d'.closed = true)
    (hsent : d'.sent = past' ++ told m phase)
    (hpast : ∀ x ∈ past', (d'.phase x.1).isOver = true) (houtcome : d'.outcome = none) :
    Front d' (if phase.isActive then some m else none) past' where
  active m' hm' := by
    by_cases hne : m' = m
    · subst hne
      rw [hphase, Function.update_self] at hm'
      rw [if_pos hm']
    · rw [hphase, Function.update_of_ne hne] at hm'
      exact absurd (halone m' hm') hne
  permit m' := by
    rw [hpermit]
    by_cases hne : m' = m
    · subst hne
      rw [hphase, Function.update_self]
      split_ifs with hholds
      · exact iff_of_true rfl hholds
      · exact iff_of_false nofun hholds
    · rw [hphase, Function.update_of_ne hne]
      refine iff_of_false ?_ fun hholds => hne (halone m' ?_)
      · split_ifs
        · exact fun heq => hne (Option.some.inj heq).symm
        · nofun
      · cases hcases : d.phase m' <;> simp_all [MethodPhase.holds, MethodPhase.isActive]
  closed m' result hm' := by
    by_cases hne : m' = m
    · subst hne
      rw [hphase, Function.update_self] at hm'
      exact hclosed (.inl ⟨result, hm'⟩)
    · rw [hphase, Function.update_of_ne hne] at hm'
      exact hclosed (.inr (h.closed m' result hm'))
  sent := by
    rw [hsent]
    cases hactive : phase.isActive with
    | true => rw [if_pos rfl, Option.map_some, Option.getD_some, hphase, Function.update_self]
    | false => rw [if_neg Bool.false_ne_true, told_of_not_active hactive]; rfl
  past := hpast
  outcome result hresult := by
    rw [houtcome] at hresult
    cases hresult

/-- While a method holds the permit it is alone in front. -/
theorem Front.alone (h : Front d front past) (hactive : (d.phase m).isActive = true)
    (m' : ConnectMethod) (hm' : (d.phase m').isActive = true) : m' = m :=
  Option.some.inj ((h.active m' hm').symm.trans (h.active m hactive))

theorem Front.sent_eq (h : Front d front past) (hactive : (d.phase m).isActive = true) :
    d.sent = past ++ told m (d.phase m) := by
  rw [h.sent, h.active m hactive]
  rfl

/-- Nobody is in front as long as the permit is there and the semaphore is open. -/
theorem Front.nobody (h : Front d front past) (hpermit : d.permit = none)
    (hclosed : d.closed = false) (m : ConnectMethod) : (d.phase m).isActive = false := by
  cases hphase : d.phase m with
  | confirming found =>
    have := (h.permit m).2 (by rw [hphase]; rfl)
    rw [hpermit] at this
    cases this
  | registering result sent =>
    have := (h.permit m).2 (by rw [hphase]; rfl)
    rw [hpermit] at this
    cases this
  | returned result =>
    have := h.closed m result hphase
    rw [hclosed] at this
    cases this
  | _ => rfl

theorem Front.past_update (h : Front d front past) (hover : (d.phase m).isOver = false)
    (x : ConnectMethod × C2rCfm) (hx : x ∈ past) :
    (Function.update d.phase m phase x.1).isOver = true := by
  have hne : x.1 ≠ m := by
    rintro rfl
    rw [h.past x hx] at hover
    cases hover
  rw [Function.update_of_ne hne]
  exact h.past x hx

/-- Some methods are dropped, perhaps the one in front. -/
theorem Front.dropAll (h : Front d front past) (p : ConnectMethod → Bool)
    (o : Option (Option ConnectResult)) (ended : DiscoveryBranch → Bool)
    (ho : ∀ result, o = some (some result) → ∃ m, d.phase m = .returned result) :
    ∃ front' past', Front { d.dropAll p with ended, outcome := o } front' past' := by
  have hphase : ∀ m, (d.dropAll p).phase m = if p m then (d.phase m).drop else d.phase m :=
    fun _ => rfl
  -- Dropping makes no way active: the active ones afterwards are those that were spared.
  have hactive : ∀ m, ((d.dropAll p).phase m).isActive = true → (d.phase m).isActive = true ∧
      (d.dropAll p).phase m = d.phase m := by
    intro m hm
    rw [hphase] at hm ⊢
    split_ifs at hm ⊢
    · exact MethodPhase.isActive_of_drop hm
    · exact ⟨hm, rfl⟩
  have hover : ∀ m, (d.phase m).isOver = true → ((d.dropAll p).phase m).isOver = true := by
    intro m hm
    rw [hphase]
    split_ifs
    · exact MethodPhase.isOver_drop hm
    · exact hm
  -- The permit comes back with the future that holds it.
  have hpermit : ∀ m, (d.dropAll p).permit = some m ↔ ((d.dropAll p).phase m).holds = true := by
    intro m
    have hany : (d.dropAll p).permit = some m ↔ d.permit = some m ∧ p m = false := by
      rw [FindCamera.dropAll]
      cases d.permit with
      | none => simp
      | some m' =>
        cases hp : p m' with
        | true => simpa [hp] using fun heq : m' = m => heq ▸ hp
        | false => simpa [hp] using fun heq : m' = m => heq ▸ hp
    rw [hany, h.permit, hphase]
    cases p m <;> simp
  have hclosed : ∀ m result, (d.dropAll p).phase m = .returned result → d.closed = true := by
    intro m result hm
    have hsame := (hactive m (by rw [hm]; rfl)).2
    exact h.closed m result (hsame.symm.trans hm)
  have houtcome : ∀ result, o = some (some result) →
      ∃ m, (d.dropAll p).phase m = .returned result := by
    intro result hresult
    obtain ⟨m, hm⟩ := ho result hresult
    refine ⟨m, ?_⟩
    rw [hphase, hm]
    split_ifs <;> rfl
  -- Either the front itself is dropped, and what it has told joins the past, or it is spared.
  by_cases hlost : ∃ m, (d.phase m).isActive = true ∧ ((d.dropAll p).phase m).isActive = false
  · obtain ⟨m, hm, hlost⟩ := hlost
    refine ⟨none, d.sent, ?_, hpermit, hclosed, (List.append_nil _).symm, ?_, houtcome⟩
    · intro m' hm'
      obtain rfl := h.alone hm m' (hactive m' hm').1
      rw [hlost] at hm'
      cases hm'
    · intro x hx
      rw [h.sent_eq hm] at hx
      rcases List.mem_append.1 hx with hx | hx
      · exact hover _ (h.past x hx)
      · change ((d.dropAll p).phase x.1).isOver = true
        rw [fst_of_mem_told hx]
        rw [hphase] at hlost ⊢
        split_ifs at hlost ⊢
        · exact MethodPhase.isOver_drop_of_not_isActive hlost
        · rw [hm] at hlost
          cases hlost
  · refine ⟨front, past, fun m hm => h.active m (hactive m hm).1, hpermit, hclosed, ?_,
      fun x hx => hover _ (h.past x hx), houtcome⟩
    refine h.sent.trans (congrArg (past ++ ·) ?_)
    cases front with
    | none => rfl
    | some m =>
      change told m (d.phase m) = told m ((d.dropAll p).phase m)
      cases hm : ((d.dropAll p).phase m).isActive with
      | true => rw [(hactive m hm).2]
      | false =>
        have hold : (d.phase m).isActive = false := by
          rw [← Bool.not_eq_true]
          exact fun hold => hlost ⟨m, hold, hm⟩
        rw [told_of_not_active hm, told_of_not_active hold]

/-- A way that gets the permit comes to the front. -/
theorem Front.acquire (h : Front d front past) (houtcome : d.outcome = none)
    {found : Option (SocketAddr × Int32)} (hphase : d.phase m = .queued found)
    (hpermit : d.permit = none) (hclosed : d.closed = false) :
    ∃ front' past', Front { d.setPhase m (admitted reg m found) with permit := some m }
      front' past' := by
  have hnobody := h.nobody hpermit hclosed
  have hsent : d.sent = past := by
    rw [h.sent]
    cases front with
    | none => exact List.append_nil _
    | some m' =>
      rw [Option.map_some, Option.getD_some, told_of_not_active (hnobody m'), List.append_nil]
  have hover : (d.phase m).isOver = false := by rw [hphase]; rfl
  have hadmitted : (admitted reg m found).holds = true ∧ told m (admitted reg m found) = [] ∧
      ∀ result, admitted reg m found ≠ .returned result := by
    rw [admitted.eq_def]
    split <;> exact ⟨rfl, rfl, nofun⟩
  obtain ⟨hholds, htold, hreturned⟩ := hadmitted
  refine ⟨_, past, h.move (fun m' hm' => ?_) rfl ?_ ?_ ?_ (h.past_update hover) houtcome⟩
  · rw [hnobody m'] at hm'
    cases hm'
  · rw [if_pos hholds]
  · rintro (⟨result, hresult⟩ | hclosed')
    · exact absurd hresult (hreturned result)
    · exact hclosed'
  · rw [htold, List.append_nil]
    exact hsent

/-- The way in front fails, and lets go of the permit. -/
theorem Front.fail (h : Front d front past) (houtcome : d.outcome = none)
    (hholds : (d.phase m).holds = true) :
    ∃ front' past', Front ((d.setPhase m .failed).release m) front' past' := by
  have hactive := MethodPhase.isActive_of_holds hholds
  refine ⟨_, d.sent, h.move (h.alone hactive)
    (rfl : _ = Function.update d.phase m .failed) ?_ ?_
    (List.append_nil _).symm (fun x hx => ?_) houtcome⟩
  · exact if_pos ((h.permit m).2 hholds)
  · rintro (⟨result, hresult⟩ | hclosed)
    · cases hresult
    · exact hclosed
  · rw [h.sent_eq hactive] at hx
    rcases List.mem_append.1 hx with hx | hx
    · exact h.past_update (MethodPhase.not_isOver_of_isActive hactive) x hx
    · change ((d.setPhase m .failed).phase x.1).isOver = true
      rw [fst_of_mem_told hx, setPhase_phase_self]
      rfl

/-- The method in front goes on with the permit, and has told the register what it is to. -/
theorem Front.goOn (h : Front d front past) (houtcome : d.outcome = none)
    (hholds : (d.phase m).holds = true) (hphase : phase.holds = true)
    {more : List (ConnectMethod × C2rCfm)} (htold : told m phase = told m (d.phase m) ++ more) :
    ∃ front' past', Front { d.setPhase m phase with sent := d.sent ++ more } front' past' := by
  have hactive := MethodPhase.isActive_of_holds hholds
  refine ⟨_, past, h.move (h.alone hactive) (rfl : _ = Function.update d.phase m phase) ?_ ?_ ?_
    (h.past_update (MethodPhase.not_isOver_of_isActive hactive)) houtcome⟩
  · rw [if_pos hphase]
    exact (h.permit m).2 hholds
  · rintro (⟨result, rfl⟩ | hclosed)
    · cases hphase
    · exact hclosed
  · rw [htold, ← List.append_assoc, ← h.sent_eq hactive]

/-- The way in front returns, and the semaphore is closed, so that no other gets the permit. -/
theorem Front.finish (h : Front d front past) (houtcome : d.outcome = none)
    {result : ConnectResult} (hphase : d.phase m = .registering result 5) :
    ∃ front' past', Front { (d.setPhase m (.returned result)).release m with closed := true }
      front' past' := by
  have hholds : (d.phase m).holds = true := by rw [hphase]; rfl
  have hactive := MethodPhase.isActive_of_holds hholds
  refine ⟨_, past, h.move (h.alone hactive)
    (rfl : _ = Function.update d.phase m (.returned result)) ?_ (fun _ => rfl) ?_
    (h.past_update (MethodPhase.not_isOver_of_isActive hactive)) houtcome⟩
  · exact if_pos ((h.permit m).2 hholds)
  · refine (h.sent_eq hactive).trans ?_
    rw [hphase]
    rfl

/-- One step leaves some way in front of all that were told of. -/
theorem Front.progress (h : Front d front past) (houtcome : d.outcome = none) (e : Event) :
    ∃ front' past', Front (d.progress reg e) front' past' := by
  cases e with
  | begin m =>
    rw [FindCamera.progress]
    split_ifs with hbegin
    -- A way that begins is quiet: it neither holds the permit nor has told the register anything.
    · refine ⟨front, past, h.quiet ?_ ?_ ?_⟩
      · rw [hbegin.1]
        rfl
      · rw [hbegin.1]
        rfl
      · cases m <;> rw [FindCamera.begin] <;> (try split_ifs) <;> rfl
    · exact ⟨front, past, h⟩
  | d2cT m msg addr =>
    rw [FindCamera.progress]
    split_ifs with haccept
    · obtain ⟨-, hphase, -⟩ := haccept
      exact ⟨front, past, h.quiet (by rw [hphase]; rfl) (by rw [hphase]; rfl) rfl⟩
    · exact ⟨front, past, h⟩
  | acquire m =>
    rw [FindCamera.progress]
    split
    · rename_i found hphase
      split_ifs with hclosed hpermit
      · exact ⟨front, past, h.quiet (by rw [hphase]; rfl) (by rw [hphase]; rfl) rfl⟩
      -- Nobody else holds the permit, so this way becomes the front.
      · exact h.acquire houtcome hphase hpermit (Bool.eq_false_of_not_eq_true hclosed)
      · exact ⟨front, past, h⟩
    · exact ⟨front, past, h⟩
  | d2cCfm m msg addr =>
    rw [FindCamera.progress]
    split
    · rename_i hphase
      split_ifs
      · exact ⟨front, past, h.quiet (by rw [hphase]; rfl) (by rw [hphase]; rfl) rfl⟩
      · exact ⟨front, past, h⟩
    · rename_i found hphase
      split_ifs
      -- The front goes on from the confirmation to its report, and nothing is sent yet.
      · have hmove := h.goOn houtcome (by rw [hphase]; rfl)
          (rfl : (MethodPhase.registering (result reg (found.getD (addr, msg.did))) 0).holds = true)
          (by rw [hphase]; exact (List.append_nil []).symm)
        rw [List.append_nil] at hmove
        exact hmove
      · exact ⟨front, past, h⟩
    · exact ⟨front, past, h⟩
  | tell m =>
    rw [FindCamera.progress]
    split
    · rename_i result sent hphase
      split_ifs
      -- One more confirmation of the front, at the end of what it has told.
      · refine h.goOn houtcome (by rw [hphase]; rfl) rfl ?_
        rw [hphase]
        exact List.replicate_succ'
      · exact ⟨front, past, h⟩
    · exact ⟨front, past, h⟩
  | fail m =>
    rw [FindCamera.progress]
    split
    · rename_i hphase
      -- A way that only waits cannot hold the permit, and giving it back changes nothing.
      have hpermit : d.permit ≠ some m := fun heq => by
        have hholds := (h.permit m).1 heq
        rw [hphase] at hholds
        cases hholds
      have hrelease : (d.setPhase m .failed).release m = d.setPhase m .failed := by
        rw [release, setPhase, if_neg hpermit]
      rw [hrelease]
      exact ⟨front, past, h.quiet (by rw [hphase]; rfl) (by rw [hphase]; rfl) rfl⟩
    · rename_i found hphase
      exact h.fail houtcome (by rw [hphase]; rfl)
    · rename_i hphase
      split_ifs
      · exact h.fail houtcome (by rw [hphase]; rfl)
      · exact ⟨front, past, h⟩
    · exact ⟨front, past, h⟩
  | finish m =>
    rw [FindCamera.progress]
    split
    · rename_i result hphase
      exact h.finish houtcome hphase
    · exact ⟨front, past, h⟩
  | poll m =>
    rw [FindCamera.progress]
    split_ifs
    · exact ⟨front, past, h⟩
    -- The future returns either with a result or because every way has ended.
    · split
      · rename_i result hphase
        refine h.dropAll _ _ d.ended fun result' hresult => ⟨m, ?_⟩
        rw [hphase, Option.some.inj (Option.some.inj hresult)]
      · refine h.dropAll _ _ _ fun result' hresult => ?_
        split_ifs at hresult
        cases hresult
      · exact ⟨front, past, h⟩

/-- In every run, what was sent is by ways that came to nothing, and then by the one in front. -/
theorem front_run (reg : RegisterResult) (allowed : DiscoveryBranch → Bool)
    (events : List Event) : ∃ front past, Front (run reg allowed events) front past := by
  induction events using List.reverseRecOn with
  | nil =>
    refine ⟨none, [], fun m hm => ?_, fun m => iff_of_false nofun nofun, nofun, rfl, nofun, nofun⟩
    cases hm
  | append_singleton events e ih =>
    obtain ⟨front, past, h⟩ := ih
    rw [run_concat, step]
    split_ifs with houtcome
    · exact h.progress houtcome e
    · exact ⟨front, past, h⟩

theorem returned_unique (reg : RegisterResult) (allowed : DiscoveryBranch → Bool)
    (events : List Event) {m m' : ConnectMethod} {result result' : ConnectResult}
    (h : (run reg allowed events).phase m = .returned result)
    (h' : (run reg allowed events).phase m' = .returned result') : m' = m := by
  obtain ⟨front, past, hfront⟩ := front_run reg allowed events
  exact hfront.alone (by rw [h]; rfl) m' (by rw [h']; rfl)

/-- The register knows the way that is taken, and was told of no other one that goes on. -/
theorem sent_of_outcome (reg : RegisterResult) (allowed : DiscoveryBranch → Bool)
    (events : List Event) (result : ConnectResult)
    (h : (run reg allowed events).outcome = some (some result)) :
    ∃ m past, (run reg allowed events).phase m = .returned result ∧
      (run reg allowed events).sent = past ++ List.replicate 5 (m, c2rCfm m result) ∧
      ∀ x ∈ past, ((run reg allowed events).phase x.1).isOver = true := by
  obtain ⟨front, past, hfront⟩ := front_run reg allowed events
  obtain ⟨m, hm⟩ := hfront.outcome result h
  refine ⟨m, past, hm, ?_, hfront.past⟩
  have hsent := hfront.sent_eq (m := m) (by rw [hm]; rfl)
  rwa [hm] at hsent

/-- A registration that knows the camera and a relay. -/
def relayed : RegisterResult :=
  { reg := ⟨.v4 192 168 1 1, 58200⟩, sid := 42, clientId := 7
    dev := some ⟨.v4 192 168 1 50, 2018⟩, dmap := none
    relay := some ⟨.v4 192 168 1 1, 58100⟩ }

/-- The camera answers itself, the register is told so twice and then cannot be reached, and the
    relay answers. -/
def relayAnswers : List Event :=
  [.begin .clientInitiatedDev, .begin .clientInitiatedRelay,
    .d2cCfm .clientInitiatedDev ⟨42, 7, 3, "local"⟩ ⟨.v4 192 168 1 50, 2018⟩,
    .acquire .clientInitiatedDev, .acquire .clientInitiatedRelay, .tell .clientInitiatedDev,
    .tell .clientInitiatedDev, .fail .clientInitiatedDev, .poll .clientInitiatedDev,
    .acquire .clientInitiatedRelay,
    .d2cCfm .clientInitiatedRelay ⟨42, 7, 3, "relay"⟩ ⟨.v4 192 168 1 1, 58100⟩,
    .tell .clientInitiatedRelay, .tell .clientInitiatedRelay, .tell .clientInitiatedRelay,
    .tell .clientInitiatedRelay, .tell .clientInitiatedRelay, .finish .clientInitiatedRelay,
    .poll .clientInitiatedRelay]

theorem outcome_relayAnswers : (run relayed (fun _ => true) relayAnswers).outcome =
    some (some ⟨⟨.v4 192 168 1 1, 58100⟩, 7, 3, 42⟩) := by
  decide +kernel

/-- Another way had told the register three times, and then failed. -/
theorem sent_of_outcome_relay : ∃ m past, past ≠ [] ∧
    (run relayed (fun _ => true) relayAnswers).sent = past ++ List.replicate 5
      (m, c2rCfm m ⟨⟨.v4 192 168 1 1, 58100⟩, 7, 3, 42⟩) ∧
    ∀ x ∈ past, ((run relayed (fun _ => true) relayAnswers).phase x.1).isOver = true := by
  obtain ⟨m, past, -, hsent, hover⟩ :=
    sent_of_outcome relayed _ relayAnswers _ outcome_relayAnswers
  refine ⟨m, past, ?_, hsent, hover⟩
  rintro rfl
  have hlength : (run relayed (fun _ => true) relayAnswers).sent.length = 7 := by decide +kernel
  rw [hsent] at hlength
  cases hlength

/-! ## What was answered -/

/-- The camera has answered, or has called. -/
def Found (reg : RegisterResult) (events : List Event) (m : ConnectMethod)
    (found : SocketAddr × Int32) : Prop :=
  if m.deviceInitiated = true then
    ∃ msg, .d2cT m msg found.1 ∈ events ∧ acceptT reg m msg found.1 = true ∧ msg.did = found.2
  else ∃ msg, .d2cCfm m msg found.1 ∈ events ∧ acceptCfm reg m none msg = true ∧ msg.did = found.2

/-- The camera has answered with the ids of the registration, for this way: from the address that
    is taken, where the client has called; and where the camera has called, it has called from
    there before, which is its outer address. -/
structure Answered (reg : RegisterResult) (events : List Event) (m : ConnectMethod)
    (result : ConnectResult) : Prop where
  clientId : result.clientId = reg.clientId
  sid : result.sid = reg.sid
  found : Found reg events m (result.addr, result.cameraId)
  confirmed : ∃ found msg addr, .d2cCfm m msg addr ∈ events ∧ acceptCfm reg m found msg = true ∧
    msg.did = result.cameraId ∧ (m.deviceInitiated = false → addr = result.addr)

/-- What has to be behind a phase. -/
def Backed (reg : RegisterResult) (events : List Event) (m : ConnectMethod) :
    MethodPhase → Prop
  | .queued found | .confirming found =>
    match found with
    | some found => m ≠ .clientInitiatedRelay ∧ Found reg events m found
    | none => m = .clientInitiatedRelay
  | .registering result _ | .returned result => Answered reg events m result
  | _ => True

theorem Found.mono {events events' : List Event} (hsub : events ⊆ events')
    {found : SocketAddr × Int32} (h : Found reg events m found) : Found reg events' m found := by
  rw [Found] at h ⊢
  split_ifs at h ⊢
  · obtain ⟨msg, hmem, hrest⟩ := h
    exact ⟨msg, hsub hmem, hrest⟩
  · obtain ⟨msg, hmem, hrest⟩ := h
    exact ⟨msg, hsub hmem, hrest⟩

/-- Where the client has called, the answer is what it waits for. -/
theorem Found.confirmed {events : List Event} {found : SocketAddr × Int32}
    (h : Found reg events m found) (hm : m.deviceInitiated = false) :
    ∃ accepted msg addr, .d2cCfm m msg addr ∈ events ∧ acceptCfm reg m accepted msg = true ∧
      msg.did = found.2 ∧ (m.deviceInitiated = false → addr = found.1) := by
  rw [Found, if_neg (by rw [hm]; exact Bool.false_ne_true)] at h
  obtain ⟨msg, hmem, haccept, hdid⟩ := h
  exact ⟨none, msg, found.1, hmem, haccept, hdid, fun _ => rfl⟩

theorem Backed.mono {events events' : List Event} (hsub : events ⊆ events')
    (h : Backed reg events m phase) : Backed reg events' m phase := by
  cases phase with
  | queued found | confirming found =>
    cases found with
    | none => exact h
    | some found => exact ⟨h.1, h.2.mono hsub⟩
  | registering result sent | returned result =>
    obtain ⟨found, msg, addr, hmem, hrest⟩ := h.confirmed
    exact ⟨h.clientId, h.sid, h.found.mono hsub, found, msg, addr, hsub hmem, hrest⟩
  | _ => trivial

/-- A way that is dropped needs nothing behind it. -/
theorem Backed.drop {events : List Event} (h : Backed reg events m phase) :
    Backed reg events m phase.drop := by
  cases phase with
  | returned result => exact h
  | _ => trivial

/-- What the camera says to be itself is what it was called. -/
theorem did_of_acceptCfm {found : Option (SocketAddr × Int32)} {msg : D2cCfm}
    (hm : m.deviceInitiated = true) (h : acceptCfm reg m found msg = true) :
    ∃ addr, found = some (addr, msg.did) := by
  cases m with
  | deviceInitiatedDev | deviceInitiatedMap =>
    simp only [acceptCfm, Bool.and_eq_true] at h
    cases found with
    | none => simp at h
    | some found =>
      obtain ⟨addr, did⟩ := found
      have hdid : did = msg.did := by simpa using h.2.1
      exact ⟨addr, by rw [hdid]⟩
  | _ => cases hm

theorem backed_setPhase {events : List Event} (h : ∀ m, Backed reg events m (d.phase m))
    (hphase : Backed reg events m phase) (m' : ConnectMethod) :
    Backed reg events m' ((d.setPhase m phase).phase m') := by
  by_cases hne : m' = m
  · subst hne
    rw [setPhase_phase_self]
    exact hphase
  · rw [setPhase_phase_of_ne hne]
    exact h m'

/-- Whoever gets the permit has found what it confirms. -/
theorem backed_admitted {events : List Event} {found : Option (SocketAddr × Int32)}
    (h : Backed reg events m (.queued found)) : Backed reg events m (admitted reg m found) := by
  rw [admitted.eq_def]
  split
  · obtain ⟨-, hfound⟩ := h
    exact ⟨rfl, rfl, hfound, hfound.confirmed rfl⟩
  · exact h

/-- The answer that a method with the permit waits for. -/
theorem backed_confirmed {events : List Event} {found : Option (SocketAddr × Int32)}
    (h : Backed reg events m (.confirming found)) {msg : D2cCfm} {addr : SocketAddr}
    (hmem : .d2cCfm m msg addr ∈ events) (haccept : acceptCfm reg m found msg = true) :
    Answered reg events m (result reg (found.getD (addr, msg.did))) := by
  cases found with
  | none =>
    obtain rfl : m = .clientInitiatedRelay := h
    exact ⟨rfl, rfl, ⟨msg, hmem, haccept, rfl⟩, none, msg, addr, hmem, haccept, rfl, fun _ => rfl⟩
  | some found =>
    obtain ⟨-, hfound⟩ := h
    refine ⟨rfl, rfl, hfound, ?_⟩
    rcases Bool.eq_false_or_eq_true m.deviceInitiated with hdevice | hdevice
    · obtain ⟨addr', hfound⟩ := did_of_acceptCfm hdevice haccept
      refine ⟨some found, msg, addr, hmem, haccept, by rw [Option.some.inj hfound]; rfl,
        fun hm => ?_⟩
      cases hm.symm.trans hdevice
    · exact hfound.confirmed hdevice

/-- One step: whatever phase a way comes to, the datagrams that lead there have come. -/
theorem backed_progress {events : List Event} (h : ∀ m, Backed reg events m (d.phase m))
    (e : Event) (m' : ConnectMethod) :
    Backed reg (events ++ [e]) m' ((d.progress reg e).phase m') := by
  -- What an earlier event backs is backed by the longer run too, so only the way that moves is new.
  have hsub : events ⊆ events ++ [e] := List.subset_append_left _ _
  have hbacked : ∀ m, Backed reg (events ++ [e]) m (d.phase m) := fun m => (h m).mono hsub
  have hmem : e ∈ events ++ [e] := List.mem_append_right _ List.mem_cons_self
  cases e with
  | begin m =>
    rw [progress]
    split_ifs
    · refine backed_setPhase hbacked ?_ m'
      cases m <;> rw [begin] <;> (try split_ifs) <;> trivial
    · exact hbacked m'
  | d2cT m msg addr =>
    rw [progress]
    split_ifs with haccept
    -- The tie to the D2C_T is what `Found` asks for until a D2C_CFM is accepted.
    · refine backed_setPhase hbacked ?_ m'
      refine ⟨?_, ?_⟩
      · rintro rfl
        cases haccept.1
      · rw [Found, if_pos haccept.1]
        exact ⟨msg, hmem, haccept.2.2, rfl⟩
    · exact hbacked m'
  | acquire m =>
    rw [progress]
    split
    · rename_i found hphase
      split_ifs
      · refine backed_setPhase hbacked ?_ m'
        trivial
      · refine backed_setPhase hbacked ?_ m'
        -- With the permit the way goes on from what it has found.
        exact backed_admitted (hphase ▸ hbacked m)
      · exact hbacked m'
    · exact hbacked m'
  | d2cCfm m msg addr =>
    rw [progress]
    split
    -- The way that the camera is asked to begin waits for no permit.
    · split_ifs with haccept
      · obtain ⟨rfl, haccept⟩ := haccept
        refine backed_setPhase hbacked ?_ m'
        exact ⟨nofun, msg, hmem, haccept, rfl⟩
      · exact hbacked m'
    · rename_i found hphase
      split_ifs with haccept
      · refine backed_setPhase hbacked ?_ m'
        -- The accepted D2C_CFM joins what was found before.
        exact backed_confirmed (hphase ▸ hbacked m) hmem haccept
      · exact hbacked m'
    · exact hbacked m'
  | tell m =>
    rw [progress]
    split
    · rename_i result sent hphase
      split_ifs
      · refine backed_setPhase hbacked ?_ m'
        -- The answer itself is as it was; only its report is counted.
        have hanswered := hbacked m
        rw [hphase] at hanswered
        exact hanswered
      · exact hbacked m'
    · exact hbacked m'
  | fail m =>
    rw [progress]
    split
    · refine backed_setPhase hbacked ?_ m'
      trivial
    · refine backed_setPhase hbacked ?_ m'
      trivial
    · split_ifs
      · refine backed_setPhase hbacked ?_ m'
        trivial
      · exact hbacked m'
    · exact hbacked m'
  | finish m =>
    rw [progress]
    split
    · rename_i result hphase
      refine backed_setPhase hbacked ?_ m'
      have hanswered := hbacked m
      rw [hphase] at hanswered
      exact hanswered
    · exact hbacked m'
  | poll m =>
    -- A way that is dropped keeps no answer, whatever its phase was.
    have hdrop : ∀ p : ConnectMethod → Bool,
        Backed reg (events ++ [.poll m]) m' ((d.dropAll p).phase m') := by
      intro p
      rw [dropAll]
      dsimp only
      split_ifs
      · exact (hbacked m').drop
      · exact hbacked m'
    rw [progress]
    split_ifs
    · exact hbacked m'
    · split
      · exact hdrop fun _ => true
      · exact hdrop (·.branch = m.branch)
      · exact hbacked m'

/-- A branch that is not allowed has ended before it began. -/
def Unused (branch : DiscoveryBranch) (d : FindCamera) : Prop :=
  d.ended branch = true ∧ ∀ m : ConnectMethod, m.branch = branch →
    d.phase m = .idle ∨ d.phase m = .dropped

theorem Unused.setPhase {branch : DiscoveryBranch} (h : Unused branch d) {phase : MethodPhase}
    (hm : d.phase m ≠ .idle ∧ d.phase m ≠ .dropped) : Unused branch (d.setPhase m phase) := by
  refine ⟨h.1, fun m' hm' => ?_⟩
  have hne : m' ≠ m := by
    rintro rfl
    exact (h.2 m' hm').elim hm.1 hm.2
  rw [setPhase_phase_of_ne hne]
  exact h.2 m' hm'

theorem Unused.dropAll {branch : DiscoveryBranch} (h : Unused branch d)
    (p : ConnectMethod → Bool) (o : Option (Option ConnectResult))
    {ended : DiscoveryBranch → Bool} (hended : ended branch = true) :
    Unused branch { d.dropAll p with ended, outcome := o } := by
  refine ⟨hended, fun m hm => ?_⟩
  change (if p m then (d.phase m).drop else d.phase m) = .idle ∨
    (if p m then (d.phase m).drop else d.phase m) = .dropped
  rcases h.2 m hm with hphase | hphase <;> rw [hphase] <;> split_ifs
  · exact .inr rfl
  · exact .inl rfl
  · exact .inr rfl
  · exact .inr rfl

/-- One step starts nothing in a task that is not allowed. -/
theorem Unused.progress {branch : DiscoveryBranch} (h : Unused branch d) (e : Event) :
    Unused branch (d.progress reg e) := by
  cases e with
  | begin m =>
    rw [FindCamera.progress]
    split_ifs with hbegin
    · obtain ⟨-, hended⟩ := hbegin
      refine ⟨h.1, fun m' hm' => ?_⟩
      -- A branch that has ended begins no more ways.
      have hne : m' ≠ m := by
        rintro rfl
        rw [hm', h.1] at hended
        cases hended
      rw [setPhase_phase_of_ne hne]
      exact h.2 m' hm'
    · exact h
  | d2cT m msg addr =>
    rw [FindCamera.progress]
    split_ifs with haccept
    · exact h.setPhase (by rw [haccept.2.1]; exact ⟨nofun, nofun⟩)
    · exact h
  | acquire m =>
    rw [FindCamera.progress]
    split
    · rename_i found hphase
      have hset : ∀ phase, Unused branch (d.setPhase m phase) := fun _ =>
        h.setPhase (by rw [hphase]; exact ⟨nofun, nofun⟩)
      split_ifs
      · exact hset _
      · exact hset _
      · exact h
    · exact h
  | d2cCfm m msg addr =>
    rw [FindCamera.progress]
    split
    · rename_i hphase
      split_ifs
      · exact h.setPhase (by rw [hphase]; exact ⟨nofun, nofun⟩)
      · exact h
    · rename_i found hphase
      split_ifs
      · exact h.setPhase (by rw [hphase]; exact ⟨nofun, nofun⟩)
      · exact h
    · exact h
  | tell m =>
    rw [FindCamera.progress]
    split
    · rename_i result sent hphase
      have hset : ∀ phase, Unused branch (d.setPhase m phase) := fun _ =>
        h.setPhase (by rw [hphase]; exact ⟨nofun, nofun⟩)
      split_ifs
      · exact hset _
      · exact h
    · exact h
  -- Failing leaves the branch in use, as the way was active or waiting before.
  | fail m =>
    have hset : d.phase m ≠ .idle ∧ d.phase m ≠ .dropped →
        Unused branch ((d.setPhase m .failed).release m) := fun hm => h.setPhase hm
    rw [FindCamera.progress]
    split
    · rename_i hphase
      exact hset (by rw [hphase]; exact ⟨nofun, nofun⟩)
    · rename_i hphase
      exact hset (by rw [hphase]; exact ⟨nofun, nofun⟩)
    · rename_i hphase
      split_ifs
      · exact hset (by rw [hphase]; exact ⟨nofun, nofun⟩)
      · exact h
    · exact h
  | finish m =>
    rw [FindCamera.progress]
    split
    · rename_i result hphase
      have hset : Unused branch (d.setPhase m (.returned result)) :=
        h.setPhase (by rw [hphase]; exact ⟨nofun, nofun⟩)
      exact hset
    · exact h
  -- Only the poll drops ways, and it drops whole branches.
  | poll m =>
    rw [FindCamera.progress]
    split_ifs
    · exact h
    · split
      · exact h.dropAll _ _ h.1
      · refine h.dropAll _ _ ?_
        rw [Function.update_apply]
        split_ifs
        · rfl
        · exact h.1
      · exact h

/-- Ways of a task that is not allowed are never begun. -/
theorem unused_run (reg : RegisterResult) {allowed : DiscoveryBranch → Bool}
    {branch : DiscoveryBranch} (h : allowed branch = false) (events : List Event) :
    Unused branch (run reg allowed events) := by
  induction events using List.reverseRecOn with
  | nil => exact ⟨congrArg (!·) h, fun _ _ => .inl rfl⟩
  | append_singleton events e ih =>
    rw [run_concat, step]
    split_ifs
    · exact ih.progress e
    · exact ih

/-- In every run the datagrams stand behind the phases. -/
theorem backed_run (reg : RegisterResult) (allowed : DiscoveryBranch → Bool)
    (events : List Event) (m : ConnectMethod) :
    Backed reg events m ((run reg allowed events).phase m) := by
  induction events using List.reverseRecOn generalizing m with
  | nil => trivial
  | append_singleton events e ih =>
    rw [run_concat, step]
    split_ifs
    · exact backed_progress ih e m
    · exact (ih m).mono (List.subset_append_left _ _)

/-- The camera that is taken has answered, or called, with the ids of the registration, on a way
    that is allowed. -/
theorem answered_of_outcome (reg : RegisterResult) (allowed : DiscoveryBranch → Bool)
    (events : List Event) (result : ConnectResult)
    (h : (run reg allowed events).outcome = some (some result)) :
    ∃ m, allowed m.branch = true ∧ (run reg allowed events).phase m = .returned result ∧
      Answered reg events m result := by
  obtain ⟨front, past, hfront⟩ := front_run reg allowed events
  obtain ⟨m, hm⟩ := hfront.outcome result h
  refine ⟨m, ?_, hm, ?_⟩
  · by_contra hallowed
    have hunused := unused_run reg (Bool.eq_false_of_not_eq_true hallowed) events
    rcases hunused.2 m rfl with hidle | hdropped
    · rw [hm] at hidle
      cases hidle
    · rw [hm] at hdropped
      cases hdropped
  · have hbacked := backed_run reg allowed events m
    rw [hm] at hbacked
    exact hbacked

/-- The relay is taken where it has answered from. -/
theorem answered_of_outcome_relay :
    ∃ m, Answered relayed relayAnswers m ⟨⟨.v4 192 168 1 1, 58100⟩, 7, 3, 42⟩ := by
  obtain ⟨m, -, -, hanswered⟩ :=
    answered_of_outcome relayed (fun _ => true) relayAnswers _ outcome_relayAnswers
  exact ⟨m, hanswered⟩

end FindCamera

end Bairelay
