import Bairelay.Lib.Past
import Bairelay.Wake.Client

/-!
# The registration

Before a camera is called, it is registered (`get_registration` of `connection/discovery.rs`): each
relay is asked for a server, and the client registers there. The relays are asked all at once, and
the first registration counts. When all attempts fail, the error names each of them with its
reason; and the round is tried again some times, each time after a longer wait
(`find_camera_with_discoverer`).

* `registered_once`: each server that a relay names is sent registrations for one attempt, whoever
  else names it;
* `failed_names`: the error says of each attempt once what it has met;
* `registration_ends`: a camera that cannot be registered is given up in time.
-/

namespace Bairelay

/-- Why an attempt has failed. -/
inductive AttemptError where
  | queryFailed (e : String)
  | duplicateRegServer
  | registerRefused (e : String)
  deriving DecidableEq, Inhabited

/-- The reason as the error text has it. -/
def AttemptError.text : AttemptError → String
  | .queryFailed e => "query failed: " ++ e
  | .duplicateRegServer => "duplicate reg server"
  | .registerRefused e => "register refused: " ++ e

/-- Where the attempt with a relay is. -/
inductive AttemptPhase where
  | lookingUp
  /-- It has a server, and nothing is sent there yet. -/
  | chosen (lookup : UidLookupResults)
  | registering (lookup : UidLookupResults)
  | failed (why : AttemptError)
  deriving DecidableEq

/-- An attempt that has failed. -/
def AttemptPhase.isFailed : AttemptPhase → Bool
  | .failed _ => true
  | _ => false

/-- A relay: its name and its address. -/
abbrev RelayTarget := String × SocketAddr

/-- A round with all the relays. -/
structure Registration where
  attempts : List AttemptPhase
  /-- Each server with the attempt that has put it there. -/
  checkedReg : List (ℕ × SocketAddr) := []
  /-- The registrations that were sent, where and for which attempt. -/
  sent : List (ℕ × SocketAddr) := []
  failures : List (String × String) := []
  registration : Option RegisterResult := none
  deriving DecidableEq

namespace Registration

/-- Answers, in any order, and the registrations that are sent. -/
inductive Event where
  /-- A relay answers, or does not. -/
  | lookup (i : ℕ) (answer : Except String UidLookupResults)
  /-- A registration is sent for the first time, unless there is no local address for it or it
      cannot be sent. -/
  | start (i : ℕ) (answer : Except String Unit)
  | resend (i : ℕ)
  /-- A server accepts, or does not. -/
  | register (i : ℕ) (answer : Except String RegisterResult)

variable (targets : List RelayTarget) (r : Registration)

/-- All relays are asked at once. -/
def start : Registration := { attempts := targets.map fun _ => .lookingUp }

/-- The name of a relay, as it was resolved. -/
def hostAt (i : ℕ) : String := (targets[i]?.map Prod.fst).getD ""

/-- One attempt goes on. -/
def setAttempt (i : ℕ) (phase : AttemptPhase) : Registration :=
  { r with attempts := r.attempts.set i phase }

/-- An attempt ends in vain. -/
def failWith (i : ℕ) (why : AttemptError) : Registration :=
  { r.setAttempt i (.failed why) with failures := r.failures ++ [(hostAt targets i, why.text)] }

/-- A step of the round, until one attempt has succeeded. -/
def step (e : Event) : Registration :=
  -- The first registration that is there is returned.
  if r.registration.isSome then r
  else match e with
  | .lookup i answer =>
    if r.attempts[i]? = some .lookingUp then
      match answer with
      | .error e => r.failWith targets i (.queryFailed e)
      | .ok lookup =>
        -- Two names of the register may lead to one server, which is then asked once.
        if lookup.reg ∈ r.checkedReg.map Prod.snd then r.failWith targets i .duplicateRegServer
        else
          { r.setAttempt i (.chosen lookup) with
            checkedReg := r.checkedReg ++ [(i, lookup.reg)] }
    else r
  | .start i answer =>
    match r.attempts[i]? with
    -- Between the choice and the registration the local address is looked up, which may fail.
    | some (.chosen lookup) =>
      match answer with
      | .error e => r.failWith targets i (.registerRefused e)
      | .ok _ => { r.setAttempt i (.registering lookup) with sent := r.sent ++ [(i, lookup.reg)] }
    | _ => r
  -- Every half a second, until the answer is there or the time is over.
  | .resend i =>
    match r.attempts[i]? with
    | some (.registering lookup) => { r with sent := r.sent ++ [(i, lookup.reg)] }
    | _ => r
  | .register i answer =>
    match r.attempts[i]? with
    | some (.registering _) =>
      match answer with
      | .error e => r.failWith targets i (.registerRefused e)
      | .ok result => { r with registration := some result }
    | _ => r

/-- The round after some events. -/
def run (events : List Event) : Registration := events.foldl (step targets) (start targets)

theorem run_concat (events : List Event) (e : Event) :
    run targets (events ++ [e]) = (run targets events).step targets e := List.foldl_concat ..

/-- What a round says that has failed. -/
def detail (failures : List (String × String)) : String :=
  if failures = [] then "no relays resolved"
  else ", ".intercalate (failures.map fun (host, why) => host ++ " (" ++ why ++ ")")

/-- What `get_registration` returns, once it does. -/
def outcome : Option (Except String RegisterResult) :=
  match r.registration with
  | some result => some (.ok result)
  | none =>
    if r.attempts.all AttemptPhase.isFailed then some (.error (detail r.failures)) else none

/-! ## What the attempts have met -/

/-- The answer of the relay of an attempt. -/
def lookup? (i : ℕ) : Event → Option (Except String UidLookupResults)
  | .lookup j answer => if j = i then some answer else none
  | _ => none

/-- The first answer that an attempt had from its relay. -/
def FirstLookup (events : List Event) (i : ℕ) (answer : Except String UidLookupResults) : Prop :=
  (events.filterMap (lookup? i)).head? = some answer

/-- The server that a relay has named to an attempt. -/
def Named (events : List Event) (i : ℕ) (server : SocketAddr) : Prop :=
  ∃ lookup, FirstLookup events i (.ok lookup) ∧ lookup.reg = server

/-- What has made an attempt fail: its relay, that another relay has named the same server before,
    or that it could not register there. -/
def Fails (events : List Event) (i : ℕ) : AttemptError → Prop
  | .queryFailed e => FirstLookup events i (.error e)
  | .duplicateRegServer => ∃ before lookup after,
    events = before ++ .lookup i (.ok lookup) :: after ∧ before.filterMap (lookup? i) = [] ∧
      ∃ j ≠ i, Named before j lookup.reg
  | .registerRefused e => (∃ server, Named events i server) ∧
    (.start i (.error e) ∈ events ∨ .register i (.error e) ∈ events)

variable {targets r} {events : List Event} {i : ℕ}

theorem FirstLookup.concat {answer : Except String UidLookupResults}
    (h : FirstLookup events i answer) (e : Event) : FirstLookup (events ++ [e]) i answer := by
  rw [FirstLookup, List.filterMap_append, List.head?_append, h, Option.some_or]

theorem FirstLookup.unique {answer answer' : Except String UidLookupResults}
    (h : FirstLookup events i answer) (h' : FirstLookup events i answer') : answer = answer' :=
  Option.some.inj (h.symm.trans h')

/-- The answer of an attempt that has got none is its first. -/
theorem firstLookup_concat (h : events.filterMap (lookup? i) = [])
    (answer : Except String UidLookupResults) :
    FirstLookup (events ++ [.lookup i answer]) i answer := by
  rw [FirstLookup, List.filterMap_append, h, List.nil_append]
  simp [lookup?]

/-- An attempt without an answer has no first one. -/
theorem not_firstLookup {answer : Except String UidLookupResults}
    (h : events.filterMap (lookup? i) = []) : ¬FirstLookup events i answer := by
  rw [FirstLookup, h]
  nofun

theorem Named.concat {server : SocketAddr} (h : Named events i server) (e : Event) :
    Named (events ++ [e]) i server := by
  obtain ⟨lookup, hfirst, hreg⟩ := h
  exact ⟨lookup, hfirst.concat e, hreg⟩

/-- A relay names one server: that of its first answer. -/
theorem Named.unique {server server' : SocketAddr} (h : Named events i server)
    (h' : Named events i server') : server = server' := by
  obtain ⟨lookup, hfirst, rfl⟩ := h
  obtain ⟨lookup', hfirst', rfl⟩ := h'
  cases hfirst.unique hfirst'
  rfl

/-- What is behind the phase of an attempt. -/
def Backed (events : List Event) (r : Registration) (i : ℕ) : AttemptPhase → Prop
  | .lookingUp => r.registration = none → events.filterMap (lookup? i) = []
  | .chosen lookup => (i, lookup.reg) ∈ r.checkedReg
  | .registering lookup => (i, lookup.reg) ∈ r.sent
  | .failed (.queryFailed e) => FirstLookup events i (.error e)
  | .failed .duplicateRegServer => ∃ before lookup after,
    events = before ++ .lookup i (.ok lookup) :: after ∧ before.filterMap (lookup? i) = [] ∧
      ∃ j ≠ i, Named before j lookup.reg ∧ (j, lookup.reg) ∈ r.checkedReg
  | .failed (.registerRefused e) => (∃ server, (i, server) ∈ r.checkedReg) ∧
    (.start i (.error e) ∈ events ∨ .register i (.error e) ∈ events)

/-- What has become of an attempt that has a server to itself. -/
def Owns (events : List Event) (r : Registration) (i : ℕ) (server : SocketAddr) : Prop :=
  (i, server) ∈ r.sent ∨
  (∃ lookup, r.attempts[i]? = some (.chosen lookup) ∧ lookup.reg = server) ∨
  ∃ e, r.attempts[i]? = some (.failed (.registerRefused e)) ∧ .start i (.error e) ∈ events

/-- What holds of a round: each server is taken by one attempt, to which it was named, and every
    attempt is where its answers have led it. -/
structure Inv (targets : List RelayTarget) (events : List Event) (r : Registration) : Prop where
  length : r.attempts.length = targets.length
  checked : (r.checkedReg.map Prod.snd).Nodup
  lt : ∀ x ∈ r.checkedReg, x.1 < targets.length
  named : ∀ x ∈ r.checkedReg, Named events x.1 x.2
  owns : ∀ x ∈ r.checkedReg, Owns events r x.1 x.2
  sent : ∀ x ∈ r.sent, x ∈ r.checkedReg
  phase : ∀ i phase, r.attempts[i]? = some phase → Backed events r i phase

/-- What backs an attempt stays there while other attempts go on. -/
theorem Backed.mono {phase : AttemptPhase} (h : Backed events r i phase) {r' : Registration}
    {e : Event} (hchecked : r.checkedReg ⊆ r'.checkedReg) (hsent : r.sent ⊆ r'.sent)
    (hlooking : phase = .lookingUp → r'.registration = none →
      r.registration = none ∧ lookup? i e = none) : Backed (events ++ [e]) r' i phase := by
  have hmem : events ⊆ events ++ [e] := List.subset_append_left _ _
  cases phase with
  | lookingUp =>
    intro hnone
    obtain ⟨hnone', hlookup⟩ := hlooking rfl hnone
    rw [List.filterMap_append, h hnone', List.nil_append]
    simp [hlookup]
  | chosen lookup => exact hchecked h
  | registering lookup => exact hsent h
  | failed why =>
    cases why with
    | queryFailed e' => exact h.concat e
    | duplicateRegServer =>
      obtain ⟨before, lookup, after, rfl, hfirst, j, hj, hnamed, hcheck⟩ := h
      exact ⟨before, lookup, after ++ [e], by simp, hfirst, j, hj, hnamed, hchecked hcheck⟩
    | registerRefused e' =>
      obtain ⟨⟨server, hserver⟩, hrefused⟩ := h
      exact ⟨⟨server, hchecked hserver⟩, hrefused.imp (hmem ·) (hmem ·)⟩

/-- The attempt that an event is for. -/
def Event.attempt : Event → ℕ
  | .lookup i _ | .start i _ | .resend i | .register i _ => i

/-- An event of another attempt is no answer to this one. -/
theorem lookup?_of_ne {e : Event} (h : i ≠ e.attempt) : lookup? i e = none := by
  cases e with
  | lookup j answer => exact if_neg (Ne.symm h)
  | start _ _ | resend _ | register _ _ => rfl

/-- A server stays with its attempt while other attempts go on. -/
theorem Owns.mono {server : SocketAddr} (h : Owns events r i server) {r' : Registration}
    (e : Event) (hattempt : r'.attempts[i]? = r.attempts[i]?) (hsent : r.sent ⊆ r'.sent) :
    Owns (events ++ [e]) r' i server := by
  rw [Owns, hattempt]
  rcases h with h | h | ⟨why, h, hstart⟩
  · exact .inl (hsent h)
  · exact .inr (.inl h)
  · exact .inr (.inr ⟨why, h, List.mem_append_left _ hstart⟩)

/-- No attempt gets any further. -/
theorem Inv.keep (h : Inv targets events r) {r' : Registration} {e : Event}
    (hattempts : r'.attempts = r.attempts) (hchecked : r'.checkedReg = r.checkedReg)
    (hsent : ∀ x, x ∈ r'.sent ↔ x ∈ r.sent)
    (hlooking : r'.registration = none → r.registration = none ∧
      ∀ i, r.attempts[i]? = some .lookingUp → lookup? i e = none) :
    Inv targets (events ++ [e]) r' where
  length := hattempts ▸ h.length
  checked := hchecked ▸ h.checked
  lt x hx := h.lt x (hchecked ▸ hx)
  named x hx := (h.named x (hchecked ▸ hx)).concat e
  owns x hx := (h.owns x (hchecked ▸ hx)).mono e (hattempts ▸ rfl) fun y hy => (hsent y).2 hy
  sent x hx := hchecked ▸ h.sent x ((hsent x).1 hx)
  phase i phase hi := by
    rw [hattempts] at hi
    refine (h.phase i phase hi).mono (hchecked ▸ List.Subset.refl _)
      (fun y hy => (hsent y).2 hy) fun hphase hnone => ?_
    obtain ⟨hnone', hlookup⟩ := hlooking hnone
    exact ⟨hnone', hlookup i (hphase ▸ hi)⟩

/-- An attempt gets further, and the others stay where they are. -/
theorem Inv.advance (h : Inv targets events r) {phase phase' : AttemptPhase} {e : Event}
    {r' : Registration} (hattempts : r'.attempts = r.attempts.set e.attempt phase')
    (hregistration : r'.registration = r.registration)
    (hchecked : r'.checkedReg = r.checkedReg ∨ ∃ server, server ∉ r.checkedReg.map Prod.snd ∧
      Named (events ++ [e]) e.attempt server ∧
      r'.checkedReg = r.checkedReg ++ [(e.attempt, server)])
    (hsent : r'.sent = r.sent ∨ ∃ server, (e.attempt, server) ∈ r.checkedReg ∧
      r'.sent = r.sent ++ [(e.attempt, server)])
    (howns : ∀ server, (e.attempt, server) ∈ r'.checkedReg →
      Owns (events ++ [e]) r' e.attempt server)
    (hbacked : Backed (events ++ [e]) r' e.attempt phase')
    (hphase : r.attempts[e.attempt]? = some phase) : Inv targets (events ++ [e]) r' := by
  -- Only the attempt of the event moves.
  have hsame : ∀ i, i ≠ e.attempt → r'.attempts[i]? = r.attempts[i]? := by
    intro i hi
    rw [hattempts, List.getElem?_set_ne (Ne.symm hi)]
  have hsub : r.checkedReg ⊆ r'.checkedReg := by
    rcases hchecked with heq | ⟨server, -, -, heq⟩
    · exact heq ▸ List.Subset.refl _
    · exact heq ▸ List.subset_append_left _ _
  -- What was sent stays sent.
  have hsub' : r.sent ⊆ r'.sent := by
    rcases hsent with heq | ⟨server, -, heq⟩
    · exact heq ▸ List.Subset.refl _
    · exact heq ▸ List.subset_append_left _ _
  have hlt : e.attempt < targets.length :=
    h.length ▸ (List.getElem?_eq_some_iff.1 hphase).1
  -- The fields in turn: lengths, distinct servers, bounds, names, owners, what was sent, phases.
  refine ⟨?_, ?_, fun x hx => ?_, fun x hx => ?_, fun x hx => ?_, fun x hx => ?_,
    fun i phase hi => ?_⟩
  · rw [hattempts, List.length_set]
    exact h.length
  · rcases hchecked with heq | ⟨server, hfresh, -, heq⟩
    · exact heq ▸ h.checked
    · rw [heq, List.map_append]
      -- A server that is added was not in the list.
      refine List.nodup_append.2 ⟨h.checked, List.nodup_singleton _, fun a ha b hb => ?_⟩
      obtain rfl := List.mem_singleton.1 hb
      rintro rfl
      exact hfresh ha
  · rcases hchecked with heq | ⟨server, -, -, heq⟩
    · exact h.lt x (heq ▸ hx)
    · rcases List.mem_append.1 (heq ▸ hx) with hx | hx
      · exact h.lt x hx
      · obtain rfl := List.mem_singleton.1 hx
        exact hlt
  · rcases hchecked with heq | ⟨server, -, hnamed, heq⟩
    · exact (h.named x (heq ▸ hx)).concat e
    · rcases List.mem_append.1 (heq ▸ hx) with hx | hx
      · exact (h.named x hx).concat e
      · obtain rfl := List.mem_singleton.1 hx
        exact hnamed
  · obtain ⟨j, server⟩ := x
    -- The owner of a server is its attempt, and here that is the one that moves.
    by_cases hj : j = e.attempt
    · subst hj
      exact howns server hx
    · have hold : (j, server) ∈ r.checkedReg := by
        rcases hchecked with heq | ⟨server', -, -, heq⟩
        · exact heq ▸ hx
        · refine (List.mem_append.1 (heq ▸ hx)).resolve_right fun hnew => hj ?_
          exact (Prod.mk.inj (List.mem_singleton.1 hnew)).1
      exact (h.owns _ hold).mono e (hsame j hj) hsub'
  · rcases hsent with heq | ⟨server, hserver, heq⟩
    · exact hsub (h.sent x (heq ▸ hx))
    · rcases List.mem_append.1 (heq ▸ hx) with hx | hx
      · exact hsub (h.sent x hx)
      · obtain rfl := List.mem_singleton.1 hx
        exact hsub hserver
  -- The attempt that moves is backed by assumption, the others as before.
  · by_cases hi' : i = e.attempt
    · subst hi'
      rw [hattempts, List.getElem?_set_self'] at hi
      obtain ⟨-, -, rfl⟩ := Option.map_eq_some_iff.1 hi
      exact hbacked
    · rw [hsame i hi'] at hi
      exact (h.phase i phase hi).mono hsub hsub' fun _ hnone =>
        ⟨hregistration ▸ hnone, lookup?_of_ne hi'⟩

/-- An attempt that waits for its relay has no server. -/
theorem Inv.not_mem_of_lookingUp (h : Inv targets events r) (hnone : r.registration = none)
    (hi : r.attempts[i]? = some .lookingUp) (server : SocketAddr) :
    (i, server) ∉ r.checkedReg := by
  intro hmem
  obtain ⟨lookup, hfirst, -⟩ := h.named _ hmem
  exact not_firstLookup (h.phase i _ hi hnone) hfirst

/-- A relay answers: the attempt takes the server, unless another has it. -/
theorem Inv.lookup (h : Inv targets events r) (hnone : r.registration = none)
    (hi : r.attempts[i]? = some .lookingUp) (answer : Except String UidLookupResults) :
    Inv targets (events ++ [.lookup i answer]) (r.step targets (.lookup i answer)) := by
  have hlookups := h.phase i _ hi hnone
  have hfresh := h.not_mem_of_lookingUp hnone hi
  have hfirst := firstLookup_concat hlookups answer
  rw [Registration.step.eq_def, if_neg (by rw [hnone]; exact Bool.false_ne_true)]
  dsimp only
  rw [if_pos hi]
  cases answer with
  | error e =>
    exact h.advance rfl rfl (.inl rfl) (.inl rfl) (fun server hmem => absurd hmem (hfresh _))
      hfirst hi
  | ok lookup =>
    dsimp only
    split_ifs with hmem
    · obtain ⟨⟨j, server⟩, hj, rfl⟩ := List.mem_map.1 hmem
      refine h.advance rfl rfl (.inl rfl) (.inl rfl)
        (fun server hmem => absurd hmem (hfresh _))
        ⟨events, lookup, [], rfl, hlookups, j, ?_, ?_⟩ hi
      · rintro rfl
        exact hfresh _ hj
      · exact ⟨h.named _ hj, hj⟩
    · have hlt : i < r.attempts.length := (List.getElem?_eq_some_iff.1 hi).1
      refine h.advance rfl rfl (.inr ⟨lookup.reg, hmem, ⟨lookup, hfirst, rfl⟩, rfl⟩) (.inl rfl)
        (fun server hserver => .inr (.inl ⟨lookup, List.getElem?_set_self hlt, ?_⟩))
        (List.mem_append_right _ (List.mem_singleton_self _)) hi
      rcases List.mem_append.1 hserver with hold | hnew
      · exact absurd hold (hfresh _)
      · exact (Prod.mk.inj (List.mem_singleton.1 hnew)).2.symm

theorem Inv.start (h : Inv targets events r) (hnone : r.registration = none)
    {lookup : UidLookupResults} (hi : r.attempts[i]? = some (.chosen lookup))
    (answer : Except String Unit) :
    Inv targets (events ++ [.start i answer]) (r.step targets (.start i answer)) := by
  have hlt : i < r.attempts.length := (List.getElem?_eq_some_iff.1 hi).1
  have hown : (i, lookup.reg) ∈ r.checkedReg := h.phase i _ hi
  have hserver : ∀ server, (i, server) ∈ r.checkedReg → server = lookup.reg :=
    fun server hserver => (h.named _ hserver).unique (h.named _ hown)
  rw [Registration.step.eq_def, if_neg (by rw [hnone]; exact Bool.false_ne_true)]
  dsimp only
  rw [hi]
  cases answer with
  | error e =>
    have hstart : .start i (.error e) ∈ events ++ [.start i (.error e)] :=
      List.mem_append_right _ (List.mem_singleton_self _)
    exact h.advance rfl rfl (.inl rfl) (.inl rfl)
      (fun server _ => .inr (.inr ⟨e, List.getElem?_set_self hlt, hstart⟩))
      ⟨⟨lookup.reg, hown⟩, .inl hstart⟩ hi
  | ok _ =>
    have hsent : (i, lookup.reg) ∈ r.sent ++ [(i, lookup.reg)] :=
      List.mem_append_right _ (List.mem_singleton_self _)
    exact h.advance rfl rfl (.inl rfl) (.inr ⟨lookup.reg, hown, rfl⟩)
      (fun server hmem => .inl (hserver server hmem ▸ hsent)) hsent hi

theorem Inv.register (h : Inv targets events r) (hnone : r.registration = none)
    {lookup : UidLookupResults} (hi : r.attempts[i]? = some (.registering lookup))
    (answer : Except String RegisterResult) :
    Inv targets (events ++ [.register i answer]) (r.step targets (.register i answer)) := by
  have hsent : (i, lookup.reg) ∈ r.sent := h.phase i _ hi
  have hown := h.sent _ hsent
  have hserver : ∀ server, (i, server) ∈ r.checkedReg → server = lookup.reg :=
    fun server hserver => (h.named _ hserver).unique (h.named _ hown)
  rw [Registration.step.eq_def, if_neg (by rw [hnone]; exact Bool.false_ne_true)]
  dsimp only
  rw [hi]
  cases answer with
  | error e =>
    exact h.advance rfl rfl (.inl rfl) (.inl rfl)
      (fun server hmem => .inl (hserver server hmem ▸ hsent))
      ⟨⟨lookup.reg, hown⟩, .inr (List.mem_append_right _ (List.mem_singleton_self _))⟩ hi
  | ok result => exact h.keep rfl rfl (fun _ => Iff.rfl) nofun

theorem Inv.step (h : Inv targets events r) (e : Event) :
    Inv targets (events ++ [e]) (r.step targets e) := by
  by_cases hdone : r.registration.isSome
  · rw [Registration.step.eq_def, if_pos hdone]
    refine h.keep rfl rfl (fun _ => Iff.rfl) fun hnone => ?_
    exact absurd hnone (Option.isSome_iff_ne_none.1 hdone)
  have hnone : r.registration = none := Option.not_isSome_iff_eq_none.1 hdone
  have hidle : (∀ i, r.attempts[i]? = some .lookingUp → lookup? i e = none) →
      Inv targets (events ++ [e]) r :=
    fun hlooking => h.keep rfl rfl (fun _ => Iff.rfl) fun _ => ⟨hnone, hlooking⟩
  cases e with
  | lookup i answer =>
    by_cases hi : r.attempts[i]? = some .lookingUp
    · exact h.lookup hnone hi answer
    · rw [Registration.step.eq_def, if_neg hdone]
      dsimp only
      rw [if_neg hi]
      refine hidle fun j hj => if_neg ?_
      rintro rfl
      exact hi hj
  | start i answer =>
    by_cases hi : ∃ lookup, r.attempts[i]? = some (.chosen lookup)
    · obtain ⟨lookup, hi⟩ := hi
      exact h.start hnone hi answer
    · rw [Registration.step.eq_def, if_neg hdone]
      dsimp only
      split
      · rename_i lookup hlookup
        exact absurd ⟨lookup, hlookup⟩ hi
      · exact hidle fun _ _ => rfl
  | resend i =>
    rw [Registration.step.eq_def, if_neg hdone]
    dsimp only
    split
    · rename_i lookup hi
      have hsent : (i, lookup.reg) ∈ r.sent := h.phase i _ hi
      refine h.keep rfl rfl (fun x => ?_) fun _ => ⟨hnone, fun _ _ => rfl⟩
      rw [List.mem_append, List.mem_singleton]
      exact or_iff_left_of_imp fun hx => hx ▸ hsent
    · exact hidle fun _ _ => rfl
  | register i answer =>
    by_cases hi : ∃ lookup, r.attempts[i]? = some (.registering lookup)
    · obtain ⟨lookup, hi⟩ := hi
      exact h.register hnone hi answer
    · rw [Registration.step.eq_def, if_neg hdone]
      dsimp only
      split
      · rename_i lookup hlookup
        exact absurd ⟨lookup, hlookup⟩ hi
      · exact hidle fun _ _ => rfl

theorem inv_run (targets : List RelayTarget) (events : List Event) :
    Inv targets events (run targets events) := by
  induction events using List.reverseRecOn with
  | nil =>
    refine ⟨List.length_map _, List.nodup_nil, nofun, nofun, nofun, nofun, fun i phase hi => ?_⟩
    obtain ⟨target, -, rfl⟩ := List.mem_map.1 (List.mem_of_getElem? hi)
    exact fun _ => rfl
  | append_singleton events e ih =>
    rw [run_concat]
    exact ih.step e

/-- What is said of an attempt that has failed. -/
def reasonAt (r : Registration) (i : ℕ) : String :=
  match r.attempts[i]? with
  | some (.failed why) => why.text
  | _ => ""

/-- The attempts that have failed, in their order, and what is said of them. -/
structure Ordered (targets : List RelayTarget) (r : Registration) (order : List ℕ) : Prop where
  nodup : order.Nodup
  mem : ∀ i, i ∈ order ↔ r.attempts[i]?.any AttemptPhase.isFailed = true
  failures : r.failures = order.map fun i => (hostAt targets i, reasonAt r i)

/-- An attempt that goes on is not among those that have failed, and changes nothing for them. -/
theorem Ordered.set {order : List ℕ} (h : Ordered targets r order) {phase phase' : AttemptPhase}
    (hi : r.attempts[i]? = some phase) (hphase : phase.isFailed = false) {r' : Registration}
    (hattempts : r'.attempts = r.attempts.set i phase') :
    i ∉ order ∧ (∀ j, j ∈ order ∨ j = i ∧ phase'.isFailed = true ↔
      r'.attempts[j]?.any AttemptPhase.isFailed = true) ∧
      ∀ j ∈ order, reasonAt r' j = reasonAt r j := by
  have hlt : i < r.attempts.length := (List.getElem?_eq_some_iff.1 hi).1
  have hnot : i ∉ order := by
    rw [h.mem, hi, Option.any_some, hphase]
    exact Bool.false_ne_true
  have hsame : ∀ j, j ≠ i → r'.attempts[j]? = r.attempts[j]? := by
    intro j hj
    rw [hattempts, List.getElem?_set_ne (Ne.symm hj)]
  refine ⟨hnot, fun j => ?_, fun j hj => ?_⟩
  · by_cases hj : j = i
    · subst hj
      rw [hattempts, List.getElem?_set_self hlt, Option.any_some]
      simp [hnot]
    · rw [hsame j hj, ← h.mem]
      exact or_iff_left fun hand => hj hand.1
  · rw [reasonAt, reasonAt, hsame j fun heq => hnot (heq ▸ hj)]

/-- An attempt goes on. -/
theorem Ordered.goOn {order : List ℕ} (h : Ordered targets r order) (phase' : AttemptPhase)
    {phase : AttemptPhase} (hi : r.attempts[i]? = some phase) (hphase : phase.isFailed = false)
    (hphase' : phase'.isFailed = false) {r' : Registration}
    (hattempts : r'.attempts = r.attempts.set i phase') (hfailures : r'.failures = r.failures) :
    Ordered targets r' order := by
  obtain ⟨-, hmem, hreason⟩ := h.set hi hphase hattempts
  refine ⟨h.nodup, fun j => ?_, ?_⟩
  · rw [← hmem, hphase']
    simp
  · rw [hfailures, h.failures]
    exact List.map_congr_left fun j hj => by rw [hreason j hj]

/-- An attempt fails. -/
theorem Ordered.failWith {order : List ℕ} (h : Ordered targets r order) {phase : AttemptPhase}
    (hi : r.attempts[i]? = some phase) (hphase : phase.isFailed = false) (why : AttemptError) :
    Ordered targets (r.failWith targets i why) (order ++ [i]) := by
  have hattempts : (r.failWith targets i why).attempts = r.attempts.set i (.failed why) := rfl
  obtain ⟨hnot, hmem, hreason⟩ := h.set hi hphase hattempts
  have hlt : i < r.attempts.length := (List.getElem?_eq_some_iff.1 hi).1
  have hwhy : reasonAt (r.failWith targets i why) i = why.text := by
    have hset : (r.failWith targets i why).attempts[i]? = some (.failed why) :=
      List.getElem?_set_self hlt
    rw [reasonAt, hset]
  refine ⟨List.nodup_append.2 ⟨h.nodup, List.nodup_singleton i, fun j hj k hk => ?_⟩,
    fun j => ?_, ?_⟩
  · obtain rfl := List.mem_singleton.1 hk
    rintro rfl
    exact hnot hj
  · rw [← hmem, List.mem_append, List.mem_singleton]
    simp [AttemptPhase.isFailed]
  · change r.failures ++ [(hostAt targets i, why.text)] = _
    rw [List.map_append, List.map_singleton, hwhy, h.failures]
    exact congrArg (· ++ _) (List.map_congr_left fun j hj => by rw [hreason j hj])

/-- One step: whoever fails comes last in the order. -/
theorem Ordered.step {order : List ℕ} (h : Ordered targets r order) (e : Event) :
    ∃ order', Ordered targets (r.step targets e) order' := by
  have hsame : ∃ order', Ordered targets r order' := ⟨order, h⟩
  rw [Registration.step.eq_def]
  split_ifs
  · exact hsame
  cases e with
  | lookup i answer =>
    dsimp only
    split_ifs with hi
    · cases answer with
      | error e => exact ⟨_, h.failWith hi rfl _⟩
      | ok lookup =>
        dsimp only
        split_ifs
        · exact ⟨_, h.failWith hi rfl _⟩
        · exact ⟨order, h.goOn (.chosen lookup) hi rfl rfl rfl rfl⟩
    · exact hsame
  | start i answer =>
    dsimp only
    split
    · rename_i lookup hi
      cases answer with
      | error e => exact ⟨_, h.failWith hi rfl _⟩
      | ok _ => exact ⟨order, h.goOn (.registering lookup) hi rfl rfl rfl rfl⟩
    · exact hsame
  | resend i =>
    dsimp only
    split
    · exact ⟨order, h.nodup, h.mem, h.failures⟩
    · exact hsame
  | register i answer =>
    dsimp only
    split
    · rename_i lookup hi
      cases answer with
      | error e => exact ⟨_, h.failWith hi rfl _⟩
      | ok result => exact ⟨order, h.nodup, h.mem, h.failures⟩
    · exact hsame

/-- A failed attempt has met what its reason says. -/
theorem Inv.fails (h : Inv targets events r) {why : AttemptError}
    (hi : r.attempts[i]? = some (.failed why)) : Fails events i why := by
  have hbacked := h.phase i _ hi
  cases why with
  | queryFailed e => exact hbacked
  | duplicateRegServer =>
    obtain ⟨before, lookup, after, hevents, hlookups, j, hj, hnamed, -⟩ := hbacked
    exact ⟨before, lookup, after, hevents, hlookups, j, hj, hnamed⟩
  | registerRefused e =>
    obtain ⟨⟨server, hserver⟩, hrefused⟩ := hbacked
    exact ⟨⟨server, h.named _ hserver⟩, hrefused⟩

end Registration

/-! ## The rounds -/

/-- How a round goes, if it is given the time, and why there is no discoverer for the next one. -/
structure RegistrationRound (ε : Type) where
  took : Duration
  outcome : Except ε RegisterResult
  noDiscoverer : Option ε := none

/-- A round that takes longer is given up. -/
def registrationRoundTimeout : Duration := .ofSecs 8

/-- `1, 2, 4, 8, 16` seconds, and then `30`. -/
def registrationBackoff (retry : ℕ) : Duration := .ofSecs (min (1 <<< min retry 5) 30)

namespace RegistrationRound

variable {ε : Type} (discoveryTimeout : ε)

/-- The time a round takes, and its result. -/
def bounded (round : RegistrationRound ε) : Duration × Except ε RegisterResult :=
  if round.took < registrationRoundTimeout then (round.took, round.outcome)
  else (registrationRoundTimeout, .error discoveryTimeout)

/-- The registration of a round that succeeds in its time. -/
def success (round : RegistrationRound ε) : Option RegisterResult :=
  (round.bounded discoveryTimeout).2.toOption

/-- The time until a result, and the result; `none` while it goes on. With a `maxRetry` of `0` it
    goes on for ever. -/
def loop (maxRetry : ℕ) :
    ℕ → List (RegistrationRound ε) → Duration × Option (Except ε RegisterResult)
  | _, [] => (0, none)
  | retry, round :: rounds =>
    let (took, outcome) := round.bounded discoveryTimeout
    match outcome with
    | .ok result => (took, some (.ok result))
    | .error e =>
      if maxRetry ≤ retry ∧ 0 < maxRetry then (took, some (.error e))
      else
        match round.noDiscoverer with
        | some e => (took + registrationBackoff retry, some (.error e))
        | none =>
          let (rest, outcome) := loop maxRetry (retry + 1) rounds
          (took + registrationBackoff retry + rest, outcome)

theorem fst_bounded_le (round : RegistrationRound ε) :
    (round.bounded discoveryTimeout).1 ≤ registrationRoundTimeout := by
  rw [bounded]
  split_ifs with h
  · exact le_of_lt h
  · exact le_refl _

/-- All the time that the rounds from `retry` on may take. -/
def budget (retry : ℕ) : ℕ → Duration
  | 0 => registrationRoundTimeout
  | n + 1 => registrationRoundTimeout + registrationBackoff retry + budget (retry + 1) n

/-- After its last retry the loop has returned, within the time of its rounds and waits. -/
theorem loop_ends {maxRetry : ℕ} (hmax : 0 < maxRetry) (n : ℕ) {retry : ℕ}
    (hretry : retry + n = maxRetry) {rounds : List (RegistrationRound ε)}
    (hrounds : n < rounds.length) :
    (loop discoveryTimeout maxRetry retry rounds).2.isSome = true ∧
      (loop discoveryTimeout maxRetry retry rounds).1 ≤ budget retry n := by
  induction n generalizing retry rounds with
  | zero =>
    cases rounds with
    | nil => cases hrounds
    | cons round rounds =>
      have hle := fst_bounded_le discoveryTimeout round
      rw [loop]
      rcases hbounded : round.bounded discoveryTimeout with ⟨took, outcome⟩
      rw [hbounded] at hle
      cases outcome with
      | ok result => exact ⟨rfl, hle⟩
      | error e =>
        dsimp only
        rw [if_pos ⟨by omega, hmax⟩]
        exact ⟨rfl, hle⟩
  | succ n ih =>
    cases rounds with
    | nil => cases hrounds
    | cons round rounds =>
      have hle := fst_bounded_le discoveryTimeout round
      have hlength : n < rounds.length := Nat.lt_of_succ_lt_succ hrounds
      obtain ⟨hsome, hrest⟩ := ih (by omega : retry + 1 + n = maxRetry) hlength
      rw [loop, budget]
      rcases hbounded : round.bounded discoveryTimeout with ⟨took, outcome⟩
      rw [hbounded] at hle
      cases outcome with
      | ok result =>
        exact ⟨rfl, hle.trans ((Nat.le_add_right _ _).trans (Nat.le_add_right _ _))⟩
      | error e =>
        dsimp only
        rw [if_neg (by omega)]
        cases round.noDiscoverer with
        | some e => exact ⟨rfl, (Nat.add_le_add_right hle _).trans (Nat.le_add_right _ _)⟩
        | none => exact ⟨hsome, Nat.add_le_add (Nat.add_le_add_right hle _) hrest⟩

/-- The loop returns what the first successful round gives. -/
theorem loop_success {maxRetry : ℕ} (hmax : 0 < maxRetry) (n : ℕ) {retry : ℕ}
    (hretry : retry + n = maxRetry) (rounds : List (RegistrationRound ε))
    (hfresh : ∀ round ∈ rounds, round.noDiscoverer = none) (result : RegisterResult) :
    (loop discoveryTimeout maxRetry retry rounds).2 = some (.ok result) ↔
      (rounds.take (n + 1)).findSome? (success discoveryTimeout) = some result := by
  induction n generalizing retry rounds with
  | zero =>
    cases rounds with
    | nil => exact iff_of_false nofun nofun
    | cons round rounds =>
      rw [loop, List.take_succ_cons, List.take_zero, List.findSome?_cons, success]
      rcases round.bounded discoveryTimeout with ⟨took, outcome⟩
      cases outcome with
      | ok result' => simp [Except.toOption]
      | error e =>
        dsimp only
        rw [if_pos ⟨by omega, hmax⟩]
        exact iff_of_false nofun nofun
  | succ n ih =>
    cases rounds with
    | nil => exact iff_of_false nofun nofun
    | cons round rounds =>
      have hrest := ih (by omega : retry + 1 + n = maxRetry) rounds
        fun round' hround' => hfresh round' (List.mem_cons_of_mem _ hround')
      rw [loop, List.take_succ_cons, List.findSome?_cons, success]
      rcases round.bounded discoveryTimeout with ⟨took, outcome⟩
      cases outcome with
      | ok result' => simp [Except.toOption]
      | error e =>
        dsimp only
        rw [if_neg (by omega), hfresh round List.mem_cons_self]
        exact hrest

theorem budget_eq (retry n : ℕ) : budget retry n = (n + 1) * registrationRoundTimeout +
    ((List.range' retry n).map registrationBackoff).sum := by
  induction n generalizing retry with
  | zero => rw [budget, List.range'_zero, List.map_nil, List.sum_nil, Nat.add_zero, Nat.zero_add,
      Nat.one_mul]
  | succ n ih =>
    rw [budget, ih, List.range'_succ, List.map_cons, List.sum_cons]
    ring

/-- A registration ends in time; and it succeeds exactly if one of the first rounds does, when there
    is a discoverer for each of them. -/
theorem registration_ends (maxRetry : ℕ) (hmax : 0 < maxRetry)
    (rounds : List (RegistrationRound ε)) (hrounds : maxRetry < rounds.length) :
    ∃ outcome, (loop discoveryTimeout maxRetry 0 rounds).2 = some outcome ∧
      (loop discoveryTimeout maxRetry 0 rounds).1 ≤
        (maxRetry + 1) * registrationRoundTimeout +
          ((List.range maxRetry).map registrationBackoff).sum ∧
      ((∀ round ∈ rounds, round.noDiscoverer = none) → ∀ result, outcome = .ok result ↔
        (rounds.take (maxRetry + 1)).findSome? (success discoveryTimeout) = some result) := by
  obtain ⟨hsome, htime⟩ := loop_ends discoveryTimeout hmax maxRetry (Nat.zero_add _) hrounds
  obtain ⟨outcome, houtcome⟩ := Option.isSome_iff_exists.1 hsome
  refine ⟨outcome, houtcome, ?_, fun hfresh result => ?_⟩
  · rw [budget_eq, ← List.range_eq_range'] at htime
    exact htime
  · rw [← loop_success discoveryTimeout hmax maxRetry (Nat.zero_add _) rounds hfresh, houtcome,
      Option.some.injEq]

/-- A registration with the server of a camera. -/
def accepted : RegisterResult :=
  { reg := ⟨.v4 192 168 1 3, 58200⟩, sid := 42, clientId := 7
    dev := some ⟨.v4 192 168 1 50, 2018⟩, dmap := none, relay := none }

/-- The second round would succeed and takes too long, the third one succeeds. -/
def thirdRound : List (RegistrationRound String) :=
  [⟨.ofSecs 3, .error "no relay", none⟩, ⟨.ofSecs 9, .ok { accepted with sid := 41 }, none⟩,
    ⟨.ofSecs 1, .ok accepted, none⟩] ++ List.replicate 3 ⟨.ofSecs 3, .error "no relay", none⟩

/-- With `5` retries as it is set, a camera that nobody knows is given up after at most `79`
    seconds, and one that is known in the third round is registered. -/
theorem registration_ends_unknown :
    (loop "discovery timeout" 5 0 (List.replicate 6 ⟨.ofSecs 3, .error "no relay", none⟩)).1 ≤
      .ofSecs 79 ∧
    (loop "discovery timeout" 5 0 thirdRound).2 = some (.ok accepted) := by
  constructor
  · obtain ⟨-, -, htime, -⟩ := registration_ends "discovery timeout" 5 (by decide)
      (List.replicate 6 ⟨.ofSecs 3, .error "no relay", none⟩) (by decide)
    have hbudget : (5 + 1) * registrationRoundTimeout +
        ((List.range 5).map registrationBackoff).sum = .ofSecs 79 := by decide
    rwa [hbudget] at htime
  · obtain ⟨outcome, houtcome, -, hsuccess⟩ :=
      registration_ends "discovery timeout" 5 (by decide) thirdRound (by decide)
    have hfound : (thirdRound.take (5 + 1)).findSome? (success "discovery timeout") =
        some accepted := by decide +kernel
    rw [houtcome, (hsuccess (by decide +kernel) accepted).2 hfound]

end RegistrationRound

end Bairelay
