import Bairelay.Bc.Codex
import Bairelay.Lib.Past

/-!
# Runs of the message codec

One codec encodes and decodes the messages of a connection, in any order. A
session is such a run, with the log of the messages that went through.

* `pendingSessionAes_iff`: the session key that is armed is that of the signed
  login encoded last, as long as no reply to it was decoded;
* `inBinMode_iff`: a message number is in binary mode if the last message of that
  number that says so switched it on.

The results about whole runs rest on these two:

* `keySwitch`: when a session key is applied, and how the reply that does it is
  decoded;
* `binMode_scoped_iff`: when a payload is taken for binary that should be XML.
-/

namespace Bairelay

open Streaming Past

namespace BcCodex

/-- A call of the codec; the decoder is called with any buffer. -/
inductive Call (ρ : Type) where
  | encode (item : Bc ρ)
  | decode (src : Bytes)

/-- A message that was written, read, or read without being delivered, since it
    asks for an unknown protocol. -/
inductive Event (ρ : Type) where
  | encoded (item : Bc ρ)
  | decoded (bc : Bc ρ)
  | refused (bc : Bc ρ)
  deriving DecidableEq

/-- A codec, and what it has done. -/
structure Session (ρ : Type) where
  codex : BcCodex
  log : List (Event ρ)

variable {ρ : Type} (crates : Crates ρ)

/-- What a call of the decoder logs. -/
def decodeEvent (codex : BcCodex) (src : Bytes) : Option (Event ρ) :=
  match Bc.deserialize crates codex.context src with
  | .done _ bc =>
    match (codex.resolveLogin bc.bcMeta).negotiate crates bc with
    | .ok _ => some (.decoded bc)
    | .error _ => some (.refused bc)
  | .incomplete _ => none
  | .error _ => none

/-- A call changes the codec, and leaves in the log what went through it. -/
def Session.step (s : Session ρ) : Call ρ → Session ρ
  | .encode item => ⟨(s.codex.encode crates item).1, s.log ++ [.encoded item]⟩
  | .decode src =>
    ⟨(decode crates s.codex src).1, s.log ++ (decodeEvent crates s.codex src).toList⟩

/-- A run of calls on a new codec. -/
def run (credentials : Credentials) (calls : List (Call ρ)) : Session ρ :=
  calls.foldl (Session.step crates) ⟨.new credentials, []⟩

/-! ## What a call does -/

/-- The reply to a login negotiates a protocol, which is this one. -/
inductive Announces (credentials : Credentials) (bc : Bc ρ) : EncryptionProtocol → Prop
  | unencrypted {nonce : String} (hnonce : replyNonce bc = some nonce)
    (hcode : bc.bcMeta.responseCode &&& 0xff = 0x00) : Announces credentials bc .unencrypted
  | bcEncrypt {nonce : String} (hnonce : replyNonce bc = some nonce)
    (hcode : bc.bcMeta.responseCode &&& 0xff = 0x01) : Announces credentials bc .bcEncrypt
  | aes {nonce : String} (hnonce : replyNonce bc = some nonce)
    (hcode : bc.bcMeta.responseCode &&& 0xff = 0x02) :
    Announces credentials bc (.mkAes (credentials.makeAeskey crates nonce))
  | fullAes {nonce : String} (hnonce : replyNonce bc = some nonce)
    (hcode : bc.bcMeta.responseCode &&& 0xff = 0x12) :
    Announces credentials bc (.mkFullAes (credentials.makeAeskey crates nonce))

variable {crates}

/-- A message either answers no login, and nothing changes, or announces the protocol that is used
    from now on. -/
theorem negotiate_cases {codex codex' : BcCodex} {bc : Bc ρ}
    (h : codex.negotiate crates bc = .ok codex') :
    (replyNonce bc = none ∧ codex' = codex) ∨
      ∃ protocol, Announces crates codex.context.credentials bc protocol ∧
        codex' = { codex with context := codex.context.setEncrypted protocol } := by
  rw [negotiate] at h
  split at h
  · next hnonce => exact .inl ⟨hnonce, (Except.ok.inj h).symm⟩
  · next nonce hnonce =>
    dsimp only at h
    refine .inr ?_
    split_ifs at h with h₀ h₁ h₂ h₃
    · exact ⟨_, .unencrypted hnonce h₀, (Except.ok.inj h).symm⟩
    · exact ⟨_, .bcEncrypt hnonce h₁, (Except.ok.inj h).symm⟩
    · exact ⟨_, .aes hnonce h₂, (Except.ok.inj h).symm⟩
    · exact ⟨_, .fullAes hnonce h₃, (Except.ok.inj h).symm⟩

/-- Only a reply with `0xdd` negotiates, so the one accepting a login does not. -/
theorem replyNonce_of_accepted {bc : Bc ρ} (h : bc.bcMeta.responseCode = 200) :
    replyNonce bc = none := by
  rw [replyNonce]
  split
  · rw [if_neg]
    rintro ⟨-, hcode⟩
    rw [h] at hcode
    exact absurd hcode (by decide)
  · rfl

/-- Nonces are only found in answers to a login. -/
theorem msgId_of_replyNonce {bc : Bc ρ} (h : (replyNonce bc).isSome) : bc.bcMeta.msgId = 1 := by
  rw [replyNonce] at h
  split at h
  · split at h
    · next hid => exact hid.1
    · exact nomatch h
  · exact nomatch h

/-- Going over to raw bytes has nothing to do with the session key. -/
theorem switchBinMode_protocol (codex : BcCodex) (bc : Bc ρ) :
    (codex.switchBinMode bc).context.encryptionProtocol = codex.context.encryptionProtocol ∧
      (codex.switchBinMode bc).context.credentials = codex.context.credentials ∧
      (codex.switchBinMode bc).pendingSessionAes = codex.pendingSessionAes := by
  rw [switchBinMode]
  split
  · split <;> exact ⟨rfl, rfl, rfl⟩
  · exact ⟨rfl, rfl, rfl⟩

/-- Sending a message may arm a session key, and is logged. -/
theorem step_encode (s : Session ρ) (item : Bc ρ) :
    s.step crates (.encode item) = ⟨s.codex.armLogin item, s.log ++ [.encoded item]⟩ := rfl

variable (crates) in
/-- Everything a call of the decoder can do. -/
theorem decode_cases (s : Session ρ) (src : Bytes) :
    ((∀ rest bc, Bc.deserialize crates s.codex.context src ≠ .done rest bc) ∧
        s.step crates (.decode src) = s) ∨
      (∃ rest bc, Bc.deserialize crates s.codex.context src = .done rest bc ∧
        s.step crates (.decode src) =
          ⟨s.codex.resolveLogin bc.bcMeta, s.log ++ [.refused bc]⟩) ∨
      ∃ rest bc codex, Bc.deserialize crates s.codex.context src = .done rest bc ∧
        (s.codex.resolveLogin bc.bcMeta).negotiate crates bc = .ok codex ∧
        s.step crates (.decode src) = ⟨codex.switchBinMode bc, s.log ++ [.decoded bc]⟩ := by
  rw [Session.step, decode, decodeEvent]
  cases hd : Bc.deserialize crates s.codex.context src with
  | incomplete _ => exact .inl ⟨by simp, by simp⟩
  | error _ => exact .inl ⟨by simp, by simp⟩
  | done rest bc =>
    dsimp only
    cases hn : (s.codex.resolveLogin bc.bcMeta).negotiate crates bc with
    | error e => exact .inr (.inl ⟨rest, bc, rfl, rfl⟩)
    | ok codex => exact .inr (.inr ⟨rest, bc, codex, rfl, hn, rfl⟩)

theorem run_concat (credentials : Credentials) (calls : List (Call ρ)) (call : Call ρ) :
    run crates credentials (calls ++ [call]) = (run crates credentials calls).step crates call :=
  List.foldl_concat ..

/-! ## Signed logins -/

/-- A signed login is written. -/
def Event.IsSignedLogin : Event ρ → Prop
  | .encoded item => (signedLoginAes item).isSome
  | .decoded _ | .refused _ => False

/-- A signed login with this number and this session key is written. -/
def Event.Signs (num : UInt16) (key iv : AesBlock) : Event ρ → Prop
  | .encoded item => item.bcMeta.msgNum = num ∧ signedLoginAes item = some (some (key, iv))
  | .decoded _ | .refused _ => False

/-- A reply to the login of this number is read. -/
def Event.Answers (num : UInt16) : Event ρ → Prop
  | .decoded bc | .refused bc => bc.bcMeta.msgId = 1 ∧ bc.bcMeta.msgNum = num
  | .encoded _ => False

/-- The signed login written last has this number and this session key, and no
    reply to it was read yet. -/
def Unresolved (log : List (Event ρ)) (num : UInt16) (key iv : AesBlock) : Prop :=
  Since (Event.Signs num key iv) (fun e => e.IsSignedLogin ∨ e.Answers num) log

/-- A login is unresolved if it was just sent, or was so before and the message is neither another
    one nor its answer. -/
theorem unresolved_concat {log : List (Event ρ)} {e : Event ρ} {num : UInt16} {key iv : AesBlock} :
    Unresolved (log ++ [e]) num key iv ↔
      e.Signs num key iv ∨ Unresolved log num key iv ∧ ¬ (e.IsSignedLogin ∨ e.Answers num) :=
  since_concat

/-- A session key waits until the answer with its number has come. -/
theorem pendingSessionAes_resolveLogin (codex : BcCodex) (bcMeta : BcMeta) (num : UInt16)
    (key iv : AesBlock) : (codex.resolveLogin bcMeta).pendingSessionAes = some (num, key, iv) ↔
      codex.pendingSessionAes = some (num, key, iv) ∧
        ¬ (bcMeta.msgId = 1 ∧ bcMeta.msgNum = num) := by
  rw [resolveLogin]
  split
  · next num' key' iv' hpending =>
    split
    · next hreply =>
      rw [hpending]
      constructor
      · exact fun h => (nomatch h)
      · rintro ⟨h, hne⟩
        obtain ⟨rfl, -⟩ := Prod.mk.inj (Option.some.inj h)
        exact absurd hreply hne
    · next hreply =>
      constructor
      · intro h
        rw [hpending] at h
        obtain ⟨rfl, -⟩ := Prod.mk.inj (Option.some.inj h)
        exact ⟨hpending.trans h, hreply⟩
      · exact fun h => h.1
  · next hpending => simp [hpending]

variable (crates) in
/-- What is armed before a call and after it. -/
theorem pendingSessionAes_step {s : Session ρ}
    (h : ∀ num key iv, s.codex.pendingSessionAes = some (num, key, iv) ↔
      Unresolved s.log num key iv) (call : Call ρ) (num : UInt16) (key iv : AesBlock) :
    (s.step crates call).codex.pendingSessionAes = some (num, key, iv) ↔
      Unresolved (s.step crates call).log num key iv := by
  cases call with
  | encode item =>
    rw [step_encode, unresolved_concat, armLogin]
    match hsigned : signedLoginAes item with
    | none => simpa [Event.Signs, Event.IsSignedLogin, Event.Answers, hsigned] using h num key iv
    | some none => simp [Event.Signs, Event.IsSignedLogin, hsigned]
    | some (some (key', iv')) => simp [Event.Signs, Event.IsSignedLogin, hsigned]
  | decode src =>
    rcases decode_cases crates s src with
      ⟨-, hs⟩ | ⟨rest, bc, -, hs⟩ | ⟨rest, bc, codex, -, hn, hs⟩
    · rw [hs]
      exact h num key iv
    · rw [hs, unresolved_concat, pendingSessionAes_resolveLogin, h]
      simp [Event.Signs, Event.IsSignedLogin, Event.Answers]
    · have hpending : codex.pendingSessionAes =
          (s.codex.resolveLogin bc.bcMeta).pendingSessionAes := by
        rcases negotiate_cases hn with ⟨-, rfl⟩ | ⟨protocol, -, rfl⟩ <;> rfl
      rw [hs, unresolved_concat, (switchBinMode_protocol codex bc).2.2, hpending,
        pendingSessionAes_resolveLogin, h]
      simp [Event.Signs, Event.IsSignedLogin, Event.Answers]

variable (crates) in
/-- The session key that is armed is that of the signed login written last, as long
    as no reply to it was read. -/
theorem pendingSessionAes_iff (credentials : Credentials) (calls : List (Call ρ)) :
    ∀ num key iv, (run crates credentials calls).codex.pendingSessionAes = some (num, key, iv) ↔
      Unresolved (run crates credentials calls).log num key iv := by
  induction calls using List.reverseRecOn with
  | nil => exact fun _ _ _ => ⟨fun h => (nomatch h), fun h => absurd h not_since_nil⟩
  | append_singleton calls call ih =>
    rw [run_concat]
    exact pendingSessionAes_step crates ih call

/-- The message is the reply that accepts a login. -/
def Accepts (bc : Bc ρ) : Prop := bc.bcMeta.msgId = 1 ∧ bc.bcMeta.responseCode = 200

/-- A protocol other than `bcEncrypt` is negotiated in a reply to another login than
    the one of this number. -/
def Event.Unpins (num : UInt16) : Event ρ → Prop
  | .decoded bc => bc.bcMeta.msgNum ≠ num ∧ (replyNonce bc).isSome ∧
      bc.bcMeta.responseCode &&& 0xff ≠ 0x01
  | .encoded _ | .refused _ => False

/-- As long as a signed login has no reply, no protocol other than `bcEncrypt` is
    negotiated. -/
def Pinned (log : List (Event ρ)) : Prop :=
  Always (fun before e => ∀ num key iv, Unresolved before num key iv → ¬ e.Unpins num) log

/-- A protocol is announced together with a nonce. -/
theorem Announces.nonce {credentials : Credentials} {bc : Bc ρ} {protocol : EncryptionProtocol}
    (h : Announces crates credentials bc protocol) : (replyNonce bc).isSome := by
  cases h with
  | unencrypted hnonce _ | bcEncrypt hnonce _ | aes hnonce _ | fullAes hnonce _ =>
    rw [hnonce]; rfl

/-- The code 1 in an answer asks for the cipher without a key. -/
theorem Announces.eq_bcEncrypt {credentials : Credentials} {bc : Bc ρ}
    {protocol : EncryptionProtocol} (h : Announces crates credentials bc protocol)
    (hcode : bc.bcMeta.responseCode &&& 0xff = 0x01) : protocol = .bcEncrypt := by
  cases h with
  | bcEncrypt _ _ => rfl
  | unencrypted _ h | aes _ h | fullAes _ h => exact absurd (hcode.symm.trans h) (by decide)

/-- The reply to a signed login applies its session key, or nothing happens to the
    protocol. -/
theorem protocol_resolveLogin (codex : BcCodex) (bcMeta : BcMeta) :
    (codex.resolveLogin bcMeta).context.credentials = codex.context.credentials ∧
      ((codex.resolveLogin bcMeta).context.encryptionProtocol =
          codex.context.encryptionProtocol ∧
          ¬ (bcMeta.responseCode = 200 ∧ bcMeta.msgId = 1 ∧
            ∃ key iv, codex.pendingSessionAes = some (bcMeta.msgNum, key, iv)) ∨
        ∃ key iv, codex.pendingSessionAes = some (bcMeta.msgNum, key, iv) ∧
          bcMeta.msgId = 1 ∧ bcMeta.responseCode = 200 ∧
          (codex.resolveLogin bcMeta).context.encryptionProtocol = .fullAes key iv) := by
  rw [resolveLogin]
  split
  · next num key iv hpending =>
    split
    · next hreply =>
      obtain ⟨hid, rfl⟩ := hreply
      by_cases hcode : bcMeta.responseCode = 200
      · refine ⟨by rw [if_pos hcode]; rfl, .inr ⟨key, iv, hpending, hid, hcode, ?_⟩⟩
        rw [if_pos hcode]
        rfl
      · rw [if_neg hcode]
        exact ⟨rfl, .inl ⟨rfl, fun h => hcode h.1⟩⟩
    · next hreply =>
      refine ⟨rfl, .inl ⟨rfl, ?_⟩⟩
      rintro ⟨-, hid, key', iv', hpending'⟩
      obtain ⟨hnum, -⟩ := Prod.mk.inj (Option.some.inj (hpending.symm.trans hpending'))
      exact hreply ⟨hid, hnum.symm⟩
  · next hpending =>
    refine ⟨rfl, .inl ⟨rfl, ?_⟩⟩
    rintro ⟨-, -, key, iv, hpending'⟩
    exact nomatch hpending.symm.trans hpending'

/-- How a call may change the protocol. -/
inductive Switch (crates : Crates ρ) (s : Session ρ) : Call ρ → Session ρ → Prop
  | keep {call : Call ρ} {s' : Session ρ}
    (hprotocol : s'.codex.context.encryptionProtocol = s.codex.context.encryptionProtocol)
    (hpending : s'.codex.pendingSessionAes.isSome → s.codex.pendingSessionAes.isSome)
    (hlog : s.log <+: s'.log) : Switch crates s call s'
  | sign {item : Bc ρ} {s' : Session ρ}
    (hprotocol : s'.codex.context.encryptionProtocol = .bcEncrypt) :
    Switch crates s (.encode item) s'
  | accept {src rest : Bytes} {bc : Bc ρ} {s' : Session ρ} {key iv : AesBlock}
    (hdone : Bc.deserialize crates s.codex.context src = .done rest bc) (haccepts : Accepts bc)
    (hpending : s.codex.pendingSessionAes = some (bc.bcMeta.msgNum, key, iv))
    (hresolved : s'.codex.pendingSessionAes = none)
    (hprotocol : s'.codex.context.encryptionProtocol = .fullAes key iv) :
    Switch crates s (.decode src) s'
  | negotiate {src rest : Bytes} {bc : Bc ρ} {s' : Session ρ}
    (hdone : Bc.deserialize crates s.codex.context src = .done rest bc)
    (hannounces : Announces crates s.codex.context.credentials bc
      s'.codex.context.encryptionProtocol)
    (hlog : s'.log = s.log ++ [.decoded bc]) : Switch crates s (.decode src) s'

theorem isSome_pending_resolveLogin {codex : BcCodex} {bcMeta : BcMeta}
    (h : (codex.resolveLogin bcMeta).pendingSessionAes.isSome) :
    codex.pendingSessionAes.isSome := by
  obtain ⟨⟨num, key, iv⟩, h⟩ := Option.isSome_iff_exists.1 h
  rw [((pendingSessionAes_resolveLogin _ _ _ _ _).1 h).1]
  rfl

/-- The answer takes the key that waited for it. -/
theorem resolveLogin_of_answer {codex : BcCodex} {bcMeta : BcMeta} {key iv : AesBlock}
    (h : codex.pendingSessionAes = some (bcMeta.msgNum, key, iv)) (hid : bcMeta.msgId = 1) :
    (codex.resolveLogin bcMeta).pendingSessionAes = none := by
  refine Option.eq_none_iff_forall_ne_some.2 ?_
  rintro ⟨num, key', iv'⟩ hpending
  obtain ⟨hpending, hne⟩ := (pendingSessionAes_resolveLogin _ _ _ _ _).1 hpending
  obtain ⟨hnum, -⟩ := Prod.mk.inj (Option.some.inj (h.symm.trans hpending))
  exact hne ⟨hid, hnum⟩

/-- What resolving a login does, as a step. -/
theorem switch_resolveLogin {s s' : Session ρ} {src rest : Bytes} {bc : Bc ρ}
    (hdone : Bc.deserialize crates s.codex.context src = .done rest bc)
    (hprotocol : s'.codex.context.encryptionProtocol =
      (s.codex.resolveLogin bc.bcMeta).context.encryptionProtocol)
    (hpending : s'.codex.pendingSessionAes = (s.codex.resolveLogin bc.bcMeta).pendingSessionAes)
    (hlog : s.log <+: s'.log) : Switch crates s (.decode src) s' := by
  rcases (protocol_resolveLogin s.codex bc.bcMeta).2 with
    ⟨hsame, -⟩ | ⟨key, iv, harmed, hid, hcode, hset⟩
  · refine .keep (hprotocol.trans hsame) (fun h => ?_) hlog
    rw [hpending] at h
    exact isSome_pending_resolveLogin h
  · refine .accept hdone ⟨hid, hcode⟩ harmed (hpending.trans ?_) (hprotocol.trans hset)
    exact resolveLogin_of_answer harmed hid

variable (crates) in

/-- What one call does to the protocol, and that it leaves the credentials alone. -/
theorem switch_step (s : Session ρ) (call : Call ρ) :
    (s.step crates call).codex.context.credentials = s.codex.context.credentials ∧
      Switch crates s call (s.step crates call) := by
  cases call with
  | encode item =>
    rw [step_encode, armLogin]
    match signedLoginAes item with
    | none => exact ⟨rfl, .keep rfl id (List.prefix_append _ _)⟩
    | some _ => exact ⟨rfl, .sign rfl⟩
  | decode src =>
    rcases decode_cases crates s src with
      ⟨-, hs⟩ | ⟨rest, bc, hdone, hs⟩ | ⟨rest, bc, codex, hdone, hn, hs⟩
    · rw [hs]
      exact ⟨rfl, .keep rfl id List.prefix_rfl⟩
    · rw [hs]
      exact ⟨(protocol_resolveLogin s.codex bc.bcMeta).1,
        switch_resolveLogin hdone rfl rfl (List.prefix_append _ _)⟩
    · have hcredentials := (protocol_resolveLogin s.codex bc.bcMeta).1
      obtain ⟨hprotocol, hcred, hpending⟩ := switchBinMode_protocol codex bc
      rw [hs]
      rcases negotiate_cases hn with ⟨-, rfl⟩ | ⟨protocol, hannounces, rfl⟩
      · exact ⟨hcred.trans hcredentials,
          switch_resolveLogin hdone hprotocol hpending (List.prefix_append _ _)⟩
      · rw [hcredentials] at hannounces
        refine ⟨hcred.trans hcredentials, .negotiate hdone ?_ rfl⟩
        rw [hprotocol]
        exact hannounces

variable (crates) in
theorem credentials_run (credentials : Credentials) (calls : List (Call ρ)) :
    (run crates credentials calls).codex.context.credentials = credentials := by
  induction calls using List.reverseRecOn with
  | nil => rfl
  | append_singleton calls call ih => rw [run_concat, (switch_step crates _ _).1, ih]

/-- The log only grows, so it stays pinned back to the start. -/
theorem Pinned.of_prefix {log log' : List (Event ρ)} (h : Pinned log') (hlog : log <+: log') :
    Pinned log := by
  obtain ⟨more, rfl⟩ := hlog
  intro before e after hbefore
  refine h before e (after ++ more) ?_
  rw [hbefore, List.append_assoc, List.cons_append]

variable (crates) in
/-- While a session key is armed and nothing else is negotiated, the protocol stays
    where the signed login put it. -/
theorem bcEncrypt_of_pinned (credentials : Credentials) (calls : List (Call ρ))
    (hlog : Pinned (run crates credentials calls).log)
    (hpending : (run crates credentials calls).codex.pendingSessionAes.isSome) :
    (run crates credentials calls).codex.context.encryptionProtocol = .bcEncrypt := by
  induction calls using List.reverseRecOn with
  | nil => exact nomatch hpending
  | append_singleton calls call ih =>
    have hiff := pendingSessionAes_iff crates credentials (calls ++ [call])
    rw [run_concat] at hlog hpending hiff ⊢
    cases (switch_step crates (run crates credentials calls) call).2 with
    | keep hprotocol hkept hprefix =>
      rw [hprotocol]
      exact ih (hlog.of_prefix hprefix) (hkept hpending)
    | sign hprotocol => exact hprotocol
    | accept hdone haccepts harmed hresolved hprotocol =>
      rw [hresolved] at hpending
      exact nomatch hpending
    | @negotiate src rest bc _ hdone hannounces hconcat =>
      obtain ⟨⟨num, key, iv⟩, hpending⟩ := Option.isSome_iff_exists.1 hpending
      have hunresolved := (hiff num key iv).1 hpending
      rw [hconcat, unresolved_concat] at hunresolved
      rw [hconcat] at hlog
      rcases hunresolved with hsigns | ⟨hunresolved, hanswers⟩
      · exact absurd hsigns id
      -- The reply is to another login, or the key would not be armed any more.
      have hnum : bc.bcMeta.msgNum ≠ num :=
        fun hnum => hanswers (.inr ⟨msgId_of_replyNonce hannounces.nonce, hnum⟩)
      have hpins := (always_concat.1 hlog).2 num key iv hunresolved
      exact hannounces.eq_bcEncrypt (not_not.1 fun hcode => hpins ⟨hnum, hannounces.nonce, hcode⟩)

/-- A message that was read is refused or taken, and resolves its login before that. -/
theorem decode_of_done {s : Session ρ} {src rest : Bytes} {bc : Bc ρ}
    (hdone : Bc.deserialize crates s.codex.context src = .done rest bc) :
    s.step crates (.decode src) = ⟨s.codex.resolveLogin bc.bcMeta, s.log ++ [.refused bc]⟩ ∨
      ∃ codex, (s.codex.resolveLogin bc.bcMeta).negotiate crates bc = .ok codex ∧
        s.step crates (.decode src) = ⟨codex.switchBinMode bc, s.log ++ [.decoded bc]⟩ := by
  rcases decode_cases crates s src with
    ⟨hne, -⟩ | ⟨rest', bc', hdone', hs⟩ | ⟨rest', bc', codex, hdone', hn, hs⟩
  · exact absurd hdone (hne rest bc)
  · obtain ⟨-, rfl⟩ := Outcome.done.inj (hdone.symm.trans hdone')
    exact .inl hs
  · obtain ⟨-, rfl⟩ := Outcome.done.inj (hdone.symm.trans hdone')
    exact .inr ⟨codex, hn, hs⟩

/-- Whatever else a message does, it resolves the login it answers. -/
theorem pendingSessionAes_decode {s : Session ρ} {src rest : Bytes} {bc : Bc ρ}
    (hdone : Bc.deserialize crates s.codex.context src = .done rest bc) :
    (s.step crates (.decode src)).codex.pendingSessionAes =
      (s.codex.resolveLogin bc.bcMeta).pendingSessionAes := by
  rcases decode_of_done hdone with hs | ⟨codex, hn, hs⟩
  · rw [hs]
  · rw [hs, (switchBinMode_protocol codex bc).2.2]
    rcases negotiate_cases hn with ⟨-, rfl⟩ | ⟨protocol, -, rfl⟩ <;> rfl

/-- The reply accepting the login applies its session key. -/
theorem protocol_of_accepted {s : Session ρ} {src rest : Bytes} {bc : Bc ρ} {key iv : AesBlock}
    (hdone : Bc.deserialize crates s.codex.context src = .done rest bc) (haccepts : Accepts bc)
    (harmed : s.codex.pendingSessionAes = some (bc.bcMeta.msgNum, key, iv)) :
    (s.step crates (.decode src)).codex.context.encryptionProtocol = .fullAes key iv := by
  have hresolve : (s.codex.resolveLogin bc.bcMeta).context.encryptionProtocol =
      .fullAes key iv := by
    rcases (protocol_resolveLogin s.codex bc.bcMeta).2 with
      ⟨-, hne⟩ | ⟨key', iv', harmed', -, -, hset⟩
    · exact absurd ⟨haccepts.2, haccepts.1, key, iv, harmed⟩ hne
    · obtain ⟨-, hkeys⟩ := Prod.mk.inj (Option.some.inj (harmed.symm.trans harmed'))
      obtain ⟨rfl, rfl⟩ := Prod.mk.inj hkeys
      exact hset
  rcases decode_of_done hdone with hs | ⟨codex, hn, hs⟩
  · rw [hs]
    exact hresolve
  · rw [hs, (switchBinMode_protocol codex bc).1]
    rcases negotiate_cases hn with ⟨-, rfl⟩ | ⟨protocol, hannounces, -⟩
    · exact hresolve
    · have hnonce := hannounces.nonce
      rw [replyNonce_of_accepted haccepts.2] at hnonce
      exact nomatch hnonce

/-- In every run, the context becomes full AES with a session key only when the reply
    accepting the signed login written last is read, if that login has no reply
    yet; otherwise, full AES is negotiated with the key of a nonce. Any reply to that
    login disarms its session key, and no other reply does. The reply accepting it is
    read under `bcEncrypt`, if nothing else was negotiated while a signed login had
    no reply. -/
theorem keySwitch (credentials : Credentials) (calls : List (Call ρ)) (call : Call ρ) :
    let s := run crates credentials calls
    let s' := s.step crates call
    (∀ key iv, s'.codex.context.encryptionProtocol = .fullAes key iv →
        s.codex.context.encryptionProtocol ≠ .fullAes key iv →
        ∃ src rest bc, call = .decode src ∧
          Bc.deserialize crates s.codex.context src = .done rest bc ∧
          (Accepts bc ∧ Unresolved s.log bc.bcMeta.msgNum key iv ∨
            Announces crates credentials bc (.fullAes key iv))) ∧
      ∀ src rest bc num key iv, call = .decode src →
        Bc.deserialize crates s.codex.context src = .done rest bc → Unresolved s.log num key iv →
        (bc.bcMeta.msgId = 1 ∧ bc.bcMeta.msgNum = num →
          s'.codex.pendingSessionAes = none ∧
            ∀ num' key' iv', ¬ Unresolved s'.log num' key' iv') ∧
        (¬ (bc.bcMeta.msgId = 1 ∧ bc.bcMeta.msgNum = num) →
          s'.codex.pendingSessionAes = some (num, key, iv) ∧ Unresolved s'.log num key iv) ∧
        (Accepts bc → bc.bcMeta.msgNum = num → Pinned s.log →
          s.codex.context.encryptionProtocol = .bcEncrypt ∧
            s'.codex.context.encryptionProtocol = .fullAes key iv) := by
  have hiff := pendingSessionAes_iff crates credentials calls
  have hiff' := pendingSessionAes_step crates hiff call
  have hcredentials := credentials_run crates credentials calls
  have hpinned := bcEncrypt_of_pinned crates credentials calls
  dsimp only
  generalize run crates credentials calls = s at hiff hiff' hcredentials hpinned ⊢
  refine ⟨fun key iv hkey hne => ?_, ?_⟩
  · have hswitch := (switch_step crates s call).2
    generalize s.step crates call = s' at hswitch hkey
    cases hswitch with
    | keep hprotocol _ _ => exact absurd (hprotocol.symm.trans hkey) hne
    | sign hprotocol => exact nomatch hprotocol.symm.trans hkey
    | accept hdone haccepts harmed _ hprotocol =>
      obtain ⟨rfl, rfl⟩ := EncryptionProtocol.fullAes.inj (hprotocol.symm.trans hkey)
      exact ⟨_, _, _, rfl, hdone, .inl ⟨haccepts, (hiff _ _ _).1 harmed⟩⟩
    | negotiate hdone hannounces _ =>
      rw [hcredentials, hkey] at hannounces
      exact ⟨_, _, _, rfl, hdone, .inr hannounces⟩
  · rintro src rest bc num key iv rfl hdone hunresolved
    have harmed := (hiff num key iv).2 hunresolved
    have hpending := pendingSessionAes_decode hdone
    refine ⟨?_, fun hother => ?_, ?_⟩
    · rintro ⟨hid, rfl⟩
      have hnone := hpending.trans (resolveLogin_of_answer harmed hid)
      refine ⟨hnone, fun num' key' iv' h => ?_⟩
      exact nomatch hnone.symm.trans ((hiff' num' key' iv').2 h)
    · have hkept := hpending.trans
        ((pendingSessionAes_resolveLogin _ _ _ _ _).2 ⟨harmed, hother⟩)
      exact ⟨hkept, (hiff' num key iv).1 hkept⟩
    · rintro haccepts rfl hlog
      exact ⟨hpinned hlog (by rw [harmed]; rfl), protocol_of_accepted hdone haccepts harmed⟩

/-- Crates that know the offer of a nonce, and a body without elements. -/
def loginCrates : Crates Unit where
  aes := ⟨fun _ _ buf => buf, fun _ _ buf => buf⟩
  md5 _ := Vector.replicate 16 0
  writeExtension _ := none
  readExtension _ := none
  writeBody xml := if xml = ⟨none, none, ()⟩ then some "<body/>".toUTF8.data.toList else none
  readBody buf :=
    if buf = xmlDecl ++ "<body/>".toUTF8.data.toList then some ⟨none, none, ()⟩
    else if buf = xmlDecl ++ ("<body><Encryption version=\"1.1\"><type>md5</type>" ++
      "<nonce>1</nonce></Encryption></body>").toUTF8.data.toList then some ⟨some ⟨"1"⟩, none, ()⟩
    else none

/-- A signed login, the reply to another login, offering a nonce without encryption,
    and the reply accepting the signed login, under `bcEncrypt`. -/
def signedLogin : Bc Unit :=
  ⟨⟨1, 0, 0, 0, 7, 0x6414⟩, .modernMsg ⟨none, some (.bcXml ⟨none, some
    ⟨some "key", some (Vector.replicate 16 3, Vector.replicate 16 4)⟩, ()⟩)⟩⟩

@[inherit_doc signedLogin]
def nonceReply : Bytes :=
  let body := xmlDecl ++ ("<body><Encryption version=\"1.1\"><type>md5</type>" ++
    "<nonce>1</nonce></Encryption></body>").toUTF8.data.toList
  bcHeaderBytes ⟨UInt32.ofNat body.length, 1, 0, 0, 5, 0xdd00, 0x6614, none⟩ ++ body

@[inherit_doc signedLogin]
def acceptReply : Bytes :=
  let body := bcEncryptBytes 0 (xmlDecl ++ "<body/>".toUTF8.data.toList)
  bcHeaderBytes ⟨UInt32.ofNat body.length, 1, 0, 0, 7, 200, 0x6614, none⟩ ++ body

/-- After the offer the reply is not read under `bcEncrypt`, so it is rejected. -/
theorem keySwitch_nonceReply_ne :
    let s := run loginCrates ⟨"admin", none⟩ [.encode signedLogin, .decode nonceReply]
    s.codex.pendingSessionAes = some (7, Vector.replicate 16 3, Vector.replicate 16 4) ∧
      s.codex.context.encryptionProtocol = .unencrypted ∧
      Bc.deserialize loginCrates (s.codex.context.setEncrypted .bcEncrypt) acceptReply =
        .done [] ⟨⟨1, 0, 0, 200, 7, 0x6614⟩, .modernMsg ⟨none, some (.bcXml ⟨none, none, ()⟩)⟩⟩ ∧
      Bc.deserialize loginCrates s.codex.context acceptReply =
        .error (makeError "Unable to parse Payload XML" .mapRes) := by
  decide +kernel

/-! ## Binary mode -/

/-- What the extension of a message says about binary mode. -/
def binaryData? (bc : Bc ρ) : Option UInt32 :=
  match bc.body with
  | .modernMsg ⟨some ext, _⟩ => ext.binaryData
  | _ => none

/-- The payload of a message, if it is a modern one with one. -/
def payload? (bc : Bc ρ) : Option (BcPayloads ρ) :=
  match bc.body with
  | .modernMsg msg => msg.payload
  | .legacyMsg _ => none

/-- A message of this number is read that says something about binary mode. -/
def Event.Switches (num : UInt16) : Event ρ → Prop
  | .decoded bc => bc.bcMeta.msgNum = num ∧ (binaryData? bc).isSome
  | .encoded _ | .refused _ => False

/-- A message of this number is read that switches binary mode on. -/
def Event.SwitchesOn (num : UInt16) : Event ρ → Prop
  | .decoded bc => bc.bcMeta.msgNum = num ∧ ∃ onOff, binaryData? bc = some onOff ∧ onOff ≠ 0
  | .encoded _ | .refused _ => False

/-- The last message of this number that said something about binary mode switched
    it on. -/
def LeftOn (log : List (Event ρ)) (num : UInt16) : Prop :=
  Since (Event.SwitchesOn num) (Event.Switches num) log

/-- A conversation is left on by the last message that says anything about it. -/
theorem leftOn_concat {log : List (Event ρ)} {e : Event ρ} {num : UInt16} :
    LeftOn (log ++ [e]) num ↔ e.SwitchesOn num ∨ LeftOn log num ∧ ¬ e.Switches num :=
  since_concat

/-- The extension switches the conversation of its message on or off, and no other. -/
theorem inBinMode_switchBinMode (codex : BcCodex) (bc : Bc ρ) :
    (codex.switchBinMode bc).context.inBinMode =
      match binaryData? bc with
      | none => codex.context.inBinMode
      | some onOff =>
        if onOff = 0 then codex.context.inBinMode.erase bc.bcMeta.msgNum
        else insert bc.bcMeta.msgNum codex.context.inBinMode := by
  obtain ⟨bcMeta, body⟩ := bc
  match body with
  | .legacyMsg _ => rfl
  | .modernMsg ⟨none, _⟩ => rfl
  | .modernMsg ⟨some ext, _⟩ =>
    obtain ⟨version, binaryData⟩ := ext
    cases binaryData with
    | none => rfl
    | some onOff =>
      dsimp only [switchBinMode, binaryData?]
      split <;> rfl

/-- One call keeps the record of conversations and what was said about them in step. -/
theorem inBinMode_step {s : Session ρ} (h : ∀ num, num ∈ s.codex.context.inBinMode ↔
      LeftOn s.log num) (call : Call ρ) (num : UInt16) :
    num ∈ (s.step crates call).codex.context.inBinMode ↔
      LeftOn (s.step crates call).log num := by
  have hresolve : ∀ bcMeta, (s.codex.resolveLogin bcMeta).context.inBinMode =
      s.codex.context.inBinMode := by
    intro bcMeta
    rw [resolveLogin]
    split
    · split
      · dsimp only
        split <;> rfl
      · rfl
    · rfl
  cases call with
  | encode item =>
    have harm : (s.codex.armLogin item).context.inBinMode = s.codex.context.inBinMode := by
      rw [armLogin]
      split <;> rfl
    rw [step_encode, leftOn_concat, harm, h]
    simp [Event.SwitchesOn, Event.Switches]
  | decode src =>
    rcases decode_cases crates s src with
      ⟨-, hs⟩ | ⟨rest, bc, -, hs⟩ | ⟨rest, bc, codex, -, hn, hs⟩
    · rw [hs]
      exact h num
    · rw [hs, leftOn_concat, hresolve, h]
      simp [Event.SwitchesOn, Event.Switches]
    · have hmode : codex.context.inBinMode = s.codex.context.inBinMode := by
        rw [← hresolve bc.bcMeta]
        rcases negotiate_cases hn with ⟨-, rfl⟩ | ⟨protocol, -, rfl⟩ <;> rfl
      rw [hs, leftOn_concat, inBinMode_switchBinMode, hmode, ← h]
      match hdata : binaryData? bc with
      | none => simp [Event.SwitchesOn, Event.Switches, hdata]
      | some onOff =>
        by_cases hoff : onOff = 0
        · simp [Event.SwitchesOn, Event.Switches, hdata, hoff, and_comm, eq_comm]
        · by_cases hnum : bc.bcMeta.msgNum = num
          · simp [Event.SwitchesOn, Event.Switches, hdata, hoff, hnum]
          · simp [Event.SwitchesOn, Event.Switches, hdata, hoff, hnum, Ne.symm hnum]

variable (crates) in
/-- A message number is in binary mode if the last message of that number that says
    something about it switched it on. -/
theorem inBinMode_iff (credentials : Credentials) (calls : List (Call ρ)) :
    ∀ num, num ∈ (run crates credentials calls).codex.context.inBinMode ↔
      LeftOn (run crates credentials calls).log num := by
  induction calls using List.reverseRecOn with
  | nil =>
    intro num
    exact ⟨fun h => absurd h (Finset.notMem_empty num), fun h => absurd h not_since_nil⟩
  | append_singleton calls call ih =>
    rw [run_concat]
    exact inBinMode_step ih call

/-- Without a word about binary data in the extension, the record of conversations decides what the
    payload is read as. -/
theorem bcPayload_of_done {ctx : BcContext} {header : BcHeader} {extension : Option Extension}
    {payloadBuf buf rest : Bytes} {payload : Option (BcPayloads ρ)}
    (h : bcPayload crates ctx header extension payloadBuf buf = .done rest payload)
    (hmode : (binaryMode extension).1 = false) :
    (∃ data, payload = some (.binary data)) ↔ payload.isSome ∧ header.msgNum ∈ ctx.inBinMode := by
  rw [bcPayload] at h
  split at h
  · dsimp only at h
    rw [hmode] at h
    split at h
    · next hbin =>
      obtain ⟨-, rfl⟩ := Outcome.done.inj h
      simpa using hbin
    · next hbin =>
      generalize BcXml.tryParse crates _ = parsed at h
      cases parsed with
      | none => cases h
      | some xml =>
        obtain ⟨-, rfl⟩ := Outcome.done.inj h
        simpa using hbin
  · obtain ⟨-, rfl⟩ := Outcome.done.inj h
    simp

/-- Without a word about binary mode, a payload is binary if the number of the message
    is in binary mode. -/
theorem payload_of_deserialize {ctx : BcContext} {src rest : Bytes} {bc : Bc ρ}
    (h : Bc.deserialize crates ctx src = .done rest bc) (hdata : binaryData? bc = none) :
    (∃ data, payload? bc = some (.binary data)) ↔
      (payload? bc).isSome ∧ bc.bcMeta.msgNum ∈ ctx.inBinMode := by
  obtain ⟨mid, header, -, h⟩ := Parser.bind_eq_done.1 h
  obtain ⟨rest', body, hbody, h⟩ := Parser.bind_eq_done.1 h
  obtain ⟨rfl, rfl⟩ := Outcome.done.inj h
  show (∃ data, payload? ⟨_, body⟩ = _) ↔ _ ∧ header.msgNum ∈ ctx.inBinMode
  rw [bcBody] at hbody
  split_ifs at hbody with hmodern hlogin
  · obtain ⟨mid', msg, hmsg, h⟩ := Parser.bind_eq_done.1 hbody
    obtain ⟨rfl, rfl⟩ := Outcome.done.inj h
    rw [bcModernMsg] at hmsg
    dsimp only at hmsg
    split at hmsg
    · cases hmsg
    obtain ⟨_, extBuf, -, hmsg⟩ := Parser.bind_eq_done.1 hmsg
    obtain ⟨_, payloadBuf, -, hmsg⟩ := Parser.bind_eq_done.1 hmsg
    obtain ⟨_, extension, -, hmsg⟩ := Parser.bind_eq_done.1 hmsg
    obtain ⟨_, payload, hpayload, hmsg⟩ := Parser.bind_eq_done.1 hmsg
    obtain ⟨-, rfl⟩ := Outcome.done.inj hmsg
    refine bcPayload_of_done hpayload ?_
    cases extension with
    | none => rfl
    | some ext =>
      have hdata : ext.binaryData = none := hdata
      rw [binaryMode, hdata]
      rfl
  · obtain ⟨mid', msg, -, h⟩ := Parser.bind_eq_done.1 hbody
    obtain ⟨rfl, rfl⟩ := Outcome.done.inj h
    simp [payload?]
  · obtain ⟨rfl, rfl⟩ := Outcome.done.inj hbody
    simp [payload?]

/-- No message of the conversation of this one has switched it to binary mode. -/
def NeverOn (log : List (Event ρ)) (bc : Bc ρ) : Prop :=
  ∀ bc', .decoded bc' ∈ log → bc'.bcMeta.msgId = bc.bcMeta.msgId →
    ¬ (Event.decoded bc').SwitchesOn bc.bcMeta.msgNum

/-- Binary mode is scoped to the conversations that were switched to it. -/
def Scoped (log : List (Event ρ)) : Prop :=
  Always (fun before e => ∀ bc, e = .decoded bc → binaryData? bc = none → NeverOn before bc →
    ∀ data, payload? bc ≠ some (.binary data)) log

/-- No other conversation has left the number of a message with a payload in binary
    mode. -/
def Undisturbed (log : List (Event ρ)) : Prop :=
  Always (fun before e => ∀ bc, e = .decoded bc → binaryData? bc = none → NeverOn before bc →
    (payload? bc).isSome → ¬ LeftOn before bc.bcMeta.msgNum) log

/-- In a run, a payload is taken for binary although its conversation was never
    switched to binary mode exactly if another conversation, of the same number, has
    left this number in binary mode. -/
theorem binMode_scoped_iff (credentials : Credentials) (calls : List (Call ρ)) :
    Scoped (run crates credentials calls).log ↔ Undisturbed (run crates credentials calls).log := by
  induction calls using List.reverseRecOn with
  | nil => exact ⟨fun _ => always_nil, fun _ => always_nil⟩
  | append_singleton calls call ih =>
    have hmode := inBinMode_iff crates credentials calls
    rw [run_concat]
    generalize run crates credentials calls = s at ih hmode ⊢
    cases call with
    | encode item =>
      rw [step_encode, Scoped, Undisturbed, always_concat, always_concat]
      exact and_congr ih ⟨fun _ _ h => (nomatch h), fun _ _ h => (nomatch h)⟩
    | decode src =>
      rcases decode_cases crates s src with
        ⟨-, hs⟩ | ⟨rest, bc, -, hs⟩ | ⟨rest, bc, codex, hdone, -, hs⟩
      · rw [hs]
        exact ih
      · rw [hs, Scoped, Undisturbed, always_concat, always_concat]
        exact and_congr ih ⟨fun _ _ h => (nomatch h), fun _ _ h => (nomatch h)⟩
      · rw [hs, Scoped, Undisturbed, always_concat, always_concat]
        refine and_congr ih (forall_congr' fun bc' => ?_)
        refine forall_congr' fun hbc => forall_congr' fun hdata => forall_congr' fun _ => ?_
        obtain rfl := Event.decoded.inj hbc
        have hbinary := payload_of_deserialize hdone hdata
        rw [hmode] at hbinary
        rw [← not_exists, hbinary, not_and]

/-- A snapshot switches its number to binary mode. -/
def snapBinaryOn : Bc Unit :=
  ⟨⟨109, 0, 0, 200, 5, 0x6414⟩, .modernMsg ⟨some { binaryData := some 1 }, none⟩⟩

/-- What is made of XML under another id and the same number. -/
def disturbedXml : Bc Unit :=
  ⟨⟨33, 0, 0, 200, 5, 0x6614⟩,
    .modernMsg ⟨none, some (.binary (xmlDecl ++ "<body/>".toUTF8.data.toList))⟩⟩

/-- The log of reading the two, the second one as XML. -/
def disturbedLog : List (Event Unit) :=
  (run sampleCrates ⟨"admin", none⟩ [
    .decode (bcHeaderBytes ⟨UInt32.ofNat (xmlDecl.length + 63), 109, 0, 0, 5, 200, 0x6414,
        some (UInt32.ofNat (xmlDecl.length + 63))⟩ ++ xmlDecl ++
      "<Extension version=\"1.1\"><binaryData>1</binaryData></Extension>".toUTF8.data.toList),
    .decode (bcHeaderBytes ⟨UInt32.ofNat (xmlDecl.length + 7), 33, 0, 0, 5, 200, 0x6614, none⟩ ++
      xmlDecl ++ "<body/>".toUTF8.data.toList)]).log

/-- The XML of the second message is taken for binary. -/
theorem binMode_disturbedLog_ne : ¬ Scoped disturbedLog := by
  have hlog : disturbedLog = [.decoded snapBinaryOn] ++ .decoded disturbedXml :: [] := by
    decide +kernel
  intro h
  refine h [.decoded snapBinaryOn] (.decoded disturbedXml) [] hlog disturbedXml rfl rfl ?_ _ rfl
  intro bc' hbc' hid
  obtain rfl := Event.decoded.inj (List.mem_singleton.1 hbc')
  exact absurd hid (by decide)

end BcCodex

end Bairelay
