import Bairelay.Bc.Crypto

/-!
# Baichuan messages

The messages exchanged with a camera and the context they are read and written
in (`bc/model.rs`, and of `bc/xml.rs` what reading and writing them needs).

The XML documents of the payloads have some eighty elements, of which the codec
looks at two; the others are the parameter `ρ`. Reading and writing XML, AES and
MD5 are those of third-party crates (`Crates`).
-/

namespace Bairelay

/-- In front of every message, in the byte order of the client. -/
def magicHeader : UInt32 := 0x0abcdef0

/-- The reversed magic of some replies, accepted just like `magicHeader`. -/
def magicHeaderRev : UInt32 := 0x0fedcba0

/-- Login messages have this id. -/
def msgIdLogin : UInt32 := 1

/-! ## XML payloads -/

/-- The element of a login reply that holds the nonce. -/
structure Encryption where
  nonce : String
  deriving DecidableEq, Repr

/-- The element of a modern login. A signed login has a `publicKey`, and carries
    the session's key and initialisation vector, which are not written. -/
structure LoginUser where
  publicKey : Option String
  sessionAes : Option (AesBlock × AesBlock)
  deriving DecidableEq, Repr

/-- The XML of a payload; `rest` is everything the codec does not look at. -/
structure BcXml (ρ : Type) where
  encryption : Option Encryption
  loginUser : Option LoginUser
  rest : ρ
  deriving DecidableEq, Repr

/-- The XML describing the payload that follows it. -/
structure Extension where
  version : String := "1.1"
  binaryData : Option UInt32 := none
  userName : Option String := none
  token : Option String := none
  channelId : Option UInt8 := none
  rfId : Option UInt8 := none
  checkPos : Option UInt32 := none
  checkValue : Option Int32 := none
  encryptLen : Option UInt32 := none
  deriving DecidableEq, Repr

/-- There are two types of payloads, XML and binary. -/
inductive BcPayloads (ρ : Type) where
  | bcXml (xml : BcXml ρ)
  | binary (data : Bytes)
  deriving DecidableEq, Repr

/-- What comes from third-party crates: the cipher, the MD5 digest, and writing
    and reading XML elements. -/
structure Crates (ρ : Type) where
  aes : Aes
  md5 : Bytes → Vector UInt8 16
  writeExtension : Extension → Option Bytes
  readExtension : Bytes → Option Extension
  writeBody : BcXml ρ → Option Bytes
  readBody : Bytes → Option (BcXml ρ)

/-- The XML declaration, `<?xml version="1.0" encoding="UTF-8"?>` in ASCII. -/
def xmlDecl : Bytes :=
  [0x3c, 0x3f, 0x78, 0x6d, 0x6c, 0x20, 0x76, 0x65, 0x72, 0x73, 0x69, 0x6f, 0x6e, 0x3d, 0x22, 0x31,
    0x2e, 0x30, 0x22, 0x20, 0x65, 0x6e, 0x63, 0x6f, 0x64, 0x69, 0x6e, 0x67, 0x3d, 0x22, 0x55, 0x54,
    0x46, 0x2d, 0x38, 0x22, 0x3f, 0x3e]

/-- The first position of `needle`. -/
def find (needle : Bytes) : Bytes → Option ℕ
  | [] => if needle = [] then some 0 else none
  | b :: hay => if needle.isPrefixOf (b :: hay) then some 0 else (find needle hay).map (· + 1)

/-- `<certChain>` in ASCII. -/
def certChainOpen : Bytes :=
  [0x3c, 0x63, 0x65, 0x72, 0x74, 0x43, 0x68, 0x61, 0x69, 0x6e, 0x3e]

/-- `</certChain>` in ASCII. -/
def certChainClose : Bytes :=
  [0x3c, 0x2f, 0x63, 0x65, 0x72, 0x74, 0x43, 0x68, 0x61, 0x69, 0x6e, 0x3e]

/-- A line feed or a carriage return as its entity, `&#x0A;` or `&#x0D;`. -/
def encodeNewline (b : UInt8) : Bytes :=
  if b = 0x0a then [0x26, 0x23, 0x78, 0x30, 0x41, 0x3b]
  else if b = 0x0d then [0x26, 0x23, 0x78, 0x30, 0x44, 0x3b]
  else [b]

/-- Encode the newlines within the `certChain` element, so that the whitespace
    condensing of the camera does not lose them. -/
def encodeCertchainNewlines (buf : Bytes) : Bytes :=
  match find certChainOpen buf with
  | none => buf
  | some start =>
    let inner := start + certChainOpen.length
    match find certChainClose (buf.drop inner) with
    | none => buf
    | some relClose =>
      let close := inner + relClose
      buf.take inner ++ ((buf.take close).drop inner).flatMap encodeNewline ++ buf.drop close

section Xml

variable {ρ : Type} (crates : Crates ρ)

/-- Read an extension, if it is one. -/
def Extension.tryParse (buf : Bytes) : Option Extension := crates.readExtension buf

/-- The XML declaration, and the extension. -/
def Extension.serialize (ext : Extension) : Option Bytes :=
  (crates.writeExtension ext).map (xmlDecl ++ ·)

/-- Read a body, if it is one. -/
def BcXml.tryParse (buf : Bytes) : Option (BcXml ρ) := crates.readBody buf

/-- The XML declaration, and the body with the line ends of certificates escaped. -/
def BcXml.serialize (xml : BcXml ρ) : Option Bytes :=
  (crates.writeBody xml).map fun element => encodeCertchainNewlines (xmlDecl ++ element)

end Xml

/-! ## Messages -/

/-- The parts of the header that do not describe the body. -/
structure BcMeta where
  msgId : UInt32
  channelId : UInt8
  streamType : UInt8
  responseCode : UInt16
  msgNum : UInt16
  cls : UInt16
  deriving DecidableEq, Repr

/-- What stands in front of a message. Old classes have no payload offset. -/
structure BcHeader where
  bodyLen : UInt32
  msgId : UInt32
  channelId : UInt8
  streamType : UInt8
  msgNum : UInt16
  responseCode : UInt16
  cls : UInt16
  payloadOffset : Option UInt32
  deriving DecidableEq, Repr

/-- A modern message: an extension describing the payload, and the payload. -/
structure ModernMsg (ρ : Type) where
  extension : Option Extension
  payload : Option (BcPayloads ρ)
  deriving DecidableEq, Repr

/-- Legacy messages, of which only the login is supported. -/
inductive LegacyMsg where
  | loginMsg (username password : String)
  | loginUpgrade
  | unknownMsg
  deriving DecidableEq, Repr

/-- A body by its class. -/
inductive BcBody (ρ : Type) where
  | legacyMsg (msg : LegacyMsg)
  | modernMsg (msg : ModernMsg ρ)
  deriving DecidableEq, Repr

/-- A message. -/
structure Bc (ρ : Type) where
  bcMeta : BcMeta
  body : BcBody ρ
  deriving DecidableEq, Repr

namespace BcHeader

/-- Whether the class is that of a modern message. -/
def isModern (header : BcHeader) : Bool := header.cls ≠ 0x6514

/-- What of a header is about the message, and not about its encoding. -/
def toMeta (header : BcHeader) : BcMeta where
  msgId := header.msgId
  channelId := header.channelId
  streamType := header.streamType
  responseCode := header.responseCode
  msgNum := header.msgNum
  cls := header.cls

/-- The header that announces a body of this length. -/
@[simps]
def fromMeta (bcMeta : BcMeta) (bodyLen : UInt32) (payloadOffset : Option UInt32) : BcHeader where
  bodyLen := bodyLen
  msgId := bcMeta.msgId
  channelId := bcMeta.channelId
  streamType := bcMeta.streamType
  msgNum := bcMeta.msgNum
  responseCode := bcMeta.responseCode
  cls := bcMeta.cls
  payloadOffset := payloadOffset

@[simp]
theorem toMeta_fromMeta (bcMeta : BcMeta) (bodyLen : UInt32) (payloadOffset : Option UInt32) :
    (fromMeta bcMeta bodyLen payloadOffset).toMeta = bcMeta := rfl

end BcHeader

/-- Whether the header of this class ends with the offset of the payload. -/
def hasPayloadOffset (cls : UInt16) : Bool := cls = 0x6414 || cls = 0x0000

/-! ## The context -/

/-- The camera's user; a password is optional. -/
structure Credentials where
  username : String
  password : Option String
  deriving DecidableEq, Repr

/-- A byte as two upper-case hexadecimal digits, in ASCII. -/
def upperHex (b : UInt8) : Bytes :=
  let digit (n : UInt8) : UInt8 := if n < 10 then 0x30 + n else 0x37 + n
  [digit (b / 16), digit (b % 16)]

/-- The AES key of the password and the nonce: the first bytes of the digest as
    hexadecimal digits. -/
def Credentials.makeAeskey {ρ : Type} (crates : Crates ρ) (credentials : Credentials)
    (nonce : String) : AesBlock :=
  let keyPhrase := nonce ++ "-" ++ credentials.password.getD ""
  let keyPhraseHash := (crates.md5 keyPhrase.toUTF8.data.toList).toList.flatMap upperHex ++ [0]
  Vector.ofFn fun i => keyPhraseHash.getD i 0

/-- What reading and writing messages depends on. -/
structure BcContext where
  credentials : Credentials
  inBinMode : Finset UInt16
  encryptionProtocol : EncryptionProtocol
  deriving DecidableEq

namespace BcContext

/-- A context before the login. -/
def new (credentials : Credentials) : BcContext where
  credentials := credentials
  inBinMode := ∅
  encryptionProtocol := .unencrypted

/-- A context in the middle of a session. -/
def newWithEncryption (encryptionProtocol : EncryptionProtocol) : BcContext where
  credentials := ⟨"", none⟩
  inBinMode := ∅
  encryptionProtocol := encryptionProtocol

/-- From now on this protocol is used. -/
def setEncrypted (context : BcContext) (encryptionProtocol : EncryptionProtocol) : BcContext :=
  { context with encryptionProtocol }

/-- A conversation goes over to raw bytes. -/
def binaryOn (context : BcContext) (msgNum : UInt16) : BcContext :=
  { context with inBinMode := insert msgNum context.inBinMode }

/-- A conversation goes back to XML. -/
def binaryOff (context : BcContext) (msgNum : UInt16) : BcContext :=
  { context with inBinMode := context.inBinMode.erase msgNum }

end BcContext

end Bairelay
