import WsTcpProxy.Probe

/-!
# ClientHellos

What a TLS client opens with, field by field, and the record that carries it. The format has one to
three bytes for the length of a field, so a field carries the proof that its length fits.
`clientHelloWithSni` is the client of the tests in `proto.rs`.
-/

namespace WsTcpProxy

/-- `(n as u16).to_be_bytes()`. -/
def be16 (n : Nat) : Bytes := [.ofNat (n / 256), .ofNat n]

/-- The low three bytes of `n`. -/
def be24 (n : Nat) : Bytes := [.ofNat (n / 65536), .ofNat (n / 256), .ofNat n]

/-- An entry of a `server_name` list. -/
inductive ServerName where
  | hostName (name : Str) (nonempty : name ≠ []) (short : (asBytes name).length < 2 ^ 16)
  | other (kind : UInt8) (name : Bytes) (foreign : kind ≠ 0) (short : name.length < 2 ^ 16)

namespace ServerName

def kind : ServerName → UInt8
  | hostName .. => 0
  | other kind .. => kind

def bytes : ServerName → Bytes
  | hostName name .. => asBytes name
  | other _ name .. => name

def host : ServerName → Option Str
  | hostName name .. => some name
  | other .. => none

def header (n : ServerName) : Bytes := n.kind :: be16 n.bytes.length

def encode (n : ServerName) : Bytes := n.header ++ n.bytes

end ServerName

inductive Extension where
  | serverName (names : List ServerName)
      (short : (names.flatMap ServerName.encode).length + 2 < 2 ^ 16)
  | other (kind : Nat) (data : Bytes) (foreign : kind ≠ 0) (range : kind < 2 ^ 16)
      (short : data.length < 2 ^ 16)

namespace Extension

def kind : Extension → Nat
  | serverName .. => 0
  | other kind .. => kind

def data : Extension → Bytes
  | serverName names _ =>
    let list := names.flatMap ServerName.encode
    be16 list.length ++ list
  | other _ data .. => data

def names : Extension → Option (List ServerName)
  | serverName names _ => some names
  | other .. => none

def header (e : Extension) : Bytes := be16 e.kind ++ be16 e.data.length

def encode (e : Extension) : Bytes := e.header ++ e.data

end Extension

structure ClientHello where
  version : Vector UInt8 2
  random : Vector UInt8 32
  sessionId : Bytes
  ciphers : Bytes
  compression : Bytes
  /-- A ClientHello may end without the block of extensions. -/
  extensions : Option (List Extension)
  sessionId_short : sessionId.length < 2 ^ 8
  ciphers_short : ciphers.length < 2 ^ 16
  compression_short : compression.length < 2 ^ 8
  extensions_short : ∀ exts, extensions = some exts → (exts.flatMap Extension.encode).length < 2 ^ 16

namespace ClientHello

variable (h : ClientHello)

def front : Bytes :=
  h.version.toList ++ h.random.toList ++ ([.ofNat h.sessionId.length] ++ h.sessionId) ++
    (be16 h.ciphers.length ++ h.ciphers) ++ ([.ofNat h.compression.length] ++ h.compression)

def block : Bytes :=
  match h.extensions with
  | none => []
  | some exts =>
    let bytes := exts.flatMap Extension.encode
    be16 bytes.length ++ bytes

def encode : Bytes := h.front ++ h.block

/-- The first host name of the first `server_name` extension. -/
def serverName : Option Str :=
  ((h.extensions.getD []).findSome? Extension.names).bind fun names => names.findSome? ServerName.host

end ClientHello

/-- A handshake record that begins with a ClientHello. -/
structure HelloRecord where
  minor : UInt8
  hello : ClientHello
  /-- What the record holds behind the ClientHello. -/
  rest : Bytes
  short : 4 + hello.encode.length + rest.length < 2 ^ 16

namespace HelloRecord

variable (r : HelloRecord)

def body : Bytes := 0x01 :: (be24 r.hello.encode.length ++ r.hello.encode ++ r.rest)

def encode : Bytes := 0x16 :: 0x03 :: r.minor :: (be16 r.body.length ++ r.body)

end HelloRecord

/-- `client_hello_with_sni`. -/
def clientHelloWithSni (name : Str) : Bytes :=
  let nameB := asBytes name
  let listLen := 1 + 2 + nameB.length
  let sniBody := be16 listLen ++ [0x00] ++ be16 nameB.length ++ nameB
  let ext := be16 0 ++ be16 sniBody.length ++ sniBody
  let hello := [0x03, 0x03] ++ List.replicate 32 0 ++ [0] ++ be16 2 ++ [0x00, 0x2f] ++ [1] ++ [0] ++
    be16 ext.length ++ ext
  let hs := [0x01] ++ be24 hello.length ++ hello
  [0x16] ++ [0x03, 0x01] ++ be16 hs.length ++ hs

end WsTcpProxy
