import SipxClstr.Proxy.Config

/-!
# The Via branch and its loop-detection cookie

A forwarded request gets one new topmost `Via` whose branch is a magic cookie, a
transaction-unique part and a loop-detection cookie.  The loop-detection cookie
is a keyed MAC over the fields that decide how a request is routed; the topmost
`Via` is not among them and feeds the unique part only.
-/

namespace SipxClstr.Proxy

open SipxClstr.Sip

/-- The magic cookie every compliant branch starts with. -/
def magicCookie : Text :=
  text "z9hG4bK"

/-- How many MAC bytes go into a cookie. -/
def cookieBytes : Nat := 8

/-- The routing-relevant state of a request. -/
structure CookieInput where
  requestUri : Bytes
  toTag : Option Bytes
  fromTag : Option Bytes
  callId : Bytes
  cseq : Nat
  topVia : Option Bytes
  routes : List Bytes
  deriving DecidableEq

/-- `u8::is_ascii_whitespace`. -/
def isAsciiWhitespace (byte : UInt8) : Bool :=
  byte = 0x20 || byte = 0x09 || byte = 0x0A || byte = 0x0C || byte = 0x0D

/-- A value without its surrounding ASCII white space. -/
def trimAscii (value : Bytes) : Bytes :=
  (value.dropWhile isAsciiWhitespace).rdropWhile isAsciiWhitespace

variable (K : Kernel)

/-- The tag parameter of a `To` or `From` header. -/
def tagOf (request : Request K.Uri) (name : HeaderName) : Option Bytes := do
  let value ← Headers.value request.headers name
  let address ← K.parseAddress value
  address.tag

/-- The number at the head of the `CSeq` value. -/
def cseqNumber (request : Request K.Uri) : Option Nat := do
  let value ← Headers.value request.headers .cSeq
  let word ← firstWord (fromUtf8Lossy value)
  parseUnsigned u32Max word

/-- Read the fields out of a request. -/
def CookieInput.fromRequest (request : Request K.Uri) : CookieInput where
  requestUri := K.uriBytes request.uri
  toTag := tagOf K request .toHeader
  fromTag := tagOf K request .fromHeader
  callId := ((Headers.value request.headers .callId).map trimAscii).getD []
  cseq := (cseqNumber K request).getD 0
  topVia := (Headers.value request.headers .via).map trimAscii
  routes := (Headers.getAll request.headers .route).map fun header => trimAscii header.value

/-- One field behind its length. -/
def encodeField (field : Bytes) : Bytes :=
  be32 field.length ++ field

/-- The routing state, with an explicit length prefix for each field. -/
def CookieInput.encodeRoutingState (input : CookieInput) : Bytes :=
  encodeField input.requestUri ++ encodeField (input.toTag.getD []) ++
    encodeField (input.fromTag.getD []) ++ encodeField input.callId ++
    encodeField (be32 input.cseq) ++ encodeField (be32 input.routes.length) ++
    input.routes.flatMap encodeField

/-- HMAC-SHA256 under the key hashed to a fixed length. -/
def mac (key message : Bytes) : Bytes :=
  K.hmacSha256 (K.sha256 key) message

/-- One hexadecimal digit. -/
def nibble (value : UInt8) : Char :=
  if value ≤ 9 then Char.ofNat ('0'.toNat + value.toNat)
  else Char.ofNat ('a'.toNat + (value.toNat - 10))

/-- Lower-case hexadecimal. -/
def hex (raw : Bytes) : Text :=
  raw.flatMap fun (byte : UInt8) => [nibble (byte >>> 4), nibble (byte &&& 0x0F)]

/-- The loop-detection cookie for this routing state, under this key. -/
def CookieInput.cookie (input : CookieInput) (key : Bytes) : Text :=
  hex ((mac K key input.encodeRoutingState).take cookieBytes)

/-- The branch for one fork of one request. -/
def branchFor (config : ProxyConfig) (input : CookieInput) (index : Nat) : Text :=
  let uniqueInput := input.encodeRoutingState ++ bytes "/via/" ++ input.topVia.getD [] ++
    bytes "/branch/" ++ be32 index
  let unique := hex ((mac K config.cookieKey uniqueInput).take cookieBytes)
  magicCookie ++ ['-'] ++ unique ++ ['-'] ++ input.cookie K config.cookieKey

/-- The cookie carried by a branch string, if it has the shape this proxy mints. -/
def cookieOf (branch : Text) : Option Text := do
  let rest ← branch.dropPrefix? magicCookie
  let rest ← rest.dropPrefix? ['-']
  if '-' ∈ rest then
    match rest.rtakeWhile (· ≠ '-') with
    | [] => none
    | cookie => some cookie
  else
    none

end SipxClstr.Proxy
