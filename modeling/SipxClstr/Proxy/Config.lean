import SipxClstr.Sip.Kernel

/-!
# Proxy configuration

What this proxy is and what it accepts.  Identity is a set: every configured
edge identity is this platform, not only the receiving node's own.
-/

namespace SipxClstr.Proxy

open SipxClstr.Sip

/-- Seconds as a duration, in nanoseconds. -/
def seconds (count : Nat) : Nat :=
  count * 1000000000

/-- Timer C's floor.  It is exclusive: a legal Timer C is strictly larger. -/
def timerCFloor : Nat :=
  seconds 180

/-- Timer C's default. -/
def defaultTimerC : Nat :=
  seconds 240

/-- One identity this platform answers to: a host, optionally a port. -/
structure EdgeIdentity where
  host : Text
  port : Option Nat
  deriving DecidableEq, Repr

/-- `EdgeIdentity::host`: an identity that matches a host on any port. -/
def EdgeIdentity.ofHost (host : Text) : EdgeIdentity :=
  ⟨toAsciiLowercase host, none⟩

/-- The proxy's configuration.  Durations are in nanoseconds. -/
structure ProxyConfig where
  identities : List EdgeIdentity
  recordRouteUri : Bytes
  supported : List Text
  schemes : List Text
  defaultMaxForwards : Nat
  defaultMaxBreadth : Nat
  timerC : Nat
  cookieKey : Bytes
  deriving DecidableEq

/-- A configuration for one identity, with the defaults. -/
def ProxyConfig.new (host : Text) (recordRouteUri cookieKey : Bytes) : ProxyConfig where
  identities := [EdgeIdentity.ofHost host]
  recordRouteUri := recordRouteUri
  supported := []
  schemes := [text "sip", text "sips"]
  defaultMaxForwards := 70
  defaultMaxBreadth := 60
  timerC := defaultTimerC
  cookieKey := cookieKey

variable (K : Kernel)

/-- Whether a URI names this identity. -/
def EdgeIdentity.matches (identity : EdgeIdentity) (uri : K.Uri) : Bool :=
  match K.host uri with
  | none => false
  | some host =>
      let name := stripTrailingDot (toAsciiLowercase (fromUtf8Lossy host))
      if name ≠ identity.host then false
      else match identity.port with
        | none => true
        | some port => K.port uri = some port

namespace ProxyConfig

/-- Whether a URI names this platform, any edge of it. -/
def isOurs (config : ProxyConfig) (uri : K.Uri) : Bool :=
  config.identities.any fun identity => identity.matches K uri

/-- Whether the profile supports an option tag. -/
def supports (config : ProxyConfig) (tag : Text) : Bool :=
  config.supported.any fun known => toAsciiLowercase known = toAsciiLowercase tag

/-- Whether a URI scheme is one this proxy forwards. -/
def understandsScheme (config : ProxyConfig) (uri : K.Uri) : Bool :=
  config.schemes.any fun known =>
    toAsciiLowercase known = toAsciiLowercase (fromUtf8Lossy (K.scheme uri))

/-- Timer C, never at or below the floor. -/
def effectiveTimerC (config : ProxyConfig) : Nat :=
  if timerCFloor < config.timerC then config.timerC else defaultTimerC

end ProxyConfig

end SipxClstr.Proxy
