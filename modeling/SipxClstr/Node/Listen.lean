import SipxClstr.Node.IpAddr

/-!
# Listeners

What a node binds, and what it tells the world to use.  The advertised address is
declared, not derived from a socket, so everything here is a function of the declared
configuration.
-/

namespace SipxClstr.Node

open SipxClstr.Sip

/-- How messages arrive. -/
inductive TransportKind where
  | udp
  | tcp
  | tls
  | ws
  | wss
  | quic
  deriving DecidableEq, Repr

/-- What is wrong with a declared listener. -/
inductive ListenerError where
  | emptyHost
  | unspecifiedHost (host : Text)
  | zeroPort
  | malformed (input : Text)
  | duplicateTransport (transport : TransportKind)
  | noListener
  | clearTextDisagreement (what : Text)
  | unsupportedTransport (transport : TransportKind)
  deriving DecidableEq, Repr

/-- The transport's name. -/
def TransportKind.asStr : TransportKind → Text
  | .udp => text "UDP"
  | .tcp => text "TCP"
  | .tls => text "TLS"
  | .ws => text "WS"
  | .wss => text "WSS"
  | .quic => text "QUIC"

/-- The error as it prints. -/
def ListenerError.shown : ListenerError → Text
  | .emptyHost => text "a listener must advertise a host"
  | .unspecifiedHost host =>
      text "`" ++ host ++ text "` cannot be advertised: an unspecified address is where to listen, not where to be reached"
  | .zeroPort => text "port 0 cannot be advertised: it names no port"
  | .malformed input => text "`" ++ input ++ text "` is not a host or a host:port"
  | .duplicateTransport transport =>
      transport.asStr ++ text " is declared twice: a message arriving on it would have two addresses to give"
  | .noListener => text "a node must declare at least one listener"
  | .clearTextDisagreement what =>
      text "the UDP and TCP listeners disagree about the " ++ what ++ text ": sipx binds one endpoint for the cleartext pair"
  | .unsupportedTransport transport =>
      text "a " ++ transport.asStr ++ text " listener is not supported here yet"

/-- `split_once`. -/
def splitOnce (separator : Char) (input : Text) : Option (Text × Text) :=
  match input.dropWhile (· ≠ separator) with
  | [] => none
  | _ :: after => some (input.takeWhile (· ≠ separator), after)

theorem splitOnce_eq_some_iff {separator : Char} {input before after : Text} :
    splitOnce separator input = some (before, after) ↔
      input = before ++ separator :: after ∧ separator ∉ before := by
  have passes : separator ∉ before → ∀ c ∈ before, decide (c ≠ separator) = true := by
    intro fresh c member
    rw [decide_eq_true_eq]
    rintro rfl
    exact fresh member
  constructor
  · intro found
    unfold splitOnce at found
    split at found
    · contradiction
    · next c rest dropped =>
        rw [Option.some_inj, Prod.mk.injEq] at found
        rcases found with ⟨rfl, rfl⟩
        have stops := List.head?_dropWhile_not (fun c : Char => decide (c ≠ separator)) input
        rw [dropped] at stops
        have isSeparator : c = separator := by simpa using stops
        subst isSeparator
        constructor
        · rw [← dropped, List.takeWhile_append_dropWhile]
        · intro member
          have other := List.mem_takeWhile_imp member
          simp at other
  · rintro ⟨rfl, fresh⟩
    unfold splitOnce
    rw [List.takeWhile_append_of_pos (passes fresh), List.dropWhile_append_of_pos (passes fresh)]
    simp

theorem splitOnce_eq_none_iff {separator : Char} {input : Text} :
    splitOnce separator input = none ↔ separator ∉ input := by
  constructor
  · intro missing member
    rcases List.mem_iff_append.mp member with ⟨before, after, rfl⟩
    unfold splitOnce at missing
    split at missing
    · next none =>
        have passed := List.dropWhile_eq_nil_iff.mp none separator member
        simp at passed
    · contradiction
  · intro fresh
    have all : input.dropWhile (· ≠ separator) = [] := by
      rw [List.dropWhile_eq_nil_iff]
      intro c member
      rw [decide_eq_true_eq]
      rintro rfl
      exact fresh member
    unfold splitOnce
    rw [all]

/-- `rsplit_once`. -/
def rsplitOnce (separator : Char) (input : Text) : Option (Text × Text) :=
  if separator ∈ input then
    some ((input.rdropWhile (· ≠ separator)).dropLast, input.rtakeWhile (· ≠ separator))
  else
    none

/-- The largest `u16`. -/
def u16Max : Nat :=
  65535

/-! ## Advertised addresses -/

/-- A host as it is kept: white space and brackets around it are not part of it. -/
def bareHost (host : Text) : Text :=
  ((trim host).dropWhile (· = '[')).rdropWhile (· = ']')

theorem head?_bareHost (host : Text) : (bareHost host).head? ≠ some '[' := by
  intro opens
  obtain ⟨rest, isBare⟩ := List.head?_eq_some_iff.mp opens
  have isPrefix : bareHost host <+: (trim host).dropWhile (· = '[') := List.rdropWhile_prefix _ _
  obtain ⟨closing, split⟩ := isPrefix
  have stops := List.head?_dropWhile_not (fun c : Char => decide (c = '[')) (trim host)
  rw [← split, isBare] at stops
  simp at stops

/-- The address a listener tells peers to use: a host, and a port if it differs from the
one bound. -/
structure Advertised where
  host : Text
  port : Option Nat
  nonempty : host ≠ []
  unbracketed : host.head? ≠ some '['
  specified : (parseIpAddr host).any IpAddr.isUnspecified = false
  port_ne_zero : port ≠ some 0
  deriving DecidableEq

namespace Advertised

/-- An advertised host, and the port to advertise with it. -/
def new (host : Text) (port : Option Nat) : Except ListenerError Advertised :=
  if empty : bareHost host = [] then
    .error .emptyHost
  else if unspecified : (parseIpAddr (bareHost host)).any IpAddr.isUnspecified = true then
    .error (.unspecifiedHost (bareHost host))
  else if zero : port = some 0 then
    .error .zeroPort
  else
    .ok ⟨bareHost host, port, empty, head?_bareHost host, Bool.not_eq_true _ ▸ unspecified, zero⟩

/-- A port, or the whole text is malformed. -/
def parsePort (input port : Text) : Except ListenerError Nat :=
  match parseUnsigned u16Max port with
  | some port => .ok port
  | none => .error (.malformed input)

/-- Parse `host`, `host:port` or `[v6]:port`. -/
def parse (input : Text) : Except ListenerError Advertised :=
  let input := trim input
  match input with
  | '[' :: rest =>
      match splitOnce ']' rest with
      | none => .error (.malformed input)
      | some (host, []) => new host none
      | some (host, ':' :: port) => do
          let port ← parsePort input port
          new host (some port)
      | some _ => .error (.malformed input)
  | _ =>
      if (parseIpAddr input).isSome then
        new input none
      else
        match rsplitOnce ':' input with
        | some (host, port) => do
            let port ← parsePort input port
            new host (some port)
        | none => new input none

example : (parse (text " [2001:DB8::1]:5070 ")).toOption.map (fun advertised =>
    (advertised.host, advertised.port)) = some (text "2001:DB8::1", some 5070) := by
  decide +kernel

/-- The host as it must be spelled inside a URI: an IPv6 literal in brackets. -/
def hostInUri (advertised : Advertised) : Text :=
  if isIpv6 advertised.host then '[' :: (advertised.host ++ [']']) else advertised.host

end Advertised

/-! ## Listeners -/

structure SocketAddr where
  ip : IpAddr
  port : Nat
  scopeId : Nat
  deriving DecidableEq

/-- `read_given_char`. -/
def readGivenChar (wanted : Char) : Text → Option Text
  | [] => none
  | c :: rest => if c = wanted then some rest else none

/-- A colon and a port, at the end of the text. -/
def readLastPort (input : Text) : Option Nat := do
  let rest ← readGivenChar ':' input
  let (port, rest) ← readNumber 10 rest.length u16Max true rest
  if rest = [] then some port else none

/-- `read_scope_id`, or zero with nothing read. -/
def readScopeId (input : Text) : Nat × Text :=
  match (readGivenChar '%' input).bind fun rest => readNumber 10 rest.length u32Max true rest with
  | some (scope, rest) => (scope, rest)
  | none => (0, input)

/-- `str::parse::<SocketAddrV4>`. -/
def parseSocketAddrV4 (input : Text) : Option SocketAddr := do
  let (octets, rest) ← readIpv4Addr input
  let port ← readLastPort rest
  some ⟨.v4 octets, port, 0⟩

/-- `str::parse::<SocketAddrV6>`. -/
def parseSocketAddrV6 (input : Text) : Option SocketAddr := do
  let rest ← readGivenChar '[' input
  let (groups, rest) ← readIpv6Addr rest
  let (scope, rest) := readScopeId rest
  let rest ← readGivenChar ']' rest
  let port ← readLastPort rest
  some ⟨.v6 groups, port, scope⟩

/-- `str::parse::<SocketAddr>`. -/
def parseSocketAddr (input : Text) : Option SocketAddr :=
  (parseSocketAddrV4 input).or (parseSocketAddrV6 input)

example : parseSocketAddr (text "[fe80::1%7]:5060") =
    some ⟨.v6 [0xfe80, 0, 0, 0, 0, 0, 0, 1], 5060, 7⟩ := by
  decide +kernel

/-- One listener: an address it binds, and the address it advertises. -/
structure Listener where
  transport : TransportKind
  bind : SocketAddr
  advertise : Advertised
  served : transport ∈ [TransportKind.udp, .tcp, .tls]
  deriving DecidableEq

namespace Listener

/-- A listener that binds one address and advertises another. -/
def new (transport : TransportKind) (bind : SocketAddr) (advertise : Advertised) :
    Except ListenerError Listener :=
  if served : transport ∈ [TransportKind.udp, .tcp, .tls] then
    .ok ⟨transport, bind, advertise, served⟩
  else
    .error (.unsupportedTransport transport)

/-- A listener that advertises the address it binds. -/
def bound (transport : TransportKind) (bind : SocketAddr) : Except ListenerError Listener := do
  let advertise ← Advertised.new bind.ip.shown (some bind.port)
  new transport bind advertise

def advertisedHost (listener : Listener) : Text :=
  listener.advertise.host

/-- The declared port, or the port actually bound. -/
def advertisedPort (listener : Listener) : Nat :=
  listener.advertise.port.getD listener.bind.port

/-- The `Via` sent-by for a message this listener puts on the wire. -/
def sentBy (listener : Listener) : Text :=
  listener.advertise.hostInUri ++ ':' :: decimal listener.advertisedPort

/-- The URI transport parameter this listener needs, if any. -/
def transportParam (listener : Listener) : Text :=
  match listener.transport with
  | .udp | .ws | .wss | .quic => []
  | .tcp => text ";transport=tcp"
  | .tls => text ";transport=tls"

/-- The `Record-Route` URI this node inserts for a request received here. -/
def recordRouteUri (listener : Listener) : Bytes :=
  utf8 (text "<sip:" ++ listener.sentBy ++ listener.transportParam ++ text ";lr>")

end Listener

/-! ## Sets of listeners -/

/-- The first transport of these that is among those seen or repeats an earlier one. -/
def firstRepeated (seen : List TransportKind) : List Listener → Option TransportKind
  | [] => none
  | listener :: rest =>
      if listener.transport ∈ seen then some listener.transport
      else firstRepeated (seen ++ [listener.transport]) rest

theorem firstRepeated_eq_none_iff {seen : List TransportKind} {listeners : List Listener} :
    firstRepeated seen listeners = none ↔
      (listeners.map Listener.transport).Nodup ∧
        ∀ listener ∈ listeners, listener.transport ∉ seen := by
  induction listeners generalizing seen with
  | nil => simp [firstRepeated]
  | cons listener rest ih =>
      by_cases member : listener.transport ∈ seen
      · simp [firstRepeated, member]
      · rw [firstRepeated, if_neg member, ih]
        simp only [List.mem_append, List.mem_singleton, not_or, List.map_cons, List.nodup_cons,
          List.mem_map, not_exists, not_and, List.forall_mem_cons, member, not_false_iff, true_and]
        constructor
        · rintro ⟨distinct, apart⟩
          exact ⟨⟨fun other isMember => (apart other isMember).2, distinct⟩,
            fun other isMember => (apart other isMember).1⟩
        · rintro ⟨⟨fresh, distinct⟩, apart⟩
          exact ⟨distinct, fun other isMember => ⟨apart other isMember, fresh other isMember⟩⟩

/-- The listener a message that arrived by `transport` was received on. -/
def receivingOf (listeners : List Listener) (transport : TransportKind) : Option Listener :=
  listeners.find? fun listener => listener.transport = transport

/-- Every listener a node runs, validated as a set: there is one, no transport is claimed
twice, and the cleartext pair agrees about the address bound once for both. -/
structure Listeners where
  listeners : List Listener
  nonempty : listeners ≠ []
  distinct : (listeners.map Listener.transport).Nodup
  agree : ∀ udp tcp, receivingOf listeners .udp = some udp →
    receivingOf listeners .tcp = some tcp → udp.bind = tcp.bind ∧ udp.advertise = tcp.advertise

namespace Listeners

/-- Validate a declared set. -/
def new (listeners : List Listener) : Except ListenerError Listeners :=
  if nothing : listeners = [] then
    .error .noListener
  else
    match repeated : firstRepeated [] listeners with
    | some transport => .error (.duplicateTransport transport)
    | none =>
        have distinct := (firstRepeated_eq_none_iff.mp repeated).1
        match isUdp : receivingOf listeners .udp, isTcp : receivingOf listeners .tcp with
        | some udp, some tcp =>
            if sameBind : udp.bind = tcp.bind then
              if sameAdvertise : udp.advertise = tcp.advertise then
                .ok
                  { listeners, nonempty := nothing, distinct
                    agree := by
                      intro udp' tcp' isUdp' isTcp'
                      rw [← Option.some.inj (isUdp.symm.trans isUdp'),
                        ← Option.some.inj (isTcp.symm.trans isTcp')]
                      exact ⟨sameBind, sameAdvertise⟩ }
              else
                .error (.clearTextDisagreement (text "advertised address"))
            else
              .error (.clearTextDisagreement (text "bind address"))
        | none, _ =>
            .ok { listeners, nonempty := nothing, distinct, agree := by simp [isUdp] }
        | some _, none =>
            .ok { listeners, nonempty := nothing, distinct, agree := by simp [isTcp] }

/-- The listener a message that arrived by `transport` was received on. -/
def receiving (set : Listeners) (transport : TransportKind) : Option Listener :=
  receivingOf set.listeners transport

/-- The listener the node's one cleartext endpoint binds, if the set declares one. -/
def cleartext (set : Listeners) : Option Listener :=
  (set.receiving .udp).or (set.receiving .tcp)

end Listeners

end SipxClstr.Node
