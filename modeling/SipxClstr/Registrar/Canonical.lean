import SipxClstr.Registrar.AddressText
import SipxClstr.Sip.Reference
import Mathlib.Tactic.Tauto

/-!
# When two keys are one

The parts of a key are told from its text: a colon ends the scheme, an at sign the user part,
and what stands behind the host is the port.  So two URIs share a key when their schemes, user
parts, hosts and ports are the same, but for a host name that is an IPv4 address once its dot
is stripped.
-/

namespace SipxClstr.Registrar

open SipxClstr.Sip

/-! ## The user part -/

/-- The value of a hexadecimal digit. -/
def hexValue (digit : UInt8) : Option UInt8 :=
  if 48 ≤ digit ∧ digit ≤ 57 then some (digit - 48)
  else if 65 ≤ digit ∧ digit ≤ 70 then some (digit - 55)
  else if 97 ≤ digit ∧ digit ≤ 102 then some (digit - 87)
  else none

/-- Percent-decoding. -/
def percentDecode : Bytes → Option Bytes
  | [] => some []
  | byte :: rest =>
      if byte = 37 then
        match rest with
        | high :: low :: rest => do
            let high ← hexValue high
            let low ← hexValue low
            let decoded ← percentDecode rest
            some ((high * 16 + low) :: decoded)
        | _ => none
      else
        (percentDecode rest).map (byte :: ·)

/-- One byte as it stands in a user part. -/
def escapeByte (byte : UInt8) : Text :=
  if isUnreserved byte then [Char.ofNat byte.toNat]
  else ['%', hexDigit (byte.toNat / 16), hexDigit (byte.toNat % 16)]

theorem escapeUser_cons (byte : UInt8) (rest : Bytes) :
    escapeUser (byte :: rest) = escapeByte byte ++ escapeUser rest :=
  rfl

/-- The characters of an escaped byte. -/
theorem escapeByte_chars (byte : UInt8) : ∀ c ∈ escapeByte byte,
    33 ≤ c.toNat ∧ c.toNat < 127 ∧ c ≠ '@' ∧ c ≠ ':' := by
  have all : ∀ value : Fin 256, ∀ c ∈ escapeByte (UInt8.ofNat value),
      33 ≤ c.toNat ∧ c.toNat < 127 ∧ c ≠ '@' ∧ c ≠ ':' := by
    decide +kernel
  simpa using all ⟨byte.toNat, byte.toNat_lt⟩

theorem escapeUser_chars {decoded : Bytes} {c : Char} (member : c ∈ escapeUser decoded) :
    33 ≤ c.toNat ∧ c.toNat < 127 ∧ c ≠ '@' ∧ c ≠ ':' := by
  rcases List.mem_flatMap.mp member with ⟨byte, -, escaped⟩
  exact escapeByte_chars byte c escaped

/-- An escaped byte reads as itself, raw or by its two digits. -/
theorem escapeByte_reads (byte : UInt8) :
    utf8 (escapeByte byte) = [byte] ∧ byte ≠ 37 ∨
      ∃ high low, utf8 (escapeByte byte) = [37, high, low] ∧
        ∃ upper lower, hexValue high = some upper ∧ hexValue low = some lower ∧
          upper * 16 + lower = byte := by
  have all : ∀ value : Fin 256,
      utf8 (escapeByte (UInt8.ofNat value)) = [UInt8.ofNat value] ∧ UInt8.ofNat value ≠ 37 ∨
        utf8 (escapeByte (UInt8.ofNat value)) =
            [37, (utf8 [hexDigit (value.val / 16)]).headD 0,
              (utf8 [hexDigit (value.val % 16)]).headD 0] ∧
          hexValue ((utf8 [hexDigit (value.val / 16)]).headD 0) =
            some (UInt8.ofNat (value.val / 16)) ∧
          hexValue ((utf8 [hexDigit (value.val % 16)]).headD 0) =
            some (UInt8.ofNat (value.val % 16)) ∧
          UInt8.ofNat (value.val / 16) * 16 + UInt8.ofNat (value.val % 16) =
            UInt8.ofNat value := by
    decide +kernel
  have escaped := all ⟨byte.toNat, byte.toNat_lt⟩
  simp only [UInt8.ofNat_toNat] at escaped
  rcases escaped with raw | ⟨digits, high, low, value⟩
  · exact .inl raw
  · exact .inr ⟨_, _, digits, _, _, high, low, value⟩

theorem utf8_append (first second : Text) : utf8 (first ++ second) = utf8 first ++ utf8 second :=
  List.flatMap_append

/-- The user part of a key decodes to the bytes it was made from. -/
theorem percentDecode_escapeUser (decoded : Bytes) :
    percentDecode (utf8 (escapeUser decoded)) = some decoded := by
  induction decoded with
  | nil => rfl
  | cons byte rest ih =>
      rw [escapeUser_cons, utf8_append]
      rcases escapeByte_reads byte with ⟨raw, other⟩ | ⟨high, low, digits, _, _, isHigh, isLow, value⟩
      · rw [raw, List.singleton_append]
        unfold percentDecode
        rw [if_neg other, ih]
        rfl
      · rw [digits]
        simp only [List.cons_append, List.nil_append]
        unfold percentDecode
        rw [if_pos rfl]
        simp only [isHigh, isLow, ih, Option.bind_eq_bind, Option.bind_some, value]

theorem utf8_injective : Function.Injective utf8 := by
  intro first second same
  rw [← fromUtf8Lossy_utf8 first, same, fromUtf8Lossy_utf8]

theorem escapeUser_injective : Function.Injective escapeUser := by
  intro first second same
  have decoded := percentDecode_escapeUser first
  rw [same, percentDecode_escapeUser] at decoded
  exact (Option.some.inj decoded).symm

theorem escapeUser_ne_nil {decoded : Bytes} (some : decoded ≠ []) : escapeUser decoded ≠ [] := by
  intro isNil
  exact some (escapeUser_injective isNil)

/-! ## The text of a key -/

def userText : Option Bytes → Text
  | some decoded => escapeUser decoded ++ ['@']
  | none => []

def portText : Option Nat → Text
  | some port => ':' :: decimal port
  | none => []

def schemeText (secure : Bool) : Text :=
  if secure then text "sips" else text "sip"

/-- A key from its parts. -/
def keyText (secure : Bool) (user : Option Bytes) (host : Text) (port : Option Nat) : Text :=
  schemeText secure ++ ':' :: (userText user ++ (host ++ portText port))

/-- What a host name is written with. -/
def isHostname (c : Char) : Bool :=
  c.isAlphanum || c = '-' || c = '.' || c = '_'

/-- What stands in a key for a host. -/
inductive HostText : Text → Prop
  | plain {host : Text} (chars : ∀ c ∈ host, isHostname c = true) : HostText host
  | bracketed (address : BitVec 128) : HostText ('[' :: ipv6Text address ++ [']'])

/-- A host text ends where the port starts. -/
theorem HostText.delimits {host host' : Text} (isHost : HostText host) (isHost' : HostText host')
    {port port' : Option Nat} (same : host ++ portText port = host' ++ portText port') :
    host = host' ∧ portText port = portText port' := by
  have free : ∀ {host : Text}, (∀ c ∈ host, isHostname c = true) → ':' ∉ host ∧ '[' ∉ host := by
    intro host chars
    constructor
    · intro member
      have colon := chars ':' member
      contradiction
    · intro member
      have bracket := chars '[' member
      contradiction
  have closed : ∀ address : BitVec 128, ']' ∉ '[' :: ipv6Text address := by
    intro address member
    rcases List.mem_cons.mp member with same | inside
    · contradiction
    · rcases mem_ipv6Text inside with letter | colon | dot <;> contradiction
  have opened : ∀ {host : Text} {port : Option Nat} {rest : Text},
      (∀ c ∈ host, isHostname c = true) → host ++ portText port ≠ '[' :: rest := by
    intro host port rest chars same
    cases host with
    | nil => cases port <;> cases same
    | cons c host =>
        cases same
        exact (free chars).2 List.mem_cons_self
  cases isHost with
  | plain chars =>
      cases isHost' with
      | plain chars' =>
          cases port with
          | none =>
              cases port' with
              | none => simpa [portText] using same
              | some port' =>
                  have colon : ':' ∈ host ++ portText none := by
                    rw [same]
                    simp [portText]
                  simp only [portText, List.append_nil] at colon
                  exact absurd colon (free chars).1
          | some port =>
              cases port' with
              | none =>
                  have colon : ':' ∈ host' ++ portText none := by
                    rw [← same]
                    simp [portText]
                  simp only [portText, List.append_nil] at colon
                  exact absurd colon (free chars').1
              | some port' =>
                  rcases append_cons_inj (free chars).1 (free chars').1 same with ⟨hosts, ports⟩
                  exact ⟨hosts, congrArg (':' :: ·) ports⟩
      | bracketed address => exact absurd same (opened chars)
  | bracketed address =>
      cases isHost' with
      | plain chars' => exact absurd same.symm (opened chars')
      | bracketed address' =>
          simp only [List.append_assoc, List.singleton_append] at same
          rcases append_cons_inj (closed address) (closed address') same with ⟨hosts, ports⟩
          exact ⟨congrArg (· ++ [']']) hosts, ports⟩

theorem portText_injective : Function.Injective portText := by
  intro port port' same
  cases port with
  | none =>
      cases port' with
      | none => rfl
      | some port' => contradiction
  | some port =>
      cases port' with
      | none => contradiction
      | some port' => rw [decimal_injective (List.cons.inj same).2]

theorem HostText.at_notMem {host : Text} (isHost : HostText host) (port : Option Nat) :
    '@' ∉ host ++ portText port := by
  rw [List.mem_append]
  rintro (inside | behind)
  · cases isHost with
    | plain chars =>
        have sign := chars '@' inside
        contradiction
    | bracketed address =>
        rw [List.mem_append, List.mem_cons] at inside
        rcases inside with (first | member) | last
        · contradiction
        · rcases mem_ipv6Text member with letter | colon | dot <;> contradiction
        · simp at last
  · cases port with
    | none => contradiction
    | some port =>
        rcases List.mem_cons.mp behind with colon | digit
        · contradiction
        · have isDigit := isDigit_of_mem_decimal digit
          contradiction

theorem at_notMem_escapeUser (decoded : Bytes) : '@' ∉ escapeUser decoded :=
  fun member => (escapeUser_chars member).2.2.1 rfl

/-- A key tells its parts. -/
theorem keyText_injective {secure secure' : Bool} {user user' : Option Bytes} {host host' : Text}
    {port port' : Option Nat} (isHost : HostText host) (isHost' : HostText host')
    (same : keyText secure user host port = keyText secure' user' host' port') :
    secure = secure' ∧ user = user' ∧ host = host' ∧ port = port' := by
  have free : ∀ secure, ':' ∉ schemeText secure := by decide
  have schemes : ∀ secure secure', schemeText secure = schemeText secure' → secure = secure' := by
    decide
  rcases append_cons_inj (free secure) (free secure') same with ⟨scheme, same⟩
  have users : user = user' ∧ host ++ portText port = host' ++ portText port' := by
    cases user with
    | none =>
        cases user' with
        | none => exact ⟨rfl, same⟩
        | some decoded =>
            have sign : '@' ∈ host ++ portText port := by
              simp only [userText, List.nil_append] at same
              rw [same]
              simp
            exact absurd sign (isHost.at_notMem port)
    | some decoded =>
        cases user' with
        | none =>
            have sign : '@' ∈ host' ++ portText port' := by
              simp only [userText, List.nil_append] at same
              rw [← same]
              simp
            exact absurd sign (isHost'.at_notMem port')
        | some decoded' =>
            simp only [userText, List.append_assoc, List.singleton_append] at same
            rcases append_cons_inj (at_notMem_escapeUser _) (at_notMem_escapeUser _) same with
              ⟨users, rest⟩
            exact ⟨congrArg some (escapeUser_injective users), rest⟩
  rcases isHost.delimits isHost' users.2 with ⟨hosts, ports⟩
  exact ⟨schemes _ _ scheme, users.1, hosts, portText_injective ports⟩

/-! ## Host names -/

/-- A host name that is no IP address. -/
structure Hostname (name : Text) : Prop where
  some : name ≠ []
  chars : ∀ c ∈ name, isHostname c = true
  noAddress : ∀ address, name ≠ ipv4Text address

/-- A host name in its one spelling. -/
def folded (name : Text) : Text :=
  stripTrailingDot (toAsciiLowercase name)

theorem stripTrailingDot_eq_self {name : Text} (bare : name.getLast? ≠ some '.') :
    stripTrailingDot name = name :=
  if_neg bare

theorem stripTrailingDot_ne {name : Text} (dotted : name.getLast? = some '.') :
    stripTrailingDot name ≠ name := by
  intro same
  rw [stripTrailingDot, if_pos dotted] at same
  have lengths := congrArg List.length same
  cases name with
  | nil => contradiction
  | cons c rest => simp at lengths

theorem mem_stripTrailingDot {name : Text} {c : Char} (member : c ∈ stripTrailingDot name) :
    c ∈ name := by
  unfold stripTrailingDot at member
  split at member
  · exact List.mem_of_mem_dropLast member
  · exact member

/-- The letters and the digits, by their codes. -/
theorem isAlphanum_iff {c : Char} : c.isAlphanum = true ↔
    (65 ≤ c.toNat ∧ c.toNat ≤ 90 ∨ 97 ≤ c.toNat ∧ c.toNat ≤ 122) ∨
      48 ≤ c.toNat ∧ c.toNat ≤ 57 := by
  have codes : c.isAlphanum =
      (decide (c.val ≥ 65 ∧ c.val ≤ 90) || (decide (c.val ≥ 97) && decide (c.val ≤ 122)) ||
        (decide (c.val ≥ 48) && decide (c.val ≤ 57))) :=
    rfl
  rw [codes]
  simp only [Bool.or_eq_true, Bool.and_eq_true, decide_eq_true_eq, UInt32.le_iff_toNat_le,
    ge_iff_le]
  rfl

theorem toNat_of_isHostname {c : Char} (isChar : isHostname c = true) : c.toNat < 128 := by
  simp only [isHostname, Bool.or_eq_true, isAlphanum_iff, decide_eq_true_eq] at isChar
  rcases isChar with ((((upper | lower) | digit) | rfl) | rfl) | rfl
  · exact lt_of_le_of_lt upper.2 (by decide)
  · exact lt_of_le_of_lt lower.2 (by decide)
  · exact lt_of_le_of_lt digit.2 (by decide)
  all_goals decide

theorem isHostname_cases {c : Char} (isChar : isHostname c = true) :
    33 ≤ c.toNat ∧ c.toNat < 127 ∧ isHostname c.toLower = true ∧ c.toLower.toLower = c.toLower := by
  have all : ∀ value : Fin 128, isHostname (Char.ofNat value) = true →
      33 ≤ (Char.ofNat value).toNat ∧ (Char.ofNat value).toNat < 127 ∧
        isHostname (Char.ofNat value).toLower = true ∧
          (Char.ofNat value).toLower.toLower = (Char.ofNat value).toLower := by
    decide +kernel
  have holds := all ⟨c.toNat, toNat_of_isHostname isChar⟩
  rw [Char.ofNat_toNat] at holds
  exact holds isChar

section Folded

variable {name : Text} (chars : ∀ c ∈ name, isHostname c = true)

include chars

theorem isHostname_of_mem_folded {c : Char} (member : c ∈ folded name) : isHostname c = true := by
  rcases List.mem_map.mp (mem_stripTrailingDot member) with ⟨raw, isRaw, rfl⟩
  exact (isHostname_cases (chars raw isRaw)).2.2.1

/-- Folding once more only strips a dot. -/
theorem folded_folded : folded (folded name) = stripTrailingDot (folded name) := by
  have lower : toAsciiLowercase (folded name) = folded name := by
    have each : ∀ c ∈ folded name, c.toLower = id c := by
      intro c member
      rcases List.mem_map.mp (mem_stripTrailingDot member) with ⟨raw, isRaw, rfl⟩
      exact (isHostname_cases (chars raw isRaw)).2.2.2
    rw [toAsciiLowercase, List.map_congr_left each, List.map_id]
  rw [folded, lower]

end Folded

/-- An IPv4 address ends in a digit. -/
theorem ipv4Text_getLast? (address : BitVec 32) : (ipv4Text address).getLast? ≠ some '.' := by
  intro dotted
  have last : (decimal (address.toNat / Nat.pow 256 0 % 256)).getLast? = some '.' := by
    rw [ipv4Text, List.getLast?_append, List.getLast?_cons] at dotted
    rw [List.getLast?_eq_some_getLast (decimal_ne_nil _)] at dotted ⊢
    exact dotted
  have digit := isDigit_of_mem_decimal (List.mem_of_getLast? last)
  contradiction

/-! ## What is relied on of the kernel -/

/-- What stands in a URI for a host. -/
inductive ReadAs : Text → Host → Prop
  | name {name : Text} (isName : Hostname name) : ReadAs name (.name (utf8 name))
  | v4 (address : BitVec 32) : ReadAs (ipv4Text address) (.ip (.v4 address))
  | v6 (address : BitVec 128) : ReadAs ('[' :: ipv6Text address ++ [']']) (.ip (.v6 address))

namespace CanonicalAor

variable {K : Kernel} {P : UriParts K}

variable (P) in
/-- A host name is nonempty, of the characters of host names, and no IP address; a user part is
decoded as its escapes say; and a URI is read as it is written. -/
structure Parses : Prop where
  hostname : ∀ raw uri name, K.parseUri raw = some uri → P.host uri = some (.name name) →
    ∃ spelled, Hostname spelled ∧ name = utf8 spelled
  decoded : ∀ raw uri, K.parseUri raw = some uri →
    P.decodedUser uri = (K.user uri).bind percentDecode
  reads : ∀ secure user host port uri asHost, ReadAs host asHost →
    K.parseUri (utf8 (keyText secure user host port)) = some uri →
      K.scheme uri = utf8 (schemeText secure) ∧ P.hasHeaders uri = false ∧
        P.password uri = none ∧ K.user uri = user.map (fun decoded => utf8 (escapeUser decoded)) ∧
          P.host uri = some asHost ∧ K.port uri = port

/-! ## The key of a URI -/

/-- What a key is made from. -/
structure Keyed (P : UriParts K) (uri : K.Uri) (secure : Bool) (user : Option Bytes) (host : Host) :
    Prop where
  scheme : K.scheme uri = utf8 (schemeText secure)
  headers : P.hasHeaders uri = false
  password : P.password uri = none
  user : K.user uri = none ∧ user = none ∨ ∃ raw decoded, K.user uri = some raw ∧ raw ≠ [] ∧
    P.decodedUser uri = some decoded ∧ decoded ≠ [] ∧ user = some decoded
  isHost : P.host uri = some host
  nonempty : hostOf P host ≠ []

theorem userOf_cases (P : UriParts K) (uri : K.Uri) :
    (∃ user, userOf P uri = .ok (user.map escapeUser) ∧
      (K.user uri = none ∧ user = none ∨ ∃ raw decoded, K.user uri = some raw ∧ raw ≠ [] ∧
        P.decodedUser uri = some decoded ∧ decoded ≠ [] ∧ user = some decoded)) ∨
      userOf P uri = .error .emptyUser ∧ (K.user uri = none → False) ∧
        ∀ raw decoded, K.user uri = some raw → raw ≠ [] → P.decodedUser uri = some decoded →
          decoded = [] := by
  unfold userOf
  cases isUser : K.user uri with
  | none => exact .inl ⟨none, rfl, .inl ⟨rfl, rfl⟩⟩
  | some raw =>
      dsimp only
      by_cases empty : raw = []
      · rw [if_pos empty]
        refine .inr ⟨rfl, by simp, ?_⟩
        rintro _ _ ⟨⟩ some
        exact absurd empty some
      · rw [if_neg empty]
        cases isDecoded : P.decodedUser uri with
        | none => exact .inr ⟨rfl, by simp, by simp⟩
        | some decoded =>
            dsimp only
            by_cases hollow : decoded = []
            · rw [if_pos hollow]
              refine .inr ⟨rfl, by simp, ?_⟩
              rintro _ _ - - ⟨⟩
              exact hollow
            · rw [if_neg hollow]
              exact .inl ⟨some decoded, rfl, .inr ⟨raw, decoded, rfl, empty, rfl, hollow, rfl⟩⟩

/-- The key of a host and a port, and what stands before them. -/
def assembled (secure : Bool) (user : Option Text) (host : Text) (port : Option Nat) : Text :=
  match user with
  | some user => schemeText secure ++ ':' :: user ++ '@' :: host ++ portText port
  | none => schemeText secure ++ ':' :: host ++ portText port

theorem assembled_eq (secure : Bool) (user : Option Bytes) (host : Text) (port : Option Nat) :
    assembled secure (user.map escapeUser) host port = keyText secure user host port := by
  cases user <;> simp [assembled, keyText, userText]

/-- What is left to decide once the scheme is known. -/
theorem fromUri_eq {uri : K.Uri} {secure : Bool}
    (scheme : K.scheme uri = utf8 (schemeText secure)) :
    fromUri P uri =
      if P.hasHeaders uri then .error .uriHeaders
      else if (P.password uri).isSome then .error .password
      else (userOf P uri).bind fun user =>
        match P.host uri with
        | none => .error .noHost
        | some host =>
            if hostOf P host = [] then .error .noHost
            else
              let key := assembled secure user (hostOf P host) (K.port uri)
              if maxKeyBytes < (utf8 key).length then .error (.tooLong (utf8 key).length)
              else .ok ⟨key⟩ := by
  have ports : ∀ port : Option Nat, (match port with
      | some port => ':' :: decimal port
      | none => []) = portText port := by
    intro port
    cases port <;> rfl
  unfold fromUri
  cases secure with
  | false =>
      have isSip : K.scheme uri = bytes "sip" := scheme
      rw [if_pos isSip]
      rfl
  | true =>
      have isSips : K.scheme uri = bytes "sips" := scheme
      rw [if_neg (by rw [isSips]; decide), if_pos isSips]
      rfl

/-- A URI has a key exactly if its parts make one that is not too long. -/
theorem fromUri_ok_iff {uri : K.Uri} {aor : CanonicalAor} : fromUri P uri = .ok aor ↔
    ∃ secure user host, Keyed P uri secure user host ∧
      aor.key = keyText secure user (hostOf P host) (K.port uri) ∧
        (utf8 aor.key).length ≤ maxKeyBytes := by
  constructor
  · intro accepted
    have isScheme : ∃ secure, K.scheme uri = utf8 (schemeText secure) := by
      by_contra other
      have notSip : K.scheme uri ≠ bytes "sip" := fun same => other ⟨false, same⟩
      have notSips : K.scheme uri ≠ bytes "sips" := fun same => other ⟨true, same⟩
      unfold fromUri at accepted
      rw [if_neg notSip, if_neg notSips] at accepted
      contradiction
    rcases isScheme with ⟨secure, scheme⟩
    rw [fromUri_eq scheme] at accepted
    split at accepted
    · contradiction
    · next noHeaders =>
        split at accepted
        · contradiction
        · next noPassword =>
            rcases userOf_cases P uri with ⟨user, isUser, known⟩ | ⟨isError, -, -⟩
            · rw [isUser] at accepted
              cases isHost : P.host uri with
              | none =>
                  rw [isHost] at accepted
                  contradiction
              | some host =>
                  rw [isHost] at accepted
                  simp only [Except.bind, assembled_eq] at accepted
                  split at accepted
                  · contradiction
                  · next nonempty =>
                      split at accepted
                      · contradiction
                      · next short =>
                          cases accepted
                          refine ⟨secure, user, host, ⟨scheme, ?_, ?_, known, isHost, nonempty⟩,
                            rfl, not_lt.mp short⟩
                          · exact Bool.eq_false_of_not_eq_true noHeaders
                          · exact Option.not_isSome_iff_eq_none.mp noPassword
            · rw [isError] at accepted
              contradiction
  · rintro ⟨secure, user, host, keyed, isKey, short⟩
    have isUser : userOf P uri = .ok (user.map escapeUser) := by
      rcases userOf_cases P uri with ⟨other, isUser, known⟩ | ⟨-, some, hollow⟩
      · rw [isUser]
        rcases keyed.user with ⟨none, rfl⟩ | ⟨raw, decoded, isRaw, -, isDecoded, -, rfl⟩
        · rcases known with ⟨-, rfl⟩ | ⟨raw, _, isRaw, -⟩
          · rfl
          · rw [none] at isRaw
            contradiction
        · rcases known with ⟨none, -⟩ | ⟨_, decoded', _, -, isDecoded', -, rfl⟩
          · rw [none] at isRaw
            contradiction
          · rw [isDecoded] at isDecoded'
            rw [isDecoded']
      · rcases keyed.user with ⟨none, -⟩ | ⟨raw, decoded, isRaw, filled, isDecoded, nonempty, -⟩
        · exact (some none).elim
        · exact absurd (hollow raw decoded isRaw filled isDecoded) nonempty
    rw [fromUri_eq keyed.scheme, keyed.headers, keyed.password, isUser, keyed.isHost]
    simp only [Bool.false_eq_true, if_false, Option.isSome_none, Except.bind, assembled_eq,
      if_neg keyed.nonempty, ← isKey, if_neg (not_lt.mpr short)]

/-! ## Which URIs share a key -/

/-- The hosts are the same IP literal, or the same name but for case and a trailing dot. -/
def SameHost : Host → Host → Prop
  | .ip address, .ip address' => address = address'
  | .name name, .name name' => folded (fromUtf8Lossy name) = folded (fromUtf8Lossy name')
  | _, _ => False

/-- Two URIs of one address-of-record. -/
structure SameAor (P : UriParts K) (uri uri' : K.Uri) : Prop where
  scheme : K.scheme uri = K.scheme uri'
  user : K.user uri = none ∧ K.user uri' = none ∨
    ∃ decoded, P.decodedUser uri = some decoded ∧ P.decodedUser uri' = some decoded
  host : ∃ host host', P.host uri = some host ∧ P.host uri' = some host' ∧ SameHost host host'
  port : K.port uri = K.port uri'

/-- They differ only in that the host of one is an IPv4 address, and that of the other a name
which is the text of this address, less a trailing dot. -/
structure Mistaken (P : UriParts K) (uri uri' : K.Uri) : Prop where
  scheme : K.scheme uri = K.scheme uri'
  user : K.user uri = none ∧ K.user uri' = none ∨
    ∃ decoded, P.decodedUser uri = some decoded ∧ P.decodedUser uri' = some decoded
  host : ∃ name address, P.host uri = some (.name name) ∧ P.host uri' = some (.ip (.v4 address)) ∧
    folded (fromUtf8Lossy name) = ipv4Text address
  port : K.port uri = K.port uri'

/-- The host is a name that ends in two dots. -/
def Restless (P : UriParts K) (uri : K.Uri) : Prop :=
  ∃ name, P.host uri = some (.name name) ∧ (folded (fromUtf8Lossy name)).getLast? = some '.'

section Hosts

variable {raw raw' : Bytes} {uri uri' : K.Uri} {host host' : Host}

theorem hostOf_name {name : Text} (isName : Hostname name) :
    hostOf P (.name (utf8 name)) = folded name := by
  rw [hostOf, fromUtf8Lossy_utf8, P.toLowercase_ascii name]
  · rfl
  · intro c member
    exact toNat_of_isHostname (isName.chars c member)

theorem Parses.hostText (parses : Parses P) (parsed : K.parseUri raw = some uri)
    (isHost : P.host uri = some host) : HostText (hostOf P host) := by
  cases host with
  | name name =>
      rcases parses.hostname raw uri name parsed isHost with ⟨spelled, isName, rfl⟩
      rw [hostOf_name isName]
      exact .plain fun c member => isHostname_of_mem_folded isName.chars member
  | ip address =>
      cases address with
      | v4 address =>
          apply HostText.plain
          intro c member
          rcases mem_ipv4Text member with digit | rfl
          · simp [isHostname, Char.isAlphanum, digit]
          · decide
      | v6 address => exact .bracketed address

theorem bracket_notMem_folded {name : Text} (isName : Hostname name) (address : BitVec 128) :
    folded name ≠ '[' :: (ipv6Text address ++ [']']) := by
  intro same
  have bracket : isHostname '[' = true := by
    apply isHostname_of_mem_folded isName.chars
    rw [same]
    exact List.mem_cons_self
  contradiction

theorem bracket_ne_ipv4Text (address : BitVec 32) (other : BitVec 128) :
    ipv4Text address ≠ '[' :: (ipv6Text other ++ [']']) := by
  intro same
  have member : '[' ∈ ipv4Text address := by
    rw [same]
    exact List.mem_cons_self
  rcases mem_ipv4Text member with digit | dot <;> contradiction

/-- Two hosts are written alike if they are the same, or one is a name that is mistaken for the
other, an IPv4 address. -/
theorem hostOf_eq_iff (parses : Parses P) (parsed : K.parseUri raw = some uri)
    (parsed' : K.parseUri raw' = some uri') (isHost : P.host uri = some host)
    (isHost' : P.host uri' = some host') : hostOf P host = hostOf P host' ↔
      SameHost host host' ∨
        (∃ name address, host = .name name ∧ host' = .ip (.v4 address) ∧
          folded (fromUtf8Lossy name) = ipv4Text address) ∨
        ∃ name address, host' = .name name ∧ host = .ip (.v4 address) ∧
          folded (fromUtf8Lossy name) = ipv4Text address := by
  cases host with
  | name name =>
      rcases parses.hostname raw uri name parsed isHost with ⟨spelled, isName, rfl⟩
      rw [hostOf_name isName]
      cases host' with
      | name name' =>
          rcases parses.hostname raw' uri' name' parsed' isHost' with ⟨spelled', isName', rfl⟩
          rw [hostOf_name isName']
          simp [SameHost]
      | ip address =>
          cases address with
          | v4 address => simp [SameHost, hostOf]
          | v6 address => simp [SameHost, hostOf, bracket_notMem_folded isName]
  | ip address =>
      cases host' with
      | name name' =>
          rcases parses.hostname raw' uri' name' parsed' isHost' with ⟨spelled', isName', rfl⟩
          rw [hostOf_name isName']
          cases address with
          | v4 address => simp [SameHost, hostOf, eq_comm]
          | v6 address => simp [SameHost, hostOf, (bracket_notMem_folded isName' address).symm]
      | ip address' =>
          cases address with
          | v4 address =>
              cases address' with
              | v4 address' => simp [SameHost, hostOf, ipv4Text_injective.eq_iff]
              | v6 address' => simp [SameHost, hostOf, bracket_ne_ipv4Text address address']
          | v6 address =>
              cases address' with
              | v4 address' =>
                  simp [SameHost, hostOf, (bracket_ne_ipv4Text address' address).symm]
              | v6 address' => simp [SameHost, hostOf, ipv6Text_injective.eq_iff]

end Hosts

section Keys

variable {raw raw' : Bytes} {uri uri' : K.Uri} {secure secure' : Bool} {user user' : Option Bytes}
  {host host' : Host}

theorem Keyed.scheme_iff (keyed : Keyed P uri secure user host)
    (keyed' : Keyed P uri' secure' user' host') :
    K.scheme uri = K.scheme uri' ↔ secure = secure' := by
  have schemes : ∀ secure secure', utf8 (schemeText secure) = utf8 (schemeText secure') ↔
      secure = secure' := by
    decide
  rw [keyed.scheme, keyed'.scheme, schemes]

/-- The bytes the user part decodes to, if there is one. -/
theorem Keyed.decoded (parses : Parses P) (parsed : K.parseUri raw = some uri)
    (keyed : Keyed P uri secure user host) :
    P.decodedUser uri = user ∧ (K.user uri = none ↔ user = none) := by
  rcases keyed.user with ⟨none, rfl⟩ | ⟨escaped, decoded, isUser, -, isDecoded, -, rfl⟩
  · rw [parses.decoded raw uri parsed, none]
    exact ⟨rfl, Iff.rfl⟩
  · rw [isDecoded, isUser]
    simp

theorem Keyed.user_iff (parses : Parses P) (parsed : K.parseUri raw = some uri)
    (parsed' : K.parseUri raw' = some uri') (keyed : Keyed P uri secure user host)
    (keyed' : Keyed P uri' secure' user' host') :
    (K.user uri = none ∧ K.user uri' = none ∨ ∃ decoded, P.decodedUser uri = some decoded ∧
        P.decodedUser uri' = some decoded) ↔ user = user' := by
  rcases keyed.decoded parses parsed with ⟨isDecoded, none_iff⟩
  rcases keyed'.decoded parses parsed' with ⟨isDecoded', none_iff'⟩
  rw [isDecoded, isDecoded', none_iff, none_iff']
  constructor
  · rintro (⟨rfl, rfl⟩ | ⟨decoded, rfl, rfl⟩) <;> rfl
  · rintro rfl
    cases user with
    | none => exact .inl ⟨rfl, rfl⟩
    | some decoded => exact .inr ⟨decoded, rfl, rfl⟩

theorem Keyed.sameAor_iff (parses : Parses P) (parsed : K.parseUri raw = some uri)
    (parsed' : K.parseUri raw' = some uri') (keyed : Keyed P uri secure user host)
    (keyed' : Keyed P uri' secure' user' host') : SameAor P uri uri' ↔
      (secure = secure' ∧ user = user' ∧ K.port uri = K.port uri') ∧ SameHost host host' := by
  constructor
  · rintro ⟨scheme, users, ⟨host, host', isHost, isHost', same⟩, port⟩
    cases keyed.isHost.symm.trans isHost
    cases keyed'.isHost.symm.trans isHost'
    exact ⟨⟨(keyed.scheme_iff keyed').mp scheme,
      (keyed.user_iff parses parsed parsed' keyed').mp users, port⟩, same⟩
  · rintro ⟨⟨scheme, users, port⟩, same⟩
    exact ⟨(keyed.scheme_iff keyed').mpr scheme,
      (keyed.user_iff parses parsed parsed' keyed').mpr users,
      ⟨host, host', keyed.isHost, keyed'.isHost, same⟩, port⟩

theorem Keyed.mistaken_iff (parses : Parses P) (parsed : K.parseUri raw = some uri)
    (parsed' : K.parseUri raw' = some uri') (keyed : Keyed P uri secure user host)
    (keyed' : Keyed P uri' secure' user' host') : Mistaken P uri uri' ↔
      (secure = secure' ∧ user = user' ∧ K.port uri = K.port uri') ∧
        ∃ name address, host = .name name ∧ host' = .ip (.v4 address) ∧
          folded (fromUtf8Lossy name) = ipv4Text address := by
  constructor
  · rintro ⟨scheme, users, ⟨name, address, isHost, isHost', same⟩, port⟩
    cases keyed.isHost.symm.trans isHost
    cases keyed'.isHost.symm.trans isHost'
    exact ⟨⟨(keyed.scheme_iff keyed').mp scheme,
      (keyed.user_iff parses parsed parsed' keyed').mp users, port⟩, name, address, rfl, rfl, same⟩
  · rintro ⟨⟨scheme, users, port⟩, name, address, rfl, rfl, same⟩
    exact ⟨(keyed.scheme_iff keyed').mpr scheme,
      (keyed.user_iff parses parsed parsed' keyed').mpr users,
      ⟨name, address, keyed.isHost, keyed'.isHost, same⟩, port⟩

/-- A key is printable. -/
theorem printable_keyText {host : Text} (isHost : HostText host) (secure : Bool)
    (user : Option Bytes) (port : Option Nat) :
    ∀ c ∈ keyText secure user host port, 33 ≤ c.toNat ∧ c.toNat < 127 := by
  have letter : ∀ {c : Char}, c.isAlphanum = true → 33 ≤ c.toNat ∧ c.toNat < 127 := by
    intro c isLetter
    have holds := isHostname_cases (c := c) (by simp [isHostname, isLetter])
    exact ⟨holds.1, holds.2.1⟩
  have hosts : ∀ c ∈ host, 33 ≤ c.toNat ∧ c.toNat < 127 := by
    intro c member
    cases isHost with
    | plain chars => exact ⟨(isHostname_cases (chars c member)).1, (isHostname_cases (chars c member)).2.1⟩
    | bracketed address =>
        rw [List.mem_append, List.mem_cons, List.mem_singleton] at member
        rcases member with (rfl | inside) | rfl
        · decide
        · rcases mem_ipv6Text inside with isLetter | rfl | rfl
          · exact letter isLetter
          · decide
          · decide
        · decide
  have schemes : ∀ secure, ∀ c ∈ schemeText secure, 33 ≤ c.toNat ∧ c.toNat < 127 := by
    decide
  intro c member
  rw [keyText, List.mem_append, List.mem_cons, List.mem_append, List.mem_append] at member
  rcases member with isScheme | rfl | isUser | isHost | isPort
  · exact schemes secure c isScheme
  · decide
  · cases user with
    | none => cases isUser
    | some decoded =>
        rw [userText, List.mem_append, List.mem_singleton] at isUser
        rcases isUser with escaped | rfl
        · exact ⟨(escapeUser_chars escaped).1, (escapeUser_chars escaped).2.1⟩
        · decide
  · exact hosts c isHost
  · cases port with
    | none => cases isPort
    | some port =>
        rcases List.mem_cons.mp isPort with rfl | digit
        · decide
        · have isDigit := isDigit_of_mem_decimal digit
          exact letter (by simp [Char.isAlphanum, isDigit])

/-- The bytes of printable text are its characters. -/
theorem printable_utf8 {value : Text} (printable : ∀ c ∈ value, 33 ≤ c.toNat ∧ c.toNat < 127) :
    ∀ byte ∈ utf8 value, 33 ≤ byte ∧ byte < 127 := by
  intro byte member
  rcases List.mem_flatMap.mp member with ⟨c, isChar, encoded⟩
  have bounds := printable c isChar
  have all : ∀ value : Fin 127, 33 ≤ value.val →
      ∀ byte ∈ String.utf8EncodeChar (Char.ofNat value), 33 ≤ byte ∧ byte < 127 := by
    decide +kernel
  have holds := all ⟨c.toNat, bounds.2⟩ bounds.1
  rw [Char.ofNat_toNat] at holds
  exact holds byte encoded

/-- What a host name was folded to is read as a host name, or as an IPv4 address. -/
theorem readAs_folded {name : Text} (isName : Hostname name) (nonempty : folded name ≠ []) :
    ReadAs (folded name) (.name (utf8 (folded name))) ∧ Hostname (folded name) ∨
      ∃ address, folded name = ipv4Text address := by
  by_cases isAddress : ∃ address, folded name = ipv4Text address
  · exact .inr isAddress
  · have isFolded : Hostname (folded name) :=
      ⟨nonempty, fun c member => isHostname_of_mem_folded isName.chars member,
        fun address same => isAddress ⟨address, same⟩⟩
    exact .inl ⟨.name isFolded, isFolded⟩

/-- A URI that is read from a key has this key again exactly if its host is written as that of
the key. -/
theorem Keyed.again_iff (parses : Parses P) {again : K.Uri} {aor : CanonicalAor}
    (keyed : Keyed P uri secure user host)
    (isKey : aor.key = keyText secure user (hostOf P host) (K.port uri))
    (short : (utf8 aor.key).length ≤ maxKeyBytes) (isHost : HostText (hostOf P host))
    {asHost : Host} (readAs : ReadAs (hostOf P host) asHost)
    (isHost' : HostText (hostOf P asHost))
    (parsed : K.parseUri (utf8 aor.key) = some again) :
    fromUri P again = .ok aor ↔ hostOf P asHost = hostOf P host := by
  rw [isKey] at parsed
  rcases parses.reads _ _ _ _ again asHost readAs parsed with
    ⟨scheme, headers, password, isUser, isAsHost, port⟩
  rw [fromUri_ok_iff]
  constructor
  · rintro ⟨secure', user', host', keyed', isKey', -⟩
    cases keyed'.isHost.symm.trans isAsHost
    rw [isKey, port] at isKey'
    exact (keyText_injective isHost isHost' isKey').2.2.1.symm
  · intro same
    refine ⟨secure, user, asHost, ⟨scheme, headers, password, ?_, isAsHost, ?_⟩, ?_, short⟩
    · rcases keyed.user with ⟨-, rfl⟩ | ⟨_, decoded, -, -, -, filled, rfl⟩
      · exact .inl ⟨isUser, rfl⟩
      · right
        refine ⟨utf8 (escapeUser decoded), decoded, isUser, ?_, ?_, filled, rfl⟩
        · intro empty
          exact escapeUser_ne_nil filled (utf8_injective empty)
        · rw [parses.decoded _ again parsed, isUser]
          exact percentDecode_escapeUser decoded
    · rw [same]
      exact keyed.nonempty
    · rw [isKey, same, port]

/-- Reading a key again gives the key, but for a host name that still ends in a dot. -/
theorem Keyed.again_iff_not_restless (parses : Parses P) {again : K.Uri} {aor : CanonicalAor}
    (parsed : K.parseUri raw = some uri) (keyed : Keyed P uri secure user host)
    (isKey : aor.key = keyText secure user (hostOf P host) (K.port uri))
    (short : (utf8 aor.key).length ≤ maxKeyBytes)
    (reparsed : K.parseUri (utf8 aor.key) = some again) :
    fromUri P again = .ok aor ↔ ¬ Restless P uri := by
  have isText := parses.hostText parsed keyed.isHost
  have still : (∀ name, host ≠ .name name) → ¬ Restless P uri := by
    rintro other ⟨name, isHost, -⟩
    cases keyed.isHost.symm.trans isHost
    exact other name rfl
  have settled : ∀ {asHost}, ReadAs (hostOf P host) asHost → hostOf P asHost = hostOf P host →
      ¬ Restless P uri → (fromUri P again = .ok aor ↔ ¬ Restless P uri) := by
    intro asHost readAs same holds
    rw [keyed.again_iff parses isKey short isText readAs (by rwa [same]) reparsed]
    exact ⟨fun _ => holds, fun _ => same⟩
  cases host with
  | ip address =>
      cases address with
      | v4 address => exact settled (.v4 address) rfl (still (by simp))
      | v6 address => exact settled (.v6 address) rfl (still (by simp))
  | name name =>
      rcases parses.hostname raw uri name parsed keyed.isHost with ⟨spelled, isName, rfl⟩
      have restless_iff : Restless P uri ↔ (folded spelled).getLast? = some '.' := by
        constructor
        · rintro ⟨name, isHost, dotted⟩
          cases keyed.isHost.symm.trans isHost
          rwa [fromUtf8Lossy_utf8] at dotted
        · intro dotted
          refine ⟨_, keyed.isHost, ?_⟩
          rwa [fromUtf8Lossy_utf8]
      have isFolded : hostOf P (.name (utf8 spelled)) = folded spelled := hostOf_name isName
      have nonempty := keyed.nonempty
      rw [isFolded] at nonempty
      rcases readAs_folded isName nonempty with ⟨readAs, isAgain⟩ | ⟨address, same⟩
      · have twice : hostOf P (.name (utf8 (folded spelled))) = stripTrailingDot (folded spelled) := by
          rw [hostOf_name isAgain, folded_folded isName.chars]
        have isText' : HostText (hostOf P (.name (utf8 (folded spelled)))) := by
          rw [twice]
          exact .plain fun c member => isAgain.chars c (mem_stripTrailingDot member)
        rw [keyed.again_iff parses isKey short isText (by rwa [isFolded]) isText' reparsed, twice,
          isFolded, restless_iff]
        constructor
        · intro bare dotted
          exact stripTrailingDot_ne dotted bare
        · exact stripTrailingDot_eq_self
      · apply @settled (.ip (.v4 address))
        · rw [isFolded, same]
          exact .v4 address
        · rw [isFolded, same]
          rfl
        · rw [restless_iff, same]
          exact ipv4Text_getLast? address

end Keys

/-- The first zero of a shard key ends its tenant. -/
theorem shardKey_eq_iff {tenant tenant' : Text} {aor aor' : CanonicalAor}
    (clean : Char.ofNat 0 ∉ tenant) (clean' : Char.ofNat 0 ∉ tenant') :
    shardKey tenant aor = shardKey tenant' aor' ↔ tenant = tenant' ∧ aor = aor' := by
  have free : ∀ {tenant : Text}, Char.ofNat 0 ∉ tenant → (0 : UInt8) ∉ utf8 tenant := by
    intro tenant clean member
    rcases List.mem_flatMap.mp member with ⟨c, isChar, encoded⟩
    have isNul := toNat_of_mem_utf8EncodeChar encoded (by decide)
    have same : c = Char.ofNat 0 := by
      rw [← Char.ofNat_toNat c, isNul]
      rfl
    exact clean (same ▸ isChar)
  constructor
  · intro same
    rcases append_cons_inj (free clean) (free clean') same with ⟨tenants, keys⟩
    cases aor
    cases aor'
    exact ⟨utf8_injective tenants, congrArg CanonicalAor.mk (utf8_injective keys)⟩
  · rintro ⟨rfl, rfl⟩
    rfl

theorem told_apart_iff {others same mistaken mistaken' : Prop}
    (apart : same → ¬ mistaken ∧ ¬ mistaken') :
    ((others ∧ (same ∨ mistaken ∨ mistaken') ↔ others ∧ same) ↔
      ¬ (others ∧ mistaken) ∧ ¬ (others ∧ mistaken')) := by
  tauto

/-- Two URIs have one key exactly if they are of one address-of-record, unless the host of one is
an IPv4 address and that of the other a name spelled like it but for a trailing dot; a key is
printable; a key read again gives itself, unless the host name ends in two dots; and a shard key
tells the tenant and the key. -/
theorem keys_exact (parses : Parses P) {raw raw' : Bytes} {uri uri' : K.Uri}
    (parsed : K.parseUri raw = some uri) (parsed' : K.parseUri raw' = some uri')
    {aor aor' : CanonicalAor} (accepted : fromUri P uri = .ok aor)
    (accepted' : fromUri P uri' = .ok aor') :
    ((aor = aor' ↔ SameAor P uri uri') ↔ ¬ Mistaken P uri uri' ∧ ¬ Mistaken P uri' uri) ∧
      (∀ byte ∈ utf8 aor.key, 33 ≤ byte ∧ byte < 127) ∧
      (∀ again, K.parseUri (utf8 aor.key) = some again →
        (fromUri P again = .ok aor ↔ ¬ Restless P uri)) ∧
      ∀ tenant tenant' : Text, Char.ofNat 0 ∉ tenant → Char.ofNat 0 ∉ tenant' →
        (shardKey tenant aor = shardKey tenant' aor' ↔ tenant = tenant' ∧ aor = aor') := by
  rcases fromUri_ok_iff.mp accepted with ⟨secure, user, host, keyed, isKey, short⟩
  rcases fromUri_ok_iff.mp accepted' with ⟨secure', user', host', keyed', isKey', -⟩
  have isText := parses.hostText parsed keyed.isHost
  have isText' := parses.hostText parsed' keyed'.isHost
  have same_iff : aor = aor' ↔ (secure = secure' ∧ user = user' ∧ K.port uri = K.port uri') ∧
      hostOf P host = hostOf P host' := by
    constructor
    · rintro rfl
      rcases keyText_injective isText isText' (isKey.symm.trans isKey') with
        ⟨schemes, users, hosts, ports⟩
      exact ⟨⟨schemes, users, ports⟩, hosts⟩
    · rintro ⟨⟨rfl, rfl, ports⟩, hosts⟩
      rw [hosts, ports, ← isKey'] at isKey
      cases aor
      cases aor'
      exact congrArg CanonicalAor.mk isKey
  have apart : SameHost host host' →
      (¬ ∃ name address, host = .name name ∧ host' = .ip (.v4 address) ∧
        folded (fromUtf8Lossy name) = ipv4Text address) ∧
      ¬ ∃ name address, host' = .name name ∧ host = .ip (.v4 address) ∧
        folded (fromUtf8Lossy name) = ipv4Text address := by
    intro same
    constructor
    · rintro ⟨name, address, rfl, rfl, -⟩
      exact same
    · rintro ⟨name, address, rfl, rfl, -⟩
      exact same
  refine ⟨?_, ?_, fun again => keyed.again_iff_not_restless parses parsed isKey short,
    fun _ _ => shardKey_eq_iff⟩
  · have flipped : (secure' = secure ∧ user' = user ∧ K.port uri' = K.port uri) ↔
        (secure = secure' ∧ user = user' ∧ K.port uri = K.port uri') := by
      rw [eq_comm, eq_comm (b := user), eq_comm (b := K.port uri)]
    rw [same_iff, keyed.sameAor_iff parses parsed parsed' keyed',
      keyed.mistaken_iff parses parsed parsed' keyed',
      keyed'.mistaken_iff parses parsed' parsed keyed, flipped,
      hostOf_eq_iff parses parsed parsed' keyed.isHost keyed'.isHost]
    exact told_apart_iff apart
  · rw [isKey]
    exact printable_utf8 (printable_keyText isText secure user (K.port uri))

end CanonicalAor

theorem ReadAs.hostText {host : Text} {asHost : Host} (readAs : ReadAs host asHost) :
    HostText host := by
  cases readAs with
  | name isName => exact .plain isName.chars
  | v4 address =>
      apply HostText.plain
      intro c member
      rcases mem_ipv4Text member with digit | rfl
      · simp [isHostname, Char.isAlphanum, digit]
      · decide
  | v6 address => exact .bracketed address

theorem Hostname.noBracket {name : Text} (isName : Hostname name) (rest : Text) :
    name ≠ '[' :: rest := by
  rintro rfl
  have bracket := isName.chars '[' List.mem_cons_self
  contradiction

/-- A text is read as one host. -/
theorem ReadAs.unique {host host' : Text} {asHost asHost' : Host} (readAs : ReadAs host asHost)
    (readAs' : ReadAs host' asHost') (same : host = host') : asHost = asHost' := by
  cases readAs with
  | name isName =>
      cases readAs' with
      | name _ => rw [same]
      | v4 address => exact absurd same (isName.noAddress address)
      | v6 address => exact absurd same (isName.noBracket _)
  | v4 address =>
      cases readAs' with
      | name isName => exact absurd same.symm (isName.noAddress address)
      | v4 address' => rw [ipv4Text_injective same]
      | v6 address' => exact absurd same (CanonicalAor.bracket_ne_ipv4Text _ _)
  | v6 address =>
      cases readAs' with
      | name isName => exact absurd same.symm (isName.noBracket _)
      | v4 address' => exact absurd same.symm (CanonicalAor.bracket_ne_ipv4Text _ _)
      | v6 address' =>
          have inside := List.append_cancel_right (List.cons.inj same).2
          rw [ipv6Text_injective inside]

/-! ## A kernel that knows a few URIs -/

namespace Knowing

open Reference (ParsedUri)

/-- The reference kernel, that reads these URIs and no others. -/
def kernel (known : List Bytes) : Kernel :=
  { Reference.kernel with
    parseUri := fun raw => if raw ∈ known then Reference.parseUri raw else none }

/-- Four numbers between dots are an IPv4 address. -/
def readHost (host : Text) : Host :=
  match (host.splitOn '.').map (parseUnsigned 255) with
  | [some one, some two, some three, some four] =>
      .ip (.v4 (BitVec.ofNat 32 (((one * 256 + two) * 256 + three) * 256 + four)))
  | _ => .name (utf8 host)

def parts (known : List Bytes) : UriParts (kernel known) where
  hasHeaders (uri : ParsedUri) := 63 ∈ uri.raw
  password (uri : ParsedUri) := (uri.user.bind fun user => (Reference.splitOnce ':' user).2).map utf8
  decodedUser (uri : ParsedUri) := (uri.user.map utf8).bind percentDecode
  host (uri : ParsedUri) := uri.host.map readHost
  toLowercase := toAsciiLowercase
  toLowercase_ascii _ _ := rfl

/-- What is read of a text is what it spells. -/
structure Spells (known : List Bytes) (raw : Bytes) (uri : ParsedUri) (secure : Bool)
    (user : Option Bytes) (host : Text) (port : Option Nat) (asHost : Host) : Prop where
  parsed : Reference.parseUri raw = some uri
  readAs : ReadAs host asHost
  text : raw = utf8 (keyText secure user host port)
  scheme : utf8 uri.scheme = utf8 (schemeText secure)
  headers : (parts known).hasHeaders uri = false
  password : (parts known).password uri = none
  user : uri.user.map utf8 = user.map fun decoded => utf8 (escapeUser decoded)
  host : (parts known).host uri = some asHost
  port : uri.port = port

/-- It is enough to check the URIs it knows. -/
theorem parses {known : List Bytes} (each : ∀ raw ∈ known, ∃ uri secure user host port asHost,
    Spells known raw uri secure user host port asHost) : CanonicalAor.Parses (parts known) := by
  have spelled : ∀ raw (uri : ParsedUri), (kernel known).parseUri raw = some uri →
      ∃ secure user host port asHost, Spells known raw uri secure user host port asHost := by
    intro raw uri parsed
    have parsed : (if raw ∈ known then Reference.parseUri raw else none) = some uri := parsed
    split at parsed
    · next isKnown =>
        rcases each raw isKnown with ⟨uri', secure, user, host, port, asHost, spells⟩
        cases spells.parsed.symm.trans parsed
        exact ⟨secure, user, host, port, asHost, spells⟩
    · contradiction
  constructor
  · intro raw uri name parsed isName
    rcases spelled raw uri parsed with ⟨secure, user, host, port, asHost, spells⟩
    cases spells.host.symm.trans isName
    generalize isHost : Host.name name = asHost at spells
    cases spells.readAs with
    | name spelling =>
        cases isHost
        exact ⟨host, spelling, rfl⟩
    | v4 address => contradiction
    | v6 address => contradiction
  · intro raw uri parsed
    rfl
  · intro secure user host port uri asHost readAs parsed
    rcases spelled _ uri parsed with ⟨secure', user', host', port', asHost', spells⟩
    rcases keyText_injective readAs.hostText spells.readAs.hostText
      (utf8_injective spells.text) with ⟨rfl, rfl, hosts, rfl⟩
    cases readAs.unique spells.readAs hosts
    exact ⟨spells.scheme, spells.headers, spells.password, spells.user, spells.host, spells.port⟩

theorem parseUri_of_mem {known : List Bytes} {raw : Bytes} {uri : ParsedUri} (isKnown : raw ∈ known)
    (parsed : Reference.parseUri raw = some uri) :
    (kernel known).parseUri raw = some uri :=
  (if_pos isKnown).trans parsed

end Knowing

namespace CanonicalAor

/-- One address-of-record, spelled twice. -/
def alices : List Bytes :=
  [bytes "sip:alice@H.Example.", bytes "sip:alice@h.example"]

theorem parses_alices : Parses (Knowing.parts alices) := by
  have upper : Hostname (text "H.Example.") := by
    refine ⟨by decide, by decide, fun address same => ?_⟩
    have member : 'H' ∈ ipv4Text address := same ▸ List.mem_cons_self
    rcases mem_ipv4Text member with digit | dot <;> contradiction
  have lower : Hostname (text "h.example") := by
    refine ⟨by decide, by decide, fun address same => ?_⟩
    have member : 'h' ∈ ipv4Text address := same ▸ List.mem_cons_self
    rcases mem_ipv4Text member with digit | dot <;> contradiction
  apply Knowing.parses
  intro raw member
  simp only [alices, List.mem_cons, List.not_mem_nil, or_false] at member
  rcases member with rfl | rfl
  · exact ⟨Reference.uri "sip:alice@H.Example.", false, some (bytes "alice"), _, none, _,
      by decide +kernel, .name upper,
      by decide +kernel, by decide +kernel, by decide +kernel, by decide +kernel,
      by decide +kernel, by decide +kernel, by decide +kernel⟩
  · exact ⟨Reference.uri "sip:alice@h.example", false, some (bytes "alice"), _, none, _,
      by decide +kernel, .name lower,
      by decide +kernel, by decide +kernel, by decide +kernel, by decide +kernel,
      by decide +kernel, by decide +kernel, by decide +kernel⟩

theorem accepts_alices : fromUri (Knowing.parts alices) (Reference.uri "sip:alice@H.Example.") =
      .ok ⟨text "sip:alice@h.example"⟩ ∧
    fromUri (Knowing.parts alices) (Reference.uri "sip:alice@h.example") =
      .ok ⟨text "sip:alice@h.example"⟩ := by
  constructor <;> decide +kernel

theorem keys_exact_alices :
    let P := Knowing.parts alices
    let uri := Reference.uri "sip:alice@H.Example."
    let uri' := Reference.uri "sip:alice@h.example"
    let aor : CanonicalAor := ⟨text "sip:alice@h.example"⟩
    ((aor = aor ↔ SameAor P uri uri') ↔ ¬ Mistaken P uri uri' ∧ ¬ Mistaken P uri' uri) ∧
      (∀ byte ∈ utf8 aor.key, 33 ≤ byte ∧ byte < 127) ∧
      (∀ again, (Knowing.kernel alices).parseUri (utf8 aor.key) = some again →
        (fromUri P again = .ok aor ↔ ¬ Restless P uri)) ∧
      ∀ tenant tenant' : Text, Char.ofNat 0 ∉ tenant → Char.ofNat 0 ∉ tenant' →
        (shardKey tenant aor = shardKey tenant' aor ↔ tenant = tenant' ∧ aor = aor) :=
  have parsed : (Knowing.kernel alices).parseUri (bytes "sip:alice@H.Example.") =
      some (Reference.uri "sip:alice@H.Example.") :=
    Knowing.parseUri_of_mem (by decide) (by decide +kernel)
  have parsed' : (Knowing.kernel alices).parseUri (bytes "sip:alice@h.example") =
      some (Reference.uri "sip:alice@h.example") :=
    Knowing.parseUri_of_mem (by decide) (by decide +kernel)
  keys_exact parses_alices parsed parsed' accepts_alices.1 accepts_alices.2

/-- A host name that is an IPv4 address but for its trailing dot, and the address. -/
def bobs : List Bytes :=
  [bytes "sip:bob@1.2.3.4.", bytes "sip:bob@1.2.3.4"]

theorem parses_bobs : Parses (Knowing.parts bobs) := by
  have dotted : Hostname (text "1.2.3.4.") := by
    refine ⟨by decide, by decide, fun address same => ipv4Text_getLast? address ?_⟩
    rw [← same]
    rfl
  have isAddress : text "1.2.3.4" = ipv4Text 0x01020304#32 := by decide +kernel
  apply Knowing.parses
  intro raw member
  simp only [bobs, List.mem_cons, List.not_mem_nil, or_false] at member
  rcases member with rfl | rfl
  · exact ⟨Reference.uri "sip:bob@1.2.3.4.", false, some (bytes "bob"), _, none, _,
      by decide +kernel, .name dotted,
      by decide +kernel, by decide +kernel, by decide +kernel, by decide +kernel,
      by decide +kernel, by decide +kernel, by decide +kernel⟩
  · exact ⟨Reference.uri "sip:bob@1.2.3.4", false, some (bytes "bob"), _, none, _,
      by decide +kernel, .v4 0x01020304#32,
      by decide +kernel, by decide +kernel, by decide +kernel, by decide +kernel,
      by decide +kernel, by decide +kernel, by decide +kernel⟩

/-- A host name and an IP address share a key. -/
theorem not_keys_apart : Parses (Knowing.parts bobs) ∧
    ∃ uri uri' aor, (Knowing.kernel bobs).parseUri (bytes "sip:bob@1.2.3.4.") = some uri ∧
      (Knowing.kernel bobs).parseUri (bytes "sip:bob@1.2.3.4") = some uri' ∧
        fromUri (Knowing.parts bobs) uri = .ok aor ∧ fromUri (Knowing.parts bobs) uri' = .ok aor ∧
          ¬ SameAor (Knowing.parts bobs) uri uri' := by
  refine ⟨parses_bobs, Reference.uri "sip:bob@1.2.3.4.", Reference.uri "sip:bob@1.2.3.4",
    ⟨text "sip:bob@1.2.3.4"⟩, Knowing.parseUri_of_mem (by decide) (by decide +kernel),
    Knowing.parseUri_of_mem (by decide) (by decide +kernel), by decide +kernel, by decide +kernel, ?_⟩
  rintro ⟨-, -, ⟨host, host', isHost, isHost', same⟩, -⟩
  have isName : (Knowing.parts bobs).host (Reference.uri "sip:bob@1.2.3.4.") =
      some (.name (bytes "1.2.3.4.")) := by decide +kernel
  have isAddress : (Knowing.parts bobs).host (Reference.uri "sip:bob@1.2.3.4") =
      some (.ip (.v4 0x01020304#32)) := by decide +kernel
  cases isHost.symm.trans isName
  cases isHost'.symm.trans isAddress
  exact same

end CanonicalAor

end SipxClstr.Registrar
