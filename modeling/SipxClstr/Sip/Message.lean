import SipxClstr.Sip.Text

/-!
# SIP messages

A message is its start line, an ordered list of header rows and a body.  Row
order is meaning here: the `Via` rows of a response are its return path and the
`Route` rows of a request its itinerary, so every edit names the position it
acts at.
-/

namespace SipxClstr.Sip

/-- The header names the modelled code reads or writes.  Names outside the
kernel's table are compared without regard to case, so they are held in lower
case. -/
inductive HeaderName where
  | via
  | route
  | recordRoute
  | maxForwards
  | callId
  | cSeq
  | fromHeader
  | toHeader
  | proxyRequire
  | unsupported
  | wwwAuthenticate
  | proxyAuthenticate
  | authorization
  | proxyAuthorization
  | retryAfter
  | other (name : Text)
  deriving DecidableEq, Repr

/-- RFC 5393's `Max-Breadth`, which the kernel has no constant for. -/
def HeaderName.maxBreadth : HeaderName :=
  .other (text "max-breadth")

/-- One header row: a name and the value as it was received or built. -/
structure Header where
  name : HeaderName
  value : Bytes
  deriving DecidableEq, Repr

/-- Header rows in the order they stand in the message. -/
abbrev Headers := List Header

namespace Headers

/-- Every row of a name, in order. -/
def getAll (headers : Headers) (name : HeaderName) : Headers :=
  headers.filter fun header => header.name = name

/-- The first row of a name. -/
def get (headers : Headers) (name : HeaderName) : Option Header :=
  (getAll headers name).head?

/-- The value of the first row of a name. -/
def value (headers : Headers) (name : HeaderName) : Option Bytes :=
  (get headers name).map Header.value

/-- Drop every row of a name. -/
def removeAll (headers : Headers) (name : HeaderName) : Headers :=
  headers.filter fun header => header.name ≠ name

/-- Drop the first row of a name and keep every other row in its place. -/
def removeFirst (headers : Headers) (name : HeaderName) : Headers :=
  headers.eraseP fun header => header.name = name

/-- Add a row at the end. -/
def push (headers : Headers) (header : Header) : Headers :=
  headers ++ [header]

/-- Add a row at the front. -/
def pushFront (headers : Headers) (header : Header) : Headers :=
  header :: headers

@[simp]
theorem getAll_append (first second : Headers) (name : HeaderName) :
    getAll (first ++ second) name = getAll first name ++ getAll second name := by
  simp [getAll]

@[simp]
theorem getAll_push_of_ne {header : Header} {name : HeaderName} (headers : Headers)
    (different : header.name ≠ name) :
    getAll (push headers header) name = getAll headers name := by
  simp [getAll, push, different]

@[simp]
theorem getAll_pushFront_of_ne {header : Header} {name : HeaderName} (headers : Headers)
    (different : header.name ≠ name) :
    getAll (pushFront headers header) name = getAll headers name := by
  simp [getAll, pushFront, different]

@[simp]
theorem getAll_removeAll_of_ne {name removed : HeaderName} (headers : Headers)
    (different : name ≠ removed) :
    getAll (removeAll headers removed) name = getAll headers name := by
  simp only [getAll, removeAll, List.filter_filter]
  apply List.filter_congr
  intro header _
  by_cases matched : header.name = name
  · simp [matched, different]
  · simp [matched]

/-- Removing the first row of a name removes exactly the head of that name's rows. -/
@[simp]
theorem getAll_removeFirst (headers : Headers) (name : HeaderName) :
    getAll (removeFirst headers name) name = (getAll headers name).tail := by
  induction headers with
  | nil => rfl
  | cons header rest ih =>
      simp only [getAll, removeFirst] at ih
      by_cases matched : header.name = name <;> simp [getAll, removeFirst, matched, ih]

theorem getAll_removeFirst_of_ne {name removed : HeaderName} (headers : Headers)
    (different : name ≠ removed) :
    getAll (removeFirst headers removed) name = getAll headers name := by
  induction headers with
  | nil => rfl
  | cons header rest ih =>
      simp only [getAll, removeFirst] at ih
      by_cases matched : header.name = removed
      · simp [getAll, removeFirst, matched, different.symm]
      · simp [getAll, removeFirst, matched, List.filter_cons, ih]

/-- Two header lists with the same rows of a name agree on its first row. -/
theorem get_congr {first second : Headers} {name : HeaderName}
    (same : getAll first name = getAll second name) : get first name = get second name := by
  simp [get, same]

end Headers

/-- Request methods. -/
inductive Method where
  | invite
  | ack
  | bye
  | cancel
  | options
  | register
  | other (name : Text)
  deriving DecidableEq, Repr

/-- A method's token, as `to_string` renders it. -/
def Method.token : Method → Text
  | .invite => text "INVITE"
  | .ack => text "ACK"
  | .bye => text "BYE"
  | .cancel => text "CANCEL"
  | .options => text "OPTIONS"
  | .register => text "REGISTER"
  | .other name => name

/-- A three-digit status code. -/
structure StatusCode where
  code : Nat
  inRange : 100 ≤ code ∧ code ≤ 999
  deriving DecidableEq

namespace StatusCode

def ok : StatusCode :=
  ⟨200, by decide⟩

/-- `StatusCode::new`. -/
def new (code : Nat) : Option StatusCode :=
  if inRange : 100 ≤ code ∧ code ≤ 999 then some ⟨code, inRange⟩ else none

/-- The hundreds digit. -/
def hundreds (status : StatusCode) : Nat :=
  status.code / 100

/-- A 1xx status. -/
def isProvisional (status : StatusCode) : Bool :=
  status.hundreds = 1

theorem isProvisional_iff (status : StatusCode) :
    status.isProvisional = true ↔ status.code < 200 := by
  have range := status.inRange
  simp only [isProvisional, decide_eq_true_eq]
  simp only [hundreds]
  omega

end StatusCode

/-- A request.  The kernel's parsed URI type is a parameter. -/
structure Request (Uri : Type) where
  method : Method
  uri : Uri
  headers : Headers
  body : Bytes

/-- A response. -/
structure Response where
  status : StatusCode
  reason : Text
  headers : Headers
  body : Bytes
  deriving DecidableEq

end SipxClstr.Sip
