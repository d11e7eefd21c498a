import SipxClstr.Registrar.AddressList
import SipxClstr.Registrar.Admission
import SipxClstr.Registrar.Qvalue

/-!
# The response to a REGISTER

The driver renders an outcome row by row onto an answer, and gives the whole answer up for a bare
`500` where a row cannot be built.  What it renders of a `200` is what the registrar's own reader
of a REGISTER reads: the bindings with their expiry and preference, and the stored path.
-/

namespace SipxClstr.Node

open SipxClstr.Sip SipxClstr.Registrar

/-! ## Answers -/

/-- `reason_for`. -/
def reasonFor : Nat → Text
  | 200 => text "OK"
  | 400 => text "Bad Request"
  | 401 => text "Unauthorized"
  | 403 => text "Forbidden"
  | 404 => text "Not Found"
  | 405 => text "Method Not Allowed"
  | 407 => text "Proxy Authentication Required"
  | 420 => text "Bad Extension"
  | 421 => text "Extension Required"
  | 423 => text "Interval Too Brief"
  | 500 => text "Server Internal Error"
  | 503 => text "Service Unavailable"
  | _ => text "Error"

def internalError : StatusCode :=
  ⟨500, by decide⟩

/-- `ok_status`: a code that is no status becomes a `500`. -/
def okStatus (status : Nat) : StatusCode :=
  (StatusCode.new status).getD internalError

/-- `bare_error`: a `500` with nothing echoed. -/
def bareError : Response :=
  ⟨internalError, text "Server Internal Error", [], []⟩

section Rendering

/- `newResponse` is `ResponseBuilder::new`, built. -/
variable (K : Kernel) (newResponse : StatusCode → Text → Option Response)

/-- `answer`. -/
def answer (request : Request K.Uri) (status : Nat) (reason : Text) : Response :=
  match K.toRequest request (okStatus status) reason with
  | some response => response
  | none => (newResponse (okStatus status) reason).getD bareError

/-- What keeps an outcome from being rendered. -/
inductive RegisterRenderError where
  /-- The kernel refused a required header. -/
  | header
  | invalidQ (q : Nat)
  deriving DecidableEq

/-- `push_register_header`. -/
def pushRegisterHeader (response : Response) (name : HeaderName) (value : Bytes) :
    Except RegisterRenderError Response :=
  match Header.build K name value with
  | some header => .ok { response with headers := Headers.push response.headers header }
  | none => .error .header

/-- `{:03}`: at least three digits. -/
def threeDigits (value : Nat) : Text :=
  List.replicate (3 - (decimal value).length) '0' ++ decimal value

/-- The text of a preference, of which only `0` through `1000` have one. -/
def renderQ (q : Nat) : Except RegisterRenderError Text :=
  if q ≤ 999 then .ok (text "0." ++ threeDigits q)
  else if q = 1000 then .ok (text "1.000")
  else .error (.invalidQ q)

/-- `render_contact`: one stored contact with its granted duration and preference. -/
def renderContact (contact : ContactValue) : Except RegisterRenderError Bytes := do
  let q ← renderQ contact.q
  .ok (0x3C :: contact.contact ++ bytes ">;expires=" ++ utf8 (decimal contact.expires) ++
    bytes ";q=" ++ utf8 q)

/-- `bracketed`: brackets keep URI parameters inside the URI. -/
def bracketed (uri : Bytes) : Bytes :=
  0x3C :: uri ++ [0x3E]

/-- `render_accepted`: a `200` with the complete binding set and its path. -/
def renderAccepted (request : Request K.Uri) (accepted : Accepted) :
    Except RegisterRenderError Response := do
  let response := answer K newResponse request 200 (reasonFor 200)
  let response ← accepted.contacts.foldlM
    (fun response contact => do
      let value ← renderContact contact
      pushRegisterHeader K response contactHeader value)
    response
  let response ← accepted.path.foldlM
    (fun response path => pushRegisterHeader K response pathHeader (bracketed path)) response
  if accepted.path.isEmpty then
    .ok response
  else
    pushRegisterHeader K response supportedHeader (bytes "path")

/-- `HeaderName::MinExpires`. -/
def minExpiresHeader : HeaderName :=
  .other (text "min-expires")

/-- `render_rejection`: a refusal with the remedy its variant carries. -/
def renderRejection (request : Request K.Uri) (rejection : Rejection) :
    Except RegisterRenderError Response :=
  let status := rejection.status
  let response := answer K newResponse request status (reasonFor status)
  match rejection with
  | .badExtension offenders =>
      pushRegisterHeader K response .unsupported (utf8 ((text ", ").intercalate offenders))
  | .intervalTooBrief min => pushRegisterHeader K response minExpiresHeader (utf8 (decimal min))
  | .extensionRequired extension => pushRegisterHeader K response requireHeader (utf8 extension)
  | .notFound | .badRequest _ | .forbidden _ | .staleSequence | .unavailable => .ok response

/-- `render_register_outcome`. -/
def renderRegisterOutcome (request : Request K.Uri) :
    Outcome → Except RegisterRenderError Response
  | .commit _ response => renderAccepted K newResponse request response
  | .noop response => renderAccepted K newResponse request response
  | .reject rejection => renderRejection K newResponse request rejection

/-- `register_outcome_or_internal`: a `500` rather than a part of the outcome. -/
def registerOutcomeOrInternal (request : Request K.Uri) (outcome : Outcome) : Response :=
  match renderRegisterOutcome K newResponse request outcome with
  | .ok response => response
  | .error _ => answer K newResponse request 500 (reasonFor 500)

end Rendering

/-! ## What is rendered -/

variable {K : Kernel} {newResponse : StatusCode → Text → Option Response}

/-- The text of a preference. -/
def qText (q : Nat) : Text :=
  if q = 1000 then text "1.000" else text "0." ++ threeDigits q

/-- The parameters behind a contact. -/
def contactParams (contact : ContactValue) : List (Text × Text) :=
  [(text "expires", decimal contact.expires), (text "q", qText contact.q)]

/-- The value of a contact's row. -/
def contactRow (contact : ContactValue) : Bytes :=
  addressValue contact.contact (contactParams contact)

/-- The rows of a `200`. -/
def acceptedRows (accepted : Accepted) : Headers :=
  accepted.contacts.map (fun contact => ⟨contactHeader, contactRow contact⟩) ++
    accepted.path.map (fun path => ⟨pathHeader, bracketed path⟩) ++
      if accepted.path = [] then [] else [⟨supportedHeader, bytes "path"⟩]

/-- Every row can be built. -/
structure Renderable (K : Kernel) (accepted : Accepted) : Prop where
  preferences : ∀ contact ∈ accepted.contacts, contact.q ≤ 1000
  builds : ∀ header ∈ acceptedRows accepted, (Header.build K header.name header.value).isSome

theorem pushRegisterHeader_eq_ok {response result : Response} {name : HeaderName} {value : Bytes} :
    pushRegisterHeader K response name value = .ok result ↔
      (Header.build K name value).isSome ∧
        result = { response with headers := response.headers ++ [⟨name, value⟩] } := by
  unfold pushRegisterHeader
  cases built : Header.build K name value with
  | none => simp
  | some header =>
      rw [Header.eq_of_build built]
      simp [Headers.push, eq_comm]

theorem renderQ_eq_ok {q : Nat} {value : Text} :
    renderQ q = .ok value ↔ q ≤ 1000 ∧ value = qText q := by
  unfold renderQ qText
  split
  · next low =>
      rw [if_neg (by omega), Except.ok.injEq, eq_comm]
      exact ⟨fun same => ⟨by omega, same⟩, And.right⟩
  · split
    · next full =>
        rw [Except.ok.injEq, eq_comm]
        exact ⟨fun same => ⟨by omega, same⟩, And.right⟩
    · next above =>
        refine ⟨fun rendered => by contradiction, ?_⟩
        rintro ⟨atMost, -⟩
        omega

theorem renderContact_eq_ok {contact : ContactValue} {value : Bytes} :
    renderContact contact = .ok value ↔ contact.q ≤ 1000 ∧ value = contactRow contact := by
  have joined : ∀ q : Text, 0x3C :: contact.contact ++ bytes ">;expires=" ++
      utf8 (decimal contact.expires) ++ bytes ";q=" ++ utf8 q =
        addressValue contact.contact [(text "expires", decimal contact.expires), (text "q", q)] := by
    intro q
    have expires : bytes ">;expires=" = 0x3E :: utf8 (text ";expires=") := rfl
    have names : [(text "expires", decimal contact.expires), (text "q", q)].flatMap paramText =
        text ";expires=" ++ decimal contact.expires ++ text ";q=" ++ q := by
      simp [paramText, text]
    rw [addressValue, names, expires]
    simp only [utf8, bytes, List.flatMap_append, List.cons_append, List.append_assoc]
  unfold renderContact
  simp only [bind_eq_ok, renderQ_eq_ok, joined]
  constructor
  · rintro ⟨_, ⟨atMost, rfl⟩, rendered⟩
    cases rendered
    exact ⟨atMost, rfl⟩
  · rintro ⟨atMost, rfl⟩
    exact ⟨_, ⟨atMost, rfl⟩, rfl⟩

/-- Rows pushed one after the other stand in their order, or are not pushed at all. -/
theorem foldlM_push_eq_ok {α : Type} {name : HeaderName}
    {render : α → Except RegisterRenderError Bytes} {row : α → Bytes} {good : α → Prop}
    (rendered : ∀ item value, render item = .ok value ↔ good item ∧ value = row item)
    (items : List α) (response result : Response) :
    items.foldlM (fun response item => do
        let value ← render item
        pushRegisterHeader K response name value) response = .ok result ↔
      (∀ item ∈ items, good item ∧ (Header.build K name (row item)).isSome) ∧
        result = { response with
          headers := response.headers ++ items.map fun item => ⟨name, row item⟩ } := by
  induction items generalizing response with
  | nil =>
      constructor
      · intro same
        cases same
        exact ⟨by simp, by simp⟩
      · rintro ⟨-, rfl⟩
        simp [List.foldlM, pure, Except.pure]
  | cons item rest ih =>
      rw [List.foldlM_cons, bind_eq_ok]
      constructor
      · rintro ⟨pushed, first, later⟩
        obtain ⟨value, isValue, built⟩ := bind_eq_ok.mp first
        obtain ⟨isGood, rfl⟩ := (rendered item value).mp isValue
        obtain ⟨isBuilt, rfl⟩ := pushRegisterHeader_eq_ok.mp built
        obtain ⟨others, rfl⟩ := (ih _).mp later
        exact ⟨List.forall_mem_cons.mpr ⟨⟨isGood, isBuilt⟩, others⟩, by simp⟩
      · rintro ⟨all, rfl⟩
        obtain ⟨⟨isGood, isBuilt⟩, others⟩ := List.forall_mem_cons.mp all
        refine ⟨_, bind_eq_ok.mpr ⟨row item, (rendered item _).mpr ⟨isGood, rfl⟩,
          pushRegisterHeader_eq_ok.mpr ⟨isBuilt, rfl⟩⟩, (ih _).mpr ⟨others, by simp⟩⟩

/-- A `200` is rendered with all rows, where all can be built. -/
theorem renderAccepted_eq_ok {request : Request K.Uri} {accepted : Accepted} {result : Response} :
    renderAccepted K newResponse request accepted = .ok result ↔
      Renderable K accepted ∧
        result = { answer K newResponse request 200 (reasonFor 200) with
          headers := (answer K newResponse request 200 (reasonFor 200)).headers ++
            acceptedRows accepted } := by
  have contacts := @foldlM_push_eq_ok K _ contactHeader _ _ _
    (fun contact value => @renderContact_eq_ok contact value) accepted.contacts
  have paths := @foldlM_push_eq_ok K _ pathHeader _ _ _
    (fun path value => (by simp [eq_comm] :
      (Except.ok (bracketed path) : Except RegisterRenderError Bytes) = .ok value ↔
        True ∧ value = bracketed path)) accepted.path
  have paths' : ∀ response result : Response, accepted.path.foldlM
      (fun response path => pushRegisterHeader K response pathHeader (bracketed path)) response =
        .ok result ↔ _ := paths
  unfold renderAccepted
  simp only [bind_eq_ok, contacts, paths']
  constructor
  · rintro ⟨_, ⟨allContacts, rfl⟩, _, ⟨allPaths, rfl⟩, last⟩
    have builtContacts := fun contact member => (allContacts contact member).2
    have builtPaths := fun path member => (allPaths path member).2
    by_cases none : accepted.path = []
    · rw [if_pos (by rw [none]; rfl)] at last
      cases last
      refine ⟨⟨fun contact member => (allContacts contact member).1, ?_⟩, ?_⟩
      · simpa [acceptedRows, none] using builtContacts
      · simp [acceptedRows, none]
    · rw [if_neg (by simpa using none)] at last
      obtain ⟨supported, rfl⟩ := pushRegisterHeader_eq_ok.mp last
      refine ⟨⟨fun contact member => (allContacts contact member).1, ?_⟩, ?_⟩
      · intro header member
        simp only [acceptedRows, if_neg none, List.mem_append, List.mem_map, List.mem_singleton]
          at member
        rcases member with (⟨contact, isContact, rfl⟩ | ⟨path, isPath, rfl⟩) | rfl
        · exact builtContacts contact isContact
        · exact builtPaths path isPath
        · exact supported
      · simp [acceptedRows, none]
  · rintro ⟨⟨preferences, builds⟩, rfl⟩
    have builtContacts : ∀ contact ∈ accepted.contacts, contact.q ≤ 1000 ∧
        (Header.build K contactHeader (contactRow contact)).isSome := fun contact member =>
      ⟨preferences contact member, builds ⟨contactHeader, contactRow contact⟩
        (by simp only [acceptedRows, List.mem_append, List.mem_map]; exact .inl (.inl ⟨_, member, rfl⟩))⟩
    have builtPaths : ∀ path ∈ accepted.path, True ∧
        (Header.build K pathHeader (bracketed path)).isSome := fun path member =>
      ⟨trivial, builds ⟨pathHeader, bracketed path⟩
        (by simp only [acceptedRows, List.mem_append, List.mem_map]; exact .inl (.inr ⟨_, member, rfl⟩))⟩
    refine ⟨_, ⟨builtContacts, rfl⟩, _, ⟨builtPaths, rfl⟩, ?_⟩
    by_cases none : accepted.path = []
    · rw [if_pos (by rw [none]; rfl)]
      simp [acceptedRows, none]
    · rw [if_neg (by simpa using none)]
      refine pushRegisterHeader_eq_ok.mpr ⟨builds ⟨supportedHeader, bytes "path"⟩ ?_, ?_⟩
      · simp [acceptedRows, none]
      · simp [acceptedRows, none]

/-! ## What is read back -/

/-- The names of the rows a `200` adds. -/
def renderedNames : List HeaderName :=
  [contactHeader, pathHeader, supportedHeader]

/-- What the driver relies on its response builders for: the status it asks for, and none of the
rows it adds itself. -/
structure BuildsAnswers (K : Kernel) (newResponse : StatusCode → Text → Option Response) :
    Prop where
  echoes : ∀ request status reason response, K.toRequest request status reason = some response →
    response.status = status ∧ ∀ name ∈ renderedNames, Headers.getAll response.headers name = []
  bare : ∀ status code, ∃ response, newResponse status (reasonFor code) = some response ∧
    response.status = status ∧ ∀ name ∈ renderedNames, Headers.getAll response.headers name = []

/-- Bytes that the kernel renders of a URI it reads from them. -/
def Rendered (K : Kernel) (raw : Bytes) : Prop :=
  ∃ uri, K.parseUri raw = some uri ∧ K.uriBytes uri = raw

theorem answer_spec (answers : BuildsAnswers K newResponse) (request : Request K.Uri) (status code : Nat) :
    (answer K newResponse request status (reasonFor code)).status = okStatus status ∧
      ∀ name ∈ renderedNames,
        Headers.getAll (answer K newResponse request status (reasonFor code)).headers name = [] := by
  unfold answer
  cases built : K.toRequest request (okStatus status) (reasonFor code) with
  | some response => exact answers.echoes _ _ _ _ built
  | none =>
      obtain ⟨response, isResponse, spec⟩ := answers.bare (okStatus status) code
      simp only [isResponse, Option.getD_some]
      exact spec

theorem digitsValue_threeDigits (value : Nat) : digitsValue (threeDigits value) = value :=
  digitsValue_zeroPadded 3 value

theorem length_threeDigits {value : Nat} (small : value ≤ 999) :
    (threeDigits value).length = 3 :=
  length_zeroPadded (by decide) (Nat.lt_succ_of_le small)

theorem isDigit_of_mem_threeDigits {value : Nat} : ∀ digit ∈ threeDigits value,
    digit.isDigit = true :=
  isDigit_of_mem_zeroPadded

/-- The text of a preference is that preference. -/
theorem qvalue_qText {q : Nat} (atMost : q ≤ 1000) : Qvalue (qText q) q := by
  unfold qText
  split
  · next full =>
      rw [full]
      exact .zeros 3 (by decide)
  · next less =>
      have length : (threeDigits q).length = 3 := length_threeDigits (by omega)
      have decimals := Qvalue.decimals (threeDigits q) (by omega) isDigit_of_mem_threeDigits
      have whole : digitsValue (threeDigits q) * Nat.pow 10 (3 - 3) = q := by
        rw [digitsValue_threeDigits]
        exact Nat.mul_one q
      rw [length, whole] at decimals
      exact decimals

theorem isToken_of_isDigit {value : Text} (nonempty : value ≠ [])
    (digits : ∀ c ∈ value, c.isDigit = true ∨ c = '.') : IsToken value := by
  refine ⟨nonempty, fun c member => ?_⟩
  rcases digits c member with isDigit | point
  · exact .inl (by simp [Char.isAlphanum, isDigit])
  · exact .inr (.inr point)

theorem isToken_decimal (value : Nat) : IsToken (decimal value) :=
  isToken_of_isDigit (decimal_ne_nil _) fun _ isDigit => .inl (isDigit_of_mem_decimal isDigit)

theorem isToken_qText (q : Nat) : IsToken (qText q) := by
  unfold qText
  split
  · exact (by decide : IsToken (text "1.000"))
  · refine isToken_of_isDigit (by simp [text]) fun c member => ?_
    rcases List.mem_append.mp member with lead | digit
    · have isLead : c = '0' ∨ c = '.' := by simpa [text] using lead
      rcases isLead with rfl | point
      · exact .inl rfl
      · exact .inr point
    · exact .inl (isDigit_of_mem_threeDigits c digit)

theorem plainParams_contactParams (contact : ContactValue) : PlainParams (contactParams contact) := by
  constructor
  · exact (by decide : [text "expires", text "q"].Nodup)
  · intro param member
    simp only [contactParams, List.mem_cons, List.not_mem_nil, or_false] at member
    rcases member with rfl | rfl
    · exact (by decide : toAsciiLowercase (text "expires") = text "expires")
    · exact (by decide : toAsciiLowercase (text "q") = text "q")
  · intro param member
    simp only [contactParams, List.mem_cons, List.not_mem_nil, or_false] at member
    rcases member with rfl | rfl
    · exact ⟨(by decide : IsToken (text "expires")), isToken_decimal contact.expires⟩
    · exact ⟨(by decide : IsToken (text "q")), isToken_qText contact.q⟩

theorem trim_token {value : Text} (isToken : IsToken value) :
    trim (fromUtf8Lossy (utf8 value)) = value := by
  rw [fromUtf8Lossy_utf8, trim_eq_self isToken.noWhitespace]

theorem parseQ_qText {q : Nat} (atMost : q ≤ 1000) : parseQ (utf8 (qText q)) = some q := by
  have bare : trim (fromUtf8Lossy (utf8 (qText q))) = fromUtf8Lossy (utf8 (qText q)) := by
    rw [trim_token (isToken_qText q), fromUtf8Lossy_utf8]
  exact (parseQ_eq_some_iff bare).mpr
    ⟨[], qText q, .inl rfl, qvalue_qText atMost, fromUtf8Lossy_utf8 _⟩

theorem parseNumber_decimal {value : Nat} (fits : value ≤ u32Max) :
    parseNumber (utf8 (decimal value)) = some value := by
  rw [parseNumber, trim_token (isToken_decimal value), parseUnsigned_decimal fits]

variable {parseList : Bytes → Option (List (ContactAddress K))}

/-- What a contact operation reads of a `200`'s contact. -/
def readContact (op : ContactOp K) : Bytes × Option Nat × Option Nat :=
  (op.verbatim, op.expires, op.q)

/-- The rows of rendered contacts are read back as operations on them, in order. -/
theorem explicitOps_contactRows (reads : ReadsAddresses parseList) {contacts : List ContactValue}
    (spelled : ∀ contact ∈ contacts, Rendered K contact.contact)
    (fits : ∀ contact ∈ contacts, contact.expires ≤ u32Max)
    (preferences : ∀ contact ∈ contacts, contact.q ≤ 1000) :
    ∃ ops, explicitOps parseList (contacts.map contactRow) = .ok ops ∧
      ops.map readContact = contacts.map fun contact =>
        (contact.contact, some contact.expires, some contact.q) := by
  induction contacts with
  | nil => exact ⟨[], rfl, rfl⟩
  | cons contact rest ih =>
      obtain ⟨ops, later, isLater⟩ :=
        ih (List.forall_mem_cons.mp spelled).2 (List.forall_mem_cons.mp fits).2
          (List.forall_mem_cons.mp preferences).2
      obtain ⟨uri, parsed, isUri⟩ := spelled contact List.mem_cons_self
      rw [← isUri] at parsed
      obtain ⟨address, isList, sameUri, params⟩ :=
        reads uri (contactParams contact) parsed (plainParams_contactParams contact)
      have isExpires := params (text "expires", decimal contact.expires) (by simp [contactParams])
      have isQ := params (text "q", qText contact.q) (by simp [contactParams])
      simp only at isExpires isQ
      have isOp : ∃ op, contactOp address = .ok op ∧
          readContact op = (contact.contact, some contact.expires, some contact.q) := by
        unfold contactOp
        rw [isQ]
        simp only [parseQ_qText (preferences contact List.mem_cons_self), okOr]
        refine ⟨_, rfl, ?_⟩
        simp only [readContact, isExpires, Option.bind_some, sameUri, isUri,
          parseNumber_decimal (fits contact List.mem_cons_self)]
      obtain ⟨op, built, isRead⟩ := isOp
      refine ⟨op :: ops, ?_, by rw [List.map_cons, isRead, isLater, List.map_cons]⟩
      have mapped : [address].mapM contactOp = .ok [op] := by
        rw [List.mapM_cons, built]
        rfl
      rw [List.map_cons, contactRow, ← isUri, explicitOps, isList]
      exact bind_eq_ok.mpr ⟨[address], rfl, bind_eq_ok.mpr ⟨[op], mapped,
        bind_eq_ok.mpr ⟨ops, later, rfl⟩⟩⟩

/-- A row that opens with a bracket is no wildcard. -/
theorem trimBytes_bracket_ne (rest : Bytes) : trimBytes (0x3C :: rest) ≠ bytes "*" := by
  intro same
  have kept : (0x3C :: rest).dropWhile isAsciiWhitespace = 0x3C :: rest := rfl
  rw [trimBytes, kept] at same
  have isPrefix : bytes "*" <+: 0x3C :: rest := same ▸ List.rdropWhile_prefix _ _
  have first := List.cons_prefix_cons.mp isPrefix
  exact absurd first.1 (by decide)

theorem routeValues_bracketed (reads : ReadsAddresses parseList) {paths : List Bytes}
    (spelled : ∀ path ∈ paths, Rendered K path) :
    ((paths.map bracketed).filterMap parseList).flatten.map (fun hop => K.uriBytes hop.uri) =
      paths := by
  induction paths with
  | nil => rfl
  | cons path rest ih =>
      obtain ⟨uri, parsed, isUri⟩ := spelled path List.mem_cons_self
      rw [← isUri] at parsed
      obtain ⟨address, isList, sameUri, -⟩ := reads uri [] parsed
        ⟨List.nodup_nil, fun _ => by simp, fun _ => by simp⟩
      have isRow : parseList (bracketed path) = some [address] := by
        rw [← isUri]
        exact isList
      rw [List.map_cons, List.filterMap_cons_some isRow]
      simp only [List.flatten_cons, List.map_cons, List.singleton_append, sameUri, isUri,
        ih (List.forall_mem_cons.mp spelled).2]

/-- The response carries the outcome: its rows, read as those of a REGISTER are, give the
contacts with their expiry and preference and the stored path, and beside them stands what every
`200` of this request carries. -/
structure Carries (newResponse : StatusCode → Text → Option Response)
    (parseList : Bytes → Option (List (ContactAddress K))) (request : Request K.Uri)
    (accepted : Accepted) (response : Response) : Prop where
  status : response.status.code = 200
  contacts : ∀ echo : Request K.Uri, echo.headers = response.headers →
    ∃ ops, contactOps parseList echo = .ok (.explicit ops) ∧
      ops.map readContact = accepted.contacts.map fun contact =>
        (contact.contact, some contact.expires, some contact.q)
  path : ∀ echo : Request K.Uri, echo.headers = response.headers →
    routeValues parseList echo pathHeader = accepted.path
  supported : ∀ echo : Request K.Uri, echo.headers = response.headers →
    optionTags echo supportedHeader = if accepted.path = [] then [] else [text "path"]
  others : ∀ name ∉ renderedNames, Headers.getAll response.headers name =
    Headers.getAll (answer K newResponse request 200 (reasonFor 200)).headers name

/-- The response is a `500` that carries nothing of an outcome. -/
structure Internal (newResponse : StatusCode → Text → Option Response) (request : Request K.Uri)
    (response : Response) : Prop where
  bare : response = answer K newResponse request 500 (reasonFor 500)
  status : response.status.code = 500
  nothing : ∀ name ∈ renderedNames, Headers.getAll response.headers name = []

theorem getAll_rows {α : Type} (items : List α) (row : α → Bytes) (name other : HeaderName) :
    Headers.getAll (items.map fun item => ⟨name, row item⟩) other =
      if name = other then items.map fun item => ⟨name, row item⟩ else [] := by
  unfold Headers.getAll
  split
  · next same =>
      apply List.filter_eq_self.mpr
      intro header member
      rcases List.mem_map.mp member with ⟨item, -, rfl⟩
      simpa using same
  · next different =>
      apply List.filter_eq_nil_iff.mpr
      intro header member
      rcases List.mem_map.mp member with ⟨item, -, rfl⟩
      simpa using different

/-- The `Supported` rows of a `200`. -/
theorem acceptedRows_eq (accepted : Accepted) :
    acceptedRows accepted =
      accepted.contacts.map (fun contact => ⟨contactHeader, contactRow contact⟩) ++
        accepted.path.map (fun path => ⟨pathHeader, bracketed path⟩) ++
          (if accepted.path = [] then [] else [bytes "path"]).map fun value =>
            ⟨supportedHeader, value⟩ := by
  unfold acceptedRows
  split <;> rfl

theorem getAll_acceptedRows (accepted : Accepted) (name : HeaderName) :
    Headers.getAll (acceptedRows accepted) name =
      (if contactHeader = name then
        accepted.contacts.map (fun contact => ⟨contactHeader, contactRow contact⟩) else []) ++
      (if pathHeader = name then
        accepted.path.map (fun path => ⟨pathHeader, bracketed path⟩) else []) ++
      (if supportedHeader = name then
        (if accepted.path = [] then [] else [bytes "path"]).map
          fun value => ⟨supportedHeader, value⟩ else []) := by
  rw [acceptedRows_eq, Headers.getAll_append, Headers.getAll_append, getAll_rows, getAll_rows,
    getAll_rows]

theorem carries_of_rows (reads : ReadsAddresses parseList) (answers : BuildsAnswers K newResponse)
    (request : Request K.Uri) {accepted : Accepted}
    (contacts : ∀ contact ∈ accepted.contacts, Rendered K contact.contact)
    (paths : ∀ path ∈ accepted.path, Rendered K path)
    (fits : ∀ contact ∈ accepted.contacts, contact.expires ≤ u32Max)
    (preferences : ∀ contact ∈ accepted.contacts, contact.q ≤ 1000) :
    Carries newResponse parseList request accepted
      { answer K newResponse request 200 (reasonFor 200) with
        headers := (answer K newResponse request 200 (reasonFor 200)).headers ++
          acceptedRows accepted } := by
  obtain ⟨status, nothing⟩ := answer_spec answers request 200 200
  have rows : ∀ echo : Request K.Uri,
      echo.headers = (answer K newResponse request 200 (reasonFor 200)).headers ++
        acceptedRows accepted → ∀ name ∈ renderedNames,
          Headers.getAll echo.headers name = Headers.getAll (acceptedRows accepted) name := by
    intro echo same name isRendered
    rw [same, Headers.getAll_append, nothing name isRendered, List.nil_append]
  constructor
  · rw [status]
    rfl
  · intro echo same
    obtain ⟨ops, explicit, isRead⟩ := explicitOps_contactRows reads contacts fits preferences
    refine ⟨ops, ?_, isRead⟩
    have values : (Headers.getAll echo.headers contactHeader).map Header.value =
        accepted.contacts.map contactRow := by
      rw [rows echo same contactHeader (by decide), getAll_acceptedRows, if_pos rfl,
        if_neg (by decide), if_neg (by decide), List.append_nil, List.append_nil, List.map_map]
      rfl
    have noWildcard : ((accepted.contacts.map contactRow).any fun value =>
        trimBytes value = bytes "*") = false := by
      rw [List.any_eq_false]
      intro value member
      rcases List.mem_map.mp member with ⟨contact, -, rfl⟩
      rw [decide_eq_true_eq]
      exact trimBytes_bracket_ne _
    unfold contactOps
    simp only [values, noWildcard, explicit]
    rfl
  · intro echo same
    have isPath : (Headers.getAll echo.headers pathHeader).filterMap
        (fun header => parseList header.value) =
          (accepted.path.map bracketed).filterMap parseList := by
      rw [rows echo same pathHeader (by decide), getAll_acceptedRows, if_neg (by decide),
        if_pos rfl, if_neg (by decide), List.append_nil, List.nil_append, List.filterMap_map,
        List.filterMap_map]
      rfl
    rw [routeValues, isPath]
    exact routeValues_bracketed reads paths
  · intro echo same
    rw [optionTags, rows echo same supportedHeader (by decide), getAll_acceptedRows,
      if_neg (by decide), if_neg (by decide), if_pos rfl]
    split
    · rfl
    · decide +kernel
  · intro name other
    simp only [renderedNames, List.mem_cons, List.not_mem_nil, or_false, not_or] at other
    rw [Headers.getAll_append, getAll_acceptedRows, if_neg (Ne.symm other.1),
      if_neg (Ne.symm other.2.1), if_neg (Ne.symm other.2.2)]
    simp

/-- A `200` carries the outcome as a whole where every row of it can be built, and otherwise a
`500` that carries nothing of it stands in its place. -/
theorem register_roundTrip (reads : ReadsAddresses parseList) (answers : BuildsAnswers K newResponse)
    (request : Request K.Uri) {outcome : Outcome} {accepted : Accepted}
    (isAccepted : outcome = .noop accepted ∨ ∃ set, outcome = .commit set accepted)
    (contacts : ∀ contact ∈ accepted.contacts, Rendered K contact.contact)
    (paths : ∀ path ∈ accepted.path, Rendered K path)
    (fits : ∀ contact ∈ accepted.contacts, contact.expires ≤ u32Max) :
    (Renderable K accepted → Carries newResponse parseList request accepted
      (registerOutcomeOrInternal K newResponse request outcome)) ∧
    (¬ Renderable K accepted → Internal newResponse request
      (registerOutcomeOrInternal K newResponse request outcome)) := by
  have renders : renderRegisterOutcome K newResponse request outcome =
      renderAccepted K newResponse request accepted := by
    rcases isAccepted with rfl | ⟨set, rfl⟩ <;> rfl
  unfold registerOutcomeOrInternal
  rw [renders]
  constructor
  · intro renderable
    rw [renderAccepted_eq_ok.mpr ⟨renderable, rfl⟩]
    exact carries_of_rows reads answers request contacts paths fits renderable.preferences
  · intro unrenderable
    cases rendered : renderAccepted K newResponse request accepted with
    | ok response => exact absurd (renderAccepted_eq_ok.mp rendered).1 unrenderable
    | error reason =>
        obtain ⟨status, nothing⟩ := answer_spec answers request 500 500
        refine ⟨rfl, ?_, nothing⟩
        rw [status]
        rfl

/-! ## Two bindings behind two edges -/

/-- What a builder without a request builds: a status, a reason, and nothing else. -/
def plainResponse (status : StatusCode) (reason : Text) : Option Response :=
  some ⟨status, reason, [], []⟩

theorem answers_knowing (known : List Bytes) : BuildsAnswers (Knowing.kernel known) plainResponse where
  echoes request status reason response built := by
    have built : Reference.toRequest request status reason = some response := built
    unfold Reference.toRequest at built
    split at built
    · cases built
      refine ⟨rfl, fun name isRendered => List.filter_eq_nil_iff.mpr fun header member same => ?_⟩
      have isEchoed := (List.mem_filter.mp member).2
      rw [decide_eq_true_eq] at same
      rw [Reference.isEchoed, same] at isEchoed
      simp only [renderedNames, List.mem_cons, List.not_mem_nil, or_false] at isRendered
      rcases isRendered with rfl | rfl | rfl <;> exact absurd isEchoed (by decide)
    · contradiction
  bare status code := ⟨_, rfl, rfl, fun _ _ => rfl⟩

/-- Two contacts and two edges. -/
def boundUris : List Text :=
  [text "sip:alice@192.0.2.4:5060;transport=tcp", text "sip:alice@c.example",
    text "sip:near.example;lr", text "sip:far.example;lr"]

/-- Two bindings, the second of this preference. -/
def bound (q : Nat) : Accepted where
  contacts := [⟨bytes "sip:alice@192.0.2.4:5060;transport=tcp", 3600, 1000⟩,
    ⟨bytes "sip:alice@c.example", 60, q⟩]
  path := [bytes "sip:near.example;lr", bytes "sip:far.example;lr"]

def boundRequest : Request (Knowing.kernel (boundUris.map utf8)).Uri where
  method := .register
  uri := Reference.uri "sip:h.example"
  headers :=
    [Reference.row .via "SIP/2.0/UDP c.example;branch=z9hG4bK1", Reference.row .callId "c1",
      Reference.row .cSeq "1 REGISTER", Reference.row .fromHeader "<sip:alice@h.example>;tag=a",
      Reference.row .toHeader "<sip:alice@h.example>"]
  body := []

theorem rendered_bound : ∀ value ∈ boundUris,
    Rendered (Knowing.kernel (boundUris.map utf8)) (utf8 value) := by
  intro value member
  have parses : ∀ value ∈ boundUris,
      ((Knowing.kernel (boundUris.map utf8)).parseUri (utf8 value)).map
        (Knowing.kernel (boundUris.map utf8)).uriBytes = some (utf8 value) := by
    decide +kernel
  obtain ⟨uri, parsed, same⟩ := Option.map_eq_some_iff.mp (parses value member)
  exact ⟨uri, parsed, same⟩

/-- A preference of five thousandths is carried, and one above a thousand is not. -/
theorem register_roundTrip_bound :
    Carries plainResponse (Knowing.parseList (boundUris.map utf8)) boundRequest (bound 5)
      (registerOutcomeOrInternal _ plainResponse boundRequest (.noop (bound 5))) ∧
    Internal plainResponse boundRequest
      (registerOutcomeOrInternal _ plainResponse boundRequest (.noop (bound 1001))) := by
  have reads : ReadsAddresses (Knowing.parseList (boundUris.map utf8)) :=
    Knowing.parseList_reads (by decide +kernel)
  have contacts : ∀ q, ∀ contact ∈ (bound q).contacts,
      Rendered (Knowing.kernel (boundUris.map utf8)) contact.contact := by
    intro q contact member
    simp only [bound, List.mem_cons, List.not_mem_nil, or_false] at member
    rcases member with rfl | rfl
    · exact rendered_bound (text "sip:alice@192.0.2.4:5060;transport=tcp") (by decide)
    · exact rendered_bound (text "sip:alice@c.example") (by decide)
  have paths : ∀ q, ∀ path ∈ (bound q).path,
      Rendered (Knowing.kernel (boundUris.map utf8)) path := by
    intro q path member
    simp only [bound, List.mem_cons, List.not_mem_nil, or_false] at member
    rcases member with rfl | rfl
    · exact rendered_bound (text "sip:near.example;lr") (by decide)
    · exact rendered_bound (text "sip:far.example;lr") (by decide)
  have fits : ∀ q, ∀ contact ∈ (bound q).contacts, contact.expires ≤ u32Max := by
    intro q contact member
    simp only [bound, List.mem_cons, List.not_mem_nil, or_false] at member
    rcases member with rfl | rfl
    · exact (by decide : 3600 ≤ u32Max)
    · exact (by decide : 60 ≤ u32Max)
  have renderable : Renderable (Knowing.kernel (boundUris.map utf8)) (bound 5) :=
    ⟨by decide, by decide +kernel⟩
  have unrenderable : ¬ Renderable (Knowing.kernel (boundUris.map utf8)) (bound 1001) := by
    intro other
    exact absurd other.preferences (by decide)
  have answers := answers_knowing (boundUris.map utf8)
  exact ⟨(register_roundTrip reads answers boundRequest (.inl rfl) (contacts 5) (paths 5)
      (fits 5)).1 renderable,
    (register_roundTrip reads answers boundRequest (.inl rfl) (contacts 1001) (paths 1001)
      (fits 1001)).2 unrenderable⟩

end SipxClstr.Node
