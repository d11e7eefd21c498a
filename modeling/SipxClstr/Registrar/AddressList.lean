import SipxClstr.Registrar.Canonical
import SipxClstr.Registrar.Parse

/-!
# Address lists

A value of an address list is a URI in brackets with its header parameters behind it.  The kernel
reads such a value back: the URI as it was written, and each parameter under its name.
-/

namespace SipxClstr.Registrar

open SipxClstr.Sip

/-- Text that stands as the name or the value of a parameter without quotes. -/
def IsToken (value : Text) : Prop :=
  value ≠ [] ∧ ∀ c ∈ value, c.isAlphanum = true ∨ c = '-' ∨ c = '.'

instance : DecidablePred IsToken := fun value =>
  inferInstanceAs (Decidable (value ≠ [] ∧ ∀ c ∈ value, c.isAlphanum = true ∨ c = '-' ∨ c = '.'))

/-- One parameter behind its semicolon. -/
def paramText (param : Text × Text) : Text :=
  ';' :: param.1 ++ '=' :: param.2

/-- A URI in brackets, and its parameters. -/
def addressValue (uri : Bytes) (params : List (Text × Text)) : Bytes :=
  0x3C :: uri ++ 0x3E :: utf8 (params.flatMap paramText)

/-- Parameters with names of their own, in lower case. -/
structure PlainParams (params : List (Text × Text)) : Prop where
  names : (params.map Prod.fst).Nodup
  lower : ∀ param ∈ params, toAsciiLowercase param.1 = param.1
  tokens : ∀ param ∈ params, IsToken param.1 ∧ IsToken param.2

/-- A URI that the kernel reads back from its own bytes is read back as the one value of a row. -/
def ReadsAddresses {K : Kernel} (parseList : Bytes → Option (List (ContactAddress K))) : Prop :=
  ∀ (uri : K.Uri) (params : List (Text × Text)), K.parseUri (K.uriBytes uri) = some uri →
    PlainParams params →
      ∃ address, parseList (addressValue (K.uriBytes uri) params) = some [address] ∧
        address.uri = uri ∧
          ∀ param ∈ params, address.param param.1 = some (utf8 param.2)

theorem IsToken.notMem {value : Text} (isToken : IsToken value) {c : Char}
    (special : (c.isAlphanum || c = '-' || c = '.') = false) : c ∉ value := by
  intro member
  simp only [Bool.or_eq_false_iff, decide_eq_false_iff_not] at special
  rcases isToken.2 c member with alphanum | dash | dot
  · exact absurd alphanum (by simp [special.1.1])
  · exact special.1.2 dash
  · exact special.2 dot

theorem isWhitespace_of_isAlphanum {c : Char} (isAlphanum : c.isAlphanum = true) :
    isWhitespace c = false := by
  have inRange := isAlphanum_iff.mp isAlphanum
  simp only [isWhitespace, Bool.or_eq_false_iff, Bool.and_eq_false_iff, decide_eq_false_iff_not,
    beq_eq_false_iff_ne, ne_eq]
  omega

theorem IsToken.noWhitespace {value : Text} (isToken : IsToken value) :
    ∀ c ∈ value, isWhitespace c = false := by
  intro c member
  rcases isToken.2 c member with alphanum | rfl | rfl
  · exact isWhitespace_of_isAlphanum alphanum
  · rfl
  · rfl

/-! ## A reader of a few URIs -/

namespace Knowing

open Reference (ParsedUri parseParams splitOnce valueOf)

instance (known : List Bytes) : DecidableEq (kernel known).Uri :=
  inferInstanceAs (DecidableEq ParsedUri)

/-- A URI and its parameters, where the URI is one of those that are known. -/
def readAddress (known : List Bytes) (uri : Bytes) (params : List (Text × Option Text)) :
    Option (ContactAddress (kernel known)) :=
  ((kernel known).parseUri uri).bind fun parsed =>
    if spells : (kernel known).parseUri ((kernel known).uriBytes parsed) = some parsed then
      some ⟨parsed, spells, valueOf params⟩
    else
      none

def readValue (known : List Bytes) (value : Text) : Option (ContactAddress (kernel known)) :=
  match splitOnce '<' (trim value) with
  | (_, some inner) =>
      match splitOnce '>' inner with
      | (uri, some rest) => readAddress known (utf8 uri) (parseParams (splitOnce ';' rest).2)
      | (_, none) => none
  | (bare, none) =>
      let (uri, params) := splitOnce ';' bare
      readAddress known (utf8 uri) (parseParams params)

/-- The values between commas, or nothing where one of them is no address. -/
def parseList (known : List Bytes) (raw : Bytes) : Option (List (ContactAddress (kernel known))) :=
  ((fromUtf8Lossy raw).splitOn ',').mapM (readValue known)

/-- The text of a URI that stands in brackets as it is. -/
def Bare (value : Text) : Prop :=
  ∀ c ∈ value, isWhitespace c = false ∧ c ≠ '>' ∧ c ≠ ','

instance : DecidablePred Bare := fun _ =>
  inferInstanceAs (Decidable (∀ _ ∈ _, _))

theorem splitOnce_append {separator : Char} {first : Text} (rest : Text)
    (fresh : separator ∉ first) :
    splitOnce separator (first ++ separator :: rest) = (first, some rest) := by
  have passes : ∀ c ∈ first, decide (c ≠ separator) = true := by
    intro c member
    rw [decide_eq_true_eq]
    rintro rfl
    exact fresh member
  rw [splitOnce, if_pos (by simp), List.takeWhile_append_of_pos passes,
    List.dropWhile_append_of_pos passes]
  simp

/-- Parameters are read back from between their semicolons. -/
theorem parseParams_paramText {params : List (Text × Text)} (plain : PlainParams params) :
    parseParams (splitOnce ';' (params.flatMap paramText)).2 =
      params.map fun param => (param.1, some param.2) := by
  cases params with
  | nil => rfl
  | cons param rest =>
      have joined : (param :: rest).flatMap paramText =
          [] ++ ';' :: [';'].intercalate
            ((param :: rest).map fun param => param.1 ++ '=' :: param.2) := by
        clear plain
        induction rest generalizing param with
        | nil => simp [paramText]
        | cons next rest ih =>
            rw [List.flatMap_cons, ih next]
            simp [paramText, List.intercalate]
      rw [joined, splitOnce_append _ List.not_mem_nil]
      unfold parseParams
      simp only
      rw [List.splitOn_intercalate]
      · rw [List.map_map]
        apply List.map_congr_left
        intro other member
        obtain ⟨isName, -⟩ := plain.tokens other member
        simp only [Function.comp_apply]
        rw [splitOnce_append _ (isName.notMem (by decide))]
        simp only [plain.lower other member]
      · intro part member
        rcases List.mem_map.mp member with ⟨other, isOther, rfl⟩
        obtain ⟨isName, isValue⟩ := plain.tokens other isOther
        simp only [List.mem_append, List.mem_cons, not_or]
        exact ⟨isName.notMem (by decide), by decide, isValue.notMem (by decide)⟩
      · simp

theorem valueOf_of_mem {params : List (Text × Text)} (names : (params.map Prod.fst).Nodup)
    {param : Text × Text} (member : param ∈ params) :
    valueOf (params.map fun param => (param.1, some param.2)) param.1 = some (utf8 param.2) := by
  induction params with
  | nil => contradiction
  | cons first rest ih =>
      rw [List.map_cons, List.nodup_cons] at names
      rcases List.mem_cons.mp member with rfl | later
      · simp [valueOf]
      · have different : first.1 ≠ param.1 := by
          intro same
          exact names.1 (same ▸ List.mem_map_of_mem later)
        have found := ih names.2 later
        unfold valueOf at found ⊢
        simpa [different] using found

/-- No character of a bare URI and its parameters is white space or a comma. -/
theorem plain_addressValue {value : Text} (bare : Bare value) {params : List (Text × Text)}
    (plain : PlainParams params) :
    ∀ c ∈ '<' :: value ++ '>' :: params.flatMap paramText, isWhitespace c = false ∧ c ≠ ',' := by
  intro c member
  simp only [List.cons_append, List.mem_cons, List.mem_append, List.mem_flatMap, paramText]
    at member
  rcases member with rfl | inUri | rfl | ⟨param, isParam, rfl | inName | rfl | inValue⟩
  · decide
  · exact ⟨(bare c inUri).1, (bare c inUri).2.2⟩
  · decide
  · decide
  · obtain ⟨isName, -⟩ := plain.tokens param isParam
    refine ⟨isName.noWhitespace c inName, ?_⟩
    rintro rfl
    exact isName.notMem (by decide) inName
  · decide
  · obtain ⟨-, isValue⟩ := plain.tokens param isParam
    refine ⟨isValue.noWhitespace c inValue, ?_⟩
    rintro rfl
    exact isValue.notMem (by decide) inValue

theorem readAddress_of_spells {known : List Bytes} {uri : (kernel known).Uri}
    (spells : (kernel known).parseUri ((kernel known).uriBytes uri) = some uri)
    (params : List (Text × Option Text)) :
    readAddress known ((kernel known).uriBytes uri) params = some ⟨uri, spells, valueOf params⟩ := by
  unfold readAddress
  simp only [spells, Option.bind_some, dite_true]

/-- The URI between the brackets, and the parameters behind them. -/
theorem readValue_bracketed {known : List Bytes} {value : Text} (bare : Bare value)
    {params : List (Text × Text)} (plain : PlainParams params) :
    readValue known ('<' :: value ++ '>' :: params.flatMap paramText) =
      readAddress known (utf8 value) (params.map fun param => (param.1, some param.2)) := by
  have noClose : '>' ∉ value := fun close => (bare '>' close).2.1 rfl
  have opened := splitOnce_append (value ++ '>' :: params.flatMap paramText)
    (List.not_mem_nil (a := '<'))
  rw [List.nil_append] at opened
  unfold readValue
  rw [trim_eq_self fun c member => (plain_addressValue bare plain c member).1, List.cons_append,
    opened]
  simp only
  rw [splitOnce_append _ noClose]
  simp only [parseParams_paramText plain]

/-- It is enough that every URI it knows can stand between brackets. -/
theorem parseList_reads {known : List Text} (bare : ∀ value ∈ known, Bare value) :
    ReadsAddresses (parseList (known.map utf8)) := by
  intro uri params spells plain
  have isKnown : (kernel (known.map utf8)).uriBytes uri ∈ known.map utf8 := by
    by_contra unknown
    have refused : (kernel (known.map utf8)).parseUri ((kernel (known.map utf8)).uriBytes uri) =
        none := if_neg unknown
    rw [refused] at spells
    contradiction
  rcases List.mem_map.mp isKnown with ⟨value, member, isValue⟩
  have isText : addressValue (utf8 value) params =
      utf8 ('<' :: value ++ '>' :: params.flatMap paramText) := by
    simp only [addressValue, utf8, List.cons_append, List.flatMap_cons, List.flatMap_append]
    rfl
  have noComma : ',' ∉ '<' :: value ++ '>' :: params.flatMap paramText :=
    fun comma => (plain_addressValue (bare value member) plain ',' comma).2 rfl
  refine ⟨⟨uri, spells, valueOf (params.map fun param => (param.1, some param.2))⟩, ?_, rfl,
    fun param => valueOf_of_mem plain.names⟩
  have read := readAddress_of_spells spells (params.map fun param => (param.1, some param.2))
  rw [← isValue] at read ⊢
  rw [isText, parseList, fromUtf8Lossy_utf8, List.splitOn_eq_singleton noComma, List.mapM_cons,
    readValue_bracketed (bare value member) plain, read]
  rfl

end Knowing

end SipxClstr.Registrar
