import SipxClstr.Document.Readers

/-!
# The canonical rendering of a section

Two documents that mean the same thing render the same bytes: mappings are emitted in the
order of their rendered entries, sequences as they are written.
-/

namespace SipxClstr.Document

open SipxClstr.Sip

variable (lib : Libraries)

/-- One character of a string, as the debug form prints it. -/
def escapeDebug (c : Char) : Text :=
  if c = '\x00' then ['\\', '0']
  else if c = '\t' then ['\\', 't']
  else if c = '\r' then ['\\', 'r']
  else if c = '\n' then ['\\', 'n']
  else if c = '"' then ['\\', '"']
  else if c = '\\' then ['\\', '\\']
  else if lib.plain c then [c]
  else '\\' :: 'u' :: '\x7b' :: (Nat.toDigits 16 c.toNat ++ ['\x7d'])

/-- A string in its debug form. -/
def debugText (value : Text) : Text :=
  '"' :: (value.flatMap (escapeDebug lib) ++ ['"'])

/-- A number, normalised. -/
def Number.canonical : Number → Text
  | .posInt value => decimal value.toNat
  | .negInt below => '-' :: decimal (below + 1)
  | .float shown => shown

/-- `join(",")`. -/
def commaJoined (rendered : List Text) : Text :=
  [','].intercalate rendered

mutual

/-- One value, rendered. -/
def canonical : Value → Text
  | .null => ['~']
  | .bool flag => if flag then text "true" else text "false"
  | .number number => number.canonical
  | .string value => debugText lib value
  | .sequence items => '[' :: (commaJoined (canonicalItems items) ++ [']'])
  | .mapping entries => '\x7b' :: (commaJoined (Data.sorted (canonicalEntries entries)) ++ ['\x7d'])
  | .tagged tag value => '!' :: (tag ++ ' ' :: canonical value)

def canonicalItems : List Value → List Text
  | [] => []
  | item :: rest => canonical item :: canonicalItems rest

def canonicalEntries : List (Value × Value) → List Text
  | [] => []
  | (key, item) :: rest => (canonical key ++ ':' :: canonical item) :: canonicalEntries rest

end

/-- Sections by their names, each once, in the order of the names. -/
abbrev Sections := List (Text × Text)

/-- `BTreeMap::insert`: a name already there takes the new rendering. -/
def insertSection (sections : Sections) (name rendered : Text) : Sections :=
  match sections with
  | [] => [(name, rendered)]
  | (held, shown) :: rest =>
      match compare name held with
      | .lt => (name, rendered) :: (held, shown) :: rest
      | .eq => (name, rendered) :: rest
      | .gt => (held, shown) :: insertSection rest name rendered

/-- Every section, canonically rendered. -/
def canonicalSections (cluster : Mapping) : Sections :=
  cluster.foldl (fun sections entry =>
    match entry.1.asStr with
    | some name => insertSection sections name (canonical lib entry.2)
    | none => sections) []

/-- A section's rendering, when it is there. -/
def sectionOf (sections : Sections) (name : Text) : Option Text :=
  (sections.find? fun entry => entry.1 = name).map Prod.snd

end SipxClstr.Document
