import SipxClstr.Registrar.AddressList
import SipxClstr.Registrar.Admission

/-!
# The Path of a command

Each `Path` row is an address list of its own, and the hops of all rows in order are what a
registration stores.  A `Contact` row that is no address list refuses the request; a `Path` row
that is none is passed over, and the hops of the others are stored as if they were all.
-/

namespace SipxClstr.Registrar

open SipxClstr.Sip

variable {K : Kernel} {P : UriParts K} {parseList : Bytes → Option (List (ContactAddress K))}

/-- The values of the `Path` rows, topmost first. -/
def pathRows (request : Request K.Uri) : List Bytes :=
  (Headers.getAll request.headers pathHeader).map Header.value

/-- Every row is an address list, and the path is the hops of all of them in order. -/
def KeepsPath (parseList : Bytes → Option (List (ContactAddress K))) (request : Request K.Uri)
    (cmd : RegisterCommand K) : Prop :=
  ∃ lists : List (List (ContactAddress K)), (pathRows request).map parseList = lists.map some ∧
    cmd.path = lists.flatten.map fun hop => K.uriBytes hop.uri

theorem routeValues_pathHeader (request : Request K.Uri) :
    routeValues parseList request pathHeader =
      ((pathRows request).filterMap parseList).flatten.map fun hop => K.uriBytes hop.uri := by
  rw [routeValues, pathRows, List.filterMap_map]
  rfl

/-- What a command stores of the path is what the rows that parse say. -/
theorem path_of_command {request : Request K.Uri} {edge : EdgeContext} {principal : Option Bytes}
    {policy : RegistrationPolicy} {now : Timestamp} {cmd : RegisterCommand K}
    (built : command P parseList request edge principal policy now = .ok cmd) :
    cmd.path = routeValues parseList request pathHeader := by
  unfold command at built
  obtain ⟨callId, -, built⟩ := bind_eq_ok.mp built
  obtain ⟨cseq, -, built⟩ := bind_eq_ok.mp built
  obtain ⟨value, -, built⟩ := bind_eq_ok.mp built
  obtain ⟨address, -, built⟩ := bind_eq_ok.mp built
  obtain ⟨aor, -, built⟩ := bind_eq_ok.mp built
  cases authorized : policy.authorizes edge.tenant principal aor with
  | false => simp [authorized] at built
  | true =>
      simp only [authorized, Bool.not_true, Bool.false_eq_true, if_false] at built
      obtain ⟨authority, -, built⟩ := bind_eq_ok.mp built
      cases served : policy.serves edge.tenant authority with
      | false => simp [served] at built
      | true =>
          simp only [served, Bool.not_true, Bool.false_eq_true, if_false] at built
          obtain ⟨contacts, -, built⟩ := bind_eq_ok.mp built
          cases built
          rfl

/-- A command that keeps every hop keeps the hops of each row. -/
theorem KeepsPath.isSome {request : Request K.Uri} {cmd : RegisterCommand K}
    (keeps : KeepsPath parseList request cmd) : ∀ row ∈ pathRows request, (parseList row).isSome := by
  rintro row member
  obtain ⟨lists, all, -⟩ := keeps
  have parsed : parseList row ∈ lists.map some := all ▸ List.mem_map_of_mem member
  rcases List.mem_map.mp parsed with ⟨list, -, isList⟩
  rw [← isList]
  rfl

theorem map_eq_of_isSome {α β : Type} {read : α → Option β} {rows : List α}
    (all : ∀ row ∈ rows, (read row).isSome) : rows.map read = (rows.filterMap read).map some := by
  induction rows with
  | nil => rfl
  | cons row rest ih =>
      obtain ⟨value, isValue⟩ := Option.isSome_iff_exists.mp (all row List.mem_cons_self)
      rw [List.map_cons, List.filterMap_cons_some isValue, List.map_cons, isValue,
        ih fun other member => all other (List.mem_cons_of_mem _ member)]

/-- A command keeps every hop of the request's path where every `Path` row is an address
list, and there alone. -/
theorem keepsPath_iff {request : Request K.Uri} {edge : EdgeContext} {principal : Option Bytes}
    {policy : RegistrationPolicy} {now : Timestamp} {cmd : RegisterCommand K}
    (built : command P parseList request edge principal policy now = .ok cmd) :
    KeepsPath parseList request cmd ↔ ∀ row ∈ pathRows request, (parseList row).isSome := by
  constructor
  · exact KeepsPath.isSome
  · intro all
    refine ⟨(pathRows request).filterMap parseList, map_eq_of_isSome all, ?_⟩
    rw [path_of_command built, routeValues_pathHeader]

/-! ## A request with two hops -/

/-- Alice, her contact, and the two edges in front of the registrar. -/
def routedUris : List Text :=
  [text "sip:alice@h.example", text "sip:alice@c.example", text "sip:near.example;lr",
    text "sip:far.example;lr"]

/-- A REGISTER whose second `Path` row is as given. -/
def routed (second : String) : Request (Knowing.kernel (routedUris.map utf8)).Uri where
  method := .register
  uri := Reference.uri "sip:h.example"
  headers :=
    [Reference.row .callId "c1", Reference.row .cSeq "1 REGISTER",
      Reference.row pathHeader "<sip:near.example;lr>",
      Reference.row .toHeader "<sip:alice@h.example>",
      Reference.row contactHeader "<sip:alice@c.example>;expires=60",
      Reference.row pathHeader second]
  body := []

/-- The command of such a request at an open tenant. -/
def routedCommand (second : String) :
    Except Rejection (RegisterCommand (Knowing.kernel (routedUris.map utf8))) :=
  command (Knowing.parts (routedUris.map utf8)) (Knowing.parseList (routedUris.map utf8))
    (routed second) ⟨text "t1", none, none⟩ none openRegistrationPolicy 0

theorem exists_routedCommand {second : String} {path : List Bytes}
    (stores : (routedCommand second).toOption.map RegisterCommand.path = some path) :
    ∃ cmd, routedCommand second = .ok cmd ∧ cmd.path = path := by
  cases built : routedCommand second with
  | error rejection =>
      rw [built] at stores
      contradiction
  | ok cmd =>
      rw [built] at stores
      exact ⟨cmd, rfl, Option.some.inj stores⟩

theorem keepsPath_both : ∃ cmd, routedCommand "<sip:far.example;lr>" = .ok cmd ∧
    cmd.path = [bytes "sip:near.example;lr", bytes "sip:far.example;lr"] ∧
      KeepsPath (Knowing.parseList (routedUris.map utf8)) (routed "<sip:far.example;lr>") cmd := by
  obtain ⟨cmd, built, stores⟩ := @exists_routedCommand "<sip:far.example;lr>"
    [bytes "sip:near.example;lr", bytes "sip:far.example;lr"] (by decide +kernel)
  exact ⟨cmd, built, stores, (keepsPath_iff built).mpr (by decide +kernel)⟩

/-- A bracket that is never closed costs the hop, and the registration stands without it. -/
theorem not_keepsPath : ∃ cmd, routedCommand "<sip:far.example;lr" = .ok cmd ∧
    cmd.path = [bytes "sip:near.example;lr"] ∧
      ¬ KeepsPath (Knowing.parseList (routedUris.map utf8)) (routed "<sip:far.example;lr") cmd := by
  obtain ⟨cmd, built, stores⟩ := @exists_routedCommand "<sip:far.example;lr"
    [bytes "sip:near.example;lr"] (by decide +kernel)
  refine ⟨cmd, built, stores, fun keeps => ?_⟩
  have parses := keeps.isSome (bytes "<sip:far.example;lr") (by decide +kernel)
  have fails : Knowing.parseList (routedUris.map utf8) (bytes "<sip:far.example;lr") = none := by
    decide +kernel
  rw [fails] at parses
  exact Bool.false_ne_true parses

end SipxClstr.Registrar
