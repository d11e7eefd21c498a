import Mathlib.Data.List.Perm.Basic

/-!
# Lists written with a separator

An encoding may not end by itself, and still be told from what follows it, wherever that starts with
a symbol that closes.  Lists of such encodings with a separator between them are told item by item.
-/

namespace SipxClstr.Data

variable {α β : Type*}

/-- Nothing follows, or a symbol that closes. -/
def Closes (closing : β → Prop) (rest : List β) : Prop :=
  ∀ symbol ∈ rest.head?, closing symbol

/-- Where two values are written alike, they are related, and what follows is the same. -/
def Delimited (closing : β → Prop) (encode : α → List β) (related : α → α → Prop)
    (value other : α) : Prop :=
  ∀ rest rest', Closes closing rest → Closes closing rest' →
    encode value ++ rest = encode other ++ rest' → related value other ∧ rest = rest'

/-- The items with a separator between them. -/
def separated (separator : β) (encode : α → List β) : List α → List β
  | [] => []
  | item :: rest => encode item ++ rest.flatMap fun later => separator :: encode later

theorem intercalate_eq_separated (separator : β) (encode : α → List β) (items : List α) :
    [separator].intercalate (items.map encode) = separated separator encode items := by
  rcases items with _ | ⟨item, rest⟩
  · rfl
  · induction rest generalizing item with
    | nil => simp [separated, List.intercalate]
    | cons next rest ih =>
        have later := ih next
        simp only [List.map_cons, separated, List.flatMap_cons] at later ⊢
        rw [List.intercalate_cons_cons, later]
        simp

section Items

variable {closing : β → Prop} {separator close : β} {encode : α → List β}
  {related : α → α → Prop}

/-- The first symbol of an item is not the one that closes the list. -/
def Opens (close : β) (encode : α → List β) (item : α) : Prop :=
  ∃ symbol rest, encode item = symbol :: rest ∧ symbol ≠ close

theorem forall₂_of_behind (separates : closing separator) (closes : closing close)
    (differ : separator ≠ close) {items others : List α}
    (delimited : ∀ item ∈ items, ∀ other ∈ others,
      Delimited closing encode related item other)
    {rest rest' : List β}
    (same : (items.flatMap fun later => separator :: encode later) ++ close :: rest =
      (others.flatMap fun later => separator :: encode later) ++ close :: rest') :
    List.Forall₂ related items others ∧ rest = rest' := by
  have closed : ∀ (items : List α) (rest : List β), Closes closing
      ((items.flatMap fun later => separator :: encode later) ++ close :: rest) := by
    rintro (_ | ⟨item, items⟩) rest symbol isFirst
    · cases isFirst
      exact closes
    · cases isFirst
      exact separates
  induction items generalizing others with
  | nil =>
      cases others with
      | nil => exact ⟨.nil, (List.cons.inj same).2⟩
      | cons other others => exact absurd (List.cons.inj same).1.symm differ
  | cons item items ih =>
      cases others with
      | nil => exact absurd (List.cons.inj same).1 differ
      | cons other others =>
          simp only [List.flatMap_cons, List.cons_append, List.append_assoc, List.cons.injEq,
            true_and] at same
          obtain ⟨isRelated, later⟩ := delimited item List.mem_cons_self other List.mem_cons_self
            _ _ (closed items rest) (closed others rest') same
          obtain ⟨areRelated, sameRest⟩ := ih (fun item member other member' =>
            delimited item (List.mem_cons_of_mem _ member) other
              (List.mem_cons_of_mem _ member')) later
          exact ⟨.cons isRelated areRelated, sameRest⟩

/-- Lists that are written alike up to the symbol that closes them are related item by item. -/
theorem forall₂_of_separated (separates : closing separator) (closes : closing close)
    (differ : separator ≠ close) {items others : List α}
    (opens : ∀ item ∈ items, Opens close encode item)
    (opens' : ∀ other ∈ others, Opens close encode other)
    (delimited : ∀ item ∈ items, ∀ other ∈ others,
      Delimited closing encode related item other)
    {rest rest' : List β}
    (same : separated separator encode items ++ close :: rest =
      separated separator encode others ++ close :: rest') :
    List.Forall₂ related items others ∧ rest = rest' := by
  rcases items with _ | ⟨item, items⟩ <;> rcases others with _ | ⟨other, others⟩
  · exact ⟨.nil, (List.cons.inj same).2⟩
  · rcases opens' other List.mem_cons_self with ⟨symbol, tail, written, differs⟩
    simp only [separated, written, List.nil_append, List.cons_append, List.cons.injEq] at same
    exact absurd same.1.symm differs
  · rcases opens item List.mem_cons_self with ⟨symbol, tail, written, differs⟩
    simp only [separated, written, List.nil_append, List.cons_append, List.cons.injEq] at same
    exact absurd same.1 differs
  · have behind : (separator :: encode item) ++
        ((items.flatMap fun later => separator :: encode later) ++ close :: rest) =
          (separator :: encode other) ++
            ((others.flatMap fun later => separator :: encode later) ++ close :: rest') := by
      simpa [separated] using same
    apply forall₂_of_behind separates closes differ delimited
    simpa using behind

end Items

/-- A reordering of images is an image of a reordering. -/
theorem exists_perm_of_perm_map {encode : α → β} {items : List α} {images : List β}
    (perm : images.Perm (items.map encode)) :
    ∃ others : List α, others.Perm items ∧ images = others.map encode := by
  have images_of : List.Forall₂ (fun image item => image = encode item) (items.map encode) items :=
    List.forall₂_map_left_iff.mpr (List.forall₂_same.mpr fun _ _ => rfl)
  obtain ⟨others, related, reordered⟩ := List.perm_comp_forall₂ perm images_of
  refine ⟨others, reordered, ?_⟩
  have all := List.forall₂_iff_get.mp related
  apply List.ext_getElem
  · simpa using all.1
  · intro place bound bound'
    rw [List.getElem_map]
    exact all.2 place bound (by simpa using bound')

end SipxClstr.Data
