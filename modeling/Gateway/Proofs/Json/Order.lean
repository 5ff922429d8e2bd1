import Gateway.Json.Document
import Gateway.Proofs.Evaluation.Rewriting

/-!
# Gateway.Proofs.Json.Order — the order of members

An object lists its members in ascending order of their keys, and so do the objects in it. What is read
from a text does, whatever order the text has, and putting members that are in order in their places
leaves them where they are.

Members are a list, and a list could have any order and the same key twice. No value of the program is
like that, because all objects are made by putting one member after the other into its place; but the
type does not say so. `Ordered` does, for a value and everything in it, and is what statements about
values ask for. It is not kept by all functions on lists of members, only by those that the program has.

`Within` is the part of a value at any depth. A property of all parts is inherited by an item and by a
member, which is all that an induction over values needs, and `induction_mem` is that induction, with
items and members in lists.
-/

set_option autoImplicit false

namespace Gateway

namespace Json

/-- The value stands in the other one, or is it. -/
inductive Within (part : Json) : Json → Prop
  | self : Within part part
  | item {items : List Json} {item : Json} (hitem : item ∈ items) (h : Within part item) :
      Within part (.array items)
  | member {members : Members} {member : String × Json} (hmember : member ∈ members)
      (h : Within part member.2) : Within part (.object members)

/-- All objects in the value list their members in ascending order of their keys. -/
def Ordered (value : Json) : Prop := ∀ part, Within part value → part.InOrder

@[elab_as_elim]
theorem induction_mem {motive : Json → Prop} (null : motive .null) (bool : ∀ b, motive (.bool b))
    (number : ∀ n, motive (.number n)) (string : ∀ s, motive (.string s))
    (array : ∀ items, (∀ item ∈ items, motive item) → motive (.array items))
    (object : ∀ members : Members, (∀ member ∈ members, motive member.2) → motive (.object members)) :
    ∀ value, motive value
  | .null => null
  | .bool b => bool b
  | .number n => number n
  | .string s => string s
  | .array items => array items fun item _ =>
      induction_mem null bool number string array object item
  | .object members => object members fun member _ =>
      induction_mem null bool number string array object member.2
termination_by value => value
decreasing_by
  · have := List.sizeOf_lt_of_mem ‹item ∈ items›
    simp only [Json.array.sizeOf_spec]
    omega
  · obtain ⟨key, value⟩ := member
    have := List.sizeOf_lt_of_mem ‹(key, value) ∈ members›
    simp only [Json.object.sizeOf_spec, Prod.mk.sizeOf_spec] at *
    omega

theorem Members.set_of_lt {members : Members} {key : String} (value : Json)
    (h : ∀ member ∈ members, member.1 < key) : members.set key value = members ++ [(key, value)] := by
  induction members with
  | nil => rfl
  | cons first rest ih =>
    obtain ⟨k, v⟩ := first
    obtain ⟨hfirst, hrest⟩ := List.forall_mem_cons.1 h
    rw [set, if_neg (String.lt_asymm hfirst), if_neg (String.ne_of_lt hfirst).symm, ih hrest]
    rfl

/-- Members in order are the object's, as they are. -/
theorem ofFields_of_inOrder {members : Members} (h : InOrder (.object members)) :
    ofFields members = .object members := by
  suffices hfold : ∀ front rest : Members, (front ++ rest).Pairwise (fun m n => m.1 < n.1) →
      rest.foldl (fun members field => members.set field.1 field.2) front = front ++ rest by
    exact congrArg Json.object (hfold [] members h)
  intro front rest
  induction rest generalizing front with
  | nil => simp
  | cons field rest ih =>
    intro hsorted
    have hlast : ∀ member ∈ front, member.1 < field.1 := fun member hmember =>
      (List.pairwise_append.1 hsorted).2.2 member hmember field List.mem_cons_self
    rw [List.foldl_cons, Members.set_of_lt field.2 hlast, ih _ (by simpa using hsorted)]
    simp

theorem Members.mem_of_mem_ofList {fields : List (String × Json)} {member : String × Json}
    (h : member ∈ ofList fields) : member ∈ fields := by
  -- fields are set one by one, so what is there before them is part of the induction
  suffices hfold : ∀ members : Members,
      member ∈ fields.foldl (fun members field => members.set field.1 field.2) members →
        member ∈ members ∨ member ∈ fields by
    exact (hfold [] h).resolve_left nofun
  clear h
  induction fields with
  | nil => exact fun members h => .inl h
  | cons field fields ih =>
    intro members h
    rcases ih _ h with h | h
    · rcases mem_set h with rfl | h
      · exact .inr List.mem_cons_self
      · exact .inl h
    · exact .inr (List.mem_cons_of_mem field h)

theorem ordered_array {items : List Json} (h : ∀ item ∈ items, item.Ordered) :
    (Json.array items).Ordered := by
  rintro part (_ | ⟨hitem, hpart⟩)
  · trivial
  · exact h _ hitem part hpart

theorem ordered_ofFields {fields : List (String × Json)} (h : ∀ field ∈ fields, field.2.Ordered) :
    (ofFields fields).Ordered := by
  rintro part (_ | _ | ⟨hmember, hpart⟩)
  · exact inOrder_ofFields fields
  · exact h _ (Members.mem_of_mem_ofList hmember) part hpart

end Json

namespace Document

mutual

/-- What a text is read as lists its members in order, wherever it has some. -/
theorem ordered_value : ∀ d : Document, d.value.Ordered
  | .null => by
    rintro part ⟨⟩
    trivial
  | .bool _ => by
    rintro part ⟨⟩
    trivial
  | .number _ => by
    rintro part ⟨⟩
    trivial
  | .string _ => by
    rintro part ⟨⟩
    trivial
  | .array items => Json.ordered_array (ordered_values items)
  | .object members => Json.ordered_ofFields (ordered_fieldValues members)

theorem ordered_values : ∀ items : List Document, ∀ item ∈ values items, item.Ordered
  | [] => nofun
  | d :: rest => List.forall_mem_cons.2 ⟨ordered_value d, ordered_values rest⟩

theorem ordered_fieldValues :
    ∀ members : List (String × Document), ∀ field ∈ fieldValues members, field.2.Ordered
  | [] => nofun
  | (_, d) :: rest => List.forall_mem_cons.2 ⟨ordered_value d, ordered_fieldValues rest⟩

end

end Document

end Gateway
