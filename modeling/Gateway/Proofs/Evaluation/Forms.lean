import Gateway.Evaluation.Variables
import Gateway.Proofs.Json.Order

/-!
# Gateway.Proofs.Evaluation.Forms — objects as forms

An object is written as a form by going through its members, and a form is read as an object by
collecting what stands under each name. The first flattens and the second groups, so that reading what
was written gives the object back, with its values as texts in lists. A name that lists nothing is not
written, and so it is not read.

That it is not the same object is in the nature of forms: they have no numbers and no single values, and
a text is all that is left of either. `asParams` says what a member becomes. It has to be said of each
member by itself, since that members do not get into each other's way is the point: the names of an
object are different, so what is collected under one of them is what was written for it
(`filter_params`).

The reading puts a field into its object once for each value. That the later times change nothing is
seen in the order of the members, which come sorted: each is put at the end, where it then is
(`Members.foldl_set_const`). For members in any other order the object would come out sorted, too, and
the statement would have to speak of a permutation. Objects never are in another order here
(`Json.Order`).
-/

set_option autoImplicit false

namespace Gateway

namespace Json

/-- The values that a value stands for: those that an array lists, or itself. -/
def listed : Json → List Json
  | .array items => items
  | value => [value]

theorem texts_eq (value : Json) : value.texts = value.listed.map text := by
  cases value <;> rfl

/-- What is read under the name of a member: the list of its texts. -/
def asParams (member : String × Json) : String × Json :=
  (member.1, .array (member.2.listed.map fun value => .string value.text))

/-! ## Members in groups -/

theorem Members.set_again {members : Members} {key : String} (value : Json)
    (h : ∀ member ∈ members, member.1 < key) :
    (members ++ [(key, value)]).set key value = members ++ [(key, value)] := by
  induction members with
  | nil => simp [set]
  | cons first rest ih =>
    obtain ⟨k, v⟩ := first
    obtain ⟨hfirst, hrest⟩ := List.forall_mem_cons.1 h
    rw [List.cons_append, set, if_neg (String.lt_asymm hfirst), if_neg (String.ne_of_lt hfirst).symm,
      ih hrest]

/-- A member that is put into its place several times is there once. -/
theorem Members.foldl_set_const {α : Type} {members : Members} {key : String} (value : Json)
    (h : ∀ member ∈ members, member.1 < key) (l : List α) :
    (l.map fun _ => (key, value)).foldl (fun m field => m.set field.1 field.2) members =
      members ++ if l.isEmpty then [] else [(key, value)] := by
  cases l with
  | nil => simp
  | cons a l =>
    rw [List.map_cons, List.foldl_cons, set_of_lt value h]
    show _ = members ++ [(key, value)]
    induction l with
    | nil => rfl
    | cons b l ih => rw [List.map_cons, List.foldl_cons, set_again value h, ih]

/-- Fields that come in groups, each of one member in its place, make an object of the members whose
groups are not empty. -/
theorem ofFields_flatMap {α : Type} {members : Members} (h : (Json.object members).InOrder)
    (group : String × Json → List α) (read : String × Json → Json) :
    ofFields (members.flatMap fun member => (group member).map fun _ => (member.1, read member)) =
      .object ((members.filter fun member => !(group member).isEmpty).map
        fun member => (member.1, read member)) := by
  -- an object is made by setting field after field, so the induction is for what was set before
  suffices hfold : ∀ front : Members, (∀ m ∈ front, ∀ member ∈ members, m.1 < member.1) →
      (members.flatMap fun member => (group member).map fun _ => (member.1, read member)).foldl
          (fun m field => m.set field.1 field.2) front =
        front ++ (members.filter fun member => !(group member).isEmpty).map
          fun member => (member.1, read member) by
    exact congrArg Json.object (hfold [] nofun)
  -- being in order is that the names rise, and a name that is set again is the last one
  change members.Pairwise _ at h
  induction members with
  | nil => simp
  | cons member members ih =>
    obtain ⟨hfirst, hrest⟩ := List.pairwise_cons.1 h
    intro front hfront
    have hbelow : ∀ m ∈ front, m.1 < member.1 := fun m hm => hfront m hm member List.mem_cons_self
    have hlater : ∀ m ∈ front, ∀ next ∈ members, m.1 < next.1 := fun m hm next hnext =>
      hfront m hm next (List.mem_cons_of_mem member hnext)
    rw [List.flatMap_cons, List.foldl_append, Members.foldl_set_const _ hbelow, List.filter_cons]
    cases (group member).isEmpty with
    | true =>
      rw [if_pos rfl, List.append_nil, ih hrest front hlater]
      rfl
    | false =>
      rw [if_neg Bool.false_ne_true, ih hrest, List.append_assoc]
      · rfl
      · intro m hm next hnext
        rcases List.mem_append.1 hm with hm | hm
        · exact hlater m hm next hnext
        · rw [List.mem_singleton.1 hm]
          exact hfirst next hnext

/-! ## Reading what was written -/

/-- The parameters of an object's members that have the name of one of them are those of that one. -/
theorem filter_params {members : Members} (h : (Json.object members).InOrder)
    {member : String × Json} (hmember : member ∈ members) :
    (members.flatMap fun m => m.2.texts.map (m.1, ·)).filter (·.1 = member.1) =
      member.2.texts.map (member.1, ·) := by
  change members.Pairwise _ at h
  have hnone : ∀ {rest : Members}, (∀ m ∈ rest, m.1 ≠ member.1) →
      (rest.flatMap fun m => m.2.texts.map (m.1, ·)).filter (·.1 = member.1) = [] := by
    intro rest hrest
    rw [List.filter_eq_nil_iff]
    intro p hp
    obtain ⟨m, hm, hp⟩ := List.mem_flatMap.1 hp
    obtain ⟨text, -, rfl⟩ := List.mem_map.1 hp
    simpa using hrest m hm
  have hall : (member.2.texts.map (member.1, ·)).filter (·.1 = member.1) =
      member.2.texts.map (member.1, ·) := by
    simp
  obtain ⟨front, back, rfl⟩ := List.append_of_mem hmember
  obtain ⟨-, hback, hfront⟩ := List.pairwise_append.1 h
  have hbefore : ∀ m ∈ front, m.1 ≠ member.1 := fun m hm =>
    String.ne_of_lt (hfront m hm member List.mem_cons_self)
  have hafter : ∀ m ∈ back, m.1 ≠ member.1 := fun m hm =>
    (String.ne_of_lt ((List.pairwise_cons.1 hback).1 m hm)).symm
  rw [List.flatMap_append, List.flatMap_cons, List.filter_append, List.filter_append, hnone hbefore,
    hnone hafter, hall, List.nil_append, List.append_nil]

theorem queryValue_encode (ps : List Param) :
    queryValue (some (Form.encode ps)) =
      ofFields (ps.map fun p => (p.1, .array ((ps.filter (·.1 = p.1)).map fun q => .string q.2))) := by
  rw [queryValue, Option.map_some, Option.getD_some, Form.decode_encode]

/-- The parameters that an object is written as are read as one field for each of them, and those of
one name are the same. -/
theorem queryValue_params {members : Members} (h : (Json.object members).InOrder) :
    queryValue (some (Form.encode (members.flatMap fun m => m.2.texts.map (m.1, ·)))) =
      ofFields (members.flatMap fun m => m.2.listed.map fun _ => asParams m) := by
  rw [queryValue_encode, List.map_flatMap]
  refine congrArg ofFields (List.flatMap_congr fun member hmember => ?_)
  rw [texts_eq member.2, List.map_map, List.map_map]
  refine List.map_congr_left fun value _ => ?_
  simp only [Function.comp_apply, filter_params h hmember, texts_eq member.2, List.map_map]
  rfl

/-- An object is written as a form, and the form is read as the object in which a list of texts stands
under each name: the texts of the values that it lists in the object, in their order. Names that list
nothing are not in it. No text is changed on the way, whatever characters it holds. -/
theorem queryValue_formEncode {members : Members} (h : (Json.object members).InOrder) :
    ∃ form, (Json.object members).formEncode = .ok form ∧
      queryValue (some form) =
        .object ((members.filter fun member => !member.2.listed.isEmpty).map asParams) := by
  have hparams : (Json.object members).formEncode =
      .ok (Form.encode (members.flatMap fun m => m.2.texts.map (m.1, ·))) := by
    rw [formEncode, params, pairs, Except.map, Except.map, List.flatMap_map]
  refine ⟨_, hparams, ?_⟩
  rw [queryValue_params h]
  exact ofFields_flatMap h (fun member => member.2.listed) fun member => (asParams member).2

/-- Names and values with reserved characters, blanks, empty texts and more than ASCII. -/
theorem queryValue_formEncode_of_reserved :
    let members : Members := [("", .null), ("&=", .array [.string "a+b%20", .bool true, .string ""]),
      ("gone", .array []), ("é #", .object [("k", .ofNat 1)])]
    (Json.object members).InOrder ∧
      (Json.object members).formEncode =
        .ok "=&%26%3D=a%2Bb%2520&%26%3D=true&%26%3D=&%C3%A9+%23=%7B%22k%22%3A1%7D" ∧
      queryValue (some "=&%26%3D=a%2Bb%2520&%26%3D=true&%26%3D=&%C3%A9+%23=%7B%22k%22%3A1%7D") =
        .object [("", .array [.string ""]),
          ("&=", .array [.string "a+b%20", .string "true", .string ""]),
          ("é #", .array [.string "\x7b\"k\":1\x7d"])] := by
  intro members
  have h : (Json.object members).InOrder := by
    show members.Pairwise _
    decide
  have hform : (Json.object members).formEncode =
      .ok "=&%26%3D=a%2Bb%2520&%26%3D=true&%26%3D=&%C3%A9+%23=%7B%22k%22%3A1%7D" := by cbv
  obtain ⟨form, heq, hread⟩ := queryValue_formEncode h
  cases hform.symm.trans heq
  exact ⟨h, hform, hread.trans (by cbv)⟩

end Json

end Gateway
