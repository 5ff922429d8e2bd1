import Gateway.Evaluation.Context
import Gateway.Proofs.Expression.Lossless
import Gateway.Proofs.Json.Order

/-!
# Gateway.Proofs.Evaluation.Substitution — what the value of an expression is

A JSON value is read as an expression, and the expression is evaluated. Both walk down the same arrays
and objects, so that together they do nothing but put values in the place of holes: the value has the
shape of what was read, and differs from it in its strings only. A string that is one hole becomes any
value, one with text around its holes a string, and keys are left alone.

`Json.Substitutes` says that by recursion on the value, with one case for each constructor, and does not
mention expressions. Reading and evaluating is a detour by a second tree that has lists of parts where
the first has strings, and it could fail on either leg. The theorem is an iff for this reason: there is a
value just if all holes can be read and have values, and then it is the one that substitution gives.

Strings are where the work is, and `Expression.Lossless` has done it: a string is cut into slices in one
way, and the expression that is read from it remembers them all. What is left is to follow arrays and
objects, item by item. Objects are made anew from their fields and sorted while that is done, so a value
has to be ordered in all its parts for the result to have the same fields in the same places
(`Json.Ordered`); every value that was ever read or made is.
-/

set_option autoImplicit false

namespace Gateway

/-! ## Substitution -/

/-- What stands in the place of a slice in a text: plain text stays, and a hole gives way to the text of
the value that its path leads to. -/
inductive Slice.Renders (c : Context) : Slice → String → Prop
  | text {s : String} : Renders c (.text s.toList) s
  | hole {written : List Char} {t : Traversal} {value : Json}
      (hsegments : ∀ s ∈ t.segments, IsSegment s) (hlookup : c.lookup t = .ok value) :
      Renders c (.hole written t.text.toList) value.text

/-- What a text becomes whose slices these are: the value that is looked up, if it is a hole and nothing
else, and otherwise a text. -/
inductive Interpolates (c : Context) : List Slice → Json → Prop
  | alone {written : List Char} {t : Traversal} {value : Json}
      (hsegments : ∀ s ∈ t.segments, IsSegment s) (hlookup : c.lookup t = .ok value) :
      Interpolates c [.hole written t.text.toList] value
  | among {l : List Slice} {texts : List String} (hnot : ∀ written path, l ≠ [.hole written path])
      (hrenders : List.Forall₂ (Slice.Renders c) l texts) :
      Interpolates c l (.string (String.join texts))

/-- The second value is the first with each of its strings interpolated. Arrays keep their items' places
and objects their keys. -/
inductive Json.Substitutes (c : Context) : Json → Json → Prop
  | null : Substitutes c .null .null
  | bool {b : Bool} : Substitutes c (.bool b) (.bool b)
  | number {n : Number} : Substitutes c (.number n) (.number n)
  | string {s : String} {l : List Slice} {value : Json} (hsliced : Sliced s.toList l)
      (hvalue : Interpolates c l value) : Substitutes c (.string s) value
  | array {items values : List Json} (hitems : List.Forall₂ (Substitutes c) items values) :
      Substitutes c (.array items) (.array values)
  | object {members values : Members} (hkeys : members.map Prod.fst = values.map Prod.fst)
      (hvalues : List.Forall₂ (Substitutes c) (members.map Prod.snd) (values.map Prod.snd)) :
      Substitutes c (.object members) (.object values)

namespace Expression

theorem ofItems_eq_ok {items : List Json} {es : List Expression} :
    ofItems items = .ok es ↔ List.Forall₂ (fun item e => ofJson item = .ok e) items es := by
  have hmapM : ofItems items = items.mapM ofJson := by
    induction items with
    | nil => rfl
    | cons item items ih => rw [ofItems, List.mapM_cons, ih]
  rw [hmapM, mapM_eq_ok]

theorem ofMembers_eq_ok {members : List (String × Json)} {fields : List (String × Expression)} :
    ofMembers members = .ok fields ↔ members.map Prod.fst = fields.map Prod.fst ∧
      List.Forall₂ (fun value e => ofJson value = .ok e) (members.map Prod.snd) (fields.map Prod.snd) := by
  have hmapM : ofMembers members = members.mapM fun m => (ofJson m.2).map (m.1, ·) := by
    induction members with
    | nil => rfl
    | cons m members ih =>
      obtain ⟨key, value⟩ := m
      rw [ofMembers, List.mapM_cons, ih]
      cases ofJson value <;> rfl
  rw [hmapM, mapM_fields_eq_ok]

theorem itemTraversals_eq_flatMap (es : List Expression) :
    itemTraversals es = es.flatMap traversals := by
  induction es with
  | nil => rfl
  | cons e es ih => rw [itemTraversals, ih, List.flatMap_cons]

theorem fieldTraversals_eq_flatMap (fields : List (String × Expression)) :
    fieldTraversals fields = fields.flatMap fun field => field.2.traversals := by
  induction fields with
  | nil => rfl
  | cons field fields ih =>
    obtain ⟨key, e⟩ := field
    rw [fieldTraversals, ih, List.flatMap_cons]

end Expression

namespace Context

variable {c : Context}

theorem evaluateItems_eq_ok {es : List Expression} {values : List Json} :
    c.evaluateItems es = .ok values ↔ List.Forall₂ (fun e value => c.evaluate e = .ok value) es values := by
  have hmapM : c.evaluateItems es = es.mapM c.evaluate := by
    induction es with
    | nil => rfl
    | cons e es ih => rw [evaluateItems, List.mapM_cons, ih]
  rw [hmapM, mapM_eq_ok]

theorem evaluateFields_eq_ok {fields : List (String × Expression)} {values : Json.Members} :
    c.evaluateFields fields = .ok values ↔ fields.map Prod.fst = values.map Prod.fst ∧
      List.Forall₂ (fun e value => c.evaluate e = .ok value) (fields.map Prod.snd)
        (values.map Prod.snd) := by
  have hmapM : c.evaluateFields fields = fields.mapM fun f => (c.evaluate f.2).map (f.1, ·) := by
    induction fields with
    | nil => rfl
    | cons field fields ih =>
      obtain ⟨key, e⟩ := field
      rw [evaluateFields, List.mapM_cons, ih]
      cases c.evaluate e <;> rfl
  rw [hmapM, mapM_fields_eq_ok]

theorem renders_iff {slice : Slice} {text : String} :
    slice.Renders c text ↔ ∃ part, slice.Reads part ∧ c.partText part = .ok text := by
  constructor
  · intro h
    cases h with
    | text => exact ⟨_, .text, rfl⟩
    | hole hsegments hlookup => exact ⟨_, .hole hsegments, map_eq_ok.2 ⟨_, hlookup, rfl⟩⟩
  · rintro ⟨part, hreads, htext⟩
    cases hreads with
    | text =>
      cases htext
      exact .text
    | hole hsegments =>
      obtain ⟨value, hlookup, rfl⟩ := map_eq_ok.1 htext
      exact .hole hsegments hlookup

theorem renders_text_iff {written : List Char} {text : String} :
    (Slice.text written).Renders c text ↔ text.toList = written := by
  constructor
  · rintro ⟨⟩
    rfl
  · rintro rfl
    exact .text

theorem renders_iff_of_isText {l : List Slice} {texts : List String}
    (htext : ∀ slice ∈ l, slice.isText = true) :
    List.Forall₂ (Slice.Renders c) l texts ↔
      texts = l.map fun slice => String.ofList slice.written := by
  induction l generalizing texts with
  | nil => rw [List.forall₂_nil_left_iff, List.map_nil]
  | cons slice l ih =>
    obtain ⟨hslice, hl⟩ := List.forall_mem_cons.1 htext
    cases slice with
    | hole => cases hslice
    | text written =>
      rw [List.forall₂_cons_left_iff, List.map_cons]
      constructor
      · rintro ⟨text, texts, hrenders, hrest, rfl⟩
        rw [(ih hl).1 hrest, ← renders_text_iff.1 hrenders, Slice.written, String.ofList_toList]
      · rintro rfl
        exact ⟨_, _, renders_text_iff.2 String.toList_ofList, (ih hl).2 rfl, rfl⟩

theorem join_written (l : List Slice) :
    String.join (l.map fun slice => String.ofList slice.written) =
      String.ofList (l.flatMap Slice.written) := by
  induction l with
  | nil => rfl
  | cons slice l ih => rw [List.map_cons, String.join_cons, ih, List.flatMap_cons, String.ofList_append]

/-- A text without holes stands for itself. -/
theorem interpolates_iff_of_isText {s : String} {l : List Slice} {value : Json}
    (hsliced : Sliced s.toList l) (htext : ∀ slice ∈ l, slice.isText = true) :
    Interpolates c l value ↔ value = .string s := by
  have hjoin : String.join (l.map fun slice => String.ofList slice.written) = s := by
    rw [join_written, hsliced.whole, String.ofList_toList]
  constructor
  · rintro (_ | ⟨-, hrenders⟩)
    · cases htext _ List.mem_cons_self
    · rw [(renders_iff_of_isText htext).1 hrenders, hjoin]
  · rintro rfl
    have hinterpolates : Interpolates c l (.string (String.join _)) :=
      .among ?_ ((renders_iff_of_isText htext).2 rfl)
    · rwa [hjoin] at hinterpolates
    · rintro written path rfl
      cases htext _ List.mem_cons_self

/-- Slices that are no text and no single hole are several. -/
theorem two_le_length {l : List Slice} (hsome : ¬ ∀ slice ∈ l, slice.isText = true)
    (hnot : ∀ written path, l ≠ [.hole written path]) : 2 ≤ l.length := by
  match l with
  | [] => exact absurd nofun hsome
  | [.text written] => exact absurd (by simp [Slice.isText]) hsome
  | [.hole written path] => exact absurd rfl (hnot written path)
  | _ :: _ :: _ => simp

/-- The value of a text is what becomes of its slices. -/
theorem evaluate_ofText {s : String} {value : Json} :
    (∃ e, Expression.ofText s = .ok e ∧ c.evaluate e = .ok value) ↔
      ∃ l, Sliced s.toList l ∧ Interpolates c l value := by
  constructor
  · rintro ⟨e, he, hvalue⟩
    have hsliced := sliced_slices s.toList
    have hmade := Expression.made_of_ofText he
    refine ⟨_, hsliced, ?_⟩
    -- which expression a text becomes depends on its slices only
    generalize slices s.toList = l at hsliced hmade
    cases hmade with
    | literal htext =>
      cases hvalue
      exact (interpolates_iff_of_isText hsliced htext).2 rfl
    | reference hreads =>
      cases hreads with
      | hole hsegments => exact .alone hsegments hvalue
    | template hlength hreads =>
      obtain ⟨texts, htexts, rfl⟩ := map_eq_ok.1 hvalue
      refine .among ?_ ((forall₂_comp.2 ⟨_, hreads, mapM_eq_ok.1 htexts⟩).imp fun _ _ => renders_iff.2)
      rintro written path rfl
      exact absurd hlength (by simp)
  · rintro ⟨l, hsliced, hvalue⟩
    have hmakes : ∀ e, Expression.Made s l e → Expression.ofText s = .ok e := by
      intro e hmade
      rw [← slices_of_sliced hsliced] at hmade
      exact Expression.ofText_of_made hmade
    -- a literal and a template are both made among texts, and only the holes tell them apart
    by_cases htext : ∀ slice ∈ l, slice.isText = true
    · rw [interpolates_iff_of_isText hsliced htext] at hvalue
      exact ⟨_, hmakes _ (.literal htext), by rw [hvalue]; rfl⟩
    cases hvalue with
    | alone hsegments hlookup => exact ⟨_, hmakes _ (.reference (.hole hsegments)), hlookup⟩
    | among hnot hrenders =>
      obtain ⟨parts, hreads, htexts⟩ := forall₂_comp.1 (hrenders.imp fun _ _ => renders_iff.1)
      refine ⟨_, hmakes _ (.template (two_le_length htext hnot) hreads), map_eq_ok.2 ⟨_, ?_, rfl⟩⟩
      exact mapM_eq_ok.2 htexts

theorem inOrder_of_keys {members values : Json.Members} (h : (Json.object members).InOrder)
    (hkeys : members.map Prod.fst = values.map Prod.fst) : (Json.object values).InOrder := by
  have hpairwise : (members.map Prod.fst).Pairwise (· < ·) := List.pairwise_map.2 h
  rw [hkeys] at hpairwise
  exact List.pairwise_map.1 hpairwise

/-- Reading and evaluating an array is doing so for each item. -/
theorem evaluate_array {items : List Json} {value : Json} :
    (∃ e, Expression.ofJson (.array items) = .ok e ∧ c.evaluate e = .ok value) ↔
      ∃ values, value = .array values ∧
        List.Forall₂ (fun v v' => ∃ e, Expression.ofJson v = .ok e ∧ c.evaluate e = .ok v')
          items values := by
  constructor
  · rintro ⟨e, he, hvalue⟩
    rw [Expression.ofJson] at he
    obtain ⟨es, hes, rfl⟩ := map_eq_ok.1 he
    rw [evaluate] at hvalue
    obtain ⟨values, hvalues, rfl⟩ := map_eq_ok.1 hvalue
    rw [Expression.ofItems_eq_ok] at hes
    rw [evaluateItems_eq_ok] at hvalues
    exact ⟨values, rfl, forall₂_comp.2 ⟨es, hes, hvalues⟩⟩
  · rintro ⟨values, rfl, h⟩
    obtain ⟨es, hes, hvalues⟩ := forall₂_comp.1 h
    refine ⟨.list es, ?_, ?_⟩
    · rw [Expression.ofJson, Expression.ofItems_eq_ok.2 hes]
      rfl
    · rw [evaluate, evaluateItems_eq_ok.2 hvalues]
      rfl

/-- Reading and evaluating an object is doing so for the value under each key. -/
theorem evaluate_object {members : Json.Members} {value : Json}
    (horder : (Json.object members).InOrder) :
    (∃ e, Expression.ofJson (.object members) = .ok e ∧ c.evaluate e = .ok value) ↔
      ∃ values : Json.Members, value = .object values ∧ members.map Prod.fst = values.map Prod.fst ∧
        List.Forall₂ (fun v v' => ∃ e, Expression.ofJson v = .ok e ∧ c.evaluate e = .ok v')
          (members.map Prod.snd) (values.map Prod.snd) := by
  constructor
  · rintro ⟨e, he, hvalue⟩
    rw [Expression.ofJson] at he
    obtain ⟨fields, hfields, rfl⟩ := map_eq_ok.1 he
    rw [evaluate] at hvalue
    obtain ⟨values, hvalues, rfl⟩ := map_eq_ok.1 hvalue
    obtain ⟨hkeys, hes⟩ := Expression.ofMembers_eq_ok.1 hfields
    obtain ⟨hkeys', hvalues⟩ := evaluateFields_eq_ok.1 hvalues
    -- the keys are those of the members, so that putting them in their places changes nothing
    rw [Json.ofFields_of_inOrder (inOrder_of_keys horder (hkeys.trans hkeys'))]
    exact ⟨values, rfl, hkeys.trans hkeys', forall₂_comp.2 ⟨_, hes, hvalues⟩⟩
  · rintro ⟨values, rfl, hkeys, h⟩
    obtain ⟨es, hes, hvalues⟩ := forall₂_comp.1 h
    have hlength : (members.map Prod.fst).length = es.length := by
      rw [← hes.length_eq, List.length_map, List.length_map]
    have hfst := List.map_fst_zip hlength.le
    have hsnd := List.map_snd_zip hlength.ge
    have hfields : Expression.ofMembers members = .ok ((members.map Prod.fst).zip es) := by
      rw [Expression.ofMembers_eq_ok, hfst, hsnd]
      exact ⟨rfl, hes⟩
    have hall : c.evaluateFields ((members.map Prod.fst).zip es) = .ok values := by
      rw [evaluateFields_eq_ok, hfst, hsnd]
      exact ⟨hkeys, hvalues⟩
    refine ⟨.object ((members.map Prod.fst).zip es), ?_, ?_⟩
    · rw [Expression.ofJson, hfields]
      rfl
    · rw [evaluate, hall, ← Json.ofFields_of_inOrder (inOrder_of_keys horder hkeys)]
      rfl

/-- What is read and evaluated is substituted. -/
theorem evaluate_iff_substitutes {value value' : Json} (hordered : value.Ordered) :
    (∃ e, Expression.ofJson value = .ok e ∧ c.evaluate e = .ok value') ↔
      value.Substitutes c value' := by
  induction value using Json.induction_mem generalizing value' with
  | null =>
    constructor
    · rintro ⟨e, ⟨⟩, ⟨⟩⟩
      exact .null
    · rintro ⟨⟩
      exact ⟨_, rfl, rfl⟩
  | bool b =>
    constructor
    · rintro ⟨e, ⟨⟩, ⟨⟩⟩
      exact .bool
    · rintro ⟨⟩
      exact ⟨_, rfl, rfl⟩
  | number n =>
    constructor
    · rintro ⟨e, ⟨⟩, ⟨⟩⟩
      exact .number
    · rintro ⟨⟩
      exact ⟨_, rfl, rfl⟩
  | string s =>
    rw [Expression.ofJson, evaluate_ofText]
    constructor
    · rintro ⟨l, hsliced, hvalue⟩
      exact .string hsliced hvalue
    · rintro (_ | _ | _ | ⟨hsliced, hvalue⟩)
      exact ⟨_, hsliced, hvalue⟩
  | array items ih =>
    have hitems : ∀ item ∈ items, ∀ v', _ ↔ item.Substitutes c v' := fun item hitem v' =>
      ih item hitem fun part hpart => hordered part (.item hitem hpart)
    rw [evaluate_array]
    constructor
    · rintro ⟨values, rfl, hvalues⟩
      exact .array ((forall₂_congr_mem hitems).1 hvalues)
    · rintro (_ | _ | _ | _ | ⟨hvalues⟩)
      exact ⟨_, rfl, (forall₂_congr_mem hitems).2 hvalues⟩
  | object members ih =>
    have hmembers : ∀ v ∈ members.map Prod.snd, ∀ v',
        (∃ e, Expression.ofJson v = .ok e ∧ c.evaluate e = .ok v') ↔ v.Substitutes c v' := by
      intro v hv v'
      obtain ⟨m, hm, rfl⟩ := List.mem_map.1 hv
      exact ih m hm fun part hpart => hordered part (.member hm hpart)
    rw [evaluate_object (hordered _ .self)]
    constructor
    · rintro ⟨values, rfl, hkeys, hvalues⟩
      exact .object hkeys ((forall₂_congr_mem hmembers).1 hvalues)
    · rintro (_ | _ | _ | _ | _ | ⟨hkeys, hvalues⟩)
      exact ⟨_, rfl, hkeys, (forall₂_congr_mem hmembers).2 hvalues⟩

end Context

/-! ## Values without holes -/

namespace Json

/-- No string in the value has a hole. A key may have one. -/
def Plain (value : Json) : Prop := ∀ s, Within (.string s) value → HoleFree s.toList

theorem isText_of_holeFree {cs : List Char} {l : List Slice} (hsliced : Sliced cs l)
    (hfree : HoleFree cs) : ∀ slice ∈ l, slice.isText = true := by
  intro slice hslice
  cases slices_of_sliced hsliced
  have hin := infix_of_mem_slices hslice
  cases hsliced.proper slice hslice with
  | text => rfl
  | hole hhole => exact absurd hhole (hfree _ _ hin)

theorem Plain.item {items : List Json} {item : Json} (h : (array items).Plain) (hitem : item ∈ items) :
    item.Plain :=
  fun s hs => h s (.item hitem hs)

theorem Plain.member {members : Members} {value : Json} (h : (object members).Plain)
    (hvalue : value ∈ members.map Prod.snd) : value.Plain := by
  obtain ⟨m, hm, rfl⟩ := List.mem_map.1 hvalue
  exact fun s hs => h s (.member hm hs)

theorem Plain.substitutes {value : Json} (h : value.Plain) (c : Context) :
    value.Substitutes c value := by
  induction value using Json.induction_mem with
  | null => exact .null
  | bool => exact .bool
  | number => exact .number
  | string s =>
    have hsliced := sliced_slices s.toList
    have htext := isText_of_holeFree hsliced (h s .self)
    exact .string hsliced ((Context.interpolates_iff_of_isText hsliced htext).2 rfl)
  | array items ih =>
    exact .array (List.forall₂_same.2 fun item hitem => ih item hitem (h.item hitem))
  | object members ih =>
    refine .object rfl (List.forall₂_same.2 fun value hvalue => ?_)
    obtain ⟨m, hm, rfl⟩ := List.mem_map.1 hvalue
    exact ih m hm (h.member hvalue)

/-- An expression that is read from a value without holes reads no variable. -/
theorem Plain.traversals_eq_nil {value : Json} {e : Expression} (h : value.Plain)
    (he : Expression.ofJson value = .ok e) : e.traversals = [] := by
  induction value using Json.induction_mem generalizing e with
  | null =>
    cases he
    rfl
  | bool =>
    cases he
    rfl
  | number =>
    cases he
    rfl
  | string s =>
    have hsliced := sliced_slices s.toList
    have htext := isText_of_holeFree hsliced (h s .self)
    rw [Expression.ofJson, Expression.ofText_of_made (.literal htext)] at he
    cases he
    rfl
  | array items ih =>
    rw [Expression.ofJson] at he
    obtain ⟨es, hes, rfl⟩ := map_eq_ok.1 he
    rw [Expression.traversals, Expression.itemTraversals_eq_flatMap, List.flatMap_eq_nil_iff]
    intro e he
    obtain ⟨item, hitem, he⟩ := exists_of_mem_right (Expression.ofItems_eq_ok.1 hes) he
    exact ih item hitem (h.item hitem) he
  | object members ih =>
    rw [Expression.ofJson] at he
    obtain ⟨fields, hfields, rfl⟩ := map_eq_ok.1 he
    rw [Expression.traversals, Expression.fieldTraversals_eq_flatMap, List.flatMap_eq_nil_iff]
    intro field hfield
    have hes := (Expression.ofMembers_eq_ok.1 hfields).2
    obtain ⟨value, hvalue, he⟩ := exists_of_mem_right hes (List.mem_map_of_mem hfield)
    obtain ⟨m, hm, rfl⟩ := List.mem_map.1 hvalue
    exact ih m hm (h.member hvalue) he

end Json

namespace Context

/-- Reading a value and evaluating the expression puts values in the place of the holes in its strings
and does nothing else. So a value without holes is read as an expression that reads no variable, and
evaluates to itself. -/
theorem evaluate_substitutes {value : Json} (hordered : value.Ordered) :
    (∀ (c : Context) (value' : Json),
      (∃ e, Expression.ofJson value = .ok e ∧ c.evaluate e = .ok value') ↔
        value.Substitutes c value') ∧
    (value.Plain → ∃ e, Expression.ofJson value = .ok e ∧ e.traversals = [] ∧
      ∀ c : Context, c.evaluate e = .ok value) := by
  refine ⟨fun c value' => evaluate_iff_substitutes hordered, fun hplain => ?_⟩
  have hevaluates := fun c => (evaluate_iff_substitutes hordered).2 (hplain.substitutes c)
  obtain ⟨e, he, -⟩ := hevaluates {}
  refine ⟨e, he, hplain.traversals_eq_nil he, fun c => ?_⟩
  obtain ⟨e', he', hvalue⟩ := hevaluates c
  cases he.symm.trans he'
  exact hvalue

/-- One hole keeps the type of what it reads, and a hole in a key is none. -/
theorem evaluate_substitutes_of_nested :
    let value : Json := .object [("$\x7bn\x7d", .array [.string "$\x7b n \x7d", .null]),
      ("a", .string "$\x7bn\x7d of $\x7bs.0\x7d"), ("b", .string "$\x7b\x7b")]
    let c : Context := ⟨[("n", .ofNat 2), ("s", .array [.string "x"])]⟩
    let value' : Json := .object [("$\x7bn\x7d", .array [.ofNat 2, .null]),
      ("a", .string "2 of x"), ("b", .string "$\x7b\x7b")]
    value.Ordered ∧ value.Substitutes c value' := by
  intro value c value'
  have hread : (Document.object [("$\x7bn\x7d", .array [.string "$\x7b n \x7d", .null]),
      ("b", .string "$\x7b\x7b"), ("a", .string "$\x7bn\x7d of $\x7bs.0\x7d")]).value = value := by
    cbv
  have hordered : value.Ordered := hread ▸ Document.ordered_value _
  have hvalue : ∃ e, Expression.ofJson value = .ok e ∧ c.evaluate e = .ok value' :=
    ⟨_, by cbv, by cbv⟩
  exact ⟨hordered, ((evaluate_substitutes hordered).1 c value').1 hvalue⟩

end Context

end Gateway
