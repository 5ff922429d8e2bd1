import Gateway.Evaluation.Variables
import Gateway.Proofs.Run.Publishing

/-!
# Gateway.Proofs.Evaluation.Lookup — reading results through variables

The variables that hold the published results are objects that are made from a sorted list. Since a
name is published once, what they hold under a name is what is published under it, and nothing else
of the list matters.

Two things are lost on the way to a variable, and both have to be, if answers are not to depend on the
order in which results came in. The list is sorted by name, which hides when something was published,
and of a result only the request and the response are shown, which hides its failure. `build_congr` says
that nothing else gets through: maps that hold the same parts under each name make the same variables,
to the last field.

It would be false of maps in which a name could be twice. Sorting leaves the two in the order in which
they came, and an object keeps the last. So `ResultMap.Unique` is a hypothesis throughout, one that
publishing keeps.
-/

set_option autoImplicit false

namespace Gateway

theorem nodup_eraseDups {α : Type} [BEq α] [LawfulBEq α] : ∀ l : List α, l.eraseDups.Nodup
  | [] => List.nodup_nil
  | a :: rest => by
    rw [List.eraseDups_cons, List.nodup_cons]
    constructor
    · simp [List.mem_eraseDups]
    · exact nodup_eraseDups (rest.filter fun b => !b == a)
termination_by l => l.length
decreasing_by
  have hle := List.length_filter_le (fun b => !b == a) rest
  simp only [List.length_cons]
  omega

namespace Json.Members

theorem get?_set_self (m : Members) (key : String) (value : Json) :
    (m.set key value).get? key = some value := by
  induction m with
  | nil => simp [set, get?]
  | cons member rest ih =>
    obtain ⟨k, v⟩ := member
    unfold set
    split
    · simp [get?]
    · split
      · simp [get?]
      · next hne =>
        rw [get?, List.lookup_cons, beq_eq_false_iff_ne.2 hne]
        exact ih

theorem get?_set_of_ne {m : Members} {key other : String} (value : Json) (h : other ≠ key) :
    (m.set key value).get? other = m.get? other := by
  have hne : (other == key) = false := beq_eq_false_iff_ne.2 h
  induction m with
  | nil => simp [set, get?, List.lookup_cons, hne]
  | cons member rest ih =>
    obtain ⟨k, v⟩ := member
    unfold set
    split
    · rw [get?, List.lookup_cons, hne]
      rfl
    · split
      · next heq =>
        subst heq
        rw [get?, get?, List.lookup_cons, List.lookup_cons, hne]
      · rw [get?, get?, List.lookup_cons, List.lookup_cons]
        cases other == k with
        | true => rfl
        | false => exact ih

/-- An object that is made from fields with different keys holds just these. -/
theorem get?_ofList {fields : List (String × Json)} (h : (fields.map Prod.fst).Nodup)
    (key : String) : (ofList fields).get? key = fields.lookup key := by
  -- a field that is set later wins, so what was set before only counts where the rest has nothing
  suffices hfold : ∀ m : Members,
      (fields.foldl (fun members field => members.set field.1 field.2) m).get? key
        = (fields.lookup key).or (m.get? key) by
    exact (hfold []).trans Option.or_none
  induction fields with
  | nil => exact fun _ => rfl
  | cons field rest ih =>
    obtain ⟨k, v⟩ := field
    obtain ⟨hnew, hnodup⟩ := List.nodup_cons.1 h
    intro m
    rw [List.foldl_cons, ih hnodup, List.lookup_cons]
    by_cases heq : key = k
    · subst heq
      have hnone : rest.lookup key = none := by
        rw [List.lookup_eq_none_iff]
        intro pair hpair
        exact bne_iff_ne.2 fun heq => hnew (List.mem_map.2 ⟨pair, hpair, heq.symm⟩)
      rw [hnone, get?_set_self, beq_self_eq_true]
      rfl
    · rw [get?_set_of_ne v heq, beq_eq_false_iff_ne.2 heq]

end Json.Members

namespace ResultMap

theorem completed_perm (m : ResultMap) : m.completed.Perm m.published := List.mergeSort_perm _ _

theorem Unique.nodup_completed {m : ResultMap} (h : m.Unique) :
    (m.completed.map (·.name)).Nodup :=
  (m.completed_perm.map _).nodup_iff.2 h

theorem find?_completed {m : ResultMap} (h : m.Unique) (name : String) :
    m.completed.find? (·.name = name) = m.get? name := by
  refine Option.ext fun r => ?_
  rw [get?, find?_name_eq_some h.nodup_completed, find?_name_eq_some h, m.completed_perm.mem_iff]

end ResultMap

/-- Results with different names, as fields of an object. -/
def resultFields {α : Type} (part : ProducerResult → Option α) (value : α → Json)
    (l : List ProducerResult) : List (String × Json) :=
  l.filterMap fun r => (part r).map fun a => (r.name, value a)

section

variable {α : Type} (part : ProducerResult → Option α) (value : α → Json)

theorem nodup_resultFields {l : List ProducerResult} (h : (l.map (·.name)).Nodup) :
    ((resultFields part value l).map Prod.fst).Nodup := by
  refine h.sublist ?_
  clear h
  induction l with
  | nil => exact List.Sublist.refl _
  | cons r rest ih =>
    rw [resultFields, List.filterMap_cons]
    cases part r with
    | none => exact ih.cons _
    | some a => exact ih.cons_cons _

theorem lookup_resultFields {l : List ProducerResult} (h : (l.map (·.name)).Nodup)
    (name : String) : (resultFields part value l).lookup name
      = ((l.find? (·.name = name)).bind part).map value := by
  induction l with
  | nil => rfl
  | cons r rest ih =>
    obtain ⟨hnew, hnodup⟩ := List.nodup_cons.1 h
    rw [resultFields, List.filterMap_cons, List.find?_cons]
    by_cases heq : r.name = name
    · have hnone : rest.find? (·.name = name) = none := by
        rw [List.find?_eq_none]
        intro q hq hname
        exact hnew (List.mem_map.2 ⟨q, hq, (of_decide_eq_true hname).trans heq.symm⟩)
      rw [decide_eq_true heq, Option.bind_some]
      cases part r with
      | none =>
        have hrest := ih hnodup
        rw [hnone] at hrest
        exact hrest
      | some a =>
        rw [Option.map_some, ← heq, List.lookup_cons, beq_self_eq_true, Option.map_some]
    · rw [decide_eq_false heq]
      cases part r with
      | none => exact ih hnodup
      | some a =>
        rw [Option.map_some, List.lookup_cons, beq_eq_false_iff_ne.2 (Ne.symm heq)]
        exact ih hnodup

/-- What the published results hold of a name under a part. -/
theorem child?_publishedValues {results : ResultMap} (h : results.Unique) (name : String) :
    Context.child? name (publishedValues part value results)
      = ((results.get? name).bind part).map value := by
  rw [← ResultMap.find?_completed h]
  exact (Json.Members.get?_ofList (nodup_resultFields part value h.nodup_completed) name).trans
    (lookup_resultFields part value h.nodup_completed name)

theorem mem_resultFields {l : List ProducerResult} {name : String} {field : Json} :
    (name, field) ∈ resultFields part value l ↔
      ∃ r ∈ l, r.name = name ∧ (part r).map value = some field := by
  unfold resultFields
  rw [List.mem_filterMap]
  refine exists_congr fun r => and_congr_right fun _ => ?_
  cases part r with
  | none => simp
  | some a => simp

theorem pairwise_completed (m : ResultMap) : m.completed.Pairwise fun r s => r.name ≤ s.name := by
  have hsorted : m.completed.Pairwise fun r s => decide (r.name ≤ s.name) = true := by
    apply List.pairwise_mergeSort
    · intro r s t hrs hst
      exact decide_eq_true (String.le_trans (of_decide_eq_true hrs) (of_decide_eq_true hst))
    · intro r s
      have htotal := String.le_total r.name s.name
      simpa using htotal
  exact hsorted.imp of_decide_eq_true

/-- The fields depend on what the names hold, and not on the order in which that was published. -/
theorem publishedValues_congr {m m' : ResultMap} (hm : m.Unique) (hm' : m'.Unique)
    (h : ∀ name, (m.get? name).bind part = (m'.get? name).bind part) :
    publishedValues part value m = publishedValues part value m' := by
  have hsorted : ∀ m : ResultMap,
      (resultFields part value m.completed).Pairwise fun x y => x.1 ≤ y.1 := by
    intro m
    refine (pairwise_completed m).filterMap _ fun r s hrs x hx y hy => ?_
    obtain ⟨_, -, rfl⟩ := Option.map_eq_some_iff.1 hx
    obtain ⟨_, -, rfl⟩ := Option.map_eq_some_iff.1 hy
    exact hrs
  have hmem : ∀ {m : ResultMap}, m.Unique → ∀ name field,
      (name, field) ∈ resultFields part value m.completed ↔
        ((m.get? name).bind part).map value = some field := by
    intro m hm name field
    rw [mem_resultFields, ← ResultMap.find?_completed hm]
    constructor
    · rintro ⟨r, hr, hname, hfield⟩
      rw [(ResultMap.find?_name_eq_some hm.nodup_completed).2 ⟨hr, hname⟩]
      exact hfield
    · intro hfield
      cases hfind : m.completed.find? (·.name = name) with
      | none => rw [hfind] at hfield; cases hfield
      | some r =>
        rw [hfind] at hfield
        obtain ⟨hr, hname⟩ := (ResultMap.find?_name_eq_some hm.nodup_completed).1 hfind
        exact ⟨r, hr, hname, hfield⟩
  -- the same fields, each of them once, in the order of their names: there is one such list
  have hperm : (resultFields part value m.completed).Perm (resultFields part value m'.completed) := by
    refine (List.perm_ext_iff_of_nodup ?_ ?_).2 fun ⟨name, field⟩ => ?_
    · exact (nodup_resultFields part value hm.nodup_completed).of_map _
    · exact (nodup_resultFields part value hm'.nodup_completed).of_map _
    · rw [hmem hm, hmem hm', h]
  have heq : resultFields part value m.completed = resultFields part value m'.completed := by
    refine hperm.eq_of_pairwise ?_ (hsorted m) (hsorted m')
    rintro ⟨name, field⟩ ⟨name', field'⟩ hin hin' hle hle'
    cases String.le_antisymm hle hle'
    have hfield := (hmem hm name field).1 hin
    rw [h, (hmem hm' name field').1 hin'] at hfield
    cases hfield
    rfl
  exact congrArg Json.ofFields heq

end

/-- The request and the response that a result holds. -/
def ProducerResult.parts (r : ProducerResult) : Option BackendRequest × Option Response :=
  (r.request, r.response)

/-- Maps that hold the same requests and responses make the same variables. -/
theorem Context.build_congr {client : ClientRequest} {m m' : ResultMap}
    {current current' : Option ProducerResult} (hm : m.Unique) (hm' : m'.Unique)
    (h : ∀ name, (m.get? name).map (·.parts) = (m'.get? name).map (·.parts))
    (hcurrent : current.map (·.parts) = current'.map (·.parts)) :
    build client m current = build client m' current' := by
  have hbind : ∀ {α : Type} (part : Option BackendRequest × Option Response → Option α)
      {o o' : Option ProducerResult}, o.map (·.parts) = o'.map (·.parts) →
        (o.bind fun r => part r.parts) = o'.bind fun r => part r.parts := by
    intro α part o o' ho
    have hbound := congrArg (Option.bind · part) ho
    rw [Option.bind_map, Option.bind_map] at hbound
    exact hbound
  have hunnamed : (current.orElse fun _ => m.get? defaultProducer).map (·.parts) =
      (current'.orElse fun _ => m'.get? defaultProducer).map (·.parts) := by
    cases current with
    | none =>
      cases current' with
      | none => exact h defaultProducer
      | some r' => cases hcurrent
    | some r =>
      cases current' with
      | none => cases hcurrent
      | some r' => exact hcurrent
  have hrequests := fun name => hbind Prod.fst (h name)
  have hresponses := fun name => hbind Prod.snd (h name)
  have hrequest := hbind Prod.fst hunnamed
  have hresponse := hbind Prod.snd hunnamed
  simp only [ProducerResult.parts] at hrequests hresponses hrequest hresponse
  unfold build
  rw [publishedValues_congr _ _ hm hm' hrequests, publishedValues_congr _ _ hm hm' hresponses]
  simp only [hrequest, hresponse]

/-! ## The variables of a request -/

/-- The variables and their values. -/
def Context.fields (client : ClientRequest) (results : ResultMap) (current : Option ProducerResult) :
    List (String × Json) :=
  let unnamed {α : Type} (part : ProducerResult → Option α) (value : α → Json) : Json :=
    (((current.orElse fun _ => results.get? defaultProducer).bind part).map value).getD .null
  [(Variable.request.name, client.value),
    (Variable.backendResponses.name, publishedValues (·.response) Response.value results),
    (Variable.backendRequests.name, publishedValues (·.request) BackendRequest.value results),
    (Variable.backendResponse.name, unnamed (·.response) Response.value),
    (Variable.backendRequest.name, unnamed (·.request) BackendRequest.value)]

theorem Context.get?_build (client : ClientRequest) (results : ResultMap)
    (current : Option ProducerResult) (name : String) :
    Json.Members.get? (Context.build client results current).bindings name =
      (Context.fields client results current).lookup name := by
  have hnodup : ((Context.fields client results current).map Prod.fst).Nodup := by
    simp [Context.fields, Variable.name]
  exact Json.Members.get?_ofList hnodup name

theorem Context.lookup_build (client : ClientRequest) (results : ResultMap)
    (current : Option ProducerResult) (t : Traversal) :
    (Context.build client results current).lookup t =
      match (Context.fields client results current).lookup t.root with
      | some value => .ok (follow value t.keys)
      | none => .error (.unknownVariable t.root) := by
  cases hvalue : (Context.fields client results current).lookup t.root with
  | none => simp only [Context.lookup, Context.get?_build, hvalue]
  | some value => simp only [Context.lookup, Context.get?_build, hvalue]

/-- A traversal of a producer's response or request reads that of its published result. -/
theorem Context.lookup_producer {results : ResultMap} (h : results.Unique)
    (client : ClientRequest) (current : Option ProducerResult) (name : String)
    (keys : List String) :
    (Context.build client results current).lookup
        ⟨Variable.backendResponses.name, name :: keys⟩ =
      .ok (match ((results.get? name).bind (·.response)).map Response.value with
        | some value => follow value keys
        | none => .null) ∧
    (Context.build client results current).lookup
        ⟨Variable.backendRequests.name, name :: keys⟩ =
      .ok (match ((results.get? name).bind (·.request)).map BackendRequest.value with
        | some value => follow value keys
        | none => .null) := by
  rw [Context.lookup_build, Context.lookup_build, ← child?_publishedValues _ _ h,
    ← child?_publishedValues _ _ h]
  exact ⟨rfl, rfl⟩

end Gateway
