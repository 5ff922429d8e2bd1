import Gateway.Proofs.Evaluation.Itemwise
import Gateway.Proofs.Evaluation.Lookup

/-!
# Gateway.Proofs.Evaluation.Unbound — variables without a value

An expression is evaluated in the order in which it lists its traversals, and gets stuck at the first
of them whose root is no variable of the context. Nothing else stops it: below a root that is one,
every path leads to a value. The variables of a request are always the same five, so that whether an
attribute can be evaluated does not depend on the request, nor on what producers have done.

`FailsAt` is the whole of it: a computation together with the list of traversals that it goes through,
and the statement that it fails on the first unbound one and with its name. It is closed under `bind`
with the lists appended, which is how the traversals of an expression are listed, too, so the recursion
over expressions has nothing to do but to follow the listing. If evaluation went through the fields of an
object in another order than the listing does, some error would name another variable, and this proof
would fail where it happens.

That there are no other failures is what makes the failure of an attribute a fault of the configuration.
A key that is missing, an index that is out of range, or a text where an object was expected give null,
and whether null will do is for the attribute to say.
-/

set_option autoImplicit false

namespace Gateway

/-- One of the variables that every expression of an endpoint sees has this name. -/
def Variable.IsNamed (name : String) : Prop :=
  name ∈ [request, backendResponses, backendRequests, backendResponse, backendRequest].map Variable.name

instance : DecidablePred Variable.IsNamed := fun name =>
  inferInstanceAs (Decidable (name ∈ List.map _ _))

theorem Json.Members.isSome_get?_iff {members : Json.Members} {name : String} :
    (members.get? name).isSome = true ↔ name ∈ members.map Prod.fst := by
  rw [get?, List.lookup_isSome_iff, List.mem_map]
  exact exists_congr fun member => and_congr_right fun _ => beq_iff_eq.trans eq_comm

namespace Context

open Json.Members (isSome_get?_iff)

/-- The context gives a variable of this name a value. -/
def Binds (c : Context) (name : String) : Prop := name ∈ c.bindings.map Prod.fst

instance (c : Context) : DecidablePred c.Binds := fun name =>
  inferInstanceAs (Decidable (name ∈ List.map _ _))

variable {c : Context}

theorem exists_lookup_iff {t : Traversal} : (∃ value, c.lookup t = .ok value) ↔ c.Binds t.root := by
  rw [lookup, Binds, ← isSome_get?_iff]
  cases Json.Members.get? c.bindings t.root with
  | none => simp
  | some value => simp

/-! ## Where a computation fails -/

/-- The first of some traversals whose root has no value. -/
def unbound? (c : Context) (ts : List Traversal) : Option Traversal :=
  ts.find? fun t => ¬ c.Binds t.root

/-- The computation fails at the first of the traversals whose root has no value, and on nothing
else. -/
def FailsAt (c : Context) (ts : List Traversal) {α : Type} (x : Except EvalError α) : Prop :=
  ∀ error, x = .error error ↔ ∃ t, c.unbound? ts = some t ∧ error = .unknownVariable t.root

namespace FailsAt

variable {α β : Type} {ts ts' : List Traversal} {x : Except EvalError α}

theorem ok (a : α) : c.FailsAt [] (.ok a : Except EvalError α) := by
  intro error
  exact ⟨nofun, fun ⟨_, hfirst, _⟩ => nomatch hfirst⟩

theorem lookup (t : Traversal) : c.FailsAt [t] (c.lookup t) := by
  intro error
  -- the root alone decides: keys that lead nowhere lead to null
  by_cases hroot : c.Binds t.root
  · obtain ⟨value, hvalue⟩ := exists_lookup_iff.2 hroot
    rw [hvalue]
    exact ⟨nofun, fun ⟨_, hfirst, _⟩ => by simp [unbound?, hroot] at hfirst⟩
  · have hnone : Json.Members.get? c.bindings t.root = none := by
      simpa using mt isSome_get?_iff.1 hroot
    have hlookup : c.lookup t = .error (.unknownVariable t.root) := by rw [Context.lookup, hnone]
    rw [hlookup]
    constructor
    · rintro ⟨⟩
      exact ⟨t, by simp [unbound?, hroot], rfl⟩
    · rintro ⟨s, hfirst, rfl⟩
      obtain rfl : t = s := by simpa [unbound?, hroot] using hfirst
      rfl

/-- A computation with a result has met no such traversal. -/
theorem unbound?_eq_none (h : c.FailsAt ts x) {a : α} (hx : x = .ok a) : c.unbound? ts = none := by
  cases hfirst : c.unbound? ts with
  | none => rfl
  | some t => cases hx.symm.trans ((h _).2 ⟨t, hfirst, rfl⟩)

theorem bind {k : α → Except EvalError β} (hx : c.FailsAt ts x)
    (hk : ∀ a, c.FailsAt ts' (k a)) : c.FailsAt (ts ++ ts') (x >>= k) := by
  intro error
  have happend : c.unbound? (ts ++ ts') = (c.unbound? ts).or (c.unbound? ts') := List.find?_append
  rw [happend]
  -- the first traversal without a root is in the first part, unless all of that are bound
  cases x with
  | ok a =>
    rw [hx.unbound?_eq_none rfl, Option.none_or]
    exact hk a error
  | error first =>
    obtain ⟨t, hfirst, rfl⟩ := (hx first).1 rfl
    rw [hfirst, Option.some_or]
    constructor
    · rintro ⟨⟩
      exact ⟨t, rfl, rfl⟩
    · rintro ⟨_, ⟨⟩, rfl⟩
      rfl

theorem bind_ok (hx : c.FailsAt ts x) (f : α → β) : c.FailsAt ts (x >>= fun a => .ok (f a)) := by
  simpa using hx.bind fun a => .ok (f a)

theorem map (hx : c.FailsAt ts x) (f : α → β) : c.FailsAt ts (x.map f) := by
  intro error
  rw [← hx error]
  cases x with
  | ok a => exact ⟨nofun, nofun⟩
  | error first => exact ⟨fun h => by cases h; rfl, fun h => by cases h; rfl⟩

theorem parts (parts : List TemplatePart) :
    c.FailsAt (Expression.partTraversals parts) (parts.mapM c.partText) := by
  induction parts with
  | nil => exact .ok []
  | cons part parts ih =>
    rw [List.mapM_cons]
    have hrest : ∀ text, c.FailsAt (Expression.partTraversals parts)
        (do return text :: (← parts.mapM c.partText)) := fun text => ih.bind_ok (text :: ·)
    cases part with
    | text s => exact hrest s
    | reference t => exact ((FailsAt.lookup t).map Json.text).bind hrest

end FailsAt

mutual

/-- An expression fails where the first of its traversals does. -/
theorem failsAt_evaluate (c : Context) : ∀ e : Expression, c.FailsAt e.traversals (c.evaluate e)
  | .literal value => .ok value
  | .reference t => .lookup t
  | .template parts => (FailsAt.parts parts).map _
  | .list items => (failsAt_evaluateItems c items).map _
  | .object fields => (failsAt_evaluateFields c fields).map _

theorem failsAt_evaluateItems (c : Context) : ∀ items : List Expression,
    c.FailsAt (Expression.itemTraversals items) (c.evaluateItems items)
  | [] => .ok []
  | item :: rest => (failsAt_evaluate c item).bind fun value =>
    (failsAt_evaluateItems c rest).bind_ok (value :: ·)

theorem failsAt_evaluateFields (c : Context) : ∀ fields : List (String × Expression),
    c.FailsAt (Expression.fieldTraversals fields) (c.evaluateFields fields)
  | [] => .ok []
  | (key, item) :: rest => (failsAt_evaluate c item).bind fun value =>
    (failsAt_evaluateFields c rest).bind_ok ((key, value) :: ·)

end

theorem exists_error_iff {e : Expression} :
    (∃ error, c.evaluate e = .error error) ↔ ∃ t ∈ e.traversals, ¬ c.Binds t.root := by
  have hsome : (c.unbound? e.traversals).isSome = true ↔ ∃ t ∈ e.traversals, ¬ c.Binds t.root := by
    simp [unbound?]
  rw [← hsome, Option.isSome_iff_exists]
  constructor
  · rintro ⟨error, herror⟩
    obtain ⟨t, hfirst, -⟩ := (c.failsAt_evaluate e error).1 herror
    exact ⟨t, hfirst⟩
  · rintro ⟨t, hfirst⟩
    exact ⟨_, (c.failsAt_evaluate e _).2 ⟨t, hfirst, rfl⟩⟩

theorem attribute?_eq_error {e : Expression} {subject : String} {fault : Fault} :
    c.attribute? subject (some e) = .error fault ↔
      ∃ t, c.unbound? e.traversals = some t ∧ fault = ⟨subject, .unknownVariable t.root⟩ := by
  rw [attribute?, evaluate?, blame]
  constructor
  · intro h
    cases hvalue : c.evaluate e with
    | ok value =>
      rw [hvalue] at h
      cases h
    | error error =>
      rw [hvalue] at h
      cases h
      obtain ⟨t, hfirst, rfl⟩ := (c.failsAt_evaluate e error).1 hvalue
      exact ⟨t, hfirst, rfl⟩
  · rintro ⟨t, hfirst, rfl⟩
    rw [(c.failsAt_evaluate e _).2 ⟨t, hfirst, rfl⟩]
    rfl

/-! ## The variables of a request -/

theorem binds_build_iff {client : ClientRequest} {results : ResultMap}
    {current : Option ProducerResult} {name : String} :
    (build client results current).Binds name ↔ Variable.IsNamed name := by
  rw [Binds, ← isSome_get?_iff, get?_build]
  exact isSome_get?_iff

theorem unbound?_build (client : ClientRequest) (results : ResultMap)
    (current : Option ProducerResult) (ts : List Traversal) :
    (build client results current).unbound? ts = ts.find? fun t => ¬ Variable.IsNamed t.root :=
  congrArg (List.find? · ts) (funext fun _ => decide_eq_decide.2 (not_congr binds_build_iff))

/-- Evaluating an expression fails if and only if the root of one of its traversals has no value, with
the first of these as the reason; a traversal whose root has one leads to a value, whatever keys follow.
So an attribute of an endpoint fails on a name that none of the five variables has, and on nothing
else: neither the request nor what producers have done has a part in it. -/
theorem evaluate_eq_error_iff (e : Expression) :
    (∀ (c : Context) (error : EvalError), c.evaluate e = .error error ↔
      ∃ t, (e.traversals.find? fun t => ¬ c.Binds t.root) = some t ∧
        error = .unknownVariable t.root) ∧
    (∀ c : Context, (∃ error, c.evaluate e = .error error) ↔
      ∃ t ∈ e.traversals, ¬ c.Binds t.root) ∧
    (∀ (c : Context) (t : Traversal), (∃ value, c.lookup t = .ok value) ↔ c.Binds t.root) ∧
    ∀ (client : ClientRequest) (results : ResultMap) (current : Option ProducerResult)
      (subject : String) (fault : Fault),
      (build client results current).attribute? subject (some e) = .error fault ↔
        ∃ t, (e.traversals.find? fun t => ¬ Variable.IsNamed t.root) = some t ∧
          fault = ⟨subject, .unknownVariable t.root⟩ := by
  refine ⟨fun c => c.failsAt_evaluate e, fun c => exists_error_iff, fun c t => exists_lookup_iff, ?_⟩
  intro client results current subject fault
  rw [← unbound?_build client results current]
  exact attribute?_eq_error

end Context

end Gateway
