import Gateway.Router.Tree
import Mathlib.Data.Set.Image

/-!
# Gateway.Proofs.Router.Room — which routes stand beside each other

A path must not have to choose between two wildcards of different kinds in one place, and no two
routes are the same. Besides, a wildcard for the rest follows a slash, unless some route begins with
the bytes in front of it. What this asks of a route is said twice: about the route as a whole, and step
by step with what is left of the routes that have the steps so far.

The first (`Fits`) can be read, and is what statements about patterns are made with. The second
(`HasRoom`) can be proved of a tree, because a tree goes along the route as well. `fits_iff` says that
they are the same, once and for all, so that neither has to serve for both.

Two routes collide if they are the same or if one has a wildcard for a segment where the other has one
for the rest. They may share bytes in front of that and they may end anywhere else. What stands behind
the wildcard for the rest does not count, for nothing stands there (`Closed`).
-/

set_option autoImplicit false

namespace Gateway

namespace Route

/-- Two routes that part at wildcards of different kinds. -/
def Parts (q r : Route) : Prop :=
  ∃ front q' r', q = front ++ .segment :: q' ∧ r = front ++ .rest :: r'

/-- Two routes are the same, or a path could not choose between them. -/
def Collides (q r : Route) : Prop := q = r ∨ Parts q r ∨ Parts r q

/-- A route that there is room for beside others. -/
structure Fits (earlier : Set Route) (r : Route) : Prop where
  clear : ∀ q ∈ earlier, ¬ Collides q r
  begun : ∀ front b, r = front ++ [.byte b, .rest] →
    b = RouteTree.slash ∨ ∃ q ∈ earlier, front ++ [.byte b] <+: q

/-- Nothing follows a wildcard for the rest. -/
def Closed : Route → Prop
  | [] => True
  | .rest :: r => r = []
  | _ :: r => Closed r

/-! ## Step by step -/

/-- What is left of the routes that begin with a step. -/
def after (Q : Set Route) (s : RouteStep) : Set Route := {r | s :: r ∈ Q}

/-- A wildcard for the rest may begin behind a step whatever the other routes are. -/
def opens : RouteStep → Bool
  | .byte b => b = RouteTree.slash
  | _ => true

/-- There is room for a route beside others. A wildcard for the rest may begin if that is `allowed`, or
if one of the others goes on from there. -/
def HasRoom (Q : Set Route) (allowed : Bool) : Route → Prop
  | [] => [] ∉ Q
  | .byte b :: r => HasRoom (after Q (.byte b)) (opens (.byte b)) r
  | .segment :: r => (∀ q, .rest :: q ∉ Q) ∧ HasRoom (after Q .segment) true r
  | .rest :: r => .rest :: r ∉ Q ∧ (∀ q, .segment :: q ∉ Q) ∧ (allowed = true ∨ Q.Nonempty)

variable {Q : Set Route} {q r : Route} {b : UInt8} {s : RouteStep}

@[simp] theorem mem_after : r ∈ after Q s ↔ s :: r ∈ Q := Iff.rfl

@[simp] theorem after_empty (s : RouteStep) : after ∅ s = ∅ := rfl

theorem exists_cons_prefix {front : Route} :
    (∃ q ∈ Q, s :: front <+: q) ↔ ∃ q ∈ after Q s, front <+: q := by
  constructor
  · rintro ⟨q, hq, back, rfl⟩
    exact ⟨front ++ back, hq, back, rfl⟩
  · rintro ⟨q, hq, hprefix⟩
    exact ⟨s :: q, hq, List.cons_prefix_cons.2 ⟨rfl, hprefix⟩⟩

/-! ### How routes part -/

theorem parts_cons_cons {s t : RouteStep} :
    Parts (s :: q) (t :: r) ↔ s = .segment ∧ t = .rest ∨ s = t ∧ Parts q r := by
  constructor
  · rintro ⟨front, q', r', hq, hr⟩
    cases front with
    | nil =>
      cases hq
      cases hr
      exact .inl ⟨rfl, rfl⟩
    | cons u front =>
      cases hq
      cases hr
      exact .inr ⟨rfl, front, q', r', rfl, rfl⟩
  · rintro (⟨rfl, rfl⟩ | ⟨rfl, front, q', r', rfl, rfl⟩)
    · exact ⟨[], q, r, rfl, rfl⟩
    · exact ⟨s :: front, q', r', rfl, rfl⟩

theorem not_parts_nil (q : Route) : ¬ Parts q [] := by
  rintro ⟨front, q', r', -, hr⟩
  cases front <;> cases hr

theorem not_nil_parts (r : Route) : ¬ Parts [] r := by
  rintro ⟨front, q', r', hq, -⟩
  cases front <;> cases hq

theorem collides_nil : Collides q [] ↔ q = [] := by
  simp [Collides, not_parts_nil, not_nil_parts]

theorem collides_cons_cons {s t : RouteStep} : Collides (s :: q) (t :: r) ↔
    s = .segment ∧ t = .rest ∨ s = .rest ∧ t = .segment ∨ s = t ∧ Collides q r := by
  simp only [Collides, parts_cons_cons, List.cons.injEq]
  grind

theorem not_collides_nil_cons : ¬ Collides [] (s :: r) := by
  simp [Collides, not_parts_nil, not_nil_parts]

/-! ### The two agree -/

theorem clear_nil : (∀ q ∈ Q, ¬ Collides q []) ↔ [] ∉ Q :=
  ⟨fun h hnil => h [] hnil (collides_nil.2 rfl),
    fun h _ hq hcollides => h (collides_nil.1 hcollides ▸ hq)⟩

theorem clear_cons {s : RouteStep} : (∀ q ∈ Q, ¬ Collides q (s :: r)) ↔
    (s = .segment → ∀ q, .rest :: q ∉ Q) ∧ (s = .rest → ∀ q, .segment :: q ∉ Q) ∧
      ∀ q ∈ after Q s, ¬ Collides q r := by
  constructor
  · intro h
    refine ⟨?_, ?_, fun q hq hcollides => ?_⟩
    · rintro rfl q hq
      exact h _ hq (collides_cons_cons.2 (.inr (.inl ⟨rfl, rfl⟩)))
    · rintro rfl q hq
      exact h _ hq (collides_cons_cons.2 (.inl ⟨rfl, rfl⟩))
    · exact h _ hq (collides_cons_cons.2 (.inr (.inr ⟨rfl, hcollides⟩)))
  · rintro ⟨hsegment, hrest, hafter⟩ q hq hcollides
    cases q with
    | nil => exact not_collides_nil_cons hcollides
    | cons t q =>
      rcases collides_cons_cons.1 hcollides with ⟨rfl, rfl⟩ | ⟨rfl, rfl⟩ | ⟨rfl, hrest'⟩
      · exact hrest rfl q hq
      · exact hsegment rfl q hq
      · exact hafter q hq hrest'

/-- What `HasRoom` asks of wildcards for the rest, about the route as a whole. -/
def Begins (Q : Set Route) (allowed : Bool) (r : Route) : Prop :=
  (r = [.rest] → allowed = true ∨ Q.Nonempty) ∧
    ∀ front b, r = front ++ [.byte b, .rest] →
      b = RouteTree.slash ∨ ∃ q ∈ Q, front ++ [.byte b] <+: q

theorem begins_cons {allowed : Bool} (hs : s ≠ .rest) :
    Begins Q allowed (s :: r) ↔ Begins (after Q s) (opens s) r := by
  constructor
  · rintro ⟨-, h⟩
    refine ⟨?_, fun front b hr => ?_⟩
    · rintro rfl
      cases s with
      -- the rest comes right behind this byte, which is a slash or is there already
      | byte b =>
        refine (h [] b rfl).imp decide_eq_true fun hq => ?_
        obtain ⟨q, hq, -⟩ := exists_cons_prefix.1 hq
        exact ⟨q, hq⟩
      | segment => exact .inl rfl
      | rest => exact absurd rfl hs
    · exact (h (s :: front) b (by rw [hr]; rfl)).imp_right exists_cons_prefix.1
  · rintro ⟨hrest, h⟩
    refine ⟨fun hr => absurd (List.cons.inj hr).1 hs, fun front b hr => ?_⟩
    cases front with
    | nil =>
      cases hr
      refine (hrest rfl).imp of_decide_eq_true ?_
      rintro ⟨q, hq⟩
      exact exists_cons_prefix.2 ⟨q, hq, List.nil_prefix⟩
    | cons t front =>
      cases hr
      exact (h front b rfl).imp_right exists_cons_prefix.2

theorem begins_nil {allowed : Bool} : Begins Q allowed [] := by
  refine ⟨fun h => (nomatch h), fun front b h => ?_⟩
  cases front <;> cases h

theorem begins_rest {allowed : Bool} :
    Begins Q allowed [.rest] ↔ (allowed = true ∨ Q.Nonempty) := by
  refine ⟨fun h => h.1 rfl, fun h => ⟨fun _ => h, fun front b hr => ?_⟩⟩
  rcases front with _ | ⟨s, _ | ⟨t, front⟩⟩ <;> cases hr

theorem hasRoom_iff {allowed : Bool} (hr : Closed r) :
    HasRoom Q allowed r ↔ (∀ q ∈ Q, ¬ Collides q r) ∧ Begins Q allowed r := by
  induction r generalizing Q allowed with
  | nil =>
    rw [clear_nil, and_iff_left begins_nil]
    rfl
  | cons s r ih =>
    rw [clear_cons]
    cases s with
    | byte b =>
      rw [begins_cons RouteStep.noConfusion, HasRoom, ih hr]
      simp
    | segment =>
      rw [begins_cons RouteStep.noConfusion, HasRoom, ih hr, ← and_assoc]
      simp [opens]
    | rest =>
      obtain rfl : r = [] := hr
      rw [begins_rest, HasRoom, clear_nil]
      simp [and_left_comm, and_assoc]

/-- The two ways to say that there is room for a route agree. -/
theorem fits_iff (hr : Closed r) : Fits Q r ↔ HasRoom Q true r := by
  rw [hasRoom_iff hr]
  exact ⟨fun h => ⟨h.clear, fun _ => .inl rfl, h.begun⟩, fun ⟨hclear, _, hbegun⟩ => ⟨hclear, hbegun⟩⟩

end Route

end Gateway
