import Gateway.Proofs.Router.Spelling
import Mathlib.Data.List.TakeWhile

/-!
# Gateway.Proofs.Router.Pattern — which patterns are routes

A grammar of patterns, next to the reading of them: a pattern is read as a route just if it spells that
route. Nothing is corrected or made up when a pattern is read, and a pattern spells no more than one
route.

A colon or a star is always the sign of a wildcard, wherever it stands, and the name of a wildcard goes
on to the next slash. So `/a:b` has a wildcard in the middle of a segment, and `/:a:b` spells nothing,
since a name holds no sign. The names are not part of the route. Two patterns with wildcards of other
names are the same route, which is one of the things that there is no room for twice.
-/

set_option autoImplicit false

namespace Gateway

namespace Route

/-- The name of a wildcard. -/
def IsName (name : List Char) : Prop := name ≠ [] ∧ ∀ c ∈ name, c ≠ '/' ∧ c ≠ ':' ∧ c ≠ '*'

/-- A text that spells a route. The name of a wildcard goes up to the end of its segment, a wildcard for
the rest is the last thing in the text, and everything else stands for its bytes. -/
inductive Spells : List Char → Route → Prop
  | done : Spells [] []
  | plain {c : Char} {cs : List Char} {r : Route} (hc : c ≠ ':' ∧ c ≠ '*') (h : Spells cs r) :
    Spells (c :: cs) (ofBytes (String.utf8EncodeChar c) ++ r)
  | segment {name back : List Char} {r : Route} (hname : IsName name)
    (hback : back = [] ∨ ∃ more, back = '/' :: more) (h : Spells back r) :
    Spells (':' :: (name ++ back)) (.segment :: r)
  | rest {name : List Char} (hname : IsName name) : Spells ('*' :: name) [.rest]

variable {cs name back : List Char} {r : Route}

theorem Spells.closed (h : Spells cs r) : Closed r := by
  induction h with
  | done => trivial
  | plain _ _ ih => exact closed_ofBytes_append.2 ih
  | segment _ _ _ ih => exact ih
  | rest _ => rfl

theorem isNameChar_iff {c : Char} : isNameChar c = true ↔ c ≠ '/' ∧ c ≠ ':' ∧ c ≠ '*' := by
  simp [isNameChar, and_assoc]

theorem endsSegment_iff : endsSegment back = true ↔ back = [] ∨ ∃ more, back = '/' :: more := by
  cases back with
  | nil => simp [endsSegment]
  | cons c back => simp [endsSegment]

/-- A name that ends with its segment is taken as a whole. -/
theorem takeName (hname : IsName name) (hback : endsSegment back = true) :
    (name ++ back).takeWhile isNameChar = name ∧ (name ++ back).dropWhile isNameChar = back := by
  have hall : ∀ c ∈ name, isNameChar c = true := fun c hc => isNameChar_iff.2 (hname.2 c hc)
  rw [List.takeWhile_append_of_pos hall, List.dropWhile_append_of_pos hall]
  rcases endsSegment_iff.1 hback with rfl | ⟨more, rfl⟩
  · simp
  · have hslash : isNameChar '/' = false := rfl
    simp [hslash]

/-- What the reading asks of the text behind the sign of a wildcard. -/
theorem exists_name
    (h : ¬ ((cs.takeWhile isNameChar).isEmpty || !endsSegment (cs.dropWhile isNameChar)) = true) :
    ∃ name, cs = name ++ cs.dropWhile isNameChar ∧ IsName name ∧
      endsSegment (cs.dropWhile isNameChar) = true := by
  simp only [Bool.or_eq_true, Bool.not_eq_true', not_or, Bool.not_eq_false, List.isEmpty_iff] at h
  refine ⟨cs.takeWhile isNameChar, List.takeWhile_append_dropWhile.symm, ⟨h.1, fun c hc => ?_⟩, h.2⟩
  exact isNameChar_iff.1 (List.mem_takeWhile_imp hc)

/-- A pattern is read just as the grammar has it. -/
theorem readSteps?_eq_some_iff : readSteps? cs = some r ↔ Spells cs r := by
  constructor
  · intro h
    fun_induction readSteps? cs generalizing r with
    | case1 =>
      cases h
      exact .done
    | case2 => cases h
    | case3 cs after hname =>
      rename_i ih
      obtain ⟨steps, hsteps, rfl⟩ := Option.map_eq_some_iff.1 h
      obtain ⟨name, hcs, hname, hend⟩ := exists_name hname
      rw [hcs]
      exact .segment hname (endsSegment_iff.1 hend) (ih hsteps)
    | case4 c cs hc after hname hcolon =>
      rename_i hafter
      cases h
      obtain ⟨name, hcs, hname, -⟩ := exists_name hname
      obtain rfl : c = '*' := hc.resolve_left hcolon
      rw [hcs, show cs.dropWhile isNameChar = [] from List.isEmpty_iff.1 hafter, List.append_nil]
      exact .rest hname
    | case5 => cases h
    | case6 c cs hc ih =>
      obtain ⟨steps, hsteps, rfl⟩ := Option.map_eq_some_iff.1 h
      exact .plain (not_or.1 hc) (ih hsteps)
  · intro h
    induction h with
    | done => rw [readSteps?]
    | plain hc _ ih =>
      rw [readSteps?, if_neg (not_or.2 hc), ih]
      rfl
    | segment hname hback _ ih =>
      obtain ⟨htake, hdrop⟩ := takeName hname (endsSegment_iff.2 hback)
      rw [readSteps?]
      simp [htake, hdrop, endsSegment_iff.2 hback, hname.1, ih]
    | rest hname =>
      -- nothing may stand behind the name of the rest
      have hname' := takeName hname (show endsSegment [] = true from rfl)
      rw [List.append_nil] at hname'
      obtain ⟨htake, hdrop⟩ := hname'
      rw [readSteps?]
      simp [htake, hdrop, endsSegment, hname.1]

/-- A pattern spells the route, which has no more wildcards for segments than a route may have. -/
def WrittenAs (r : Route) (pattern : String) : Prop :=
  Spells pattern.toList r ∧ r.count .segment ≤ segmentLimit

theorem WrittenAs.closed {pattern : String} (h : r.WrittenAs pattern) : Closed r := h.1.closed

theorem read?_eq_some_iff {pattern : String} : read? pattern = some r ↔ r.WrittenAs pattern := by
  rw [read?, Option.filter_eq_some_iff, readSteps?_eq_some_iff, WrittenAs, List.count,
    List.countP_eq_length_filter, decide_eq_true_iff]
  rfl

/-- A pattern is one route at most. -/
theorem WrittenAs.unique {pattern : String} {q : Route} (hq : q.WrittenAs pattern)
    (hr : r.WrittenAs pattern) : q = r :=
  Option.some.inj ((read?_eq_some_iff.2 hq).symm.trans (read?_eq_some_iff.2 hr))

end Route

end Gateway
