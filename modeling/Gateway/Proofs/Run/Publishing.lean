import Gateway.Run.Activity
import Mathlib.Data.List.Nodup
import Mathlib.Data.List.Perm.Lattice
import Mathlib.Data.List.Perm.Subperm

/-!
# Gateway.Proofs.Run.Publishing — results by name

What a name holds stays for good once it holds anything, and whatever is published was handed in.
The second half is about results that are collected under announced names: crossing the collected
names off leaves exactly the names that are missing, so filling those in yields the announced names
again, whatever was collected and in whichever order.

Crossing off does not keep the order. The last name takes the place of the one that is crossed off, so
what is missing comes out in an order that depends on what came in, and so does the order of the results
that are filled in. It is said with permutations and never with lists. If something was collected twice,
or was not announced, crossing it off does nothing, and there are more results than names in the end;
the lemma asks that the collected names, and some more, are the announced ones in another order.
-/

set_option autoImplicit false

namespace Gateway

namespace ResultMap

theorem get?_publish_of_some {m : ResultMap} {r q : ProducerResult} {name : String}
    (h : m.get? name = some q) : (m.publish r).get? name = some q := by
  rw [get?_publish]
  split
  · next hr =>
    obtain ⟨ha, hn⟩ : m.accepts r = true ∧ r.name = name := by simpa using hr
    subst hn
    simp [accepts, h] at ha
  · exact h

theorem get?_publishAll_of_some {m : ResultMap} {rs : List ProducerResult} {q : ProducerResult}
    {name : String} (h : m.get? name = some q) : (m.publishAll rs).get? name = some q := by
  induction rs generalizing m with
  | nil => exact h
  | cons r rs ih => exact ih (get?_publish_of_some h)

@[simp] theorem names_publishAll (m : ResultMap) (rs : List ProducerResult) :
    (m.publishAll rs).names = m.names := by
  induction rs generalizing m with
  | nil => rfl
  | cons r rs ih => rw [publishAll, List.foldl_cons, ← publishAll, ih, names_publish]

theorem mem_published_of_get? {m : ResultMap} {name : String} {r : ProducerResult}
    (h : m.get? name = some r) : r ∈ m.published ∧ r.name = name :=
  ⟨List.mem_of_find?_eq_some h, by simpa using List.find?_some h⟩

theorem mem_published_publishAll {m : ResultMap} {rs : List ProducerResult} {r : ProducerResult}
    (h : r ∈ (m.publishAll rs).published) : r ∈ m.published ∨ r ∈ rs := by
  induction rs generalizing m with
  | nil => exact .inl h
  | cons q rs ih =>
    rcases ih h with h | h
    · rw [publish] at h
      split at h
      · rcases List.mem_append.1 h with h | h
        · exact .inl h
        · exact .inr (List.mem_cons.2 (.inl (List.mem_singleton.1 h)))
      · exact .inl h
    · exact .inr (List.mem_cons_of_mem q h)

/-- A known name holds a result as soon as one of that name is given. -/
theorem get?_publishAll_isSome {m : ResultMap} {rs : List ProducerResult} {r : ProducerResult}
    (hr : r ∈ rs) (hn : r.name ∈ m.names) : ((m.publishAll rs).get? r.name).isSome := by
  induction rs generalizing m with
  | nil => cases hr
  | cons q rs ih =>
    rcases List.mem_cons.1 hr with rfl | hr
    · have hsome : ((m.publish r).get? r.name).isSome := by
        cases hget : m.get? r.name with
        | some p => rw [get?_publish_of_some hget]; rfl
        | none => rw [get?_publish]; simp [accepts, contains, hget, hn]
      obtain ⟨p, hp⟩ := Option.isSome_iff_exists.1 hsome
      rw [publishAll, List.foldl_cons, ← publishAll, get?_publishAll_of_some hp]
      rfl
    · exact ih hr (by rw [names_publish]; exact hn)

/-- No two published results have the same name. -/
def Unique (m : ResultMap) : Prop := (m.published.map (·.name)).Nodup

theorem unique_publish {m : ResultMap} (h : m.Unique) (r : ProducerResult) :
    (m.publish r).Unique := by
  unfold publish
  split
  · next haccepts =>
    have hnone : (m.get? r.name).isNone = true := (Bool.and_eq_true_iff.1 haccepts).2
    show ((m.published ++ [r]).map (·.name)).Nodup
    rw [List.map_append, List.nodup_append]
    refine ⟨h, List.nodup_singleton _, fun name hname other hother heq => ?_⟩
    obtain ⟨q, hq, rfl⟩ := List.mem_map.1 hname
    have hqr : q.name = r.name := heq.trans (List.mem_singleton.1 hother)
    have hfind := List.find?_eq_none.1 (Option.isNone_iff_eq_none.1 hnone) q hq
    exact hfind (decide_eq_true hqr)
  · exact h

theorem unique_publishAll {m : ResultMap} (h : m.Unique) (rs : List ProducerResult) :
    (m.publishAll rs).Unique := by
  induction rs generalizing m with
  | nil => exact h
  | cons r rest ih => exact ih (unique_publish h r)

/-- Among results with different names the first of a name is the only one. -/
theorem find?_name_eq_some {l : List ProducerResult} (h : (l.map (·.name)).Nodup) {name : String}
    {r : ProducerResult} : l.find? (·.name = name) = some r ↔ r ∈ l ∧ r.name = name := by
  constructor
  · intro hfind
    exact ⟨List.mem_of_find?_eq_some hfind, by simpa using List.find?_some hfind⟩
  · rintro ⟨hr, rfl⟩
    have hsome : (l.find? (·.name = r.name)).isSome := by
      rw [List.find?_isSome]
      exact ⟨r, hr, decide_eq_true rfl⟩
    obtain ⟨q, hq⟩ := Option.isSome_iff_exists.1 hsome
    have hname : q.name = r.name := by simpa using List.find?_some hq
    rw [hq, List.inj_on_of_nodup_map h (List.mem_of_find?_eq_some hq) hr hname]

end ResultMap

theorem firstFailure?_eq_none {rs : List ProducerResult} (h : firstFailure? rs = none)
    {r : ProducerResult} (hr : r ∈ rs) : r.isOk = true := by
  have := List.findSome?_eq_none_iff.1 h r hr
  simpa [ProducerResult.isOk] using this

theorem firstFailure?_eq_some {rs : List ProducerResult} {f : Failure}
    (h : firstFailure? rs = some f) : ∃ r ∈ rs, r.failure = some f :=
  List.exists_of_findSome?_eq_some h

/-! ## Announced names and collected results -/

/-- Crossing a name off erases it, up to the order of what is left. -/
theorem crossOff_perm (names : List String) (name : String) :
    (crossOff names name).Perm (names.erase name) := by
  have herase := List.erase_eq_eraseIdx names name
  unfold crossOff
  cases h : names.idxOf? name with
  | none =>
    rw [h] at herase
    rw [herase]
  | some i =>
    rw [h] at herase
    obtain ⟨hlt, -, -⟩ := List.idxOf?_eq_some_iff.1 h
    obtain ⟨last, hlast⟩ : ∃ last, names.getLast? = some last := by
      rw [List.getLast?_eq_getElem?]
      exact ⟨_, List.getElem?_eq_getElem (by omega)⟩
    -- whether or not it is overwritten, the last name is still the last one
    have hset : (names.set i last).getLast? = some last := by
      rw [List.getLast?_eq_getElem?] at hlast ⊢
      rw [List.length_set, List.getElem?_set]
      split
      · rfl
      · exact hlast
    rw [List.getLastD_eq_getLast?, hlast, Option.getD_some, herase]
    refine (List.perm_cons last).1 ?_
    calc (last :: (names.set i last).dropLast).Perm ((names.set i last).dropLast ++ [last]) :=
          (List.perm_append_singleton _ _).symm
      _ = names.set i last := List.dropLast_append_getLast? _ hset
      _ |>.Perm (last :: names.eraseIdx i) := List.set_perm_cons_eraseIdx hlt last

theorem missing_perm (names : List String) (collected : List ProducerResult) :
    (missing names collected).Perm (names.diff (collected.map (·.name))) := by
  induction collected generalizing names with
  | nil => exact List.Perm.refl _
  | cons r rest ih =>
    rw [List.map_cons, List.diff_cons]
    exact (ih (crossOff names r.name)).trans ((crossOff_perm names r.name).diff_right _)

/-- Results are under announced names if these are the names of the results and of what else is to
come. Filling in the missing ones then yields the announced names. -/
theorem names_completedWith {names others : List String} {rs : List ProducerResult}
    (h : names.Perm (rs.map (·.name) ++ others)) :
    ((completedWith names rs).map (·.name)).Perm names := by
  have hfilled : (completedWith names rs).map (·.name)
      = rs.map (·.name) ++ missing names rs := by
    rw [completedWith, List.map_append, List.map_map]
    congr 1
    exact List.map_id _
  rw [hfilled]
  refine ((missing_perm names rs).append_left _).trans ?_
  refine List.subperm_append_diff_self_of_count_le fun name _ => ?_
  rw [h.count_eq, List.count_append]
  exact Nat.le_add_right _ _

/-- With nothing else to come nothing is filled in. -/
theorem completedWith_of_perm {names : List String} {rs : List ProducerResult}
    (h : names.Perm (rs.map (·.name))) : completedWith names rs = rs := by
  have hnone : names.Perm (rs.map (·.name) ++ []) := by rwa [List.append_nil]
  -- filled in, the results would be too many
  have hmissing : (missing names rs).length = 0 := by
    have hlen := (names_completedWith hnone).length_eq
    have := h.length_eq
    simp only [completedWith, List.map_append, List.length_append, List.length_map] at hlen this
    omega
  rw [completedWith, List.eq_nil_of_length_eq_zero hmissing, List.map_nil]
  exact List.append_nil rs

end Gateway
