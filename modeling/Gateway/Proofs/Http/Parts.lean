import Gateway.Http.Message
import Mathlib

/-!
# Gateway.Proofs.Http.Parts — the parts of a url

A url is a base, a query and a fragment: the fragment is what stands behind the first number sign, and
the query what stands behind the first question mark before it. `Parts` says this by putting the url
together. Every url has such parts, and only one set of them, which are those that cutting it finds:
first at the number sign and then at the question mark. A base is a path, and in an absolute url the
path stands behind an origin; `Composed` tells them apart.

Several functions cut urls, each in its own way and some of them wrongly, and what is said of them must
not be said with their own cuts. So the parts of a url are a relation between texts, decidable for the
sake of closed examples, and whoever has a url and its parts may put others in the place of some of
them.

An absent query is told from an empty one, because a url keeps its question mark (`marked`). As to the
authority of an absolute url, it reaches as far as it can, which is what makes the path begin with a
slash; without this condition the same url would be composed in many ways.
-/

set_option autoImplicit false

namespace Gateway

/-- A part of a url with the mark in front of it; nothing if there is no such part. -/
def marked (mark : String) (part : Option String) : String := (part.map (mark ++ ·)).getD ""

/-- The base, query and fragment of a url. The base holds neither mark, and the query no number sign. -/
structure Parts (url base : String) (query fragment : Option String) : Prop where
  url_eq : url = base ++ marked "?" query ++ marked "#" fragment
  mark_notMem : '?' ∉ base.toList
  hash_notMem : '#' ∉ base.toList
  query_hash_notMem : ∀ q ∈ query, '#' ∉ q.toList

instance (url base : String) (query fragment : Option String) :
    Decidable (Parts url base query fragment) :=
  decidable_of_iff (url = base ++ marked "?" query ++ marked "#" fragment ∧ '?' ∉ base.toList ∧
      '#' ∉ base.toList ∧ ∀ q ∈ query, '#' ∉ q.toList)
    ⟨fun ⟨hurl, hmark, hhash, hquery⟩ => ⟨hurl, hmark, hhash, hquery⟩,
      fun ⟨hurl, hmark, hhash, hquery⟩ => ⟨hurl, hmark, hhash, hquery⟩⟩

theorem toList_marked (mark : String) (part : Option String) :
    (marked mark part).toList = (part.map fun s => mark.toList ++ s.toList).getD [] := by
  cases part with
  | none => rfl
  | some s => exact String.toList_append

/-! ## Cutting at a mark -/

section

variable {sep : Char} {mark : String}

theorem cutText_marked (hmark : mark.toList = [sep]) {before : String} (h : sep ∉ before.toList)
    (part : Option String) : cutText sep (before ++ marked mark part) = (before, part) := by
  unfold cutText
  rw [String.toList_append, toList_marked]
  cases part with
  | none =>
    rw [Option.map_none, Option.getD_none, List.append_nil, cutAt_of_notMem h]
    simp
  | some s =>
    rw [Option.map_some, Option.getD_some, hmark, List.singleton_append, cutAt_append h]
    simp

theorem eq_marked_of_cutText (hmark : mark.toList = [sep]) {s before : String} {part : Option String}
    (h : cutText sep s = (before, part)) : s = before ++ marked mark part ∧ sep ∉ before.toList := by
  unfold cutText at h
  obtain ⟨rfl, rfl⟩ := Prod.mk.inj h
  refine ⟨String.toList_inj.1 ?_, by simpa using notMem_cutAt sep s.toList⟩
  rw [String.toList_append, toList_marked, String.toList_ofList, hmark]
  cases hcut : (cutAt sep s.toList).2 with
  | none => simp [cutAt_eq_none hcut]
  | some rest => simp [cutAt_eq_some hcut]

end

namespace Parts

variable {url base : String} {query fragment : Option String}

theorem front_hash_notMem (h : Parts url base query fragment) :
    '#' ∉ (base ++ marked "?" query).toList := by
  rw [String.toList_append, List.mem_append, not_or]
  refine ⟨h.hash_notMem, ?_⟩
  cases query with
  | none => exact List.not_mem_nil
  | some q =>
    rw [toList_marked]
    simpa using h.query_hash_notMem q rfl

theorem cut_fragment (h : Parts url base query fragment) :
    cutText '#' url = (base ++ marked "?" query, fragment) := by
  rw [h.url_eq]
  exact cutText_marked rfl h.front_hash_notMem fragment

theorem cut_query (h : Parts url base query fragment) :
    cutText '?' (base ++ marked "?" query) = (base, query) :=
  cutText_marked rfl h.mark_notMem query

/-- The parts of a url are what cutting it finds. -/
theorem unique {base' : String} {query' fragment' : Option String}
    (h : Parts url base query fragment) (h' : Parts url base' query' fragment') :
    base = base' ∧ query = query' ∧ fragment = fragment' := by
  have hfragment := h.cut_fragment.symm.trans h'.cut_fragment
  have hquery := h.cut_query
  rw [(Prod.mk.inj hfragment).1, h'.cut_query] at hquery
  exact ⟨(Prod.mk.inj hquery).1.symm, (Prod.mk.inj hquery).2.symm, (Prod.mk.inj hfragment).2⟩

end Parts

/-- Every url has parts. -/
theorem exists_parts (url : String) : ∃ base query fragment, Parts url base query fragment := by
  rcases hfragment : cutText '#' url with ⟨front, fragment⟩
  rcases hquery : cutText '?' front with ⟨base, query⟩
  obtain ⟨hurl, hhash⟩ := eq_marked_of_cutText (show "#".toList = ['#'] from rfl) hfragment
  obtain ⟨hfront, hmark⟩ := eq_marked_of_cutText (show "?".toList = ['?'] from rfl) hquery
  rw [hfront, String.toList_append, List.mem_append, not_or] at hhash
  refine ⟨base, query, fragment, by rw [hurl, hfront], hmark, hhash.1, ?_⟩
  rintro q rfl hq
  refine hhash.2 ?_
  rw [toList_marked]
  exact List.mem_append_right _ hq

/-! ## Origins -/

/-- A scheme and an authority. -/
def IsOrigin (s : String) : Prop :=
  ∃ scheme authority, s = scheme ++ "://" ++ authority ∧
    (∀ c ∈ scheme.toList, c ∉ [':', '/', '?', '#']) ∧ ∀ c ∈ authority.toList, c ∉ ['/', '?', '#']

/-- The url is absolute: an origin stands in front of it. -/
def IsAbsolute (url : String) : Prop := ∃ origin rest, IsOrigin origin ∧ url = origin ++ rest

/-- The url is made of an origin and of parts behind it. The authority of an absolute url is as long as
it can be, so that its path is empty or begins with a slash; a relative url has no origin. -/
structure Composed (url origin path : String) (query fragment : Option String) : Prop where
  behind : ∃ rest, url = origin ++ rest ∧ Parts rest path query fragment
  front : (origin = "" ∧ ¬ IsAbsolute url) ∨
    (IsOrigin origin ∧ (path = "" ∨ beginsWith "/" path = true))

theorem IsOrigin.ne_empty {s : String} (h : IsOrigin s) : s ≠ "" := by
  rintro rfl
  obtain ⟨scheme, authority, hs, -, -⟩ := h
  have hlength := congrArg (·.toList.length) hs
  simp at hlength

/-- No scheme begins with a slash. -/
theorem not_isAbsolute_of_slash {url : String} (h : beginsWith "/" url = true) : ¬ IsAbsolute url := by
  rintro ⟨origin, rest, ⟨scheme, authority, rfl, hscheme, -⟩, rfl⟩
  obtain ⟨after, hafter⟩ := beginsWith_iff.1 h
  simp only [String.toList_append, List.append_assoc] at hafter
  cases hchars : scheme.toList with
  | nil =>
    rw [hchars] at hafter
    simp at hafter
  | cons c rest =>
    rw [hchars] at hafter
    obtain rfl : '/' = c := (List.cons.inj hafter).1
    exact hscheme '/' (by rw [hchars]; exact List.mem_cons_self) (by decide)

/-- An origin ends before a query or a fragment. -/
theorem IsOrigin.notMem {s : String} (h : IsOrigin s) : '?' ∉ s.toList ∧ '#' ∉ s.toList := by
  obtain ⟨scheme, authority, rfl, hscheme, hauthority⟩ := h
  have hbetween : ∀ c ∈ ['?', '#'], c ∉ "://".toList := by simp
  have hnot : ∀ c ∈ ['?', '#'], c ∉ (scheme ++ "://" ++ authority).toList := by
    intro c hc hmem
    rw [String.toList_append, String.toList_append, List.mem_append, List.mem_append] at hmem
    rcases hmem with (hmem | hmem) | hmem
    · exact hscheme c hmem (List.mem_cons_of_mem _ (List.mem_cons_of_mem _ hc))
    · exact hbetween c hc hmem
    · exact hauthority c hmem (List.mem_cons_of_mem _ hc)
  exact ⟨hnot '?' (by decide), hnot '#' (by decide)⟩

/-- The base of a url is its origin with its path. -/
theorem Composed.base {url origin path : String} {query fragment : Option String}
    (h : Composed url origin path query fragment) : Parts url (origin ++ path) query fragment := by
  obtain ⟨⟨rest, rfl, hurl, hmark, hhash, hquery⟩, horigin⟩ := h
  have hnot : '?' ∉ origin.toList ∧ '#' ∉ origin.toList := by
    rcases horigin with ⟨rfl, -⟩ | ⟨horigin, -⟩
    · exact ⟨List.not_mem_nil, List.not_mem_nil⟩
    · exact horigin.notMem
  refine ⟨?_, ?_, ?_, hquery⟩
  · rw [hurl, String.append_assoc, String.append_assoc, String.append_assoc]
  · rw [String.toList_append, List.mem_append, not_or]
    exact ⟨hnot.1, hmark⟩
  · rw [String.toList_append, List.mem_append, not_or]
    exact ⟨hnot.2, hhash⟩

end Gateway
