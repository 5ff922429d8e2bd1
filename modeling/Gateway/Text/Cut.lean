/-!
# Gateway.Text.Cut — cutting at separators

Urls, forms and paths are cut at single characters: at the first one (`cutAt`), or at every one
(`splitAt`). Both lose nothing but the separators, as the lemmas beside them say.
-/

set_option autoImplicit false

namespace Gateway

section

variable {α : Type} [DecidableEq α]

/-- What stands before the first `sep`, and what stands after it if there is one. -/
def cutAt (sep : α) : List α → List α × Option (List α)
  | [] => ([], none)
  | c :: cs =>
    if c = sep then ([], some cs)
    else ((cutAt sep cs).map (c :: ·) id)

/-- The pieces between the separators: one more than there are separators. -/
def splitAt (sep : α) : List α → List (List α)
  | [] => [[]]
  | c :: cs =>
    if c = sep then [] :: splitAt sep cs
    else match splitAt sep cs with
      | [] => [[c]]
      | piece :: pieces => (c :: piece) :: pieces

/-- What stands after the first occurrence of `part`, if there is one. -/
def afterFirst (part : List α) : List α → Option (List α)
  | [] => if part.isEmpty then some [] else none
  | c :: cs => if part.isPrefixOf (c :: cs) then some ((c :: cs).drop part.length)
    else afterFirst part cs

theorem cutAt_eq_none {sep : α} {cs : List α} (h : (cutAt sep cs).2 = none) :
    (cutAt sep cs).1 = cs := by
  induction cs with
  | nil => rfl
  | cons c cs ih =>
    by_cases hc : c = sep
    · simp [cutAt, hc] at h
    · simp_all [cutAt]

theorem cutAt_eq_some {sep : α} {cs rest : List α} (h : (cutAt sep cs).2 = some rest) :
    (cutAt sep cs).1 ++ sep :: rest = cs := by
  induction cs with
  | nil => simp [cutAt] at h
  | cons c cs ih =>
    by_cases hc : c = sep
    · simp_all [cutAt]
    · simp_all [cutAt]

theorem notMem_cutAt (sep : α) (cs : List α) : sep ∉ (cutAt sep cs).1 := by
  induction cs with
  | nil => simp [cutAt]
  | cons c cs ih =>
    by_cases hc : c = sep
    · simp [cutAt, hc]
    · simp [cutAt, hc, ih, Ne.symm hc]

theorem cutAt_of_notMem {sep : α} {cs : List α} (h : sep ∉ cs) : cutAt sep cs = (cs, none) := by
  induction cs with
  | nil => rfl
  | cons c cs ih =>
    rw [List.mem_cons, not_or] at h
    rw [cutAt, if_neg (Ne.symm h.1), ih h.2]
    rfl

theorem cutAt_append {sep : α} {cs : List α} (h : sep ∉ cs) (rest : List α) :
    cutAt sep (cs ++ sep :: rest) = (cs, some rest) := by
  induction cs with
  | nil => simp [cutAt]
  | cons c cs ih =>
    rw [List.mem_cons, not_or] at h
    rw [List.cons_append, cutAt, if_neg (Ne.symm h.1), ih h.2]
    rfl

theorem splitAt_ne_nil (sep : α) (cs : List α) : splitAt sep cs ≠ [] := by
  cases cs with
  | nil => simp [splitAt]
  | cons c cs =>
    simp only [splitAt]
    split
    · simp
    · split <;> simp

theorem isSome_afterFirst_iff {part cs : List α} :
    (afterFirst part cs).isSome = true ↔ part <:+: cs := by
  induction cs with
  | nil => cases part <;> simp [afterFirst]
  | cons c cs ih =>
    rw [afterFirst, List.infix_cons_iff, ← List.isPrefixOf_iff_prefix]
    split
    · next hfront => simp [hfront]
    · next hfront => simp [hfront, ih]

theorem afterFirst_eq_some {part cs rest : List α} (h : afterFirst part cs = some rest) :
    ∃ front, front ++ part ++ rest = cs := by
  induction cs with
  | nil =>
    cases part with
    | nil => exact ⟨[], by simpa [afterFirst] using h⟩
    | cons p part => simp [afterFirst] at h
  | cons c cs ih =>
    rw [afterFirst] at h
    split at h
    · next hfront =>
      obtain ⟨after, hafter⟩ := List.isPrefixOf_iff_prefix.1 hfront
      rw [← hafter, List.drop_left] at h
      exact ⟨[], by rw [← hafter, Option.some.inj h, List.nil_append]⟩
    · obtain ⟨front, rfl⟩ := ih h
      exact ⟨c :: front, rfl⟩

/-- The first occurrence is the one in front of which its first item does not stand. -/
theorem afterFirst_append {p : α} {part front : List α} (h : p ∉ front) (rest : List α) :
    afterFirst (p :: part) (front ++ p :: part ++ rest) = some rest := by
  induction front with
  | nil =>
    rw [List.nil_append, List.cons_append, afterFirst, if_pos (by simp)]
    simp
  | cons c front ih =>
    rw [List.mem_cons, not_or] at h
    rw [List.cons_append, List.cons_append, afterFirst, if_neg (by simp [h.1]), ih h.2]

end

/-- The text before the first `sep`, and the text after it if there is one. -/
def cutText (sep : Char) (s : String) : String × Option String :=
  let (before, after) := cutAt sep s.toList
  (String.ofList before, after.map String.ofList)

/-- The texts between the separators. -/
def splitText (sep : Char) (s : String) : List String :=
  (splitAt sep s.toList).map String.ofList

/-- The text after the first occurrence of `part`, if there is one. -/
def textAfter (part s : String) : Option String :=
  (afterFirst part.toList s.toList).map String.ofList

/-- Whether `part` occurs in the text. -/
def hasText (part s : String) : Bool := (textAfter part s).isSome

def beginsWith (part s : String) : Bool := part.toList.isPrefixOf s.toList

theorem hasText_iff {part s : String} : hasText part s = true ↔ part.toList <:+: s.toList := by
  rw [hasText, textAfter, Option.isSome_map, isSome_afterFirst_iff]

theorem beginsWith_iff {part s : String} :
    beginsWith part s = true ↔ part.toList <+: s.toList := by
  rw [beginsWith, List.isPrefixOf_iff_prefix]

/-- The text with its ASCII capitals made small. -/
def lowerAscii (s : String) : String := String.ofList (s.toList.map Char.toLower)

/-- The text with its small ASCII letters made capitals. -/
def upperAscii (s : String) : String := String.ofList (s.toList.map Char.toUpper)

end Gateway
