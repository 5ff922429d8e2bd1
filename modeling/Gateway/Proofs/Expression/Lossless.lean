import Gateway.Expression.Basic
import Gateway.Proofs.Evaluation.Itemwise
import Gateway.Proofs.Expression.Slicing
import Gateway.Proofs.Form.RoundTrip

/-!
# Gateway.Proofs.Expression.Lossless — texts that are read as expressions

A text is read slice by slice: plain text stays as it is, and a hole becomes the traversal that its path
is. So the whole text can be found again in what it is read as, but for the white space in its holes,
and reading that again changes nothing. The only texts that are refused are those with a hole whose
path, or a segment of it, is empty.

`Made` says what the slices of a text make, and it is an iff with reading (`ofText_eq_ok`), so that there
are three kinds of expressions of texts and one text has one of them. A text with a single slice that is
a hole is a reference, and its value keeps its type; the same hole with a blank beside it is part of a
template, and its value becomes text. Nothing but the number of slices decides this, which is why cutting
must find no empty ones.

Writing is defined here and is not part of the program. It serves as a witness: that reading loses
nothing is said by giving a text that is read as the same expression. The white space in holes is lost,
and no statement about the text itself could be true; the text that is written has none (`Slice.bare`).
-/

set_option autoImplicit false

namespace Gateway

/-! ## Paths -/

/-- A segment of a path is not empty and holds no dot. -/
def IsSegment (s : String) : Prop := s ≠ "" ∧ '.' ∉ s.toList

theorem intercalate_splitAt {α : Type} [DecidableEq α] (sep : α) (cs : List α) :
    [sep].intercalate (splitAt sep cs) = cs := by
  induction cs with
  | nil => rfl
  | cons c cs ih =>
    rw [splitAt]
    cases hpieces : splitAt sep cs with
    | nil => exact absurd hpieces (splitAt_ne_nil sep cs)
    | cons piece pieces =>
      rw [hpieces] at ih
      split
      · next heq => rw [List.intercalate_cons_cons, ih, heq]; rfl
      · cases pieces with
        | nil =>
          rw [List.intercalate_singleton] at ih ⊢
          rw [ih]
        | cons next pieces =>
          rw [List.intercalate_cons_cons] at ih ⊢
          rw [List.cons_append, List.cons_append, ih]

theorem Traversal.toList_text (t : Traversal) :
    t.text.toList = ['.'].intercalate (t.segments.map String.toList) :=
  String.toList_intercalate

theorem mem_splitText {sep : Char} {path s : String} (h : s ∈ splitText sep path) :
    Between sep s.toList path.toList := by
  obtain ⟨piece, hpiece, rfl⟩ := List.mem_map.1 h
  rw [String.toList_ofList]
  exact mem_splitAt_iff.1 hpiece

theorem splitText_text {t : Traversal} (h : ∀ s ∈ t.segments, IsSegment s) :
    splitText '.' t.text = t.segments := by
  have hdots : ∀ piece ∈ t.segments.map String.toList, '.' ∉ piece := by
    intro piece hpiece
    obtain ⟨s, hs, rfl⟩ := List.mem_map.1 hpiece
    exact (h s hs).2
  rw [splitText, t.toList_text, splitAt_intercalate (by simp [Traversal.segments]) hdots, List.map_map]
  simp

namespace Traversal

/-- A path is read as its segments. -/
theorem read?_eq_some {path : String} {t : Traversal} :
    read? path = some t ↔ t.text = path ∧ ∀ s ∈ t.segments, IsSegment s := by
  constructor
  · intro h
    unfold read? at h
    split at h
    · next root keys hpieces =>
      split at h
      · cases h
      · next hempty =>
        cases h
        constructor
        · rw [← String.toList_inj, toList_text, segments, ← hpieces, splitText, List.map_map]
          simp [intercalate_splitAt]
        · intro s hs
          have hmem : s ∈ splitText '.' path := by
            rw [hpieces]
            exact hs
          refine ⟨?_, (mem_splitText hmem).1⟩
          rintro rfl
          exact hempty (List.any_eq_true.2 ⟨"", hs, rfl⟩)
    · cases h
  -- no segment holds a dot, so the text is split into the segments it was joined of
  · rintro ⟨rfl, h⟩
    have hpieces := splitText_text h
    have hempty : ¬ t.segments.any (·.isEmpty) = true := by
      simp only [List.any_eq_true, String.isEmpty_iff, not_exists, not_and]
      exact fun s hs => (h s hs).1
    unfold read?
    rw [hpieces]
    exact if_neg hempty

/-- A path is refused if one of its segments is empty. -/
theorem read?_eq_none {path : String} : read? path = none ↔ Between '.' [] path.toList := by
  have hempty : (splitText '.' path).any (·.isEmpty) = true ↔ Between '.' [] path.toList := by
    rw [← mem_splitAt_iff, splitText, List.any_map, List.any_eq_true]
    constructor
    · rintro ⟨piece, hpiece, hnil⟩
      simp only [Function.comp_apply, String.isEmpty_iff, String.ofList_eq_empty_iff] at hnil
      exact hnil ▸ hpiece
    · exact fun hmem => ⟨[], hmem, rfl⟩
  rw [← hempty]
  unfold read?
  split
  · next root keys hpieces =>
    rw [hpieces]
    split
    · next h => exact ⟨fun _ => h, fun _ => rfl⟩
    · next h => exact ⟨fun hnone => absurd hnone (Option.some_ne_none _), fun hany => absurd hany h⟩
  · next hpieces => exact absurd (List.map_eq_nil_iff.1 hpieces) (splitAt_ne_nil _ _)

end Traversal

/-! ## Parts -/

/-- What a slice is read as: plain text as itself, and a hole as the traversal that its path is. -/
inductive Slice.Reads : Slice → TemplatePart → Prop
  | text {s : String} : Reads (.text s.toList) (.text s)
  | hole {written : List Char} {t : Traversal} (hsegments : ∀ s ∈ t.segments, IsSegment s) :
      Reads (.hole written t.text.toList) (.reference t)

/-- The path of a hole is empty, or one of its segments is. -/
def FaultyPath (path : List Char) : Prop := path = [] ∨ Between '.' [] path

namespace Slice

variable {written path : List Char}

theorem part_of_read? {t : Traversal} (h : Traversal.read? (String.ofList path) = some t) :
    (Slice.hole written path).part = .ok (.reference t) := by
  cases path with
  | nil => cases h
  | cons c path =>
    simp only [part, h]
    rfl

theorem part_of_faulty (h : FaultyPath path) : ∃ fault, (Slice.hole written path).part = .error fault := by
  rcases h with rfl | h
  · exact ⟨.emptyHole, rfl⟩
  · have hread : Traversal.read? (String.ofList path) = none :=
      Traversal.read?_eq_none.2 (by rw [String.toList_ofList]; exact h)
    simp only [part, hread]
    split
    · exact ⟨_, rfl⟩
    · exact ⟨_, rfl⟩

/-- A hole is read as a traversal if its path is one, and otherwise the path is faulty. -/
theorem faulty_or_reads (written path : List Char) :
    FaultyPath path ∨ ∃ t : Traversal, t.text.toList = path ∧ (∀ s ∈ t.segments, IsSegment s) ∧
      (Slice.hole written path).part = .ok (.reference t) := by
  cases hread : Traversal.read? (String.ofList path) with
  | none =>
    have hempty := Traversal.read?_eq_none.1 hread
    rw [String.toList_ofList] at hempty
    exact .inl (.inr hempty)
  | some t =>
    obtain ⟨htext, hsegments⟩ := Traversal.read?_eq_some.1 hread
    exact .inr ⟨t, by rw [htext, String.toList_ofList], hsegments, part_of_read? hread⟩

theorem reads_iff {slice : Slice} {part : TemplatePart} :
    slice.Reads part ↔ slice.part = .ok part := by
  constructor
  · intro h
    cases h with
    | text => rw [Slice.part, String.ofList_toList]
    | hole hsegments =>
      apply part_of_read?
      rw [String.ofList_toList]
      exact Traversal.read?_eq_some.2 ⟨rfl, hsegments⟩
  · intro h
    cases slice with
    | text written =>
      cases h
      have hreads := Reads.text (s := String.ofList written)
      rw [String.toList_ofList] at hreads
      exact hreads
    | hole written path =>
      rcases faulty_or_reads written path with hfaulty | ⟨t, rfl, hsegments, hpart⟩
      · obtain ⟨fault, hfault⟩ : ∃ fault, (hole written path).part = .error fault :=
          part_of_faulty hfaulty
        cases h.symm.trans hfault
      · cases h.symm.trans hpart
        exact .hole hsegments

theorem part_eq_error_iff {slice : Slice} :
    (∃ fault, slice.part = .error fault) ↔
      ∃ written path, slice = .hole written path ∧ FaultyPath path := by
  constructor
  · rintro ⟨fault, hfault⟩
    cases slice with
    | text written => cases hfault
    | hole written path =>
      rcases faulty_or_reads written path with hfaulty | ⟨t, -, -, hpart⟩
      · exact ⟨written, path, rfl, hfaulty⟩
      · cases hfault.symm.trans hpart
  · rintro ⟨written, path, rfl, hfaulty⟩
    exact part_of_faulty hfaulty

end Slice

/-! ## Expressions -/

theorem Slice.Reads.eq_singleton {part : TemplatePart} {l : List Slice}
    (h : List.Forall₂ Slice.Reads l [part]) : ∃ slice, l = [slice] ∧ slice.Reads part := by
  obtain ⟨slice, rest, hslice, hrest, rfl⟩ := List.forall₂_cons_right_iff.1 h
  rw [List.forall₂_nil_right_iff] at hrest
  exact ⟨slice, by rw [hrest], hslice⟩

theorem templateParts_eq_ok {s : String} {parts : List TemplatePart} :
    templateParts s = .ok parts ↔ List.Forall₂ Slice.Reads (slices s.toList) parts := by
  rw [templateParts, mapM_eq_ok]
  exact ⟨fun h => h.imp fun _ _ => Slice.reads_iff.2, fun h => h.imp fun _ _ => Slice.reads_iff.1⟩

/-- A text is refused if one of its holes has a faulty path. -/
theorem templateParts_eq_error {s : String} :
    (∃ fault, templateParts s = .error fault) ↔
      ∃ written path, written <:+: s.toList ∧ IsHole written path ∧ FaultyPath path := by
  rw [templateParts, mapM_eq_error]
  simp only [Slice.part_eq_error_iff]
  constructor
  · rintro ⟨slice, hmem, written, path, rfl, hfaulty⟩
    cases (sliced_slices s.toList).proper _ hmem with
    | hole hhole => exact ⟨written, path, infix_of_mem_slices hmem, hhole, hfaulty⟩
  · rintro ⟨written, path, hin, hhole, hfaulty⟩
    exact ⟨_, hole_mem_slices hin hhole, written, path, rfl, hfaulty⟩

/-! ## Writing -/

/-- A part as it is written: a reference as a hole without white space. -/
def TemplatePart.written : TemplatePart → List Char
  | .text s => s.toList
  | .reference t => '$' :: '{' :: (t.text.toList ++ ['}'])

/-- What an expression is written as, if it is one that a text can hold. -/
def Expression.written? : Expression → Option String
  | .literal (.string s) => some s
  | .reference t => some (String.ofList (TemplatePart.reference t).written)
  | .template parts => some (String.ofList (parts.flatMap TemplatePart.written))
  | _ => none

/-- The slice with no white space in its hole. -/
def Slice.bare : Slice → Slice
  | .text written => .text written
  | .hole _ path => .hole ('$' :: '{' :: (path ++ ['}'])) path

theorem IsHole.bare {written path : List Char} (h : IsHole written path) :
    IsHole ('$' :: '{' :: (path ++ ['}'])) path := by
  obtain ⟨-, -, -, -, -, hpath⟩ := h
  exact ⟨[], [], by simp, nofun, nofun, hpath⟩

theorem Slice.Reads.bare {slice : Slice} {part : TemplatePart} (h : slice.Reads part) :
    slice.bare.Reads part ∧ slice.bare.written = part.written := by
  cases h with
  | text => exact ⟨.text, rfl⟩
  | hole hsegments => exact ⟨.hole hsegments, rfl⟩

theorem Sliced.bare {cs : List Char} {l : List Slice} (h : Sliced cs l) :
    Sliced ((l.map Slice.bare).flatMap Slice.written) (l.map Slice.bare) := by
  refine ⟨rfl, ?_, ?_⟩
  · intro slice hslice
    obtain ⟨slice, hmem, rfl⟩ := List.mem_map.1 hslice
    cases h.proper slice hmem with
    | text hne hfree => exact .text hne hfree
    | hole hhole => exact .hole hhole.bare
  · have hbare : ∀ slice : Slice, slice.bare.isText = slice.isText := by
      rintro (_ | _) <;> rfl
    simpa only [List.isChain_map, hbare] using h.apart

/-- What parts are written as is cut into the slices that they were read from. -/
theorem slices_written {cs : List Char} {l : List Slice} {parts : List TemplatePart}
    (hsliced : Sliced cs l) (hreads : List.Forall₂ Slice.Reads l parts) :
    slices (parts.flatMap TemplatePart.written) = l.map Slice.bare ∧
      List.Forall₂ Slice.Reads (l.map Slice.bare) parts := by
  have hwritten : (l.map Slice.bare).flatMap Slice.written = parts.flatMap TemplatePart.written := by
    clear hsliced
    induction hreads with
    | nil => rfl
    | cons hslice _ ih => rw [List.map_cons, List.flatMap_cons, List.flatMap_cons, ih, hslice.bare.2]
  refine ⟨hwritten ▸ slices_of_sliced hsliced.bare, ?_⟩
  rw [List.forall₂_map_left_iff]
  exact hreads.imp fun _ _ hslice => hslice.bare.1

namespace Expression

variable {s : String} {e : Expression} {l : List Slice}

/-- What the slices of a text make: a literal of the whole text if there is no hole, a reference if the
text is one hole, and otherwise a template with a part for each slice. -/
inductive Made (s : String) : List Slice → Expression → Prop
  | literal {l : List Slice} (htext : ∀ slice ∈ l, slice.isText = true) : Made s l (.literal (.string s))
  | reference {slice : Slice} {t : Traversal} (hreads : slice.Reads (.reference t)) :
      Made s [slice] (.reference t)
  | template {l : List Slice} {parts : List TemplatePart} (hlength : 2 ≤ l.length)
      (hreads : List.Forall₂ Slice.Reads l parts) : Made s l (.template parts)

/-- A text without holes is one slice, or none. -/
theorem eq_of_isText {cs : List Char} (hsliced : Sliced cs l) (htext : ∀ slice ∈ l, slice.isText = true) :
    l = [] ∨ ∃ written, l = [.text written] := by
  match l, hsliced.apart, htext with
  | [], _, _ => exact .inl rfl
  | [.text written], _, _ => exact .inr ⟨written, rfl⟩
  | [.hole written path], _, htext => cases htext _ List.mem_cons_self
  | slice :: next :: l, hapart, htext =>
    have hnext := (List.isChain_cons_cons.1 hapart).1 (htext slice List.mem_cons_self)
    cases hnext.symm.trans (htext next (List.mem_cons_of_mem slice List.mem_cons_self))

theorem made_of_ofText (h : ofText s = .ok e) : Made s (slices s.toList) e := by
  unfold ofText at h
  split at h
  · cases h
  · next hparts =>
    cases h
    rw [templateParts_eq_ok, List.forall₂_nil_right_iff] at hparts
    rw [hparts]
    exact .literal nofun
  · next hparts =>
    cases h
    obtain ⟨slice, hslices, hreads⟩ := Slice.Reads.eq_singleton (templateParts_eq_ok.1 hparts)
    cases hreads
    rw [hslices]
    exact .literal (by simp [Slice.isText])
  · next hparts =>
    cases h
    obtain ⟨slice, hslices, hreads⟩ := Slice.Reads.eq_singleton (templateParts_eq_ok.1 hparts)
    rw [hslices]
    exact .reference hreads
  · next parts hnil htext href hparts =>
    cases h
    have hreads := templateParts_eq_ok.1 hparts
    refine .template ?_ hreads
    rw [hreads.length_eq]
    match parts with
    | [] => exact absurd rfl hnil
    | [.text s'] => exact absurd rfl (htext s')
    | [.reference t] => exact absurd rfl (href t)
    | _ :: _ :: _ => simp

theorem ofText_of_made (h : Made s (slices s.toList) e) : ofText s = .ok e := by
  have hsliced := sliced_slices s.toList
  have hparts : ∀ parts, List.Forall₂ Slice.Reads (slices s.toList) parts →
    templateParts s = .ok parts := fun parts => templateParts_eq_ok.2
  generalize slices s.toList = l at h hsliced hparts
  cases h with
  | literal htext =>
    rcases eq_of_isText hsliced htext with rfl | ⟨written, rfl⟩
    · rw [ofText, hparts [] .nil]
    · have hreads := Slice.reads_iff.2 (rfl : (Slice.text written).part = _)
      rw [ofText, hparts _ (.cons hreads .nil)]
  | reference hreads => rw [ofText, hparts _ (.cons hreads .nil)]
  | @template _ parts hlength hreads =>
    rw [hreads.length_eq] at hlength
    rw [ofText, hparts parts hreads]
    match parts with
    | .text _ :: _ :: _ => rfl
    | .reference _ :: _ :: _ => rfl

/-- A text is read as what its slices make. -/
theorem ofText_eq_ok : ofText s = .ok e ↔ Made s (slices s.toList) e := ⟨made_of_ofText, ofText_of_made⟩

theorem ofText_eq_error :
    (∃ error, ofText s = .error error) ↔ ∃ fault, templateParts s = .error fault := by
  cases hparts : templateParts s with
  | error fault =>
    rw [ofText, hparts]
    exact ⟨fun _ => ⟨fault, rfl⟩, fun _ => ⟨_, rfl⟩⟩
  | ok parts =>
    rw [ofText, hparts]
    match parts with
    | [] => exact ⟨nofun, nofun⟩
    | [.text _] => exact ⟨nofun, nofun⟩
    | [.reference _] => exact ⟨nofun, nofun⟩
    | .text _ :: _ :: _ => exact ⟨nofun, nofun⟩
    | .reference _ :: _ :: _ => exact ⟨nofun, nofun⟩

/-- What an expression is written as is read as the expression. -/
theorem ofText_written (h : ofText s = .ok e) :
    ∃ text, e.written? = some text ∧ ofText text = .ok e := by
  have hsliced := sliced_slices s.toList
  have hmade := made_of_ofText h
  generalize slices s.toList = l at hmade hsliced
  cases hmade with
  | literal => exact ⟨s, rfl, h⟩
  | @reference slice t hreads =>
    -- what is written is cut into slices that read the same, though their blanks are gone
    obtain ⟨hslices, hreads'⟩ := slices_written hsliced (.cons hreads .nil)
    refine ⟨_, rfl, ofText_of_made ?_⟩
    rw [List.flatMap_singleton] at hslices
    rw [String.toList_ofList, hslices]
    exact .reference (List.forall₂_cons.1 hreads').1
  | @template _ parts hlength hreads =>
    obtain ⟨hslices, hreads'⟩ := slices_written hsliced hreads
    refine ⟨_, rfl, ofText_of_made ?_⟩
    rw [String.toList_ofList, hslices]
    exact .template (by rwa [List.length_map]) hreads'

/-- Reading a text loses nothing. The text is cut into plain text and holes, and what it is read as is
made of the slices one by one; written again, that is read as the same. A text is refused if the path of
a hole in it, or one of the path's segments, is empty. -/
theorem ofText_lossless (s : String) :
    (∀ e, ofText s = .ok e ↔ ∃ l, Sliced s.toList l ∧ Made s l e) ∧
    (∀ e, ofText s = .ok e → ∃ text, e.written? = some text ∧ ofText text = .ok e) ∧
    ((∃ error, ofText s = .error error) ↔
      ∃ written path, written <:+: s.toList ∧ IsHole written path ∧ FaultyPath path) := by
  refine ⟨fun e => ?_, fun e => ofText_written, ofText_eq_error.trans templateParts_eq_error⟩
  rw [ofText_eq_ok]
  constructor
  · exact fun h => ⟨_, slices_eq_iff.1 rfl, h⟩
  · rintro ⟨l, hsliced, hmade⟩
    rwa [slices_eq_iff.2 hsliced]

end Expression

end Gateway
