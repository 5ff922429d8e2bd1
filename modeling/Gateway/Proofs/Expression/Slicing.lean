import Gateway.Expression.Template
import Gateway.Proofs.Http.Forwarding

/-!
# Gateway.Proofs.Expression.Slicing — the holes of a text

A text is cut into holes and what stands between them. What a hole is, is said here by writing it down,
and a cut by four facts: nothing is lost, a hole is a hole, plain text holds none, and no two plain texts
stand side by side. There is one cut of this kind for each text, whatever dollar signs and braces stand
around its holes, so that cutting finds it, finds it again in what an expression is written as, and finds
every faulty hole.

A pattern is all that says what a hole is, and a scanner that goes from left to right is what looks for
it. Between the two lies the question of which of several holes is taken, and the answer is that there
are never several: a hole begins with a dollar sign and a brace, has no brace within, and ends with the
first that closes. So two holes do not overlap, and the leftmost is not a choice. `holeAt?_eq_none` is
where this is used: a hole that began in plain text would have to reach into the hole behind it.

That plain texts do not stand side by side is more than tidiness. Without it a text would have many
cuts, and how many slices there are decides what an expression is.
-/

set_option autoImplicit false

namespace Gateway

/-! ## Holes -/

/-- A hole with its path: a dollar sign, and between braces the path with white space around it. In the
path there is neither white space nor a brace. -/
def IsHole (written path : List Char) : Prop :=
  ∃ before after, written = '$' :: '{' :: (before ++ path ++ after ++ ['}']) ∧
    (∀ c ∈ before, isBlank c = true) ∧ (∀ c ∈ after, isBlank c = true) ∧
    ∀ c ∈ path, isPathChar c = true

/-- No hole stands in the text. -/
def HoleFree (cs : List Char) : Prop := ∀ written path, written <:+: cs → ¬ IsHole written path

theorem isHole_of_holeAt? {cs path rest : List Char} (h : holeAt? cs = some (path, rest)) :
    ∃ written, cs = written ++ rest ∧ IsHole written path := by
  unfold holeAt? at h
  split at h
  · next tail =>
    dsimp only at h
    split at h
    · next after hclose =>
      cases h
      have hblank := List.takeWhile_append_dropWhile (p := isBlank) (l := tail)
      have hpath := List.takeWhile_append_dropWhile (p := isPathChar) (l := tail.dropWhile isBlank)
      have hback := List.takeWhile_append_dropWhile (p := isBlank)
        (l := (tail.dropWhile isBlank).dropWhile isPathChar)
      refine ⟨_, ?_, tail.takeWhile isBlank,
        ((tail.dropWhile isBlank).dropWhile isPathChar).takeWhile isBlank, rfl,
        fun c hc => List.mem_takeWhile_imp hc, fun c hc => List.mem_takeWhile_imp hc,
        fun c hc => List.mem_takeWhile_imp hc⟩
      rw [hclose] at hback
      simp only [List.cons_append, List.append_assoc, List.nil_append]
      rw [hback, hpath, hblank]
    · cases h
  · cases h

theorem isBlank_of_isPathChar {c : Char} (h : isPathChar c = true) : isBlank c = false := by
  rw [isPathChar, Bool.and_eq_true, Bool.not_eq_true'] at h
  exact h.2

/-- A hole is read from behind its dollar sign and brace: white space, a path that ends where it can go
no further, and white space up to the closing brace. -/
theorem holeAt?_eq_some {tail path rest : List Char} (more : List Char)
    (hfront : tail.dropWhile isBlank = path ++ more) (hpath : ∀ c ∈ path, isPathChar c = true)
    (hends : ∀ c ∈ more.head?, isPathChar c = false)
    (hback : more.dropWhile isBlank = '}' :: rest) :
    holeAt? ('$' :: '{' :: tail) = some (path, rest) := by
  have hdrop : (path ++ more).dropWhile isPathChar = more := by
    rw [List.dropWhile_append_of_pos hpath, dropWhile_eq_self hends]
  have htake : (path ++ more).takeWhile isPathChar = path := by
    rw [List.takeWhile_append_of_pos hpath]
    cases more with
    | nil => simp
    | cons c more => simp [hends c rfl]
  simp only [holeAt?, hfront, hdrop, htake, hback]

theorem holeAt?_append {written path : List Char} (h : IsHole written path) (rest : List Char) :
    holeAt? (written ++ rest) = some (path, rest) := by
  obtain ⟨before, after, rfl, hbefore, hafter, hpath⟩ := h
  have hshut : ('}' :: rest).dropWhile isBlank = '}' :: rest :=
    List.dropWhile_cons_of_neg (by decide)
  have hbrace : ∀ c ∈ ('}' :: rest).head?, isPathChar c = false := by
    rintro c ⟨⟩
    decide
  simp only [List.cons_append, List.append_assoc, List.nil_append]
  cases path with
  | nil =>
    -- all white space is in front of the path
    refine holeAt?_eq_some ('}' :: rest) ?_ hpath hbrace hshut
    rw [List.dropWhile_append_of_pos hbefore, List.nil_append,
      List.dropWhile_append_of_pos hafter, hshut, List.nil_append]
  | cons c path =>
    refine holeAt?_eq_some (after ++ '}' :: rest) ?_ hpath ?_ ?_
    · rw [List.dropWhile_append_of_pos hbefore]
      refine dropWhile_eq_self fun d hd => ?_
      cases hd
      exact isBlank_of_isPathChar (hpath c List.mem_cons_self)
    · cases after with
      | nil => exact hbrace
      | cons d after =>
        intro d' hd'
        cases hd'
        rw [isPathChar, hafter d List.mem_cons_self, Bool.not_true, Bool.and_false]
    · rw [List.dropWhile_append_of_pos hafter, hshut]

/-- A hole begins with a dollar sign and a brace, and no other brace opens in it. -/
theorem IsHole.front {written path : List Char} (h : IsHole written path) :
    ∃ tail, written = '$' :: '{' :: tail ∧ '{' ∉ tail := by
  obtain ⟨before, after, rfl, hbefore, hafter, hpath⟩ := h
  refine ⟨_, rfl, ?_⟩
  simp only [List.mem_append, List.mem_singleton, not_or]
  refine ⟨⟨⟨fun hmem => ?_, fun hmem => ?_⟩, fun hmem => ?_⟩, by decide⟩
  · exact absurd (hbefore _ hmem) (by decide)
  · exact absurd (hpath _ hmem) (by decide)
  · exact absurd (hafter _ hmem) (by decide)

theorem IsHole.getLast? {written path : List Char} (h : IsHole written path) :
    written.getLast? = some '}' := by
  obtain ⟨before, after, rfl, -⟩ := h
  rw [← List.cons_append, ← List.cons_append, List.getLast?_concat]

/-- Behind a text without holes, a hole does not begin in the text: it would go on into what follows,
which begins with a hole if it does not end there. -/
theorem holeAt?_eq_none {c : Char} {cs rest : List Char} (hfree : HoleFree (c :: cs))
    (hrest : rest = [] ∨ ∃ written path tail, rest = written ++ tail ∧ IsHole written path) :
    holeAt? (c :: cs ++ rest) = none := by
  cases hhole : holeAt? (c :: cs ++ rest) with
  | none => rfl
  | some found =>
    obtain ⟨path, after⟩ := found
    obtain ⟨written, heq, hwritten⟩ := isHole_of_holeAt? hhole
    rcases List.append_eq_append_iff.1 heq with ⟨inner, rfl, hinner⟩ | ⟨inner, hinner, -⟩
    · obtain ⟨tail, hfront, hbrace⟩ := hwritten.front
      have hlast := hwritten.getLast?
      rcases hrest with rfl | ⟨written', path', tail', rfl, hwritten'⟩
      · -- nothing follows, so that the hole is in the text
        obtain ⟨rfl, -⟩ := List.append_eq_nil_iff.1 hinner.symm
        rw [List.append_nil] at hwritten
        exact absurd hwritten (hfree _ path (List.infix_refl _))
      -- the hole ends in a brace and has no second opening one, but a hole follows
      obtain ⟨tail'', rfl, -⟩ := hwritten'.front
      match inner with
      | [] =>
        rw [List.append_nil] at hwritten
        exact absurd hwritten (hfree _ path (List.infix_refl _))
      | [d] =>
        obtain rfl : '$' = d := (List.cons.inj hinner).1
        rw [List.getLast?_concat] at hlast
        exact absurd (Option.some.inj hlast) (by decide)
      | d :: d' :: inner =>
        obtain ⟨hdollar, hbehind⟩ := List.cons.inj hinner
        obtain rfl : '$' = d := hdollar
        obtain rfl : '{' = d' := (List.cons.inj hbehind).1
        cases cs with
        | nil => exact absurd (List.cons.inj (List.cons.inj hfront).2).1 (by decide)
        | cons e cs =>
          obtain ⟨-, htail⟩ := List.cons.inj hfront
          obtain ⟨-, htail⟩ := List.cons.inj htail
          exact absurd (by simp [← htail]) hbrace
    · refine absurd hwritten (hfree written path ?_)
      rw [hinner]
      exact (List.prefix_append written inner).isInfix

/-! ## Slices -/

namespace Slice

def isText : Slice → Bool
  | .text _ => true
  | .hole _ _ => false

/-- Plain text is not empty and holds no hole, and a hole is one. -/
inductive Proper : Slice → Prop
  | text {written : List Char} (hne : written ≠ []) (hfree : HoleFree written) :
      Proper (.text written)
  | hole {written path : List Char} (hhole : IsHole written path) : Proper (.hole written path)

end Slice

/-- The text is cut into these slices: one after the other they are the text, and no plain text stands
beside another. -/
structure Sliced (cs : List Char) (l : List Slice) : Prop where
  whole : l.flatMap Slice.written = cs
  proper : ∀ slice ∈ l, slice.Proper
  apart : l.IsChain fun slice next => slice.isText = true → next.isText = false

theorem HoleFree.tail {c : Char} {cs : List Char} (h : HoleFree (c :: cs)) : HoleFree cs :=
  fun written path hin => h written path (hin.trans (List.suffix_cons c cs).isInfix)

/-- A text without holes stays one if no hole begins in front of it. -/
theorem HoleFree.cons {c : Char} {cs rest : List Char} (h : HoleFree cs)
    (hnone : holeAt? (c :: (cs ++ rest)) = none) : HoleFree (c :: cs) := by
  intro written path hin hhole
  rcases List.infix_cons_iff.1 hin with ⟨more, hmore⟩ | hin
  · have hfound := holeAt?_append hhole (more ++ rest)
    rw [← List.append_assoc, hmore, List.cons_append, hnone] at hfound
    cases hfound
  · exact h written path hin hhole

theorem slices_cons {c : Char} {rest : List Char} (h : holeAt? (c :: rest) = none) :
    slices (c :: rest) = pushChar c (slices rest) := by
  rw [slices]
  split
  · next heq =>
    rw [h] at heq
    cases heq
  · rfl

theorem slices_append {written path : List Char} (h : IsHole written path) (rest : List Char) :
    slices (written ++ rest) = .hole written path :: slices rest := by
  have hfound := holeAt?_append h rest
  obtain ⟨tail, rfl, -⟩ := h.front
  rw [List.cons_append] at hfound ⊢
  rw [slices]
  split
  · next heq =>
    cases hfound.symm.trans heq
    have hlength : ('$' :: ('{' :: tail ++ rest)).length - rest.length = ('$' :: '{' :: tail).length := by
      simp only [List.length_cons, List.length_append]
      omega
    rw [hlength, ← List.cons_append, List.take_left]
  · next heq => cases hfound.symm.trans heq

theorem slices_text {cs rest : List Char} {l : List Slice} (hne : cs ≠ []) (hfree : HoleFree cs)
    (hrest : slices rest = l) (hapart : ∀ slice ∈ l.head?, slice.isText = false)
    (hhole : rest = [] ∨ ∃ written path tail, rest = written ++ tail ∧ IsHole written path) :
    slices (cs ++ rest) = .text cs :: l := by
  induction cs with
  | nil => exact absurd rfl hne
  | cons c cs ih =>
    -- no hole begins in the text, not even one that would end behind it
    have hnone : holeAt? (c :: (cs ++ rest)) = none := holeAt?_eq_none hfree hhole
    rw [List.cons_append, slices_cons hnone]
    cases cs with
    | nil =>
      rw [List.nil_append, hrest]
      cases l with
      | nil => rfl
      | cons slice l =>
        cases slice with
        | text written => cases hapart _ rfl
        | hole written path => rfl
    | cons d cs =>
      rw [ih (List.cons_ne_nil d cs) hfree.tail]
      rfl

/-- Cutting finds the only cut that there is. -/
theorem slices_of_sliced {cs : List Char} {l : List Slice} (h : Sliced cs l) : slices cs = l := by
  obtain ⟨rfl, hproper, hapart⟩ := h
  induction l with
  | nil => rw [List.flatMap_nil, slices]
  | cons slice l ih =>
    obtain ⟨hslice, hl⟩ := List.forall_mem_cons.1 hproper
    have hrest := ih hl hapart.tail
    rw [List.flatMap_cons]
    cases hslice with
    | hole hhole => rw [Slice.written, slices_append hhole, hrest]
    | text hne hfree =>
      rw [Slice.written]
      refine slices_text hne hfree hrest (fun next hnext => ?_) ?_
      · cases l with
        | nil => cases hnext
        | cons next' l =>
          cases hnext
          exact (List.isChain_cons_cons.1 hapart).1 rfl
      -- two texts do not follow each other, so behind a text there is a hole or the end
      · cases l with
        | nil => exact .inl rfl
        | cons next l =>
          cases hl next List.mem_cons_self with
          | text => cases (List.isChain_cons_cons.1 hapart).1 rfl
          | @hole written path hhole => exact .inr ⟨written, path, _, List.flatMap_cons, hhole⟩

theorem sliced_pushChar {c : Char} {rest : List Char} {l : List Slice}
    (hnone : holeAt? (c :: rest) = none) (h : Sliced rest l) : Sliced (c :: rest) (pushChar c l) := by
  obtain ⟨rfl, hproper, hapart⟩ := h
  have hwhole := flatMap_pushChar c l
  unfold pushChar at hwhole ⊢
  split
  · next written l =>
    obtain ⟨hslice, hl⟩ := List.forall_mem_cons.1 hproper
    refine ⟨hwhole, List.forall_mem_cons.2 ⟨?_, hl⟩, ?_⟩
    · cases hslice with
      | text hne hfree =>
        rw [List.flatMap_cons] at hnone
        exact .text (List.cons_ne_nil c written) (hfree.cons hnone)
    · cases l with
      | nil => exact .singleton _
      | cons next l =>
        obtain ⟨hnext, hl⟩ := List.isChain_cons_cons.1 hapart
        exact List.isChain_cons_cons.2 ⟨fun _ => hnext rfl, hl⟩
  · next hnot =>
    refine ⟨by simpa [hnot] using hwhole, List.forall_mem_cons.2 ⟨?_, hproper⟩, ?_⟩
    · refine .text (List.cons_ne_nil c []) (HoleFree.cons ?_ hnone)
      intro written path hin hhole
      obtain ⟨tail, rfl, -⟩ := hhole.front
      cases List.eq_nil_of_infix_nil hin
    · cases l with
      | nil => exact .singleton _
      | cons slice l =>
        refine List.isChain_cons_cons.2 ⟨fun _ => ?_, hapart⟩
        cases slice with
        | text written => exact absurd rfl (hnot written l)
        | hole => rfl

/-- What cutting finds is a cut. -/
theorem sliced_slices (cs : List Char) : Sliced cs (slices cs) := by
  fun_induction slices cs with
  | case1 => exact ⟨rfl, List.forall_mem_nil _, .nil⟩
  | case2 c rest path after h ih =>
    obtain ⟨written, heq, hhole⟩ := isHole_of_holeAt? h
    have htake : (c :: rest).take ((c :: rest).length - after.length) = written := by
      rw [heq, List.length_append, Nat.add_sub_cancel, List.take_left]
    rw [htake]
    obtain ⟨hwhole, hproper, hapart⟩ := ih
    refine ⟨by rw [List.flatMap_cons, hwhole, heq]; rfl,
      List.forall_mem_cons.2 ⟨.hole hhole, hproper⟩, ?_⟩
    cases hslices : slices after with
    | nil => exact .singleton _
    | cons slice l =>
      rw [hslices] at hapart
      exact List.isChain_cons_cons.2 ⟨fun htext => absurd htext Bool.false_ne_true, hapart⟩
  | case3 c rest h ih => exact sliced_pushChar h ih

theorem slices_eq_iff {cs : List Char} {l : List Slice} : slices cs = l ↔ Sliced cs l :=
  ⟨fun h => h ▸ sliced_slices cs, slices_of_sliced⟩

/-- Two cuts with a hole between them are a cut. -/
theorem Sliced.append_hole {front rest written path : List Char} {l l' : List Slice}
    (hfront : Sliced front l) (hhole : IsHole written path) (hrest : Sliced rest l') :
    Sliced (front ++ (written ++ rest)) (l ++ .hole written path :: l') := by
  refine ⟨?_, ?_, List.isChain_append.2 ⟨hfront.apart, ?_, ?_⟩⟩
  · rw [List.flatMap_append, List.flatMap_cons, hfront.whole, hrest.whole]
    rfl
  · intro slice hslice
    rcases List.mem_append.1 hslice with hslice | hslice
    · exact hfront.proper slice hslice
    · rcases List.mem_cons.1 hslice with rfl | hslice
      · exact .hole hhole
      · exact hrest.proper slice hslice
  · cases l' with
    | nil => exact .singleton _
    | cons slice l' =>
      exact List.isChain_cons_cons.2 ⟨fun htext => absurd htext Bool.false_ne_true, hrest.apart⟩
  · intro slice _ next hnext _
    cases hnext
    rfl

/-- Every hole of a text is one of its slices, since holes do not overlap. -/
theorem hole_mem_slices {cs written path : List Char} (hin : written <:+: cs)
    (hhole : IsHole written path) : .hole written path ∈ slices cs := by
  obtain ⟨front, rest, rfl⟩ := hin
  rw [List.append_assoc, slices_of_sliced ((sliced_slices front).append_hole hhole (sliced_slices rest))]
  exact List.mem_append_right _ List.mem_cons_self

/-- A hole that is a slice of a text stands in it. -/
theorem infix_of_mem_slices {cs : List Char} {slice : Slice} (h : slice ∈ slices cs) :
    slice.written <:+: cs := by
  obtain ⟨front, rest, heq⟩ := List.append_of_mem h
  refine ⟨front.flatMap Slice.written, rest.flatMap Slice.written, ?_⟩
  rw [← slices_flatten cs, heq, List.flatMap_append, List.flatMap_cons, List.append_assoc]

end Gateway
