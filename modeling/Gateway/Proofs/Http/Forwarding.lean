import Gateway.Http.Header
import Mathlib

/-!
# Gateway.Proofs.Http.Forwarding — the header fields that are passed on

A field is passed on unless it concerns the connection it came over: those of nine names always do,
and those that `connection` fields list. What a value lists is said here by taking its text apart: a
name in any case stands between two commas, or the ends of the text, with spaces and tabs around it.

`Forwards` is the specification, of two messages and one direction, and it has two halves for each
name: a field that concerns the connection has no values left, and any other field has those it had, in
their order. The nine names are written out in `Scoped` once more and not taken from the program. They
are the point of the statement, and a name that is missing in one of the two lists makes the proof fail.

The rest is about reading lists. A program splits at commas, trims the pieces and turns them into lower
case; the specification knows of no splitting, only of a piece that stands `Between` two separators and
of a word that is `Padded`. Each is an iff with its function. A value that is no plain text lists
nothing, and the fields that it was meant to list are passed on.
-/

set_option autoImplicit false

namespace Gateway

/-! ## Pieces of a text -/

section

variable {α : Type}

/-- The piece holds no separator, and stands between two of them or the ends of the list. -/
def Between (sep : α) (piece cs : List α) : Prop :=
  sep ∉ piece ∧ ∃ before after, cs = before ++ piece ++ after ∧
    (∀ c ∈ before.getLast?, c = sep) ∧ ∀ c ∈ after.head?, c = sep

theorem Between.behind {sep : α} {piece cs : List α} (h : Between sep piece cs) (front : List α) :
    Between sep piece (front ++ sep :: cs) := by
  obtain ⟨hpiece, before, after, rfl, hbefore, hafter⟩ := h
  refine ⟨hpiece, front ++ sep :: before, after, by simp, ?_, hafter⟩
  intro c hc
  rcases List.eq_nil_or_concat' before with rfl | ⟨init, last, rfl⟩
  · simpa using hc.symm
  · obtain rfl : last = sep := hbefore last (by simp)
    rw [← List.cons_append, ← List.append_assoc, List.getLast?_concat] at hc
    exact (Option.some.inj hc).symm

theorem Between.subset {sep : α} {piece cs : List α} (h : Between sep piece cs) : piece ⊆ cs := by
  obtain ⟨-, before, after, rfl, -⟩ := h
  intro c hc
  simp [hc]

variable [DecidableEq α]

theorem splitAt_of_notMem {sep : α} {cs : List α} (h : sep ∉ cs) : splitAt sep cs = [cs] := by
  induction cs with
  | nil => rfl
  | cons c cs ih =>
    rw [List.mem_cons, not_or] at h
    obtain ⟨hc, hcs⟩ := h
    rw [splitAt, if_neg (Ne.symm hc), ih hcs]

theorem splitAt_append (sep : α) (cs ds : List α) :
    splitAt sep (cs ++ sep :: ds) = splitAt sep cs ++ splitAt sep ds := by
  induction cs with
  | nil => simp [splitAt]
  | cons c cs ih =>
    rw [List.cons_append, splitAt, splitAt, ih]
    split
    · rfl
    · cases hcs : splitAt sep cs with
      | nil => exact absurd hcs (splitAt_ne_nil sep cs)
      | cons piece pieces => rfl

theorem between_of_mem_splitAt {sep : α} {piece cs : List α} (h : piece ∈ splitAt sep cs) :
    Between sep piece cs := by
  by_cases hmem : sep ∈ cs
  · -- behind the first separator the list is shorter
    obtain ⟨front, rest, heq, hfront⟩ := List.eq_append_cons_of_mem hmem
    rw [heq, splitAt_append, splitAt_of_notMem hfront, List.singleton_append,
      List.mem_cons] at h
    rw [heq]
    rcases h with rfl | h
    · exact ⟨hfront, [], sep :: rest, rfl, by simp, by simp⟩
    · exact (between_of_mem_splitAt h).behind front
  · rw [splitAt_of_notMem hmem, List.mem_singleton] at h
    subst h
    exact ⟨hmem, [], [], by simp, by simp, by simp⟩
termination_by cs.length
decreasing_by
  rw [heq, List.length_append, List.length_cons]
  omega

/-- A list is split into what stands between the separators. -/
theorem mem_splitAt_iff {sep : α} {piece cs : List α} :
    piece ∈ splitAt sep cs ↔ Between sep piece cs := by
  refine ⟨between_of_mem_splitAt, ?_⟩
  rintro ⟨hpiece, before, after, rfl, hbefore, hafter⟩
  have hpieces : piece ∈ splitAt sep (piece ++ after) := by
    cases after with
    | nil => simp [splitAt_of_notMem hpiece]
    | cons c after =>
      obtain rfl : c = sep := hafter c rfl
      simp [splitAt_append, splitAt_of_notMem hpiece]
  rw [List.append_assoc]
  rcases List.eq_nil_or_concat' before with rfl | ⟨front, c, rfl⟩
  · exact hpieces
  · obtain rfl : c = sep := hbefore c (by simp)
    rw [List.append_assoc, List.singleton_append, splitAt_append]
    exact List.mem_append_right _ hpieces

end

/-- The text is this one with characters of a class on either side. -/
def Padded (p : Char → Bool) (word cs : List Char) : Prop :=
  (∀ c ∈ word.head?, p c = false) ∧ (∀ c ∈ word.getLast?, p c = false) ∧
    ∃ front back, cs = front ++ word ++ back ∧ (∀ c ∈ front, p c) ∧ ∀ c ∈ back, p c

theorem Padded.congr {p q : Char → Bool} {word cs : List Char} (h : ∀ c ∈ cs, p c = q c)
    (hp : Padded p word cs) : Padded q word cs := by
  obtain ⟨hhead, hlast, front, back, rfl, hfront, hback⟩ := hp
  refine ⟨fun c hc => ?_, fun c hc => ?_, front, back, rfl, fun c hc => ?_, fun c hc => ?_⟩
  · rw [← h c (by simp [List.mem_of_mem_head? hc])]
    exact hhead c hc
  · rw [← h c (by simp [List.mem_of_mem_getLast? hc])]
    exact hlast c hc
  · rw [← h c (by simp [hc])]
    exact hfront c hc
  · rw [← h c (by simp [hc])]
    exact hback c hc

theorem dropWhile_eq_self {p : Char → Bool} {cs : List Char} (h : ∀ c ∈ cs.head?, p c = false) :
    cs.dropWhile p = cs := by
  cases cs with
  | nil => rfl
  | cons c cs => simp [h c rfl]

theorem padded_trimBoth (p : Char → Bool) (s : String) :
    Padded p (trimBoth p s).toList s.toList := by
  rw [trimBoth, String.toList_ofList]
  have hback := congrArg List.reverse
    (List.takeWhile_append_dropWhile (p := p) (l := (s.toList.dropWhile p).reverse))
  rw [List.reverse_append, List.reverse_reverse] at hback
  refine ⟨fun c hc => ?_, fun c hc => ?_, s.toList.takeWhile p,
    ((s.toList.dropWhile p).reverse.takeWhile p).reverse, ?_, fun c hc => ?_, fun c hc => ?_⟩
  · -- the first character that is left is the first one behind the front
    have hhead : (s.toList.dropWhile p).head? = some c := by
      rw [← hback, List.head?_append, Option.mem_def.1 hc]
      rfl
    have hnot := List.head?_dropWhile_not p s.toList
    rw [hhead] at hnot
    simpa using hnot
  · rw [List.getLast?_reverse] at hc
    have hnot := List.head?_dropWhile_not p (s.toList.dropWhile p).reverse
    rw [Option.mem_def.1 hc] at hnot
    simpa using hnot
  · rw [List.append_assoc, hback, List.takeWhile_append_dropWhile]
  · exact List.mem_takeWhile_imp hc
  · exact List.mem_takeWhile_imp (List.mem_reverse.1 hc)

theorem Padded.toList_trimBoth {p : Char → Bool} {word : List Char} {s : String}
    (h : Padded p word s.toList) : (trimBoth p s).toList = word := by
  obtain ⟨hhead, hlast, front, back, heq, hfront, hback⟩ := h
  rw [trimBoth, String.toList_ofList, heq, List.append_assoc, List.dropWhile_append_of_pos hfront]
  cases word with
  | nil =>
    have hnil : back.dropWhile p = [] := List.dropWhile_eq_nil_iff.2 hback
    simp [hnil]
  | cons c word =>
    have hstays : ((c :: word) ++ back).dropWhile p = (c :: word) ++ back :=
      dropWhile_eq_self fun d hd => hhead d hd
    rw [hstays, List.reverse_append,
      List.dropWhile_append_of_pos fun d hd => hback d (List.mem_reverse.1 hd),
      dropWhile_eq_self fun d hd => hlast d (List.head?_reverse ▸ hd), List.reverse_reverse]

/-! ## Names in the values of `connection` -/

/-- Plain text is visible ASCII, spaces and tabs. -/
def IsPlain (value : Bytes) : Prop := ∀ b ∈ value, 32 ≤ b ∧ b < 127 ∨ b = 9

def plainChars (value : Bytes) : List Char := value.map fun b => Char.ofNat b.toNat

def isPad (c : Char) : Bool := c = ' ' || c = '\t'

/-- A value lists a name if it is plain text, and if the name in any case stands between two commas,
with spaces and tabs around it. -/
def HeaderName.ListedIn (name : HeaderName) (value : Bytes) : Prop :=
  IsPlain value ∧ ∃ piece word, Between ',' piece (plainChars value) ∧ Padded isPad word piece ∧
    word ≠ [] ∧ word.map Char.toLower = name.text.toList

theorem headerText?_eq_some {value : Bytes} {text : String} :
    headerText? value = some text ↔ IsPlain value ∧ text.toList = plainChars value := by
  have hplain : (value.all fun b => (32 ≤ b && b < 127) || b == 9) = true ↔ IsPlain value := by
    simp [IsPlain]
  unfold headerText?
  split
  · next hall =>
    rw [hplain] at hall
    constructor
    · rintro ⟨⟩
      exact ⟨hall, String.toList_ofList⟩
    · rintro ⟨-, htext⟩
      rw [plainChars] at htext
      rw [← htext, String.ofList_toList]
  · next hall =>
    rw [hplain] at hall
    simp [hall]

theorem isBlank_eq_isPad {value : Bytes} (h : IsPlain value) {c : Char} (hc : c ∈ plainChars value) :
    isBlank c = isPad c := by
  obtain ⟨b, hb, rfl⟩ := List.mem_map.1 hc
  have hbyte : ∀ b : UInt8, 32 ≤ b ∧ b < 127 ∨ b = 9 →
      isBlank (Char.ofNat b.toNat) = isPad (Char.ofNat b.toNat) := by
    decide +kernel
  exact hbyte b (h b hb)

/-- What is read of a value is what it lists. -/
theorem listedIn_iff {name : HeaderName} {value : Bytes} : name.ListedIn value ↔
    ∃ text, headerText? value = some text ∧ ∃ piece ∈ splitText ',' text,
      lowerAscii (trimBlank piece) = name.text ∧ name.text ≠ "" := by
  constructor
  · rintro ⟨hplain, piece, word, hpiece, hword, hne, hname⟩
    refine ⟨String.ofList (plainChars value),
      headerText?_eq_some.2 ⟨hplain, String.toList_ofList⟩, String.ofList piece, ?_, ?_, ?_⟩
    · rw [splitText, String.toList_ofList]
      exact List.mem_map_of_mem (mem_splitAt_iff.2 hpiece)
    -- within plain text the blanks of the header and those of the program are the same
    · have hblank : Padded isBlank word (String.ofList piece).toList := by
        rw [String.toList_ofList]
        exact hword.congr fun c hc => (isBlank_eq_isPad hplain (hpiece.subset hc)).symm
      rw [lowerAscii, trimBlank, hblank.toList_trimBoth, hname, String.ofList_toList]
    · intro hempty
      rw [hempty] at hname
      exact hne (List.map_eq_nil_iff.1 hname)
  · rintro ⟨text, htext, piece, hpiece, hname, hne⟩
    obtain ⟨hplain, hchars⟩ := headerText?_eq_some.1 htext
    obtain ⟨cs, hcs, rfl⟩ := List.mem_map.1 hpiece
    rw [hchars] at hcs
    have hbetween := mem_splitAt_iff.1 hcs
    have hword := padded_trimBoth isBlank (String.ofList cs)
    rw [String.toList_ofList] at hword
    have hlower : (trimBlank (String.ofList cs)).toList.map Char.toLower = name.text.toList := by
      rw [← hname, lowerAscii, String.toList_ofList]
    refine ⟨hplain, cs, _, hbetween,
      hword.congr fun c hc => isBlank_eq_isPad hplain (hbetween.subset hc), ?_, hlower⟩
    intro hempty
    apply hne
    rw [← String.ofList_toList (s := name.text), ← hlower, trimBlank, hempty]
    rfl

theorem mem_connectionListed_iff {h : Headers} {name : HeaderName} :
    name ∈ connectionListed h ↔ ∃ value ∈ h.values ⟨"connection"⟩, name.ListedIn value := by
  simp only [connectionListed, listedIn_iff, List.mem_map, List.mem_filter, List.mem_flatMap,
    List.mem_filterMap]
  constructor
  · rintro ⟨text, ⟨⟨piece, ⟨list, ⟨value, hvalue, hlist⟩, hpiece⟩, rfl⟩, hne⟩, rfl⟩
    exact ⟨value, hvalue, list, hlist, piece, hpiece, rfl, by simpa using hne⟩
  · rintro ⟨value, hvalue, list, hlist, piece, hpiece, hname, hne⟩
    exact ⟨_, ⟨⟨piece, ⟨list, ⟨value, hvalue, hlist⟩, hpiece⟩, hname⟩, by simpa using hne⟩, rfl⟩

namespace Headers

/-- Fields of this name concern the connection that a message came over. -/
def Scoped (h : Headers) (name : HeaderName) : Prop :=
  name.text ∈ ["connection", "keep-alive", "proxy-connection", "te", "trailer",
      "transfer-encoding", "upgrade", "host", "content-length"] ∨
    ∃ value ∈ h.values ⟨"connection"⟩, name.ListedIn value

/-- The fields are all those of another message that do not concern its connection, and no others:
for each name the same values in the same order. -/
def Forwards (h forwarded : Headers) : Prop :=
  ∀ name, (h.Scoped name → forwarded.values name = []) ∧
    (¬ h.Scoped name → forwarded.values name = h.values name)

theorem values_foldl_remove (names : List HeaderName) (h : Headers) (name : HeaderName) :
    (names.foldl remove h).values name = if name ∈ names then [] else h.values name := by
  induction names generalizing h with
  | nil => simp
  | cons n names ih =>
    rw [List.foldl_cons, ih, values_remove]
    by_cases hn : n = name <;> simp_all [eq_comm]

theorem scoped_iff {h : Headers} {name : HeaderName} :
    h.Scoped name ↔ name ∈ hopByHopNames ++ connectionListed h := by
  have hnames : name ∈ hopByHopNames ↔ name.text ∈ ["connection", "keep-alive",
      "proxy-connection", "te", "trailer", "transfer-encoding", "upgrade", "host",
      "content-length"] := by
    cases name
    simp [hopByHopNames]
  rw [List.mem_append, hnames, mem_connectionListed_iff]
  rfl

/-- The end-to-end fields are those that are to be passed on. -/
theorem forwards_endToEnd (h : Headers) : h.Forwards h.endToEnd := by
  intro name
  have hvalues : h.endToEnd.values name = _ := values_foldl_remove _ h name
  rw [scoped_iff, hvalues]
  exact ⟨fun hscoped => if_pos hscoped, fun hscoped => if_neg hscoped⟩

end Headers

end Gateway
