import Gateway.Expression.Traversal
import Gateway.Text.Blank
import Gateway.Text.Quoted

/-!
# Gateway.Expression.Template — texts with holes

A hole is `$` and a path between braces, with white space around the path if need be. A text is
cut into *slices*, holes and what stands between them; nothing of the text is lost, as
`slices_flatten` says. A template is a text whose holes hold well-formed paths.
-/

set_option autoImplicit false

namespace Gateway

/-- A character that may stand in the path of a hole. -/
def isPathChar (c : Char) : Bool := c != '{' && c != '}' && !isBlank c

/-- A hole at the front of a text: its path, and what follows it. -/
def holeAt? (cs : List Char) : Option (List Char × List Char) :=
  match cs with
  | '$' :: '{' :: rest =>
    let rest := rest.dropWhile isBlank
    match (rest.dropWhile isPathChar).dropWhile isBlank with
    | '}' :: after => some (rest.takeWhile isPathChar, after)
    | _ => none
  | _ => none

theorem dropWhile_suffix {α : Type} (p : α → Bool) (l : List α) : l.dropWhile p <:+ l :=
  ⟨l.takeWhile p, List.takeWhile_append_dropWhile⟩

/-- What follows a hole is what the text ends with. -/
theorem holeAt?_suffix {cs path rest : List Char} (h : holeAt? cs = some (path, rest)) :
    rest <:+ cs ∧ rest.length < cs.length := by
  unfold holeAt? at h
  split at h
  · next tail =>
    simp only at h
    split at h
    · next after heq =>
      simp only [Option.some.injEq, Prod.mk.injEq] at h
      obtain ⟨-, rfl⟩ := h
      have h₁ := dropWhile_suffix isBlank ((tail.dropWhile isBlank).dropWhile isPathChar)
      rw [heq] at h₁
      have h₂ : after <:+ tail :=
        ((List.suffix_cons _ _).trans h₁).trans
          ((dropWhile_suffix isPathChar _).trans (dropWhile_suffix isBlank tail))
      exact ⟨h₂.trans ((List.suffix_cons _ _).trans (List.suffix_cons _ _)),
        Nat.lt_of_le_of_lt h₂.length_le (by simp only [List.length_cons]; omega)⟩
    · simp at h
  · simp at h

/-- A slice of a text: plain text, or a hole with its path. `written` is the slice as it stands
in the text. -/
inductive Slice
  | text (written : List Char)
  | hole (written path : List Char)
  deriving DecidableEq, Repr

/-- The slice as it stands in the text. -/
def Slice.written : Slice → List Char
  | .text written => written
  | .hole written _ => written

/-- Puts a character in front of slices: it joins the plain text there, if there is any. -/
def pushChar (c : Char) : List Slice → List Slice
  | .text written :: slices => .text (c :: written) :: slices
  | slices => .text [c] :: slices

/-- The slices of a text, in order. -/
def slices (cs : List Char) : List Slice :=
  match cs with
  | [] => []
  | c :: rest =>
    match _h : holeAt? (c :: rest) with
    | some (path, after) =>
      .hole ((c :: rest).take ((c :: rest).length - after.length)) path :: slices after
    | none => pushChar c (slices rest)
termination_by cs.length
decreasing_by
  · exact (holeAt?_suffix ‹_›).2
  · simp

theorem flatMap_pushChar (c : Char) (slices : List Slice) :
    (pushChar c slices).flatMap Slice.written = c :: slices.flatMap Slice.written := by
  unfold pushChar
  split <;> simp [Slice.written]

/-- Cutting a text into slices loses nothing. -/
theorem slices_flatten (cs : List Char) : (slices cs).flatMap Slice.written = cs := by
  fun_induction slices cs with
  | case1 => rfl
  | case2 c rest path after h ih =>
    obtain ⟨⟨front, hf⟩, -⟩ := holeAt?_suffix h
    rw [List.flatMap_cons, ih, ← hf]
    simp [Slice.written]
  | case3 c rest h ih => rw [flatMap_pushChar, ih]

/-- A part of a template: plain text, or a reference whose value is written in its place. -/
inductive TemplatePart
  | text (s : String)
  | reference (t : Traversal)
  deriving DecidableEq, Repr

/-- What is wrong with a path, or with the path of a hole. -/
inductive PathFault
  | emptySegment
  | emptyHole
  | invalidHole (path : String)
  deriving DecidableEq, Repr

def PathFault.message : PathFault → String
  | .emptySegment => "empty path segment"
  | .emptyHole => "empty interpolation"
  | .invalidHole path => "invalid variable path " ++ quote path

/-- The part that a slice stands for. -/
def Slice.part : Slice → Except PathFault TemplatePart
  | .text written => .ok (.text (String.ofList written))
  | .hole _ path =>
    if path.isEmpty then .error .emptyHole
    else match Traversal.read? (String.ofList path) with
      | some t => .ok (.reference t)
      | none => .error (.invalidHole (String.ofList path))

/-- The parts of a text. The first faulty hole decides. -/
def templateParts (source : String) : Except PathFault (List TemplatePart) :=
  (slices source.toList).mapM Slice.part

end Gateway
