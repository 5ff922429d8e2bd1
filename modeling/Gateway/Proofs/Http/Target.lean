import Gateway.Endpoint.Inbound
import Gateway.Proofs.Evaluation.Itemwise
import Gateway.Proofs.Http.Parts

/-!
# Gateway.Proofs.Http.Target — the path and the query of a request target

A target that was read is a path with a query, such a target behind an authority, or an authority alone.
The last has no path and takes none; the others are found in the one text that path and query are carried
as, and another text in its place is kept as it is.

Modifiers edit the path and the query of a request as one text and put the result back, and whether
that does what it should depends on which of the three a target is. Reading never makes anything else
(`form_of_read`): an authority without a scheme has no path, and a path that is carried holds no number
sign, since a fragment is dropped before. So path and query can be read off the text by its first
question mark, and a text with other ones, put in its place, is read again as just these.

An authority alone is a trap. It is shown with the path of a slash, as if it had one, but the slash is
not in its text and cannot be replaced: whatever is put in its place is refused, or was the slash. What
is said of paths leaves such a target out, and `of_withTarget` says that it stays as it is.
-/

set_option autoImplicit false

namespace Gateway

/-! ## Paths with queries -/

theorem Parts.hash_notMem_url {url base : String} {query : Option String}
    (h : Parts url base query none) : '#' ∉ url.toList := by
  have hurl : url = base ++ marked "?" query := h.url_eq.trans (String.append_empty ..)
  rw [hurl]
  exact h.front_hash_notMem

namespace PathAndQuery

variable {s : String} {p : PathAndQuery}

theorem toList_of_read (h : read s = .ok p) : s ≠ "" ∧ p.text.toList = (cutAt '#' s.toList).1 := by
  unfold read at h
  dsimp only at h
  split at h
  · cases h
  next hne =>
  repeat (split at h; · cases h)
  cases h
  exact ⟨fun heq => hne (String.isEmpty_iff.2 heq), String.toList_ofList⟩

/-- A text without a fragment is read as it is. -/
theorem text_of_read (hhash : '#' ∉ s.toList) (h : read s = .ok p) : p.text = s := by
  rw [← String.toList_inj, (toList_of_read h).2, cutAt_of_notMem hhash]

theorem hash_notMem_of_read (h : read s = .ok p) : '#' ∉ p.text.toList := by
  rw [(toList_of_read h).2]
  exact notMem_cutAt '#' s.toList

/-- The text of a path and query in parts. -/
theorem exists_base (hhash : '#' ∉ p.text.toList) :
    ∃ base, Parts p.text base p.query none ∧ p.path = if base = "" then "/" else base := by
  rcases hcut : cutText '?' p.text with ⟨base, query⟩
  obtain ⟨htext, hmark⟩ := eq_marked_of_cutText (show "?".toList = ['?'] from rfl) hcut
  rw [htext, String.toList_append, List.mem_append, not_or] at hhash
  refine ⟨base, ⟨?_, hmark, hhash.1, ?_⟩, ?_⟩
  · rw [PathAndQuery.query, hcut]
    exact htext.trans (String.append_empty ..).symm
  · rw [PathAndQuery.query, hcut]
    rintro q rfl hq
    refine hhash.2 ?_
    rw [toList_marked]
    exact List.mem_append_right _ hq
  · rw [PathAndQuery.path, hcut]
    simp only [String.isEmpty_iff]

end PathAndQuery

/-! ## Targets -/

namespace Uri

/-- The target is an authority alone. -/
def IsAuthority (u : Uri) : Prop := u.scheme = none ∧ u.authority ≠ none

/-- What a target can be. -/
inductive Form : Uri → Prop
  | origin {target : PathAndQuery} (hne : target.text ≠ "") (hhash : '#' ∉ target.text.toList) :
      Form ⟨none, none, target⟩
  | absolute {scheme authority : String} {target : PathAndQuery} (hhash : '#' ∉ target.text.toList) :
      Form ⟨some scheme, some authority, target⟩
  | authority {authority : String} : Form ⟨none, some authority, ⟨""⟩⟩

theorem form_of_readFull {cs : List Char} {u : Uri} (h : readFull cs = .ok u) : u.Form := by
  unfold readFull at h
  obtain ⟨scheme, -, h⟩ := exists_of_bind h
  cases scheme with
  | none =>
    obtain ⟨⟨authority, rest⟩, -, h⟩ := exists_of_bind h
    dsimp only at h
    split at h
    · cases h
      exact .authority
    · cases h
  | some found =>
    obtain ⟨scheme, behind⟩ := found
    obtain ⟨⟨authority, rest⟩, -, h⟩ := exists_of_bind h
    dsimp only at h
    split at h
    · cases h
    split at h
    · cases h
      exact .absolute List.not_mem_nil
    · obtain ⟨target, htarget, h⟩ := exists_of_bind h
      cases h
      exact .absolute (PathAndQuery.hash_notMem_of_read htarget)

/-- A target that is read has a form. -/
theorem form_of_read {s : String} {u : Uri} (h : read s = .ok u) : u.Form := by
  unfold read at h
  split at h
  · cases h
  · cases h
    exact .origin (by decide) (by decide)
  · next tail hs =>
    obtain ⟨target, htarget, rfl⟩ := map_eq_ok.1 h
    refine .origin (fun hempty => ?_) (PathAndQuery.hash_notMem_of_read htarget)
    have htext := (PathAndQuery.toList_of_read htarget).2
    rw [hempty, hs] at htext
    simp [cutAt] at htext
  · obtain ⟨⟨authority, rest⟩, -, h⟩ := exists_of_bind h
    dsimp only at h
    split at h
    · cases h
      exact .authority
    · cases h
  · split at h
    · cases h
    · exact form_of_readFull h

variable {u : Uri}

/-- The query of a target is in the text of path and query, and so is its path, unless the target is an
authority alone. -/
theorem Form.exists_base (hform : u.Form) :
    ∃ base, Parts u.pathAndQuery base u.query none ∧
      (¬ u.IsAuthority → u.path = if base = "" then "/" else base) := by
  have hslash : Parts "/" "/" none none := by decide
  cases hform with
  | @origin target hne hhash =>
    obtain ⟨base, hparts, hpath⟩ := target.exists_base hhash
    have hempty : ¬ target.text.isEmpty = true := mt String.isEmpty_iff.1 hne
    exact ⟨base, by simpa [pathAndQuery, PathAndQuery.display, query, hempty] using hparts,
      fun _ => by simpa [path, hempty] using hpath⟩
  | @absolute scheme authority target hhash =>
    by_cases hempty : target = ⟨""⟩
    · -- the empty path reads as a slash
      subst hempty
      exact ⟨"/", hslash, fun _ => rfl⟩
    · obtain ⟨base, hparts, hpath⟩ := target.exists_base hhash
      have hne : ¬ target.text.isEmpty = true := by
        rw [String.isEmpty_iff]
        exact fun htext => hempty (congrArg PathAndQuery.mk htext)
      exact ⟨base, by simpa [pathAndQuery, PathAndQuery.display, query, hne] using hparts,
        fun _ => by simpa [path] using hpath⟩
  | authority => exact ⟨"/", hslash, fun hnot => absurd ⟨rfl, Option.some_ne_none _⟩ hnot⟩

end Uri

namespace ClientRequest

variable {r moved : ClientRequest} {url base : String} {query : Option String}

theorem withTarget_eq_ok (h : r.withTarget url = .ok moved) :
    url = r.pathAndQuery ∧ moved = r ∨
      url ≠ r.pathAndQuery ∧ ¬ r.uri.IsAuthority ∧
        ∃ target, PathAndQuery.read url = .ok target ∧ moved = { r with uri := { r.uri with target } } := by
  unfold withTarget at h
  split at h
  · next heq =>
    cases h
    exact .inl ⟨heq, rfl⟩
  next hne =>
  split at h
  · next uri hread =>
    cases h
    obtain ⟨target, htarget, huri⟩ := exists_of_bind hread
    unfold Uri.withTarget at huri
    split at huri
    · cases huri
    · next hauthority =>
      cases huri
      refine .inr ⟨hne, fun h => hauthority ?_, target, htarget, rfl⟩
      simpa [Uri.IsAuthority, Option.isSome_iff_ne_none] using h
  · cases h

/-- A request gets the path and the query that stand in a text without fragment, and nothing else of it
changes. An authority alone gets none: its text can only be the slash that it is read as. -/
theorem of_withTarget (hform : r.uri.Form) (hurl : Parts url base query none)
    (h : r.withTarget url = .ok moved) :
    (∃ target, moved = { r with uri := { r.uri with target } }) ∧ moved.query = query ∧
      (¬ r.uri.IsAuthority → moved.path = if base = "" then "/" else base) ∧
      (r.uri.IsAuthority → moved.uri = r.uri) := by
  rcases withTarget_eq_ok h with ⟨rfl, rfl⟩ | ⟨hne, hnot, target, htarget, rfl⟩
  · obtain ⟨base', hparts, hpath⟩ := hform.exists_base
    obtain ⟨rfl, rfl, -⟩ := hparts.unique hurl
    exact ⟨⟨moved.uri.target, rfl⟩, rfl, hpath, fun _ => rfl⟩
  · obtain rfl : target.text = url := PathAndQuery.text_of_read hurl.hash_notMem_url htarget
    have hne : ¬ target.text.isEmpty = true := by
      rw [String.isEmpty_iff]
      exact (PathAndQuery.toList_of_read htarget).1
    obtain ⟨base', hparts, hpath⟩ := target.exists_base hurl.hash_notMem_url
    obtain ⟨rfl, rfl, -⟩ := hparts.unique hurl
    refine ⟨⟨target, rfl⟩, rfl, fun _ => ?_, fun hauthority => absurd hauthority hnot⟩
    rw [path, Uri.path, if_neg (by simp [hne])]
    exact hpath

end ClientRequest

end Gateway
