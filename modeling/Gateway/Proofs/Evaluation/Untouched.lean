import Gateway.Proofs.Evaluation.Rewriting

/-!
# Gateway.Proofs.Evaluation.Untouched — parameters that an edit does not mention

Editing one parameter reads all of them as text and writes them again. Those that are not mentioned keep
their order, but not always their bytes: a name or a value that stands for bytes which are no text is
written as the text that they are read as. So it is kept, byte for byte, if and only if it is text.

Parameters are compared by the bytes they stand for, behind the percent signs. How a byte is written is
free, and editing does change it where a character is escaped that need not be. What a parameter stands
for should not change, and mostly does not; `Form.recoded` is what it comes to when it does, and
`recoded_eq_iff` says when.

Which parameters are not mentioned is decided by names as text, since that is how an edit sees them. Two
names that differ in bytes that are no text may be one name for it, so an edit that mentions a name with
such a repair in it speaks of all of them. `Keeps` is about the written parameters whose names as text
the edit has no word for, in their order, before and after.

The separators do not get into the way of the repair, because they are ASCII, and a repair never touches
an ASCII character nor makes one (`splitAt_repair`). Cutting and repairing can therefore be done in
either order, and what is said of a query holds of a form body, which need not be text at all.
-/

set_option autoImplicit false

namespace Gateway

open Utf8 (repair IsText)

section

variable {x : UInt8} (hx : x.toNat < 0x80)

include hx

/-- An ASCII character separates the same pieces before and after a repair. -/
theorem splitAt_repair (bs : Bytes) : splitAt x (repair bs) = (splitAt x bs).map repair := by
  by_cases hmem : x ∈ bs
  · -- behind the first separator the list is shorter
    obtain ⟨front, rest, heq, hfront⟩ := List.eq_append_cons_of_mem hmem
    have hrepaired : x ∉ repair front := mt (Utf8.mem_of_mem_repair hx) hfront
    rw [heq, Utf8.repair_append_ascii hx, splitAt_append, splitAt_append, splitAt_of_notMem hfront,
      splitAt_of_notMem hrepaired, splitAt_repair rest, List.map_append, List.map_singleton]
  · have hrepaired : x ∉ repair bs := mt (Utf8.mem_of_mem_repair hx) hmem
    rw [splitAt_of_notMem hmem, splitAt_of_notMem hrepaired, List.map_singleton]
termination_by bs.length
decreasing_by
  rw [heq, List.length_append, List.length_cons]
  omega

theorem cutAt_repair (bs : Bytes) : cutAt x (repair bs) = (cutAt x bs).map repair (·.map repair) := by
  by_cases hmem : x ∈ bs
  · obtain ⟨front, rest, rfl, hfront⟩ := List.eq_append_cons_of_mem hmem
    have hrepaired : x ∉ repair front := mt (Utf8.mem_of_mem_repair hx) hfront
    rw [Utf8.repair_append_ascii hx, cutAt_append hrepaired, cutAt_append hfront]
    rfl
  · have hrepaired : x ∉ repair bs := mt (Utf8.mem_of_mem_repair hx) hmem
    rw [cutAt_of_notMem hrepaired, cutAt_of_notMem hmem]
    rfl

end

namespace Form

/-! ## Parameters as they are written -/

/-- The parameters of a query or form body, names and values as they are written. -/
def written (bs : Bytes) : List (Bytes × Bytes) :=
  ((splitAt 0x26 bs).filter (!·.isEmpty)).map fun piece =>
    ((cutAt 0x3D piece).1, (cutAt 0x3D piece).2.getD [])

/-- What a written name or value stands for once it was read as text and is written again. -/
def recoded (raw : Bytes) : Bytes := Utf8.encode (decodeText (repair raw))

theorem decodePairs_eq (bs : Bytes) :
    decodePairs bs = (written bs).map fun w => (decodeBytes w.1, decodeBytes w.2) := by
  rw [decodePairs, written, List.map_map]
  rfl

theorem written_repair (bs : Bytes) :
    written (repair bs) = (written bs).map fun w => (repair w.1, repair w.2) := by
  have hempty : ((!·.isEmpty) ∘ repair : Bytes → Bool) = (!·.isEmpty) := by
    funext piece
    rw [Function.comp_apply, Bool.eq_iff_iff]
    simp [Utf8.repair_eq_nil_iff]
  rw [written, splitAt_repair (by decide), List.filter_map, hempty, List.map_map, written,
    List.map_map]
  refine List.map_congr_left fun piece _ => ?_
  simp only [Function.comp_apply, cutAt_repair (show (0x3D : UInt8).toNat < 0x80 by decide)]
  refine Prod.ext rfl ?_
  cases h : (cutAt 0x3D piece).2 with
  | none => simp [h]
  | some value => simp [h]

theorem written_encodeBytes (ps : List Param) :
    written (encodeBytes ps) = ps.map fun p => (encodeText p.1, encodeText p.2) := by
  rw [written, splitAt_encodeBytes, List.map_map]
  refine List.map_congr_left fun p _ => ?_
  simp [cutAt_encodeParam]

theorem decodeText_encodeText (s : String) : decodeText (repair (encodeText s)) = s := by
  have hascii : ∀ b ∈ encodeText s, b.toNat < 0x80 := fun _ hb => (isInner_of_mem_encodeText hb).1
  rw [Utf8.repair_of_ascii hascii, decodeText, decodeBytes_encodeText, Utf8.decodeLossy_encode]

/-- A name or a value that is written as text keeps the bytes it stands for if and only if they are text
themselves. -/
theorem recoded_eq_iff {raw : Bytes} (h : IsText raw) :
    recoded raw = decodeBytes raw ↔ IsText (decodeBytes raw) := by
  rw [recoded, Utf8.repair_eq_self_iff.2 h]
  exact Utf8.repair_eq_self_iff

/-- Reading bytes as text and the text as parameters. -/
theorem decode_decodeLossy (bs : Bytes) :
    decode (Utf8.decodeLossy bs) =
      (written bs).map fun w => (decodeText (repair w.1), decodeText (repair w.2)) := by
  have hrepair : Utf8.encode (Utf8.decodeLossy bs) = repair bs := rfl
  rw [decode, hrepair, decodePairs_eq, written_repair, List.map_map, List.map_map]
  rfl

/-- What stands between the separators in a text is text. -/
theorem isText_of_mem_written {bs : Bytes} (h : IsText bs) {w : Bytes × Bytes}
    (hw : w ∈ written bs) : IsText w.1 ∧ IsText w.2 := by
  have hfixed := written_repair bs
  rw [Utf8.repair_eq_self_iff.2 h] at hfixed
  have hw := List.map_inj_left.1 (hfixed.symm.trans (List.map_id _).symm) w hw
  exact ⟨Utf8.repair_eq_self_iff.1 (congrArg Prod.fst hw),
    Utf8.repair_eq_self_iff.1 (congrArg Prod.snd hw)⟩

end Form

namespace Edit

/-! ## Names that are not mentioned -/

/-- The names under which an object lists texts. -/
def keys (value : Json) : Except EvalError (List String) := value.pairs.map (·.map Prod.fst)

/-- The names that an edit removes, sets or adds, as far as they can be read. -/
def mentioned (e : Edit) : List String :=
  [e.remove.map Json.names, e.set.map keys, e.add.map keys].flatMap fun names =>
    ((names.getD (.ok [])).toOption).getD []

/-- The written parameters whose names, as text, are not mentioned. -/
def spared (e : Edit) (bs : Bytes) : List (Bytes × Bytes) :=
  (Form.written bs).filter fun w => Form.decodeText (repair w.1) ∉ e.mentioned

/-- The parameters that are not mentioned stand for what they stood for, as text. -/
def Keeps (e : Edit) (before after : Bytes) : Prop :=
  (e.spared after).map (fun w => (Form.decodeBytes w.1, Form.decodeBytes w.2)) =
    (e.spared before).map fun w => (Form.recoded w.1, Form.recoded w.2)

theorem mem_mentioned {e : Edit} {removed : List String} {set added : List (String × List String)}
    (hremove : (e.remove.map Json.names).getD (.ok []) = .ok removed)
    (hset : (e.set.map Json.pairs).getD (.ok []) = .ok set)
    (hadd : (e.add.map Json.pairs).getD (.ok []) = .ok added) {name : String} :
    name ∈ e.mentioned ↔
      name ∈ removed ∨ name ∈ set.map Prod.fst ∨ name ∈ added.map Prod.fst := by
  have hkeys : ∀ {given : Option Json} {entries : List (String × List String)},
      (given.map Json.pairs).getD (.ok []) = .ok entries →
        (given.map keys).getD (.ok []) = .ok (entries.map Prod.fst) := by
    intro given entries h
    cases given with
    | none =>
      cases h
      rfl
    | some value =>
      rw [Option.map_some, Option.getD_some] at h ⊢
      rw [keys, h]
      rfl
  simp [mentioned, hremove, hkeys hset, hkeys hadd, Except.toOption]

section

variable {spares : String → Bool}

theorem filter_map_name {name : String} (hname : spares name = false) (values : List String) :
    (values.map ((name, ·) : String → Param)).filter (spares ·.1) = [] := by
  rw [List.filter_map, List.map_eq_nil_iff, List.filter_eq_nil_iff]
  intro value _
  simp [hname]

theorem filter_setParam {name : String} (hname : spares name = false) (ps : List Param)
    (values : List String) :
    (setParam ps name values).filter (spares ·.1) = ps.filter (spares ·.1) := by
  have hother : (ps.dropWhile (·.1 ≠ name)).filter (fun p => spares p.1 && decide (p.1 ≠ name)) =
      (ps.dropWhile (·.1 ≠ name)).filter (spares ·.1) := by
    refine List.filter_congr fun p _ => ?_
    by_cases hp : p.1 = name
    · simp [hp, hname]
    · simp [hp]
  rw [setParam, List.filter_append, List.filter_append, filter_map_name hname, List.append_nil,
    List.filter_filter, hother, ← List.filter_append, List.takeWhile_append_dropWhile]

theorem filter_setParams {entries : List (String × List String)}
    (h : ∀ entry ∈ entries, spares entry.1 = false) (ps : List Param) :
    (entries.foldl (fun ps (name, values) => setParam ps name values) ps).filter (spares ·.1) =
      ps.filter (spares ·.1) := by
  induction entries generalizing ps with
  | nil => rfl
  | cons entry entries ih =>
    obtain ⟨hentry, hentries⟩ := List.forall_mem_cons.1 h
    rw [List.foldl_cons, ih hentries, filter_setParam hentry]

theorem filter_addParams {entries : List (String × List String)}
    (h : ∀ entry ∈ entries, spares entry.1 = false) :
    (entries.flatMap fun (name, values) => values.map ((name, ·) : String → Param)).filter
      (spares ·.1) = [] := by
  rw [List.filter_flatMap, List.flatMap_eq_nil_iff]
  exact fun entry hentry => filter_map_name (h entry hentry) entry.2

variable (spares) in
/-- Parameters whose names an edit does not mention keep their order, and stay as they are. -/
theorem filter_onParams {e : Edit} {before after : List Param} (h : e.onParams before = .ok after)
    (hspares : ∀ name ∈ e.mentioned, spares name = false) :
    after.filter (spares ·.1) = before.filter (spares ·.1) := by
  obtain ⟨removed, set, added, hremove, hset, hadd, rfl⟩ := onParams_eq_ok.1 h
  simp only [mem_mentioned hremove hset hadd] at hspares
  have hsets : ∀ entry ∈ set, spares entry.1 = false :=
    fun entry hentry => hspares _ (.inr (.inl (List.mem_map_of_mem hentry)))
  have hadds : ∀ entry ∈ added, spares entry.1 = false :=
    fun entry hentry => hspares _ (.inr (.inr (List.mem_map_of_mem hentry)))
  rw [List.filter_append, filter_setParams hsets, filter_addParams hadds, List.append_nil,
    List.filter_filter]
  refine List.filter_congr fun p _ => ?_
  -- a parameter that is spared was not removed, since what is removed is mentioned
  by_cases hp : p.1 ∈ removed
  · simp [hp, hspares _ (.inl hp)]
  · simp [hp]

end

/-! ## Bytes that are kept -/

theorem keeps_of_onParams {e : Edit} {before : Bytes} {ps : List Param}
    (h : e.onParams (Form.decode (Utf8.decodeLossy before)) = .ok ps) :
    e.Keeps before (Utf8.encode (Form.encode ps)) := by
  have hfilter := filter_onParams (fun name => decide (name ∉ e.mentioned)) h (by simp)
  have hwritten : (fun w : Bytes × Bytes => decide (Form.decodeText (repair w.1) ∉ e.mentioned)) ∘
      (fun p : Param => (Form.encodeText p.1, Form.encodeText p.2)) =
        fun p => decide (p.1 ∉ e.mentioned) := by
    funext p
    rw [Function.comp_apply, Form.decodeText_encodeText]
  rw [Form.decode_decodeLossy, List.filter_map] at hfilter
  rw [Keeps, Form.utf8_encode, spared, Form.written_encodeBytes, List.filter_map, hwritten, hfilter,
    List.map_map, List.map_map]
  refine List.map_congr_left fun w _ => ?_
  simp only [Function.comp_apply, Form.decodeBytes_encodeText]
  rfl

/-- A successful edit keeps the parameters that it does not mention, in a query and in a form. Each of
them, if it is written as text, which in a url it always is, keeps the bytes that its name and its value
stand for if and only if they are text. An edit of nothing leaves every url. -/
theorem keeps_untouched (e : Edit) :
    (∀ url edited, e.isEmpty = false → e.onUrl url = .ok edited →
      ∃ base query query' fragment, Parts url base query fragment ∧
        Parts edited base query' fragment ∧
        e.Keeps (Utf8.encode (query.getD "")) (Utf8.encode (query'.getD "")) ∧
        ∀ w ∈ Form.written (Utf8.encode (query.getD "")), IsText w.1 ∧ IsText w.2) ∧
      (∀ body form, e.onForm body = .ok form → e.Keeps body (Utf8.encode form)) ∧
      (∀ raw, IsText raw →
        (Form.recoded raw = Form.decodeBytes raw ↔ IsText (Form.decodeBytes raw))) ∧
      (e.isEmpty = true → ∀ url, e.onUrl url = .ok url) := by
  refine ⟨fun url edited hgiven h => ?_, fun body form h => ?_, fun _ => Form.recoded_eq_iff,
    onUrl_of_isEmpty⟩
  · obtain ⟨base, query, fragment, hurl⟩ := exists_parts url
    obtain ⟨ps, hps, hedited⟩ := parts_of_onUrl hgiven hurl h
    refine ⟨base, query, queryOf ps, fragment, hurl, hedited, ?_,
      fun w hw => Form.isText_of_mem_written ⟨_, rfl⟩ hw⟩
    rw [getD_queryOf]
    refine keeps_of_onParams ?_
    -- the query of a url is text, so nothing of it is repaired
    rw [Utf8.decodeLossy_encode, ← params_eq]
    exact hps
  · obtain ⟨ps, hps, rfl⟩ := onEncoded_eq_ok.1 h
    exact keeps_of_onParams hps

/-- One parameter goes, and one of the others is text. -/
theorem keeps_untouched_of_removed :
    let e : Edit := { remove := some (.string "x") }
    let url := "/?a=%C3%A9&x=1&b=%FF#f"
    let edited := "/?a=%C3%A9&b=%EF%BF%BD#f"
    e.isEmpty = false ∧ e.onUrl url = .ok edited ∧
      e.Keeps (Utf8.encode "a=%C3%A9&x=1&b=%FF") (Utf8.encode "a=%C3%A9&b=%EF%BF%BD") ∧
      IsText (Utf8.encode "%C3%A9") ∧
      Form.recoded (Utf8.encode "%C3%A9") = Form.decodeBytes (Utf8.encode "%C3%A9") := by
  intro e url edited
  have hok : e.onUrl url = .ok edited := by cbv
  have hurl : Parts url "/" (some "a=%C3%A9&x=1&b=%FF") (some "f") := by
    decide +kernel
  have hedited : Parts edited "/" (some "a=%C3%A9&b=%EF%BF%BD") (some "f") := by
    decide +kernel
  obtain ⟨hurls, -, htext, -⟩ := keeps_untouched e
  obtain ⟨_, _, _, _, hparts, hparts', hkeeps, -⟩ := hurls url edited rfl hok
  obtain ⟨-, rfl, -⟩ := hparts.unique hurl
  obtain ⟨-, rfl, -⟩ := hparts'.unique hedited
  exact ⟨rfl, hok, hkeeps, ⟨_, rfl⟩, (htext _ ⟨_, rfl⟩).2 ⟨"é", by cbv⟩⟩

/-- Setting one parameter changes a byte of another into three. -/
theorem onUrl_of_junk :
    let e : Edit := { set := some (.object [("b", .string "2")]) }
    e.onUrl "/?a=%FF&b=1" = .ok "/?a=%EF%BF%BD&b=2" ∧ "a" ∉ e.mentioned ∧
      ([97], [0xFF]) ∈ Form.decodePairs (Utf8.encode "a=%FF&b=1") ∧
      ([97], [0xFF]) ∉ Form.decodePairs (Utf8.encode "a=%EF%BF%BD&b=2") := by
  intro e
  have hbefore : Form.decodePairs (Utf8.encode "a=%FF&b=1") = [([97], [0xFF]), ([98], [49])] := by
    cbv
  have hafter : Form.decodePairs (Utf8.encode "a=%EF%BF%BD&b=2") =
      [([97], [0xEF, 0xBF, 0xBD]), ([98], [50])] := by
    cbv
  refine ⟨by cbv, by decide, ?_, ?_⟩
  · rw [hbefore]
    exact List.mem_cons_self
  · rw [hafter]
    decide

end Edit

end Gateway
