import Gateway.Proofs.Evaluation.Itemwise
import Gateway.Proofs.Evaluation.Untouched

/-!
# Gateway.Proofs.Evaluation.Overwriting — what an edit makes of header fields

`Edit.Overwrites` says what removing, setting and adding mean for the values of one name, without regard
to the steps by which it is done. Different keys of an object may spell the same name, in another case or
with white space around it: of those that set it the last one counts, of those that add to it all do. An
edit of header fields does this and no more, and it fails if and only if something that it lists is no
name or no value.

Header fields are seen through one name at a time. Whatever order an implementation keeps between
fields of different names, nobody may rely on it, while the order of the values of one name counts.
So `Headers.values` is all that statements speak of, and two sets of fields that agree in it are not
told apart, as in `headers_overwrite`, where doing an edit again gives the same values.

The meaning is given by the texts that spell names and values (`SpelledBy`, `IsFieldText`), not by the
functions that read them, and each reader has an iff with its grammar. That is what makes the condition
of failing one about the values that an edit was given: `Faulty` names a text that no name is spelled by,
where a statement about readers would say no more than that reading failed.

Values that are taken over come as objects, whose keys are in order (`Edit.InOrder`). For a value that
was made in some other way, which setting of a name is the last would be another question.
-/

set_option autoImplicit false

namespace Gateway

/-! ## Names and values as texts -/

/-- The text spells the name: a token, whatever its case, with white space around it. -/
def HeaderName.SpelledBy (name : HeaderName) (s : String) : Prop :=
  ∃ token, Padded isBlank token s.toList ∧ token ≠ [] ∧ token.length < 65536 ∧
    (∀ c ∈ token, isTokenChar c = true) ∧ token.map Char.toLower = name.text.toList

theorem HeaderName.ofText?_eq_some {s : String} {name : HeaderName} :
    HeaderName.ofText? s = some name ↔ s.toList ≠ [] ∧ s.toList.length < 65536 ∧
      (∀ c ∈ s.toList, isTokenChar c = true) ∧ s.toList.map Char.toLower = name.text.toList := by
  unfold HeaderName.ofText?
  split
  · next hspells =>
    simp only [Bool.and_eq_true, Bool.not_eq_true', decide_eq_true_eq, List.all_eq_true] at hspells
    obtain ⟨⟨hchars, hne⟩, hlength⟩ := hspells
    have hne : s.toList ≠ [] := by
      rintro hnil
      simp [String.toList_eq_nil_iff.1 hnil] at hne
    constructor
    · rintro ⟨⟩
      exact ⟨hne, hlength, hchars, String.toList_ofList.symm⟩
    · rintro ⟨-, -, -, hname⟩
      rw [lowerAscii, hname, String.ofList_toList]
  · next hspells =>
    constructor
    · rintro ⟨⟩
    · rintro ⟨hne, hlength, hchars, -⟩
      refine absurd ?_ hspells
      have hempty : s.isEmpty = false := by
        rw [← Bool.not_eq_true, String.isEmpty_iff]
        rintro rfl
        exact hne rfl
      rw [List.all_eq_true.2 hchars, hempty, decide_eq_true hlength]
      rfl

theorem headerName_eq_ok {s : String} {name : HeaderName} :
    headerName s = .ok name ↔ name.SpelledBy s := by
  have hok : headerName s = .ok name ↔ HeaderName.ofText? (trimBlank s) = some name := by
    unfold headerName
    cases HeaderName.ofText? (trimBlank s) <;> simp
  rw [hok, HeaderName.ofText?_eq_some]
  constructor
  · exact fun h => ⟨_, padded_trimBoth isBlank s, h⟩
  · rintro ⟨token, hpadded, h⟩
    obtain rfl : (trimBlank s).toList = token := hpadded.toList_trimBoth
    exact h

/-- A text that a field may have as its value: no control character but the tab is in it. -/
def IsFieldText (s : String) : Prop := ∀ c ∈ s.toList, (' ' ≤ c ∧ c ≠ '\x7f') ∨ c = '\t'

theorem isHeaderByte_encodeChar (c : Char) :
    (∀ b ∈ String.utf8EncodeChar c, isHeaderByte b = true) ↔ (' ' ≤ c ∧ c ≠ '\x7f') ∨ c = '\t' := by
  rcases Nat.lt_or_ge c.toNat 0x80 with hc | hc
  · -- an ASCII character is one byte
    have hascii : ∀ b : UInt8, b.toNat < 0x80 →
        (isHeaderByte b = true ↔ (' ' ≤ Char.ofNat b.toNat ∧ Char.ofNat b.toNat ≠ '\x7f') ∨
          Char.ofNat b.toNat = '\t') := by
      decide +kernel
    have hb : (UInt8.ofNat c.toNat).toNat = c.toNat := by
      rw [UInt8.toNat_ofNat']
      omega
    have hencode := Utf8.encodeChar_ascii (UInt8.ofNat c.toNat) (hb.symm ▸ hc)
    have hbyte := hascii (UInt8.ofNat c.toNat) (hb.symm ▸ hc)
    rw [hb, Char.ofNat_toNat] at hencode hbyte
    rw [hencode, ← hbyte]
    simp
  · -- the bytes of a longer one are no control characters, and neither is the character
    have hhigh : ∀ b : UInt8, 0x80 ≤ b.toNat → isHeaderByte b = true := by
      decide +kernel
    have hle : ' ' ≤ c := Char.le_def.2 (UInt32.le_iff_toNat_le.2 (Nat.le_trans (by decide) hc))
    have hne : c ≠ '\x7f' := by
      rintro rfl
      exact absurd hc (by decide)
    constructor
    · intro _
      exact .inl ⟨hle, hne⟩
    · intro _ b hb
      exact hhigh b (Utf8.le_of_mem_encodeChar hc hb)

theorem headerValue_eq_ok {s : String} {value : Bytes} :
    headerValue s = .ok value ↔ IsFieldText s ∧ Utf8.encode s = value := by
  have hall : (Utf8.encode s).all isHeaderByte = true ↔ IsFieldText s := by
    rw [List.all_eq_true, Utf8.encode, List.forall_mem_flatMap]
    exact forall₂_congr fun c _ => isHeaderByte_encodeChar c
  unfold headerValue headerValue?
  dsimp only
  rw [← hall]
  cases (Utf8.encode s).all isHeaderByte with
  | true => simp
  | false => simp

/-! ## What is listed -/

namespace Json

/-- A value that can list names. -/
def IsNameList : Json → Prop
  | .null | .string _ | .array _ => True
  | _ => False

/-- A value that can list names with texts. -/
def IsFieldList : Json → Prop
  | .null | .object _ => True
  | _ => False

/-- The names of header fields that a value lists. -/
def ListsNames (value : Json) (names : List HeaderName) : Prop :=
  ∃ texts, value.names = .ok texts ∧ List.Forall₂ (fun s name => name.SpelledBy s) texts names

/-- The entry of an object is a name with its values. -/
def SpellsField (entry : String × List String) (field : HeaderName × List Bytes) : Prop :=
  field.1.SpelledBy entry.1 ∧
    List.Forall₂ (fun s value => IsFieldText s ∧ Utf8.encode s = value) entry.2 field.2

/-- The names with their values that a value lists, in ascending order of its keys. -/
def ListsFields (value : Json) (fields : List (HeaderName × List Bytes)) : Prop :=
  ∃ entries, value.Lists entries ∧ List.Forall₂ SpellsField entries fields

/-- The value is no list of names, or one of them is no name. -/
inductive FaultyNames (value : Json) : Prop
  | type (htype : ¬ value.IsNameList)
  | name {texts : List String} {s : String} (htexts : value.names = .ok texts) (hmem : s ∈ texts)
      (hname : ∀ name : HeaderName, ¬ name.SpelledBy s)

/-- The value is no list of fields, or one of them has no name or no value. -/
inductive FaultyFields (value : Json) : Prop
  | type (htype : ¬ value.IsFieldList)
  | name {entries : List (String × List String)} {s : String} {texts : List String}
      (hentries : value.Lists entries) (hmem : (s, texts) ∈ entries)
      (hname : ∀ name : HeaderName, ¬ name.SpelledBy s)
  | value {entries : List (String × List String)} {s text : String} {texts : List String}
      (hentries : value.Lists entries) (hmem : (s, texts) ∈ entries) (htext : text ∈ texts)
      (hvalue : ¬ IsFieldText text)

end Json

namespace Edit

/-- What becomes of the values of a name when some names are removed and fields are set: the last field
of the name counts. -/
inductive Settles (removed : List HeaderName) (set : List (HeaderName × List Bytes))
    (name : HeaderName) (before : List Bytes) : List Bytes → Prop
  | set {earlier later : List (HeaderName × List Bytes)} {values : List Bytes}
      (hset : set = earlier ++ (name, values) :: later) (hlast : ∀ field ∈ later, field.1 ≠ name) :
      Settles removed set name before values
  | removed (hnot : ∀ field ∈ set, field.1 ≠ name) (hmem : name ∈ removed) :
      Settles removed set name before []
  | kept (hnot : ∀ field ∈ set, field.1 ≠ name) (hmem : name ∉ removed) :
      Settles removed set name before before

/-- What an edit makes of header fields: for each name, what is set or left of it, and then all that is
added to it. -/
inductive Overwrites (e : Edit) (before after : Headers) : Prop
  | intro {removed : List HeaderName} {set added : List (HeaderName × List Bytes)}
      (hremove : Given Json.ListsNames e.remove removed) (hset : Given Json.ListsFields e.set set)
      (hadd : Given Json.ListsFields e.add added)
      (hvalues : ∀ name, ∃ left, Settles removed set name (before.values name) left ∧
        after.values name = left ++ (added.filter (·.1 = name)).flatMap Prod.snd) :
      Overwrites e before after

/-- Something that an edit lists is no name or no value of header fields, or it is no list. -/
def Faulty (e : Edit) : Prop :=
  (∃ value ∈ e.remove, value.FaultyNames) ∨ (∃ value ∈ e.set, value.FaultyFields) ∨
    ∃ value ∈ e.add, value.FaultyFields

/-! ## Steps -/

theorem runScript_ok (h : Headers) (steps : List HeaderStep) :
    runScript h (steps.map .ok) = (steps.foldl HeaderStep.apply h, none) := by
  induction steps generalizing h with
  | nil => rfl
  | cons step steps ih => exact ih (step.apply h)

theorem headers_of_steps {e : Edit} {steps : List HeaderStep} (hscript : e.script = steps.map .ok)
    (h : Headers) : e.headers h = .ok (steps.foldl HeaderStep.apply h) := by
  rw [headers, onHeaders, hscript, runScript_ok]

theorem headers_of_error_mem {e : Edit} {error : EvalError} (hmem : .error error ∈ e.script)
    (h : Headers) : ∃ reported, e.headers h = .error reported := by
  have hfails : ∀ {script : Script} (h : Headers), .error error ∈ script →
      ∃ reported, (runScript h script).2 = some reported := by
    intro script
    induction script with
    | nil => exact fun _ hmem => absurd hmem List.not_mem_nil
    | cons item rest ih =>
      intro h hmem
      -- the steps end at the first error, which need not be the one that is known of
      cases item with
      | error reported => exact ⟨reported, rfl⟩
      | ok step => exact ih (step.apply h) (by simpa using hmem)
  obtain ⟨reported, hreported⟩ := hfails h hmem
  refine ⟨reported, ?_⟩
  rw [headers, onHeaders]
  rcases hrun : runScript h e.script with ⟨fields, error'⟩
  rw [hrun] at hreported
  cases hreported
  rfl

/-- The steps for fields; `first` comes before the values of each name. -/
def fieldSteps (first : HeaderName → List HeaderStep) (fields : List (HeaderName × List Bytes)) :
    List HeaderStep :=
  fields.flatMap fun field => first field.1 ++ field.2.map (.append field.1)

theorem values_foldl_append (values : List Bytes) (h : Headers) (n name : HeaderName) :
    ((values.map (HeaderStep.append n)).foldl HeaderStep.apply h).values name =
      h.values name ++ if n = name then values else [] := by
  induction values generalizing h with
  | nil => simp
  | cons value values ih =>
    rw [List.map_cons, List.foldl_cons, ih, HeaderStep.apply, Headers.values_append]
    by_cases hn : n = name <;> simp [hn]

theorem values_foldl_add (fields : List (HeaderName × List Bytes)) (h : Headers) (name : HeaderName) :
    ((fieldSteps (fun _ => []) fields).foldl HeaderStep.apply h).values name =
      h.values name ++ (fields.filter (·.1 = name)).flatMap Prod.snd := by
  induction fields generalizing h with
  | nil => simp [fieldSteps]
  | cons field fields ih =>
    simp only [fieldSteps, List.flatMap_cons, List.foldl_append, List.nil_append] at ih ⊢
    rw [ih, values_foldl_append]
    by_cases hn : field.1 = name <;> simp [hn]

/-- The last field of a name is set, or the values of the name are left alone. -/
theorem values_foldl_set (fields : List (HeaderName × List Bytes)) (h : Headers) (name : HeaderName) :
    let after := (fieldSteps (fun n => [.remove n]) fields).foldl HeaderStep.apply h
    (∃ earlier later, fields = earlier ++ (name, after.values name) :: later ∧
        ∀ field ∈ later, field.1 ≠ name) ∨
      (∀ field ∈ fields, field.1 ≠ name) ∧ after.values name = h.values name := by
  induction fields generalizing h with
  | nil => exact .inr ⟨by simp, rfl⟩
  | cons field fields ih =>
    simp only [fieldSteps, List.flatMap_cons, List.foldl_append, List.foldl_cons,
      List.singleton_append] at ih ⊢
    rcases ih ((field.2.map (HeaderStep.append field.1)).foldl HeaderStep.apply
      (HeaderStep.apply h (.remove field.1))) with ⟨earlier, later, hfields, hlast⟩ | ⟨hnot, hvalues⟩
    · refine .inl ⟨field :: earlier, later, ?_, hlast⟩
      rw [List.cons_append, ← hfields]
    rw [hvalues, values_foldl_append, HeaderStep.apply, Headers.values_remove]
    by_cases hn : field.1 = name
    · refine .inl ⟨[], fields, ?_, hnot⟩
      rw [if_pos hn, if_pos hn, List.nil_append, List.nil_append, ← hn]
    · rw [if_neg hn, if_neg hn, List.append_nil]
      exact .inr ⟨List.forall_mem_cons.2 ⟨hn, hnot⟩, rfl⟩

theorem settles_foldl (removed : List HeaderName) (fields : List (HeaderName × List Bytes))
    (h : Headers) (name : HeaderName) :
    Settles removed fields name (h.values name)
      (((removed.map HeaderStep.remove ++ fieldSteps (fun n => [.remove n]) fields).foldl
        HeaderStep.apply h).values name) := by
  rw [List.foldl_append]
  -- what is removed goes first, so a name that is set as well is set in the end
  have hremoved : ((removed.map HeaderStep.remove).foldl HeaderStep.apply h).values name =
      if name ∈ removed then [] else h.values name := by
    rw [List.foldl_map]
    exact Headers.values_foldl_remove removed h name
  rcases values_foldl_set fields ((removed.map HeaderStep.remove).foldl HeaderStep.apply h) name
    with ⟨earlier, later, hset, hlast⟩ | ⟨hnot, hvalues⟩
  · exact .set hset hlast
  · rw [hvalues, hremoved]
    split
    · next hmem => exact .removed hnot hmem
    · next hmem => exact .kept hnot hmem

theorem getLast?_of_last {set earlier later : List (HeaderName × List Bytes)} {name : HeaderName}
    {values : List Bytes} (hset : set = earlier ++ (name, values) :: later)
    (hlast : ∀ field ∈ later, field.1 ≠ name) :
    (set.filter (·.1 = name)).getLast? = some (name, values) := by
  have hlater : later.filter (·.1 = name) = [] := List.filter_eq_nil_iff.2 (by simpa using hlast)
  simp [hset, hlater]

/-- What is settled for a name is settled for good. -/
theorem Settles.again {removed : List HeaderName} {set : List (HeaderName × List Bytes)}
    {name : HeaderName} {before left again : List Bytes} (h : Settles removed set name before left)
    (h' : Settles removed set name left again) : again = left := by
  have hmem : ∀ {earlier later : List (HeaderName × List Bytes)} {values : List Bytes},
      set = earlier ++ (name, values) :: later → (name, values) ∈ set := by
    rintro earlier later values rfl
    simp
  cases h with
  | set hset hlast =>
    cases h' with
    | set hset' hlast' =>
      have heq := (getLast?_of_last hset' hlast').symm.trans (getLast?_of_last hset hlast)
      simpa using heq
    | removed hnot => exact absurd rfl (hnot _ (hmem hset))
    | kept hnot => rfl
  | removed hnot hin =>
    cases h' with
    | set hset' => exact absurd rfl (hnot _ (hmem hset'))
    | removed => rfl
    | kept => rfl
  | kept hnot hin =>
    cases h' with
    | set hset' => exact absurd rfl (hnot _ (hmem hset'))
    | removed _ hin' => exact absurd hin' hin
    | kept => rfl

/-- A name that is not listed keeps its values. -/
theorem Settles.eq_of_unlisted {removed : List HeaderName} {set : List (HeaderName × List Bytes)}
    {name : HeaderName} {before left : List Bytes} (h : Settles removed set name before left)
    (hremoved : name ∉ removed) (hset : ∀ field ∈ set, field.1 ≠ name) : left = before := by
  cases h with
  | set heq => exact absurd rfl (hset (name, left) (by simp [heq]))
  | removed _ hmem => exact absurd hmem hremoved
  | kept => rfl

/-! ## Reading what is listed -/

theorem exists_headerName_error {s : String} (h : ∀ name : HeaderName, ¬ name.SpelledBy s) :
    ∃ error, headerName s = .error error := by
  cases hname : headerName s with
  | ok name => exact absurd (headerName_eq_ok.1 hname) (h name)
  | error error => exact ⟨error, rfl⟩

theorem exists_headerValue_error {s : String} (h : ¬ IsFieldText s) :
    ∃ error, headerValue s = .error error := by
  cases hvalue : headerValue s with
  | ok value => exact absurd (headerValue_eq_ok.1 hvalue).1 h
  | error error => exact ⟨error, rfl⟩

theorem exists_listsNames {value : Json} (h : ¬ value.FaultyNames) :
    ∃ names, value.ListsNames names := by
  cases htexts : value.names with
  | error error =>
    refine absurd (.type fun htype => ?_) h
    cases value with
    | null | string | array => cases htexts
    | bool | number | object => exact htype
  | ok texts =>
    have hnames : ∀ s ∈ texts, ∃ name : HeaderName, name.SpelledBy s := by
      intro s hs
      by_contra hnone
      exact h (.name htexts hs (not_exists.1 hnone))
    obtain ⟨names, hnames⟩ := exists_forall₂ hnames
    exact ⟨names, texts, htexts, hnames⟩

theorem exists_listsFields {value : Json} (horder : value.InOrder) (h : ¬ value.FaultyFields) :
    ∃ fields, value.ListsFields fields := by
  cases hpairs : value.pairs with
  | error error =>
    refine absurd (.type fun htype => ?_) h
    cases value with
    | null | object => cases hpairs
    | bool | number | string | array => exact htype
  | ok entries =>
    have hentries := (Json.lists_iff horder).2 hpairs
    have hfields : ∀ entry ∈ entries, ∃ field, Json.SpellsField entry field := by
      rintro ⟨s, texts⟩ hmem
      have hvalues : ∀ text ∈ texts, ∃ value, IsFieldText text ∧ Utf8.encode text = value := by
        intro text htext
        refine ⟨_, ?_, rfl⟩
        by_contra hnone
        exact h (.value hentries hmem htext hnone)
      obtain ⟨values, hvalues⟩ := exists_forall₂ hvalues
      by_contra hnone
      refine h (.name hentries hmem fun name hname => hnone ⟨(name, values), hname, hvalues⟩)
    obtain ⟨fields, hfields⟩ := exists_forall₂ hfields
    exact ⟨fields, entries, hentries, hfields⟩

theorem exists_given {α : Type} {lists : Json → List α → Prop} {given : Option Json}
    (h : ∀ value ∈ given, ∃ items, lists value items) : ∃ items, Given lists given items := by
  cases given with
  | none => exact ⟨[], rfl⟩
  | some value => exact h value rfl

/-- The texts that spell what is listed. -/
theorem exists_texts {given : Option Json} {removed : List HeaderName}
    (h : Given Json.ListsNames given removed) :
    ∃ texts, (given.map Json.names).getD (.ok []) = .ok texts ∧
      List.Forall₂ (fun s (name : HeaderName) => name.SpelledBy s) texts removed := by
  cases given with
  | none =>
    obtain rfl : removed = [] := h
    exact ⟨[], rfl, .nil⟩
  | some value => exact h

theorem exists_entries {given : Option Json} {fields : List (HeaderName × List Bytes)}
    (horder : ∀ value ∈ given, value.InOrder) (h : Given Json.ListsFields given fields) :
    ∃ entries, (given.map Json.pairs).getD (.ok []) = .ok entries ∧
      List.Forall₂ Json.SpellsField entries fields := by
  cases given with
  | none =>
    obtain rfl : fields = [] := h
    exact ⟨[], rfl, .nil⟩
  | some value =>
    obtain ⟨entries, hentries, hfields⟩ := h
    exact ⟨entries, (Json.lists_iff (horder value rfl)).1 hentries, hfields⟩

/-- A name that no mentioned text spells is not listed. -/
theorem unlisted_of_unmentioned {e : Edit} (horder : e.InOrder) {removed : List HeaderName}
    {set added : List (HeaderName × List Bytes)} (hremove : Given Json.ListsNames e.remove removed)
    (hset : Given Json.ListsFields e.set set) (hadd : Given Json.ListsFields e.add added)
    {name : HeaderName} (hname : ∀ s ∈ e.mentioned, ¬ name.SpelledBy s) :
    name ∉ removed ∧ ∀ field ∈ set ++ added, field.1 ≠ name := by
  obtain ⟨texts, htexts, hnames⟩ := exists_texts hremove
  obtain ⟨entries, hentries, hfields⟩ := exists_entries horder.1 hset
  obtain ⟨entries', hentries', hfields'⟩ := exists_entries horder.2 hadd
  have hmem : ∀ s, s ∈ e.mentioned ↔
      s ∈ texts ∨ s ∈ entries.map Prod.fst ∨ s ∈ entries'.map Prod.fst :=
    fun _ => mem_mentioned htexts hentries hentries'
  refine ⟨fun hin => ?_, fun field hfield heq => ?_⟩
  · obtain ⟨s, hs, hspelled⟩ := exists_of_mem_right hnames hin
    exact hname s ((hmem s).2 (.inl hs)) hspelled
  · rcases List.mem_append.1 hfield with hfield | hfield
    · obtain ⟨entry, hentry, hspelled, -⟩ := exists_of_mem_right hfields hfield
      exact hname entry.1 ((hmem _).2 (.inr (.inl (List.mem_map_of_mem hentry)))) (heq ▸ hspelled)
    · obtain ⟨entry, hentry, hspelled, -⟩ := exists_of_mem_right hfields' hfield
      exact hname entry.1 ((hmem _).2 (.inr (.inr (List.mem_map_of_mem hentry)))) (heq ▸ hspelled)

/-! ## Scripts -/

theorem removeScript_eq {value : Json} {names : List HeaderName} (h : value.ListsNames names) :
    removeScript value = (names.map HeaderStep.remove).map .ok := by
  obtain ⟨texts, htexts, hnames⟩ := h
  rw [removeScript, htexts]
  dsimp only
  clear htexts
  induction hnames with
  | nil => rfl
  | cons hname _ ih =>
    rw [List.map_cons, headerName_eq_ok.2 hname, ih]
    rfl

theorem appendScript_eq {name : HeaderName} {texts : List String} {values : List Bytes}
    (h : List.Forall₂ (fun s value => IsFieldText s ∧ Utf8.encode s = value) texts values) :
    appendScript name texts = (values.map (HeaderStep.append name)).map .ok := by
  rw [appendScript]
  induction h with
  | nil => rfl
  | cons hvalue _ ih =>
    rw [List.map_cons, headerValue_eq_ok.2 hvalue, ih]
    rfl

theorem pairsScript_eq {value : Json} {fields : List (HeaderName × List Bytes)}
    (horder : value.InOrder) (h : value.ListsFields fields) (first : HeaderName → List HeaderStep) :
    pairsScript (fun name => (first name).map .ok) value = (fieldSteps first fields).map .ok := by
  obtain ⟨entries, hentries, hfields⟩ := h
  rw [pairsScript, (Json.lists_iff horder).1 hentries]
  dsimp only
  clear hentries
  induction hfields with
  | nil => rfl
  | cons hfield _ ih =>
    simp only [fieldSteps, List.flatMap_cons, List.map_append] at ih ⊢
    rw [ih, headerName_eq_ok.2 hfield.1]
    dsimp only
    rw [appendScript_eq hfield.2]

theorem removeScript_given {given : Option Json} {names : List HeaderName}
    (h : Given Json.ListsNames given names) :
    (given.map removeScript).getD [] = (names.map HeaderStep.remove).map .ok := by
  cases given with
  | none =>
    obtain rfl : names = [] := h
    rfl
  | some value =>
    rw [Option.map_some, Option.getD_some]
    exact removeScript_eq h

theorem pairsScript_given {given : Option Json} {fields : List (HeaderName × List Bytes)}
    (horder : ∀ value ∈ given, value.InOrder) (h : Given Json.ListsFields given fields)
    (first : HeaderName → List HeaderStep) :
    (given.map (pairsScript fun name => (first name).map .ok)).getD [] =
      (fieldSteps first fields).map .ok := by
  cases given with
  | none =>
    obtain rfl : fields = [] := h
    rfl
  | some value =>
    rw [Option.map_some, Option.getD_some]
    exact pairsScript_eq (horder value rfl) h first

theorem script_eq {e : Edit} (horder : e.InOrder) {removed : List HeaderName}
    {set added : List (HeaderName × List Bytes)} (hremove : Given Json.ListsNames e.remove removed)
    (hset : Given Json.ListsFields e.set set) (hadd : Given Json.ListsFields e.add added) :
    e.script = (removed.map HeaderStep.remove ++ fieldSteps (fun n => [.remove n]) set ++
      fieldSteps (fun _ => []) added).map .ok := by
  have hsets := pairsScript_given horder.1 hset fun n => [.remove n]
  have hadds := pairsScript_given horder.2 hadd fun _ => []
  rw [List.map_append, List.map_append, ← removeScript_given hremove, ← hsets, ← hadds]
  rfl

theorem error_mem_removeScript {value : Json} (h : value.FaultyNames) :
    ∃ error, .error error ∈ removeScript value := by
  cases h with
  | type htype =>
    cases value with
    | null | string | array => exact absurd trivial htype
    | bool | number | object => exact ⟨_, List.mem_cons_self⟩
  | name htexts hmem hname =>
    obtain ⟨error, herror⟩ := exists_headerName_error hname
    refine ⟨error, ?_⟩
    rw [removeScript, htexts]
    exact List.mem_map.2 ⟨_, hmem, by rw [herror]; rfl⟩

theorem error_mem_pairsScript {value : Json} (horder : value.InOrder) (h : value.FaultyFields)
    (first : HeaderName → Script) : ∃ error, .error error ∈ pairsScript first value := by
  -- what an entry makes of the script is in the script
  have hrefused : ∀ {entries : List (String × List String)} {s : String} {texts : List String}
      {error : EvalError}, value.Lists entries → (s, texts) ∈ entries →
      headerName s = .error error → .error error ∈ pairsScript first value := by
    intro entries s texts error hentries hmem hname
    rw [pairsScript, (Json.lists_iff horder).1 hentries]
    refine List.mem_flatMap.2 ⟨(s, texts), hmem, ?_⟩
    simp [hname]
  have hnamed : ∀ {entries : List (String × List String)} {s : String} {texts : List String}
      {name : HeaderName} {error : EvalError}, value.Lists entries → (s, texts) ∈ entries →
      headerName s = .ok name → .error error ∈ appendScript name texts →
      .error error ∈ pairsScript first value := by
    intro entries s texts name error hentries hmem hname hin
    rw [pairsScript, (Json.lists_iff horder).1 hentries]
    refine List.mem_flatMap.2 ⟨(s, texts), hmem, ?_⟩
    simp [hname, hin]
  cases h with
  | type htype =>
    cases value with
    | null | object => exact absurd trivial htype
    | bool | number | string | array => exact ⟨_, List.mem_cons_self⟩
  | name hentries hmem hname =>
    obtain ⟨error, herror⟩ := exists_headerName_error hname
    exact ⟨error, hrefused hentries hmem herror⟩
  | @value entries s text texts hentries hmem htext hvalue =>
    cases hname : headerName s with
    | error error => exact ⟨error, hrefused hentries hmem hname⟩
    | ok name =>
      obtain ⟨error, herror⟩ := exists_headerValue_error hvalue
      refine ⟨error, hnamed hentries hmem hname (List.mem_map.2 ⟨text, htext, ?_⟩)⟩
      rw [herror]
      rfl

/-! ## Header fields -/

theorem headers_of_faulty {e : Edit} (horder : e.InOrder) (h : e.Faulty) (before : Headers) :
    ∃ error, e.headers before = .error error := by
  obtain ⟨remove, set, add⟩ := e
  rcases h with ⟨value, ⟨⟩, hvalue⟩ | ⟨value, ⟨⟩, hvalue⟩ | ⟨value, ⟨⟩, hvalue⟩
  · obtain ⟨error, hmem⟩ := error_mem_removeScript hvalue
    exact headers_of_error_mem (List.mem_append_left _ (List.mem_append_left _ hmem)) before
  · obtain ⟨error, hmem⟩ := error_mem_pairsScript (horder.1 _ rfl) hvalue fun n => [.ok (.remove n)]
    exact headers_of_error_mem (List.mem_append_left _ (List.mem_append_right _ hmem)) before
  · obtain ⟨error, hmem⟩ := error_mem_pairsScript (horder.2 _ rfl) hvalue fun _ => []
    exact headers_of_error_mem (List.mem_append_right _ hmem) before

/-- An edit that is not faulty lists names and fields, and its steps are done for them. -/
theorem headers_of_not_faulty {e : Edit} (horder : e.InOrder) (h : ¬ e.Faulty) :
    ∃ removed set added, Given Json.ListsNames e.remove removed ∧
      Given Json.ListsFields e.set set ∧ Given Json.ListsFields e.add added ∧
      ∀ before, ∃ after, e.headers before = .ok after ∧
        ∀ name, ∃ left, Settles removed set name (before.values name) left ∧
          after.values name = left ++ (added.filter (·.1 = name)).flatMap Prod.snd := by
  rw [Faulty, not_or, not_or] at h
  obtain ⟨hremove, hset, hadd⟩ := h
  obtain ⟨removed, hremoved⟩ := exists_given fun value hvalue =>
    exists_listsNames fun hfaulty => hremove ⟨value, hvalue, hfaulty⟩
  obtain ⟨set, hset⟩ := exists_given fun value hvalue =>
    exists_listsFields (horder.1 value hvalue) fun hfaulty => hset ⟨value, hvalue, hfaulty⟩
  obtain ⟨added, hadded⟩ := exists_given fun value hvalue =>
    exists_listsFields (horder.2 value hvalue) fun hfaulty => hadd ⟨value, hvalue, hfaulty⟩
  refine ⟨removed, set, added, hremoved, hset, hadded, fun before => ?_⟩
  refine ⟨_, headers_of_steps (script_eq horder hremoved hset hadded) before, fun name => ?_⟩
  refine ⟨_, settles_foldl removed set before name, ?_⟩
  rw [List.foldl_append, values_foldl_add]

/-- An edit of header fields overwrites them, or it is faulty and fails. Names that it does not mention
keep their values, and without adding anything it changes nothing when it is done again. -/
theorem headers_overwrite {e : Edit} (horder : e.InOrder) (before : Headers) :
    ((∃ error, e.headers before = .error error) ↔ e.Faulty) ∧
      ∀ after, e.headers before = .ok after → e.Overwrites before after ∧
        (∀ name : HeaderName, (∀ s ∈ e.mentioned, ¬ name.SpelledBy s) →
          after.values name = before.values name) ∧
        (e.add = none → ∃ again, e.headers after = .ok again ∧
          ∀ name, again.values name = after.values name) := by
  by_cases hfaulty : e.Faulty
  · obtain ⟨error, herror⟩ := headers_of_faulty horder hfaulty before
    refine ⟨⟨fun _ => hfaulty, fun _ => ⟨error, herror⟩⟩, fun after h => ?_⟩
    cases herror.symm.trans h
  obtain ⟨removed, set, added, hremove, hset, hadd, hheaders⟩ := headers_of_not_faulty horder hfaulty
  obtain ⟨after, hafter, hvalues⟩ := hheaders before
  refine ⟨⟨fun ⟨error, herror⟩ => ?_, fun h => absurd h hfaulty⟩, fun after' h => ?_⟩
  · cases hafter.symm.trans herror
  cases hafter.symm.trans h
  refine ⟨.intro hremove hset hadd hvalues, fun name hname => ?_, fun hnone => ?_⟩
  · obtain ⟨hremoved, hfields⟩ := unlisted_of_unmentioned horder hremove hset hadd hname
    obtain ⟨left, hleft, heq⟩ := hvalues name
    have hadded : added.filter (·.1 = name) = [] :=
      List.filter_eq_nil_iff.2 fun field hfield =>
        by simpa using hfields field (List.mem_append_right set hfield)
    rw [heq, hadded, List.flatMap_nil, List.append_nil]
    exact hleft.eq_of_unlisted hremoved fun field hfield => hfields field (List.mem_append_left added hfield)
  -- with nothing added, what is left of a name is all there is of it
  · obtain ⟨again, hagain, hvalues'⟩ := hheaders after
    refine ⟨again, hagain, fun name => ?_⟩
    rw [hnone] at hadd
    obtain rfl : added = [] := hadd
    obtain ⟨left, hleft, heq⟩ := hvalues name
    obtain ⟨left', hleft', heq'⟩ := hvalues' name
    rw [List.filter_nil, List.flatMap_nil, List.append_nil] at heq heq'
    rw [heq] at hleft'
    rw [heq, heq', hleft.again hleft']

/-- Two keys set one name, another key adds to it, and a name is set to nothing. -/
theorem headers_overwrite_of_collision :
    let e : Edit :=
      { remove := some (.array [.string "X-C", .string " x-b "])
        set := some (Json.ofFields [("x-a", .array [.string "q", .string "r"]), ("X-A", .string "p"),
          ("X-B", .array [])]) }
    let adding : Edit := { e with add := some (Json.ofFields [("X-a", .ofNat 4), ("x-d", .null)]) }
    let before : Headers :=
      ⟨[(⟨"x-a"⟩, [48]), (⟨"x-b"⟩, [49]), (⟨"x-c"⟩, [50]), (⟨"x-d"⟩, [51])]⟩
    let after : Headers := ⟨[(⟨"x-d"⟩, [51]), (⟨"x-a"⟩, [113]), (⟨"x-a"⟩, [114])]⟩
    let added : Headers := ⟨after.fields ++ [(⟨"x-a"⟩, [52]), (⟨"x-d"⟩, [])]⟩
    e.InOrder ∧ adding.InOrder ∧ e.headers before = .ok after ∧ adding.headers before = .ok added ∧
      e.Overwrites before after ∧ adding.Overwrites before added ∧ ¬ adding.Faulty ∧
      ∃ again, e.headers after = .ok again ∧ ∀ name, again.values name = after.values name := by
  intro e adding before after added
  have horder : adding.InOrder := by
    constructor
    · rintro value ⟨⟩
      exact Json.inOrder_ofFields _
    · rintro value ⟨⟩
      exact Json.inOrder_ofFields _
  have horder' : e.InOrder := ⟨horder.1, nofun⟩
  have hafter : e.headers before = .ok after := by cbv
  have hadded : adding.headers before = .ok added := by cbv
  obtain ⟨hfails, hadding⟩ := headers_overwrite horder before
  obtain ⟨hoverwrites, -, hagain⟩ := (headers_overwrite horder' before).2 after hafter
  refine ⟨horder', horder, hafter, hadded, hoverwrites, (hadding added hadded).1, fun hfaulty => ?_,
    hagain rfl⟩
  obtain ⟨error, herror⟩ := hfails.2 hfaulty
  cases hadded.symm.trans herror

end Edit

end Gateway
