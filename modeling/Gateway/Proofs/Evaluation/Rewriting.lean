import Gateway.Proofs.Evaluation.Failing
import Gateway.Proofs.Form.RoundTrip
import Gateway.Proofs.Http.Parts

/-!
# Gateway.Proofs.Evaluation.Rewriting — what an edit makes of parameters

`Edit.Rewrites` says what removing, setting and adding mean for a list of parameters, without regard to
how they are done: a name that is set takes the place that it had first, and the entries of an object
count in the order of their names. Editing parameters is this, and no more: a url and a form that were
edited are read as what the parameters of the old ones are rewritten to, and what stands around a query
stays.

Unlike header fields, parameters have one order for all names together, and a server may look at it. So
the whole list is described. `Sets` takes it apart at the first parameter of the name, where there is
one, and has another case for where there is none; each case says where everything else is. Setting
several names is one after the other and not all at once, since two entries of an object never have the
same name, but the places that names had first depend on what was put there before.

A url is rewritten between two separators. What is in front of the question mark and behind the number
sign is the same text as before, and this is said with `Http.Parts`, by how the url is put together and
not by how it is cut. An edit that lists nothing leaves a url as it is, byte for byte, which one that
lists names in vain does not: the query is written anew.
-/

set_option autoImplicit false

namespace Gateway

/-! ## Setting a name -/

/-- All parameters of a name give way to one for each value, in the place of the first of them. If there
is none, the new ones stand at the end. -/
inductive Sets (name : String) (values : List String) : List Param → List Param → Prop
  | inPlace {front back : List Param} {old : String} (hfront : ∀ p ∈ front, p.1 ≠ name) :
      Sets name values (front ++ (name, old) :: back)
        (front ++ values.map (name, ·) ++ back.filter (·.1 ≠ name))
  | atEnd {before : List Param} (hnone : ∀ p ∈ before, p.1 ≠ name) :
      Sets name values before (before ++ values.map (name, ·))

/-- One name after the other is set. -/
inductive SetsAll : List (String × List String) → List Param → List Param → Prop
  | nil {before : List Param} : SetsAll [] before before
  | cons {name : String} {values : List String} {entries : List (String × List String)}
      {before between after : List Param} (hsets : Sets name values before between)
      (hrest : SetsAll entries between after) : SetsAll ((name, values) :: entries) before after

theorem setParam_append {name old : String} {front : List Param} (hfront : ∀ p ∈ front, p.1 ≠ name)
    (back : List Param) (values : List String) :
    Edit.setParam (front ++ (name, old) :: back) name values =
      front ++ values.map (name, ·) ++ back.filter (·.1 ≠ name) := by
  have hkept : ∀ p ∈ front, decide (p.1 ≠ name) = true := fun p hp => decide_eq_true (hfront p hp)
  rw [Edit.setParam, List.takeWhile_append_of_pos hkept, List.dropWhile_append_of_pos hkept]
  simp

theorem setParam_of_notMem {name : String} {ps : List Param} (hnone : ∀ p ∈ ps, p.1 ≠ name)
    (values : List String) : Edit.setParam ps name values = ps ++ values.map (name, ·) := by
  have hkept : ∀ p ∈ ps, decide (p.1 ≠ name) = true := fun p hp => decide_eq_true (hnone p hp)
  rw [Edit.setParam, List.takeWhile_eq_self_iff.2 hkept, List.dropWhile_eq_nil_iff.2 hkept,
    List.filter_nil, List.append_nil]

theorem sets_iff {name : String} {values : List String} {before after : List Param} :
    Sets name values before after ↔ Edit.setParam before name values = after := by
  constructor
  · rintro (hfront | hnone)
    · exact setParam_append hfront _ values
    · exact setParam_of_notMem hnone values
  · rintro rfl
    -- the first parameter of the name is where the new values go; without one they go to the end
    cases hfind : before.find? (·.1 = name) with
    | none =>
      have hnone : ∀ p ∈ before, p.1 ≠ name := by simpa using hfind
      rw [setParam_of_notMem hnone]
      exact .atEnd hnone
    | some p =>
      obtain ⟨hname, front, back, rfl, hfront⟩ := List.find?_eq_some_iff_append.1 hfind
      obtain ⟨key, old⟩ := p
      obtain rfl : key = name := of_decide_eq_true hname
      have hfront : ∀ p ∈ front, p.1 ≠ key := by simpa using hfront
      rw [setParam_append hfront]
      exact .inPlace hfront

theorem setsAll_iff {entries : List (String × List String)} {before after : List Param} :
    SetsAll entries before after ↔
      entries.foldl (fun ps (name, values) => Edit.setParam ps name values) before = after := by
  induction entries generalizing before with
  | nil =>
    constructor
    · rintro ⟨⟩
      rfl
    · rintro rfl
      exact .nil
  | cons entry entries ih =>
    obtain ⟨name, values⟩ := entry
    rw [List.foldl_cons, ← ih]
    dsimp only
    constructor
    · rintro (_ | ⟨hsets, hrest⟩)
      rw [sets_iff] at hsets
      exact hsets ▸ hrest
    · exact fun hrest => .cons (sets_iff.2 rfl) hrest

/-! ## What is given -/

namespace Json

/-- An object lists its members in ascending order of their keys. -/
def InOrder : Json → Prop
  | .object members => members.Pairwise fun m n => m.1 < n.1
  | _ => True

/-- The entries of an object with the texts under their names, in ascending order of the names. Null has
none. -/
inductive Lists : Json → List (String × List String) → Prop
  | null : Lists .null []
  | object {members : Members} {entries : List (String × List String)}
      (hsorted : entries.Pairwise fun x y => x.1 < y.1)
      (hperm : entries.Perm (members.map fun member => (member.1, member.2.texts))) :
      Lists (.object members) entries

theorem lists_iff {value : Json} (h : value.InOrder) {entries : List (String × List String)} :
    value.Lists entries ↔ value.pairs = .ok entries := by
  constructor
  · rintro (_ | ⟨hsorted, hperm⟩)
    · rfl
    · refine congrArg Except.ok (hperm.symm.eq_of_pairwise ?_ ?_ hsorted)
      · exact fun x y _ _ hxy hyx => absurd hxy (String.lt_asymm hyx)
      · exact List.pairwise_map.2 h
  · intro hpairs
    cases value with
    | null =>
      cases hpairs
      exact .null
    | object members =>
      cases hpairs
      exact .object (List.pairwise_map.2 h) (.refl _)
    | _ => cases hpairs

theorem Members.mem_set {members : Members} {key : String} {value : Json} {member : String × Json}
    (h : member ∈ members.set key value) : member = (key, value) ∨ member ∈ members := by
  induction members with
  | nil => exact .inl (List.mem_singleton.1 h)
  | cons first rest ih =>
    obtain ⟨k, v⟩ := first
    unfold set at h
    split at h
    · exact List.mem_cons.1 h
    split at h
    · exact (List.mem_cons.1 h).imp_right (List.mem_cons_of_mem _)
    · rcases List.mem_cons.1 h with rfl | h
      · exact .inr List.mem_cons_self
      · exact (ih h).imp_right (List.mem_cons_of_mem _)

theorem Members.pairwise_set {members : Members} (h : members.Pairwise fun m n => m.1 < n.1)
    (key : String) (value : Json) : (members.set key value).Pairwise fun m n => m.1 < n.1 := by
  induction members with
  | nil => exact List.pairwise_singleton ..
  | cons first rest ih =>
    obtain ⟨k, v⟩ := first
    obtain ⟨hfirst, hrest⟩ := List.pairwise_cons.1 h
    unfold set
    split
    · next hlt =>
      refine List.pairwise_cons.2 ⟨fun m hm => ?_, h⟩
      rcases List.mem_cons.1 hm with rfl | hm
      · exact hlt
      · exact String.lt_trans hlt (hfirst m hm)
    split
    · next heq => exact List.pairwise_cons.2 ⟨heq ▸ hfirst, hrest⟩
    · next hlt hne =>
      refine List.pairwise_cons.2 ⟨fun m hm => ?_, ih hrest⟩
      rcases Members.mem_set hm with rfl | hm
      · by_contra hge
        exact hne (String.le_antisymm (String.not_lt.1 hge) (String.not_lt.1 hlt))
      · exact hfirst m hm

/-- An object that is made from fields lists them in order. -/
theorem inOrder_ofFields (fields : List (String × Json)) : (ofFields fields).InOrder := by
  suffices hfold : ∀ members : Members, (members.Pairwise fun m n => m.1 < n.1) →
      (fields.foldl (fun members field => members.set field.1 field.2) members).Pairwise
        fun m n => m.1 < n.1 by
    exact hfold [] .nil
  induction fields with
  | nil => exact fun _ h => h
  | cons field fields ih => exact fun members h => ih _ (Members.pairwise_set h field.1 field.2)

end Json

/-! ## Parameters -/

namespace Edit

/-- What an attribute lists; nothing if it is not given. -/
def Given {α : Type} (lists : Json → List α → Prop) : Option Json → List α → Prop
  | none, items => items = []
  | some value, items => lists value items

/-- What an edit makes of parameters: those of the names that are removed go, the names that are set get
their values one after the other, and the further ones stand at the end. -/
inductive Rewrites (e : Edit) (before : List Param) : List Param → Prop
  | intro {removed : List String} {set added : List (String × List String)} {replaced : List Param}
      (hremove : Given (fun value names => value.names = .ok names) e.remove removed)
      (hset : Given Json.Lists e.set set) (hadd : Given Json.Lists e.add added)
      (hsets : SetsAll set (before.filter (·.1 ∉ removed)) replaced) :
      Rewrites e before (replaced ++ added.flatMap fun (name, values) => values.map (name, ·))

/-- The objects that are given list their members in order. -/
def InOrder (e : Edit) : Prop := (∀ value ∈ e.set, value.InOrder) ∧ ∀ value ∈ e.add, value.InOrder

theorem given_iff {α : Type} {read : Json → Except EvalError (List α)} {given : Option Json}
    {items : List α} :
    Given (fun value items => read value = .ok items) given items ↔
      (given.map read).getD (.ok []) = .ok items := by
  cases given with
  | none => exact ⟨fun h => congrArg Except.ok h.symm, fun h => (Except.ok.inj h).symm⟩
  | some value => exact Iff.rfl

theorem given_lists_iff {given : Option Json} (h : ∀ value ∈ given, value.InOrder)
    {entries : List (String × List String)} :
    Given Json.Lists given entries ↔ (given.map Json.pairs).getD (.ok []) = .ok entries := by
  rw [← given_iff]
  cases given with
  | none => exact Iff.rfl
  | some value => exact Json.lists_iff (h value rfl)

theorem params_given (given : Option Json) :
    (given.map Json.params).getD (.ok []) = ((given.map Json.pairs).getD (.ok [])).map
      (·.flatMap fun (name, texts) => texts.map (name, ·)) := by
  cases given <;> rfl

/-- Editing succeeds if what is given can be read. -/
theorem onParams_eq_ok {e : Edit} {before after : List Param} :
    e.onParams before = .ok after ↔
      ∃ removed set added, (e.remove.map Json.names).getD (.ok []) = .ok removed ∧
        (e.set.map Json.pairs).getD (.ok []) = .ok set ∧
        (e.add.map Json.pairs).getD (.ok []) = .ok added ∧
        set.foldl (fun ps (name, values) => setParam ps name values)
            (before.filter (·.1 ∉ removed)) ++
          added.flatMap (fun (name, values) => values.map (name, ·)) = after := by
  have hkept : ∀ removed : List String, (before.filter fun p => !removed.contains p.1) =
      before.filter (·.1 ∉ removed) := by
    intro removed
    refine List.filter_congr fun p _ => ?_
    simp
  constructor
  · intro h
    obtain ⟨removed, hremove, h⟩ := exists_of_bind h
    obtain ⟨set, hset, h⟩ := exists_of_bind h
    obtain ⟨params, hparams, h⟩ := exists_of_bind h
    cases h
    rw [params_given] at hparams
    -- what is added is read last, after the rest was done, but does not depend on it
    cases hadd : (e.add.map Json.pairs).getD (.ok []) with
    | error error =>
      rw [hadd] at hparams
      cases hparams
    | ok added =>
      rw [hadd] at hparams
      cases hparams
      rw [hkept]
      exact ⟨removed, set, added, hremove, hset, rfl, rfl⟩
  · rintro ⟨removed, set, added, hremove, hset, hadd, rfl⟩
    rw [onParams, hremove, hset, params_given, hadd, ← hkept]
    rfl

/-- Editing parameters is what an edit makes of them. -/
theorem rewrites_iff {e : Edit} (h : e.InOrder) {before after : List Param} :
    e.Rewrites before after ↔ e.onParams before = .ok after := by
  rw [onParams_eq_ok]
  constructor
  · rintro ⟨hremove, hset, hadd, hsets⟩
    rw [given_iff] at hremove
    rw [given_lists_iff h.1] at hset
    rw [given_lists_iff h.2] at hadd
    rw [setsAll_iff] at hsets
    exact ⟨_, _, _, hremove, hset, hadd, by rw [hsets]⟩
  · rintro ⟨removed, set, added, hremove, hset, hadd, rfl⟩
    exact .intro (given_iff.2 hremove) ((given_lists_iff h.1).2 hset)
      ((given_lists_iff h.2).2 hadd) (setsAll_iff.2 rfl)

/-! ## Queries and forms -/

/-- The parameters of a query, of which a url without one has none. -/
def params (query : Option String) : List Param := (query.map Form.decode).getD []

theorem params_eq (query : Option String) : params query = Form.decode (query.getD "") := by
  cases query <;> rfl

theorem onEncoded_eq_ok {e : Edit} {encoded edited : String} :
    e.onEncoded encoded = .ok edited ↔
      ∃ ps, e.onParams (Form.decode encoded) = .ok ps ∧ Form.encode ps = edited := by
  rw [onEncoded]
  cases e.onParams (Form.decode encoded) with
  | ok ps => simp [Except.map]
  | error error => simp [Except.map]

/-- The query in which parameters are written; none for no parameters. -/
def queryOf (ps : List Param) : Option String := if ps = [] then none else some (Form.encode ps)

theorem getD_queryOf (ps : List Param) : (queryOf ps).getD "" = Form.encode ps := by
  unfold queryOf
  split
  · next hnone => rw [hnone, Form.encode_eq_empty_iff.2 rfl, Option.getD_none]
  · rw [Option.getD_some]

theorem params_queryOf (ps : List Param) : params (queryOf ps) = ps := by
  rw [params_eq, getD_queryOf, Form.decode_encode]

theorem isSome_queryOf {ps : List Param} : (queryOf ps).isSome = true ↔ ps ≠ [] := by
  unfold queryOf
  split <;> simp_all

/-- The query of a url is edited, and what stands around it stays. -/
theorem onUrl_eq {e : Edit} {url base : String} {query fragment : Option String}
    (hgiven : e.isEmpty = false) (hurl : Parts url base query fragment) :
    e.onUrl url = (e.onParams (params query)).map fun ps =>
      base ++ marked "?" (queryOf ps) ++ marked "#" fragment := by
  rw [onUrl, if_neg (by rw [hgiven]; exact Bool.false_ne_true), hurl.cut_fragment]
  dsimp only
  rw [hurl.cut_query]
  dsimp only
  rw [onEncoded, ← params_eq]
  cases e.onParams (params query) with
  | error error => rfl
  | ok ps =>
    -- a form is empty just when there are no parameters, and then the question mark is left out
    have hempty : (Form.encode ps).isEmpty = true ↔ ps = [] := by
      rw [String.isEmpty_iff, Form.encode_eq_empty_iff]
    refine congrArg (fun s => Except.ok (base ++ s ++ marked "#" fragment)) ?_
    simp only [hempty, queryOf]
    split <;> rfl

theorem parts_of_onUrl {e : Edit} {url edited base : String} {query fragment : Option String}
    (hgiven : e.isEmpty = false) (hurl : Parts url base query fragment)
    (h : e.onUrl url = .ok edited) :
    ∃ ps, e.onParams (params query) = .ok ps ∧ Parts edited base (queryOf ps) fragment := by
  rw [onUrl_eq hgiven hurl] at h
  cases hps : e.onParams (params query) with
  | error error =>
    rw [hps] at h
    cases h
  | ok ps =>
    rw [hps] at h
    cases h
    -- a hash in a name or a value is escaped, so the fragment begins where it did
    refine ⟨ps, rfl, rfl, hurl.mark_notMem, hurl.hash_notMem, ?_⟩
    unfold queryOf
    split
    · rintro q ⟨⟩
    · rintro q ⟨⟩
      exact Form.hash_notMem_encode ps

/-- An edit of a url succeeds if `Rewrites` says what becomes of the parameters of its query. They become
that, and what stands around the query stays; the url has a query then if and only if it has parameters.
The same becomes of the parameters of a form. An edit of nothing leaves every url. -/
theorem onUrl_rewrites {e : Edit} (horder : e.InOrder) :
    (e.isEmpty = false → ∀ url, ∃ base query fragment, Parts url base query fragment ∧
      ((∃ edited, e.onUrl url = .ok edited) ↔ ∃ after, e.Rewrites (params query) after) ∧
      ∀ edited, e.onUrl url = .ok edited →
        ∃ query', Parts edited base query' fragment ∧
          (∀ after, e.Rewrites (params query) after ↔ params query' = after) ∧
          (query'.isSome = true ↔ params query' ≠ [])) ∧
      (∀ body before, Form.decode (Utf8.decodeLossy body) = before →
        ((∃ form, e.onForm body = .ok form) ↔ ∃ after, e.Rewrites before after) ∧
        ∀ form, e.onForm body = .ok form →
          ∀ after, e.Rewrites before after ↔ Form.decode form = after) ∧
      (e.isEmpty = true → ∀ url, e.onUrl url = .ok url) := by
  have hrewrites : ∀ {before ps : List Param}, e.onParams before = .ok ps →
      ∀ after, e.Rewrites before after ↔ ps = after := by
    intro before ps hps after
    rw [rewrites_iff horder, hps, Except.ok.injEq]
  refine ⟨fun hgiven url => ?_, ?_, onUrl_of_isEmpty⟩
  · obtain ⟨base, query, fragment, hurl⟩ := exists_parts url
    refine ⟨base, query, fragment, hurl, ?_, fun edited h => ?_⟩
    · simp only [rewrites_iff horder, onUrl_eq hgiven hurl]
      cases e.onParams (params query) <;> simp [Except.map]
    · obtain ⟨ps, hps, hedited⟩ := parts_of_onUrl hgiven hurl h
      refine ⟨queryOf ps, hedited, ?_, ?_⟩
      · rw [params_queryOf]
        exact hrewrites hps
      · rw [params_queryOf]
        exact isSome_queryOf
  · rintro body before rfl
    refine ⟨?_, fun form h => ?_⟩
    · simp only [rewrites_iff horder, onForm, onEncoded_eq_ok]
      exact ⟨fun ⟨_, ps, hps, _⟩ => ⟨ps, hps⟩, fun ⟨ps, hps⟩ => ⟨_, ps, hps, rfl⟩⟩
    · obtain ⟨ps, hps, rfl⟩ := onEncoded_eq_ok.1 h
      rw [Form.decode_encode]
      exact hrewrites hps

/-- A name that comes twice, one that comes nowhere, and a number as a value. -/
theorem onUrl_rewrites_of_repeated :
    let e : Edit :=
      { remove := some (.string "r")
        set := some (Json.ofFields [("d", .string "4"), ("b", .array [.string "2", .string "3"])])
        add := some (Json.ofFields [("a", .ofNat 5)]) }
    let url := "/p?a=1&b=0&r=x&b=9&c=%C3%A9#f?"
    let edited := "/p?a=1&b=2&b=3&c=%C3%A9&d=4&a=5#f?"
    e.InOrder ∧ e.isEmpty = false ∧ e.onUrl url = .ok edited ∧
      e.Rewrites (params (some "a=1&b=0&r=x&b=9&c=%C3%A9"))
        [("a", "1"), ("b", "2"), ("b", "3"), ("c", "é"), ("d", "4"), ("a", "5")] := by
  intro e url edited
  have horder : e.InOrder := by
    constructor
    · rintro value ⟨⟩
      exact Json.inOrder_ofFields _
    · rintro value ⟨⟩
      exact Json.inOrder_ofFields _
  have hok : e.onUrl url = .ok edited := by cbv
  have hurl : Parts url "/p" (some "a=1&b=0&r=x&b=9&c=%C3%A9") (some "f?") := by
    decide +kernel
  have hedited : Parts edited "/p" (some "a=1&b=2&b=3&c=%C3%A9&d=4&a=5") (some "f?") := by
    decide +kernel
  obtain ⟨_, _, _, hparts, -, hedits⟩ := (onUrl_rewrites horder).1 rfl url
  obtain ⟨_, hparts', hrewrites, -⟩ := hedits edited hok
  obtain ⟨-, rfl, -⟩ := hparts.unique hurl
  obtain ⟨-, rfl, -⟩ := hparts'.unique hedited
  exact ⟨horder, rfl, hok, (hrewrites _).2 (by cbv)⟩

end Edit

end Gateway
