import Gateway.Proofs.Endpoint.Transparency

/-!
# Gateway.Proofs.Endpoint.Skipping — modifiers of responses that fail

A faulty edit of the header fields of a response is passed over, and the response is sent. It is
passed over as a whole if an expression of it has no value. But where its values are put to use, that
is done one step at a time on the fields themselves: what was removed and appended before a name or
value turned out to be invalid stays so.

So the response that is sent is neither the one that came nor the one that was asked for, and to say
what it is one has to say how far the edit got. An edit is a script here, steps in the order in which
they are tried, some of which cannot be taken. `Script.CutAfter` names the steps before the first of
those, and the fields of the response are what these steps make of it (`FailsAfter`). For a name that
none of them is about nothing has changed.

The status is set all the same. It is another modifier, with an expression of its own, and it does not
ask how the edit of the fields went. `SetsStatus` is what it does, the body that a status without
content takes away included, so that the rest of the response is known and the two are not mixed up.
-/

set_option autoImplicit false

namespace Gateway

/-! ## Scripts that are cut off -/

/-- The name that a step is about. -/
def HeaderStep.name : HeaderStep → HeaderName
  | .remove name => name
  | .append name _ => name

theorem HeaderStep.values_apply {h : Headers} {step : HeaderStep} {name : HeaderName}
    (hne : step.name ≠ name) : (step.apply h).values name = h.values name := by
  cases step with
  | remove n =>
    rw [apply, Headers.values_remove]
    exact if_neg hne
  | append n value =>
    have hn : n ≠ name := hne
    rw [apply, Headers.values_append, if_neg hn, List.append_nil]

/-- Steps leave the names alone that they are not about. -/
theorem HeaderStep.values_foldl {steps : List HeaderStep} {name : HeaderName}
    (hne : ∀ step ∈ steps, step.name ≠ name) (h : Headers) :
    (steps.foldl apply h).values name = h.values name := by
  induction steps generalizing h with
  | nil => rfl
  | cons step rest ih =>
    rw [List.foldl_cons, ih (fun s hs => hne s (List.mem_cons_of_mem step hs)),
      values_apply (hne step List.mem_cons_self)]

namespace Edit

/-- The script comes to a failure after these steps. -/
def Script.CutAfter (script : Script) (done : List HeaderStep) : Prop :=
  ∃ error rest, script = done.map .ok ++ .error error :: rest

theorem runScript_of_cutAfter {script : Script} {done : List HeaderStep}
    (hcut : script.CutAfter done) (h : Headers) :
    (runScript h script).1 = done.foldl HeaderStep.apply h := by
  obtain ⟨error, rest, rfl⟩ := hcut
  induction done generalizing h with
  | nil => rfl
  | cons step done ih => exact ih (step.apply h)

/-- A script that fails is cut off somewhere. -/
theorem exists_cutAfter {script : Script} {h : Headers} {error : EvalError}
    (hfails : (runScript h script).2 = some error) : ∃ done, script.CutAfter done := by
  induction script generalizing h with
  | nil => cases hfails
  | cons item rest ih =>
    cases item with
    | error e => exact ⟨[], e, rest, rfl⟩
    | ok step =>
      obtain ⟨done, error', rest', rfl⟩ := ih hfails
      exact ⟨step :: done, error', rest', rfl⟩

theorem headers_eq_error {e : Edit} {h : Headers} {error : EvalError} :
    e.headers h = .error error ↔ (e.onHeaders h).2 = some error := by
  unfold headers
  rcases e.onHeaders h with ⟨fields, _ | error'⟩
  · exact ⟨nofun, nofun⟩
  · exact ⟨fun h => by cases h; rfl, fun h => by cases h; rfl⟩

end Edit

namespace ResponseModifiers

/-- The edit of the header fields fails: an expression has no value, or the values cannot be used. -/
def HeadersFail (m : ResponseModifiers) (c : Context) (h : Headers) : Prop :=
  ∀ edit, m.headers.evaluate c "response_headers" = .ok edit →
    ∃ error, edit.headers h = .error error

/-- What a failing edit of the header fields has done by then: nothing if it is an expression that has
no value. -/
inductive FailsAfter (m : ResponseModifiers) (c : Context) : List HeaderStep → Prop
  | unevaluated {fault : Fault} (hfault : m.headers.evaluate c "response_headers" = .error fault) :
      FailsAfter m c []
  | cut {edit : Edit} {done : List HeaderStep}
      (hedit : m.headers.evaluate c "response_headers" = .ok edit)
      (hcut : edit.script.CutAfter done) : FailsAfter m c done

/-- The status is set, if it is, and nothing else is modified. With the status that means that there
is no content the body and its media type go. -/
structure SetsStatus (m : ResponseModifiers) (c : Context) (response sent : Response) : Prop where
  status : sent.status = (m.newStatus? c).getD response.status
  body : sent.body = if m.newStatus? c = some 204 then [] else response.body
  headers : sent.headers =
    if m.newStatus? c = some 204 then response.headers.remove contentType else response.headers

variable {m : ResponseModifiers} {c : Context}

theorem exists_failsAfter {h : Headers} (hfails : m.HeadersFail c h) :
    ∃ done, m.FailsAfter c done ∧ m.editHeaders c h = done.foldl HeaderStep.apply h := by
  unfold editHeaders
  cases hedit : m.headers.evaluate c "response_headers" with
  | error fault => exact ⟨[], .unevaluated hedit, rfl⟩
  | ok edit =>
    obtain ⟨error, herror⟩ := hfails edit hedit
    obtain ⟨done, hcut⟩ := Edit.exists_cutAfter (Edit.headers_eq_error.1 herror)
    exact ⟨done, .cut hedit hcut, Edit.runScript_of_cutAfter hcut h⟩

theorem editHeaders_of_isEmpty (h : m.headers.isEmpty = true) (c : Context) (fields : Headers) :
    m.editHeaders c fields = fields := by
  obtain ⟨⟨set, add, remove⟩, status⟩ := m
  simp only [Rule.isEmpty, Bool.and_eq_true, Option.isNone_iff_eq_none] at h
  obtain ⟨⟨rfl, rfl⟩, rfl⟩ := h
  rfl

theorem setsStatus_apply (m : ResponseModifiers) (c : Context) (response : Response) :
    m.SetsStatus c { response with headers := m.editHeaders c response.headers }
      (m.apply c response) := by
  unfold apply
  cases hstatus : m.newStatus? c with
  | none => constructor <;> simp [hstatus]
  | some status =>
    dsimp only
    unfold withStatus
    split
    · next h204 => constructor <;> simp [hstatus, h204]
    · next hne => constructor <;> simp [hstatus, hne]

theorem SetsStatus.unique {response sent sent' : Response} (h : m.SetsStatus c response sent)
    (h' : m.SetsStatus c response sent') : sent = sent' := by
  obtain ⟨status, headers, body⟩ := sent
  obtain ⟨rfl, rfl, rfl⟩ := h
  obtain ⟨status', headers', body'⟩ := sent'
  obtain ⟨rfl, rfl, rfl⟩ := h'
  rfl

end ResponseModifiers

namespace Endpoint

variable {e : Endpoint} {r : ClientRequest} {published : ResultMap} {rs : List ProducerResult}
  {response : Response} {current : Option ProducerResult}

/-- The endpoint without its modifiers of the header fields of responses. -/
def withoutHeaderEdits (e : Endpoint) : Endpoint :=
  { e with responseModifiers := { e.responseModifiers with headers := {} } }

theorem answer_of_raw (hraw : e.rawAnswer r published rs = .ok (response, current)) :
    e.answer r published rs = .ok (if e.responseModifiers.isEmpty then response
      else e.responseModifiers.apply (.build r published current) response) := by
  unfold answer
  rw [hraw]
  change (if e.responseModifiers.isEmpty = true then _ else _) = _
  split <;> rfl

theorem setsStatus_answer (hraw : e.rawAnswer r published rs = .ok (response, current)) :
    ∃ sent, e.answer r published rs = .ok sent ∧
      e.responseModifiers.SetsStatus (.build r published current)
        { response with
          headers := e.responseModifiers.editHeaders (.build r published current) response.headers }
        sent := by
  refine ⟨_, answer_of_raw hraw, ?_⟩
  split
  -- modifiers that are not given are skipped, which is the same as editing nothing
  · next hempty =>
    rw [ResponseModifiers.isEmpty, Bool.and_eq_true, Option.isNone_iff_eq_none] at hempty
    rw [ResponseModifiers.editHeaders_of_isEmpty hempty.1]
    have hnone : e.responseModifiers.newStatus? (.build r published current) = none := by
      rw [ResponseModifiers.newStatus?, hempty.2]
      rfl
    constructor <;> simp [hnone]
  · exact ResponseModifiers.setsStatus_apply _ _ _

/-- A response is sent although the edit of its header fields fails. But for the names that the steps
before the failure are about, it is the response of the endpoint without this edit, in which at most
the status is set. -/
theorem answer_of_failing (hraw : e.rawAnswer r published rs = .ok (response, current))
    (hfails : e.responseModifiers.HeadersFail (.build r published current) response.headers) :
    let c := Context.build r published current
    ∃ done sent skipped, e.responseModifiers.FailsAfter c done ∧
      e.answer r published rs = .ok sent ∧ e.withoutHeaderEdits.answer r published rs = .ok skipped ∧
      e.responseModifiers.SetsStatus c response skipped ∧
      e.responseModifiers.SetsStatus c
        { response with headers := done.foldl HeaderStep.apply response.headers } sent ∧
      (∀ name, (∀ step ∈ done, step.name ≠ name) →
        sent.headers.values name = skipped.headers.values name) ∧
      (done = [] → sent = skipped) := by
  intro c
  obtain ⟨done, hdone, hedited⟩ := ResponseModifiers.exists_failsAfter hfails
  obtain ⟨sent, hanswer, hsent⟩ := setsStatus_answer hraw
  rw [hedited] at hsent
  obtain ⟨skipped, hskip, hskipped⟩ := setsStatus_answer (e := e.withoutHeaderEdits) hraw
  replace hskipped : e.responseModifiers.SetsStatus c response skipped := by
    rw [ResponseModifiers.editHeaders_of_isEmpty rfl] at hskipped
    exact ⟨hskipped.status, hskipped.body, hskipped.headers⟩
  refine ⟨done, sent, skipped, hdone, hanswer, hskip, hskipped, hsent, ?_, ?_⟩
  · intro name hname
    rw [hsent.headers, hskipped.headers]
    split
    · rw [Headers.values_remove, Headers.values_remove, HeaderStep.values_foldl hname]
    · exact HeaderStep.values_foldl hname _
  · rintro rfl
    exact hsent.unique hskipped

/-- The endpoint of one proxy that removes a field of the response before it comes to a text where
fields to add should be. -/
def halting : Endpoint :=
  { mirror with
    responseModifiers :=
      { headers :=
          { remove := some (.literal (.string "X-Kept"))
            add := some (.literal (.string "v")) }
        status := some (.literal (.string "404")) } }

/-- A response for it. -/
def halted : Response where
  status := 200
  headers := ⟨[(⟨"x-kept"⟩, [49]), (⟨"x-other"⟩, [50])]⟩
  body := [1]

theorem apply_halting (c : Context) :
    halting.responseModifiers.apply c halted =
        { halted with status := 404, headers := ⟨[(⟨"x-other"⟩, [50])]⟩ } ∧
      halting.withoutHeaderEdits.responseModifiers.apply c halted =
        { halted with status := 404 } :=
  ⟨by cbv, by cbv⟩

/-- The status is set in either case, and the field is gone. -/
theorem answer_of_failing_of_halting :
    let x : ProducerResult := .success "default" { method := "GET", url := "/" } halted
    let c := Context.build .plain (.ofNames []) (some x)
    halting.rawAnswer .plain (.ofNames []) [x] = .ok (halted, some x) ∧
      halting.responseModifiers.HeadersFail c halted.headers ∧
      ∃ sent skipped, halting.answer .plain (.ofNames []) [x] = .ok sent ∧
        halting.withoutHeaderEdits.answer .plain (.ofNames []) [x] = .ok skipped ∧
        halting.responseModifiers.SetsStatus c halted skipped ∧ skipped.headers = halted.headers ∧
        sent.status = skipped.status ∧ sent.headers = ⟨[(⟨"x-other"⟩, [50])]⟩ := by
  intro x c
  have hraw : halting.rawAnswer .plain (.ofNames []) [x] = .ok (halted, some x) := by cbv
  have hfails : halting.responseModifiers.HeadersFail c halted.headers := by
    intro edit hedit
    cases hedit
    exact ⟨.type .object (.string "v"), by cbv⟩
  obtain ⟨done, sent, skipped, -, hsent, hskipped, hset, hset', -, -⟩ :=
    answer_of_failing hraw hfails
  refine ⟨hraw, hfails, sent, skipped, hsent, hskipped, hset, ?_, ?_, ?_⟩
  · cases hskipped.symm.trans (answer_of_raw (e := halting.withoutHeaderEdits) hraw)
    show (halting.withoutHeaderEdits.responseModifiers.apply c halted).headers = _
    rw [(apply_halting c).2]
  · exact hset'.status.trans hset.status.symm
  · cases hsent.symm.trans (answer_of_raw hraw)
    show (halting.responseModifiers.apply c halted).headers = _
    rw [(apply_halting c).1]

/-- What a client receives lacks a field although the edit that removed it has failed. -/
theorem serve_halting :
    let c : Circumstances :=
      { backends := fun _ _ _ => { ending := .response halted, delay := some 5 } }
    (halting.serve c .plain).1 =
        .answered { halted with status := 404, headers := ⟨[(⟨"x-other"⟩, [50])]⟩ } ∧
      (halting.withoutHeaderEdits.serve c .plain).1 = .answered { halted with status := 404 } := by
  intro c
  let x : ProducerResult := .success "default" { method := "GET", url := "/" } halted
  have hserve : ∀ m : ResponseModifiers, m.isEmpty = false →
      ∃ current, (({ mirror with responseModifiers := m } : Endpoint).serve c .plain).1 =
        .answered (m.apply current halted) := by
    intro m hm
    let e : Endpoint := { mirror with responseModifiers := m }
    -- the run does not depend on what is done to the response
    have hadmitted : e.admitted .plain = .ok .plain := admitted_of_plain rfl (Nat.zero_le _)
    have hout : (e.run c .plain).outcome = .finished (.results [x]) := by cbv
    have hlive : ((e.run c .plain).board.publish [x]).cancelled = false := by cbv
    have hraw : ∀ m, e.rawAnswer .plain m [x] = .ok (halted, some x) := fun _ => by cbv
    rw [serve_of_finished hadmitted hout hlive, answer_of_raw (hraw _), if_neg (hm ▸ Bool.false_ne_true)]
    exact ⟨_, rfl⟩
  obtain ⟨c₁, hsent⟩ := hserve halting.responseModifiers rfl
  obtain ⟨c₂, hskipped⟩ := hserve halting.withoutHeaderEdits.responseModifiers rfl
  exact ⟨hsent.trans (congrArg Served.answered (apply_halting c₁).1),
    hskipped.trans (congrArg Served.answered (apply_halting c₂).2)⟩

end Endpoint

end Gateway
