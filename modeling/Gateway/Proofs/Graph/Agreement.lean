import Gateway.Proofs.Graph.Schedule

/-!
# Gateway.Proofs.Graph.Agreement — runs that differ in their delays

When backends reply the same to the same requests, but at other times, the producers of a graph come
to the same. By then unrelated results may have been published or not, so the proof is that no
producer reads any of these: what it reads are the results of those that it needs, and it is
published before, or names that nothing is ever published under. It goes by induction along the
dependencies.

Only whose failure a skipped producer carries may differ, for it is that of whoever fails first.
`Skipped` follows this failure back to where it came from, so that two results are let off only if both
are of this sort. Their success is the same, and so is what they hold of a request and a response, which
is nothing.

The two schedules are never compared step by step. In one of them calls may overlap that come one after
the other in the next, and there is no pairing of states that a step would keep. What is compared are
the two boards at the end, each of which says of every producer what it saw, sent and came to, in a way
that mentions no time. So the induction is on the graph and not on the runs.

A producer looks at results twice, before its call and when the response is there, and the second time
there may be more of them. Both are treated at once (`ResultMap.SameFor`), since all that counts is what
it finds under the names that it refers to.
-/

set_option autoImplicit false

namespace Gateway

/-- The same request of a client, and backends that reply the same, perhaps after other delays. -/
structure Setting.Alike (s s' : Setting) : Prop where
  client : s'.client = s.client
  ending : ∀ p request, (s'.reply p request).ending = (s.reply p request).ending

theorem Setting.Alike.symm {s s' : Setting} (h : s.Alike s') : s'.Alike s :=
  ⟨h.client.symm, fun p request => (h.ending p request).symm⟩

/-- The requests that a producer sent. -/
def Board.requestsOf (b : Board) (p : Producer) : List BackendRequest :=
  (b.callsOf p).map (·.request)

/-- The two maps hold the same under the names that a producer refers to. -/
structure ResultMap.SameFor (p : Producer) (m m' : ResultMap) : Prop where
  unique : m.Unique
  unique' : m'.Unique
  get? : ∀ name, p.RefersTo name → m.get? name = m'.get? name

/-- A producer that reads results by name makes the same of the end of a call. -/
theorem Run.outcome_congr {p : Producer} (h : p.Selective) {m m' : ResultMap}
    (hsame : m.SameFor p m') (client : ClientRequest) (expected : List Nat)
    (request : BackendRequest) (ending : Ending) :
    outcome client m p expected request ending = outcome client m' p expected request ending := by
  cases ending with
  | failure f | panic message => rfl
  | response response =>
    show p.conclude client m expected request response = p.conclude client m' expected request response
    unfold Producer.conclude
    rw [h.editResponse_eq hsame.unique hsame.unique' hsame.get?]

/-- So it comes to the same when it finds the same whenever it looks at results. -/
theorem Board.Tells.agree {s s' : Setting} {b b' : Board} {p : Producer} {r r' : ProducerResult}
    (halike : s.Alike s') (hselective : p.Selective)
    (hsame : ∀ {v v' : ResultMap}, v ∈ b.sightsOf p → v' ∈ b'.sightsOf p → v.SameFor p v')
    (h : b.Tells s p r) (h' : b'.Tells s' p r') :
    r = r' ∧ b'.requestsOf p = b.requestsOf p := by
  have hprepare : ∀ {v v' : ResultMap}, v ∈ b.sightsOf p → v' ∈ b'.sightsOf p →
      p.prepare s'.client v' = p.prepare s.client v := by
    intro v v' hv hv'
    obtain ⟨hunique, hunique', hget⟩ := hsame hv hv'
    rw [halike.client]
    exact (hselective.prepare_eq hunique hunique' hget).symm
  cases h with
  | @declined v f hsights hcalls hmade =>
    have hv : v ∈ b.sightsOf p := hsights ▸ List.mem_singleton_self v
    cases h' with
    | @declined v' f' hsights' hcalls' hmade' =>
      have heq := hprepare hv (hsights' ▸ List.mem_singleton_self v')
      rw [hmade, hmade'] at heq
      cases heq
      rw [Board.requestsOf, Board.requestsOf, hcalls, hcalls']
      exact ⟨rfl, rfl⟩
    | @answered v' _ expected' request' start' hsights' hcalls' hmade' =>
      have heq := hprepare hv (hsights' ▸ List.mem_cons_self : v' ∈ b'.sightsOf p)
      rw [hmade, hmade'] at heq
      cases heq
  | @answered v w expected request start hsights hcalls hmade =>
    have hv : v ∈ b.sightsOf p := hsights ▸ List.mem_cons_self
    cases h' with
    | @declined v' f' hsights' hcalls' hmade' =>
      have heq := hprepare hv (hsights' ▸ List.mem_singleton_self v')
      rw [hmade, hmade'] at heq
      cases heq
    | @answered v' w' expected' request' start' hsights' hcalls' hmade' =>
      have heq := hprepare hv (hsights' ▸ List.mem_cons_self : v' ∈ b'.sightsOf p)
      rw [hmade, hmade'] at heq
      cases heq
      -- the same request has the same reply, and the response is edited alike
      have hw : w ∈ b.sightsOf p := hsights ▸ List.mem_cons_of_mem v (List.mem_singleton_self w)
      have hw' : w' ∈ b'.sightsOf p :=
        hsights' ▸ List.mem_cons_of_mem v' (List.mem_singleton_self w')
      rw [Board.requestsOf, Board.requestsOf, hcalls, hcalls', halike.ending, halike.client]
      exact ⟨Run.outcome_congr hselective (hsame hw hw') _ _ _ _, rfl⟩

/-- The board at the end of a run, with its results published and all calls that were made. -/
def Ended.final (e : Ended) : Board := { e.board.publish e.outcome.results with calls := e.calls }

theorem Ensemble.Complete.final_eq {E : Ensemble} {s : Setting} {names : List String} {e : Ended}
    {rs : List ProducerResult} (h : E.Complete s names e rs) : e.final = e.board.publish rs := by
  rw [Ended.final, h.outcome, h.calls]
  rfl

namespace Ensemble.Settled

variable {E : Ensemble} {s : Setting} {names : List String} {b : Board} {rs : List ProducerResult}
  {p : Producer} {name : String} {r : ProducerResult}

theorem sheet_publish (h : E.Settled s names b rs) : E.Sheet s (b.publish rs) 0 :=
  (h.sheet.deed (.publish h.right)).1

theorem cameTo_of_published (h : E.Settled s names b rs)
    (hget : (b.publish rs).results.get? name = some r) :
    ∃ p ∈ E, p.name = name ∧ E.CameTo b p r := by
  obtain ⟨p, hp, hname, -, hcame⟩ := h.sheet_publish.done_of_get? h.live hget
  refine ⟨p, hp, hname, ?_⟩
  cases hcame with
  | settled hcell => exact .settled hcell
  | skipped hd hfailed =>
    have hcells : (b.publish rs).cells = b.cells := rfl
    exact .skipped hd (hfailed.of_cells hcells)

theorem exists_published (h : E.Settled s names b rs) (hcovered : E.Covered names) (hp : p ∈ E) :
    ∃ r, (b.publish rs).results.get? p.name = some r ∧ E.CameTo b p r := by
  have hext := b.extends_publish rs
  have hsome : ((b.publish rs).results.get? p.name).isSome = true := by
    obtain ⟨t, ht, hname, hunder⟩ := hcovered p hp
    rcases Relation.ReflTransGen.cases_tail hunder with rfl | ⟨m, htm, hneeded⟩
    · obtain ⟨r, hr, hrname⟩ := List.mem_map.1 (h.names.mem_iff.2 hname)
      have hpublished := h.sheet_publish.isSome_publish h.live h.right hr
      rw [hrname] at hpublished
      exact hpublished
    · have hdone := h.sheet.done_under h.live (h.done t ht) htm
      exact (h.sheet_publish.done_needs h.live (hdone.mono hext) hneeded).2
  obtain ⟨r, hget⟩ := Option.isSome_iff_exists.1 hsome
  obtain ⟨q, hq, hname, hcame⟩ := h.cameTo_of_published hget
  cases E.eq_of_name hq hp hname
  exact ⟨r, hget, hcame⟩

end Ensemble.Settled

namespace Graph

variable {g : Graph} {s s' : Setting} {b b' : Board} {calls calls' : Multiset Ongoing}
  {p : Producer} {r r' : ProducerResult}

/-- Wherever two producers of a name saw results, they found the same under it. -/
theorem Sound.get?_eq (h : g.Sound) (hsheet : h.ensemble.Sheet s b calls)
    (hsheet' : h.ensemble.Sheet s' b' calls') (hlive : b.cancelled = false)
    (hlive' : b'.cancelled = false) (hp : p ∈ g.producers)
    (hneeds : ∀ q ∈ h.ensemble.needs p, ∀ r, b.cells q.id = some (.settled r) →
      b'.cells q.id = some (.settled r))
    {v v' : ResultMap} (hv : v ∈ b.sightsOf p) (hv' : v' ∈ b'.sightsOf p) {name : String}
    (hrefers : p.RefersTo name) : v.get? name = v'.get? name := by
  have hsight := hsheet.ledger.exists_sight hp hv
  have hsight' := hsheet'.ledger.exists_sight hp hv'
  by_cases hself : name = p.name
  · -- its own result is not there yet
    subst hself
    have hnone := hsheet.unread hlive _ hsight
    have hnone' := hsheet'.unread hlive' _ hsight'
    exact hnone.trans hnone'.symm
  by_cases hdeclared : ∃ q ∈ g.producers, q.name = name
  · -- it is that of a producer that it needs
    obtain ⟨q, hq, rfl⟩ := hdeclared
    have hqneeds : q ∈ h.ensemble.needs p :=
      (h.mem_needs_iff hp).2 ⟨hq, Producer.mem_references_of_refersTo hrefers hself⟩
    obtain ⟨⟨r, -, hcell, hget⟩, -⟩ := hsheet.seen _ hsight q hqneeds
    obtain ⟨⟨r', -, hcell', hget'⟩, -⟩ := hsheet'.seen _ hsight' q hqneeds
    cases (hneeds q hqneeds r hcell).symm.trans hcell'
    exact hget.trans hget'.symm
  · -- nothing is ever published under it
    have hnone : ∀ {s : Setting} {b : Board} {calls : Multiset Ongoing} {v : ResultMap},
        h.ensemble.Sheet s b calls → b.cancelled = false → (⟨p, v⟩ : Sight) ∈ b.sights →
          v.get? name = none := by
      intro s b calls v hsheet hlive hsight
      rw [Option.eq_none_iff_forall_ne_some]
      intro r hget
      have hlast := hsheet.lasting _ hsight hget
      rw [hsheet.get?_undeclared hlive hdeclared] at hlast
      cases hlast
    exact (hnone hsheet hlive hsight).trans (hnone hsheet' hlive' hsight').symm

variable {rs rs' : List ProducerResult} {names : List String}

/-- A result that settled a cell in one schedule settles it in the other, and was asked for by the
same request if there was one. -/
theorem Sound.settled_of_settled (h : g.Sound) (halike : s.Alike s')
    (hselective : ∀ p ∈ g.producers, p.Selective) {rank : Nat → Nat} (hrank : g.deps.Ranked rank)
    (hrun : h.ensemble.Settled s names b rs) (hrun' : h.ensemble.Settled s' names b' rs')
    {p : Producer} (hp : p ∈ g.producers) {r : ProducerResult}
    (hcell : b.cells p.id = some (.settled r)) :
    b'.cells p.id = some (.settled r) ∧ b'.requestsOf p = b.requestsOf p := by
  have hsheet := hrun.sheet
  have hsheet' := hrun'.sheet
  -- what it needs came to the same, which is the induction
  have hneeds : ∀ q ∈ h.ensemble.needs p, ∀ r, b.cells q.id = some (.settled r) →
      b'.cells q.id = some (.settled r) := by
    intro q hq r hcell
    obtain ⟨hmem, hedge⟩ := h.mem_needs.1 hq
    have hlt := hrank p.id q.id hedge
    exact (h.settled_of_settled halike hselective hrank hrun hrun' hmem hcell).1
  have hsame : ∀ {v v' : ResultMap}, v ∈ b.sightsOf p → v' ∈ b'.sightsOf p →
      v.SameFor p v' := by
    intro v v' hv hv'
    exact ⟨hsheet.unique.2 _ (hsheet.ledger.exists_sight hp hv),
      hsheet'.unique.2 _ (hsheet'.ledger.exists_sight hp hv'),
      fun name => h.get?_eq hsheet hsheet' hrun.live hrun'.live hp hneeds hv hv'⟩
  -- all of that is good, so that the producer is not skipped in the other schedule
  obtain ⟨r', hcell'⟩ : ∃ r', b'.cells p.id = some (.settled r') := by
    cases hrun'.done p hp with
    | settled _ hcell' => exact ⟨_, hcell'⟩
    | skipped _ hd hfailed =>
      obtain ⟨r, hok, hgood, -⟩ :=
        hsheet.fine_of_sightsOf hp (hsheet.sightsOf_ne_nil hrun.live hp hcell) hd
      have hfailed := hsheet'.not_ok_of_failed hrun'.live hfailed (hneeds _ hd r hgood)
      exact absurd hok (ne_true_of_eq_false hfailed)
  have htells := hsheet.ledger.tells_of_live hrun.live hp hcell
  have htells' := hsheet'.ledger.tells_of_live hrun'.live hp hcell'
  obtain ⟨rfl, hrequests⟩ := htells.agree halike (hselective p hp) hsame htells'
  exact ⟨hcell', hrequests⟩
termination_by rank p.id

/-- The result of a producer that was skipped because another failed, which it needs directly or
through others. -/
def Skipped (g : Graph) (b : Board) (p : Producer) (r : ProducerResult) : Prop :=
  ∃ m q own f, Relation.ReflTransGen (fun p q => q ∈ g.needs p) p m ∧ q ∈ g.needs m ∧
    b.cells q.id = some (.settled own) ∧ own.failure = some f ∧
    r = .failed p.name (f.inSequence m.name)

/-- Two boards of a graph agree: its producers sent the same requests, and what is published of them is
the same but for the failures that skipped ones carry. -/
structure Agrees (g : Graph) (b b' : Board) : Prop where
  requests : ∀ p ∈ g.producers, b'.requestsOf p = b.requestsOf p
  results : ∀ p ∈ g.producers, ∃ r r', b.results.get? p.name = some r ∧
    b'.results.get? p.name = some r' ∧ r.isOk = r'.isOk ∧ r.parts = r'.parts ∧
    (r = r' ∨ g.Skipped b p r ∧ g.Skipped b' p r')

theorem Sound.skipped_of_needs (h : g.Sound) {d : Producer} {f : Failure}
    (hfailed : h.ensemble.FailedWith b d f) {p : Producer} (hd : d ∈ h.ensemble.needs p) :
    g.Skipped b p (.failed p.name (f.inSequence p.name)) := by
  induction hfailed generalizing p with
  | own _ hcell hfailure => exact ⟨p, _, _, _, .refl, hd, hcell, hfailure, rfl⟩
  | @needs d d' f _ hd' _ ih =>
    obtain ⟨m, q, own, f', hunder, hq, hcell, hfailure, heq⟩ := ih hd'
    refine ⟨m, q, own, f', .head hd hunder, hq, hcell, hfailure, ?_⟩
    -- a failure is wrapped once, by the first that is skipped because of it
    have hinner : f.inSequence d.name = f'.inSequence m.name := by
      have hfail := congrArg ProducerResult.failure heq
      exact Option.some.inj hfail
    rw [hinner, Failure.inSequence_inSequence]

theorem Skipped.eq_failed (h : g.Skipped b p r) : ∃ f, r = .failed p.name f := by
  obtain ⟨m, q, own, f, -, -, -, -, heq⟩ := h
  exact ⟨f.inSequence m.name, heq⟩

section

variable (h : g.Sound) (halike : s.Alike s') (hselective : ∀ p ∈ g.producers, p.Selective)
  (hrun : h.ensemble.Settled s names b rs) (hrun' : h.ensemble.Settled s' names b' rs')

include halike hselective hrun hrun'

/-- What a producer came to in two schedules is the same, or it was skipped in both. -/
theorem Sound.cameTo_agree (hp : p ∈ g.producers) (hcame : h.ensemble.CameTo b p r)
    (hcame' : h.ensemble.CameTo b' p r') :
    r = r' ∨ g.Skipped b p r ∧ g.Skipped b' p r' := by
  obtain ⟨rank, bound, hrank, -⟩ := h.ranked
  -- who has a result in one schedule is not skipped in the other
  have hnot : ∀ {s : Setting} {b : Board} {rs : List ProducerResult} {r : ProducerResult}
      {d : Producer} {f : Failure}, h.ensemble.Settled s names b rs →
        b.cells p.id = some (.settled r) → d ∈ h.ensemble.needs p →
          ¬ h.ensemble.FailedWith b d f := by
    intro s b rs r d f hrun hcell hd
    have hsights := hrun.sheet.sightsOf_ne_nil hrun.live hp hcell
    exact hrun.sheet.not_failed_of_fine hrun.live (hrun.sheet.fine_of_sightsOf hp hsights hd)
  cases hcame with
  | settled hcell =>
    have hcell' := (h.settled_of_settled halike hselective hrank hrun hrun' hp hcell).1
    cases hcame' with
    | settled hsettled' =>
      cases hcell'.symm.trans hsettled'
      exact .inl rfl
    | skipped hd' hfailed' => exact absurd hfailed' (hnot hrun' hcell' hd')
  | skipped hd hfailed =>
    cases hcame' with
    | settled hcell' =>
      have hcell := (h.settled_of_settled halike.symm hselective hrank hrun' hrun hp hcell').1
      exact absurd hfailed (hnot hrun hcell hd)
    | skipped hd' hfailed' =>
      exact .inr ⟨h.skipped_of_needs hfailed hd, h.skipped_of_needs hfailed' hd'⟩

theorem Sound.requests_agree (hp : p ∈ g.producers) : b'.requestsOf p = b.requestsOf p := by
  obtain ⟨rank, bound, hrank, -⟩ := h.ranked
  by_cases hsettled : ∃ r, b.cells p.id = some (.settled r)
  · obtain ⟨r, hcell⟩ := hsettled
    exact (h.settled_of_settled halike hselective hrank hrun hrun' hp hcell).2
  · -- then it has none in the other schedule either, and sent nothing in both
    have hcell : ∀ r, b.cells p.id ≠ some (.settled r) := fun r hr => hsettled ⟨r, hr⟩
    have hcell' : ∀ r, b'.cells p.id ≠ some (.settled r) := fun r hr =>
      hcell r (h.settled_of_settled halike.symm hselective hrank hrun' hrun hp hr).1
    rw [Board.requestsOf, Board.requestsOf,
      (hrun.sheet.vacant_of_done hrun.live (hrun.done p hp) hcell).2.1,
      (hrun'.sheet.vacant_of_done hrun'.live (hrun'.done p hp) hcell').2.1]

/-- Two schedules of a graph agree once their results are published. -/
theorem Sound.agrees (hcovered : h.ensemble.Covered names) :
    g.Agrees (b.publish rs) (b'.publish rs') where
  requests p hp := by
    have hsame : b'.requestsOf p = b.requestsOf p :=
      h.requests_agree halike hselective hrun hrun' hp
    exact hsame
  results p hp := by
    obtain ⟨r, hget, hcame⟩ := hrun.exists_published hcovered hp
    obtain ⟨r', hget', hcame'⟩ := hrun'.exists_published hcovered hp
    rcases h.cameTo_agree halike hselective hrun hrun' hp hcame hcame' with rfl | hskipped
    · exact ⟨r, r, hget, hget', rfl, rfl, .inl rfl⟩
    · obtain ⟨f, rfl⟩ := hskipped.1.eq_failed
      obtain ⟨f', rfl⟩ := hskipped.2.eq_failed
      exact ⟨_, _, hget, hget', rfl, rfl, .inr hskipped⟩

end

/-- So whoever looks at all that was published finds the same requests and responses. -/
theorem Sound.published_parts (h : g.Sound) (hrun : h.ensemble.Settled s names b rs)
    (hrun' : h.ensemble.Settled s' names b' rs')
    (hagrees : g.Agrees (b.publish rs) (b'.publish rs')) (name : String) :
    ((b.publish rs).results.get? name).map (·.parts) =
      ((b'.publish rs').results.get? name).map (·.parts) := by
  by_cases hdeclared : ∃ p ∈ g.producers, p.name = name
  · obtain ⟨p, hp, rfl⟩ := hdeclared
    obtain ⟨r, r', hget, hget', -, hparts, -⟩ := hagrees.results p hp
    rw [hget, hget']
    exact congrArg some hparts
  · -- nothing is published under a name that no producer has
    rw [hrun.sheet_publish.get?_undeclared hrun.live hdeclared,
      hrun'.sheet_publish.get?_undeclared hrun'.live hdeclared]

/-- Numbering producers leaves their attributes alone. -/
theorem selective_of_build {declared : List Producer} (h : build declared = .ok g)
    (hselective : ∀ p ∈ declared, p.Selective) : ∀ p ∈ g.producers, p.Selective := by
  obtain ⟨hproducers, -⟩ := build_eq_ok h
  rw [hproducers]
  intro p hp
  obtain ⟨⟨q, i⟩, hq, rfl⟩ := List.mem_map.1 hp
  have hmem := hselective q (List.fst_mem_of_mem_zipIdx hq)
  exact ⟨hmem.named, hmem.unaliased⟩

end Graph

/-- A schedule of a plan that has come to results, and is not cancelled. -/
structure Plan.ComesTo (plan : Plan) (s : Setting) (cancelled : Bool) (b : Board)
    (rs : List ProducerResult) : Prop where
  leads : ∃ w, (Work.opening s (.fresh plan cancelled) plan).Leads s w ∧ w.board = b ∧
    w.root = .finished (.results rs)
  live : b.cancelled = false

/-- Every such schedule settles the graph, whatever the delays. -/
theorem Graph.Sound.settled {g : Graph} {s : Setting} {cancelled : Bool} {b : Board}
    {rs : List ProducerResult} (h : g.Sound) (hb : g.plan.ComesTo s cancelled b rs) :
    h.ensemble.Settled s g.plan.names b rs := by
  obtain ⟨⟨w, hw, rfl, hroot⟩, hlive⟩ := hb
  obtain ⟨hopening, -, hnames⟩ := Discipline.kept_opening (J := h.ensemble.discipline s)
    (h.sheet_fresh s cancelled) (h.may_plan _)
  obtain ⟨hkept, -, hnames'⟩ := hopening.leads (Ensemble.patient_discipline h.ensemble s) hw
  have hperm := (hnames' hlive).trans hnames
  have hok := hkept.root
  have hsheet := hkept.inv
  rw [hroot] at hperm hok
  -- the root is finished and nothing was given up, so that no call is under way
  rw [Work.ongoing, hroot, hkept.givenUp_eq_nil hlive] at hsheet
  exact Ensemble.Sheet.settled hsheet hlive h.covered hok hperm

end Gateway
