import Gateway.Proofs.Run.Moves
import Gateway.Proofs.Run.Ensemble

/-!
# Gateway.Proofs.Run.Guard — runs of guarded plans

A plan may be begun when it is guarded by producers that are known to be good. The one step of the
argument is in `good_after`: once the results of a first step are published and none of them is a
failure, everything that the second step needs is known to be good as well, however it got its
result and wherever in the plan.

The last words are the point. A step yields the results of its own producers and not of those below
them, and some of these were never called in it, because another part of the plan was there before, or
is still at it. So it cannot be said that a step publishes what it calls. But a good result has settled
the cell of its producer, whoever settled it looked at results, and by the sheet all it needs was good
by then. One goes down from the results of a step and finds everything good that is under them.

The discipline that comes of this has one law for skipping and one for going on, and these are all that
is asked of a sequence. That a producer is not skipped for nothing is in the first of them.
-/

set_option autoImplicit false

namespace Gateway

namespace Ensemble

variable {E : Ensemble} {s : Setting} {b c : Board} {calls calls' : Multiset Ongoing}

/-- The producers that are known are good. -/
def Good (E : Ensemble) (b : Board) (known : Producer → Prop) : Prop :=
  ∀ q, known q → q ∈ E ∧ Fine b b.results q

/-- A plan that may be begun. -/
def May (E : Ensemble) (b : Board) (plan : Plan) : Prop :=
  ∃ known, E.Good b known ∧ E.Guarded known plan

theorem Good.mono {known : Producer → Prop} (hbc : b.Extends c) (h : E.Good b known) :
    E.Good c known := fun q hq =>
  ⟨(h q hq).1, (h q hq).2.mono hbc fun _ hr => hbc.published hr⟩

theorem May.mono {plan : Plan} (hbc : b.Extends c) (h : E.May b plan) : E.May c plan := by
  obtain ⟨known, hgood, hguarded⟩ := h
  exact ⟨known, hgood.mono hbc, hguarded⟩

theorem May.ready {p : Producer} (h : E.May b (.call p)) :
    p ∈ E ∧ ∀ q ∈ E.needs p, Fine b b.results q := by
  obtain ⟨known, hgood, hp, hneeds⟩ := h
  exact ⟨hp, fun q hq => (hgood q (hneeds q hq)).2⟩

theorem may_call {p : Producer} (hp : p ∈ E) (h : ∀ q ∈ E.needs p, Fine b b.results q) :
    E.May b (.call p) :=
  ⟨fun q => q ∈ E ∧ Fine b b.results q, fun _ hq => hq, hp, fun q hq =>
    ⟨mem_of_needs hp hq, h q hq⟩⟩

/-- Before a cancellation right results are accepted when they are published, unless their names
have some already. -/
theorem Sheet.isSome_publish {rs : List ProducerResult} {r : ProducerResult}
    (h : E.Sheet s (b.publish rs) calls) (hlive : b.cancelled = false)
    (hright : ∀ r ∈ rs, E.Right b r) (hr : r ∈ rs) :
    ((b.publish rs).results.get? r.name).isSome = true := by
  obtain ⟨p, hp, hname, -⟩ := (hright r hr).done hlive
  refine ResultMap.get?_publishAll_isSome hr ?_
  rw [← hname, ← (b.extends_publish rs).names]
  exact h.ledger.names p hp

/-- Once the results of a step are published and none is a failure, what the next step needs is
good. -/
theorem good_after {known : Producer → Prop} {names : List String} {rs : List ProducerResult}
    (h : E.Sheet s (b.publish rs) calls) (hlive : b.cancelled = false)
    (hgood : E.Good b known) (hnames : (rs.map (·.name)).Perm names)
    (hright : ∀ r ∈ rs, E.Right b r) (hnone : firstFailure? rs = none) :
    E.Good (b.publish rs) (E.After known names) := by
  have hext := b.extends_publish rs
  intro q hq
  rcases hq with hq | ⟨p, hp, hname, hpq⟩
  · exact hgood.mono hext q hq
  · -- `p` is one of the step, so it has a good result, which carries over to all that is under it
    obtain ⟨r, hr, hrname⟩ := List.mem_map.1 (hnames.mem_iff.2 hname)
    have hok := firstFailure?_eq_none hnone hr
    obtain ⟨p', hp', hname', hcell⟩ := (hright r hr).own hok
    cases E.eq_of_name hp' hp (hname'.trans hrname)
    refine h.fine_under hlive hp (h.fine_of_published hlive hp hok hcell ?_) hpq
    rw [hname']
    exact h.isSome_publish hlive hright hr

/-- Whoever looks at the results needs nothing that is not good, and has no result yet. -/
theorem Sheet.of_looking {p : Producer} (h : E.Sheet s b calls)
    (hwho : (E.May b (.call p) ∧ ∃ cell, b.cells p.id = some cell ∧ cell.isFree = true) ∨
      ∃ o ∈ calls, o.producer = p) :
    p ∈ E ∧ (∀ q ∈ E.needs p, Fine b b.results q) ∧ ∀ r, b.cells p.id ≠ some (.settled r) := by
  rcases hwho with ⟨hasked, cell, hcell, hfree⟩ | ⟨o, ho, rfl⟩
  · exact ⟨hasked.ready.1, hasked.ready.2, Ledger.not_settled_of_isFree hcell hfree⟩
  · obtain ⟨line, v, start, -, haccount⟩ := h.ledger.account_of_mem ho
    have hmem := h.ledger.known o ho
    refine ⟨hmem, fun q hq => h.fine_of_sightsOf hmem ?_ hq, h.ledger.not_settled_of_mem ho⟩
    rw [show b.sightsOf o.producer = [v] from congrArg Account.sights haccount]
    exact List.cons_ne_nil _ _

theorem Sheet.deed (h : E.Sheet s b calls)
    (hdeed : Deed s (fun b p => E.May b (.call p)) E.Right b calls c calls') :
    E.Sheet s c calls' ∧ b.Extends c := by
  obtain ⟨hledger, hext⟩ := h.ledger.deed (fun hp => hp.ready.1) hdeed
  refine ⟨⟨hledger, ?seen, ?unread, ?lasting, ?published, ?unique, ?uniqueSights⟩, hext⟩
  case seen =>
    intro sight hsight q hq
    -- a sight keeps the map that was seen, while the board goes on
    have hlast : ∀ {m : ResultMap}, Fine b m q → Fine c m q := fun hfine =>
      hfine.mono hext fun _ hr => hr
    have hnow : Fine b b.results q → Fine c c.results q := fun hfine =>
      hfine.mono hext fun _ hr => hext.published hr
    rcases hdeed.of_mem_sights hsight with hold | ⟨heq, hwho⟩
    · obtain ⟨hfine, hfine'⟩ := h.seen sight hold q hq
      exact ⟨hlast hfine, hnow hfine'⟩
    · -- whoever looks now may be called, so that what it needs is good
      have hfine := (h.of_looking hwho).2.1 q hq
      rw [heq]
      exact ⟨hlast hfine, hnow hfine⟩
  case unread =>
    intro hlive sight hsight
    replace hlive := hext.live hlive
    rcases hdeed.of_mem_sights hsight with hold | ⟨heq, hwho⟩
    · exact h.unread hlive sight hold
    · -- it is not done, and nothing is published of those that are not
      obtain ⟨hp, hneeds, hcell⟩ := h.of_looking hwho
      rw [heq]
      exact h.get?_eq_none hlive hp (h.not_done hlive hcell hneeds)
  case lasting =>
    intro sight hsight name r hget
    rcases hdeed.of_mem_sights hsight with hold | ⟨heq, -⟩
    · exact hext.published (h.lasting sight hold hget)
    · exact hext.published (heq ▸ hget)
  case published =>
    intro r hr
    rcases hdeed.results with heq | ⟨rs, heq, hright⟩
    · exact (h.published r (heq ▸ hr)).mono hext
    · rcases ResultMap.mem_published_publishAll (heq ▸ hr) with hold | hnew
      · exact (h.published r hold).mono hext
      · exact (hright r hnew).mono hext
  case unique =>
    rcases hdeed.results with heq | ⟨rs, heq, -⟩
    · exact heq ▸ h.unique.1
    · exact heq ▸ ResultMap.unique_publishAll h.unique.1 rs
  case uniqueSights =>
    intro sight hsight
    rcases hdeed.of_mem_sights hsight with hold | ⟨heq, -⟩
    · exact h.unique.2 sight hold
    · rw [heq]
      exact h.unique.1

/-- Who is skipped because of a failure is done, with a failure that stems from that one. -/
theorem Sheet.right_of_skipped {known : Producer → Prop} {names : List String}
    {rs : List ProducerResult} {p : Producer} {f : Failure} (h : E.Sheet s (b.publish rs) calls)
    (hgood : E.Good b known) (hready : E.Ready (E.After known names) p)
    (hneeds : ∀ name ∈ names, ∃ d ∈ E.needs p, d.name = name)
    (hnames : (rs.map (·.name)).Perm names) (hright : ∀ r ∈ rs, E.Right b r)
    (hf : firstFailure? rs = some f) :
    E.Right (b.publish rs) (.failed p.name (f.inSequence p.name)) := by
  refine ⟨fun hok => absurd hok (by simp [ProducerResult.failed, ProducerResult.isOk]),
    fun hlive => ?_⟩
  have hpublished := fun r hr => h.isSome_publish (r := r) hlive hright hr
  replace hgood := hgood.mono (b.extends_publish rs)
  replace hright := fun r hr => (hright r hr).mono (b.extends_publish rs)
  obtain ⟨hp, hknown⟩ := hready
  obtain ⟨r, hr, hfailure⟩ := firstFailure?_eq_some hf
  obtain ⟨d, hd, hdname⟩ := hneeds r.name (hnames.mem_iff.1 (List.mem_map_of_mem hr))
  obtain ⟨d', hd', hname, -, hcame⟩ := (hright r hr).done hlive
  cases E.eq_of_name hd' (mem_of_needs hp hd) (hname.trans hdname.symm)
  have hfailed := hcame.failedWith hd' hfailure
  -- what `p` needs was known, or is under one of the step; all of these are done by now
  have hdone : ∀ q ∈ E.needs p, E.Done (b.publish rs) q ∧
      ((b.publish rs).results.get? q.name).isSome = true := by
    intro q hq
    rcases hknown q hq with hq | ⟨e, he, hename, heq⟩
    · obtain ⟨hq, r, -, hcell, hget⟩ := hgood q hq
      exact ⟨.settled hq hcell, Option.isSome_iff_exists.2 ⟨r, hget⟩⟩
    · obtain ⟨r', hr', hr'name⟩ := List.mem_map.1 (hnames.mem_iff.2 hename)
      obtain ⟨e', he', he'name, hdone, -⟩ := (hright r' hr').done hlive
      cases E.eq_of_name he' he (he'name.trans hr'name)
      rcases Relation.ReflTransGen.cases_tail heq with rfl | ⟨m, hem, hmq⟩
      · exact ⟨hdone, hr'name ▸ hpublished r' hr'⟩
      · exact h.done_needs hlive (h.done_under hlive hdone hem) hmq
  exact ⟨p, hp, rfl, .skipped hp hd hfailed (fun q hq => (hdone q hq).2)
    fun q hq => (hdone q hq).1, .skipped hd hfailed⟩

/-- What the runs of guarded plans keep. -/
def discipline (E : Ensemble) (s : Setting) : Discipline s where
  Inv := E.Sheet s
  Pre := E.May
  Right := E.Right
  pre_mono hbc h := h.mono hbc
  right_mono hbc h := h.mono hbc
  deed hdeed h := h.deed hdeed
  cell h hp := h.ledger.isSome_cell hp.ready.1
  ongoing h ho := by
    obtain ⟨line, v, start, hcarries, haccount⟩ := h.ledger.account_of_mem ho
    have hp := h.ledger.known _ ho
    refine ⟨hcarries.cell, may_call hp fun q hq => h.fine_of_sightsOf hp ?_ hq⟩
    rw [show Board.sightsOf _ _ = [v] from congrArg Account.sights haccount]
    exact List.cons_ne_nil _ _
  settled h hp hcell :=
    ⟨h.ledger.name_of_settled hp.ready.1 hcell, h.right_of_settled hp.ready.1 hcell⟩
  stub h := by
    obtain ⟨known, -, hguarded⟩ := h
    exact hguarded
  step h := by
    obtain ⟨known, hgood, hguarded⟩ := h
    exact ⟨known, hgood, hguarded.1⟩
  branch h hbranch := by
    obtain ⟨known, hgood, hguarded⟩ := h
    obtain ⟨hbranch, hne⟩ := guardedAll_iff.1 hguarded _ hbranch
    exact ⟨⟨known, hgood, hbranch⟩, hne⟩
  cancelled hcancelled hfailed :=
    ⟨fun hok => absurd hok (ne_true_of_eq_false hfailed),
      fun hlive => absurd hcancelled (ne_true_of_eq_false hlive)⟩
  skip h hpre hne hnames hright hf hname := by
    obtain ⟨known, hgood, hguarded⟩ := hpre
    obtain ⟨p, rfl, hready, hneeds⟩ := hguarded.2.exists_call hne
    cases List.mem_singleton.1 hname
    exact h.right_of_skipped hgood hready hneeds hnames hright hf
  next h hlive hpre hne hnames hright hf := by
    obtain ⟨known, hgood, hguarded⟩ := hpre
    obtain ⟨p, rfl, hready, -⟩ := hguarded.2.exists_call hne
    exact ⟨_, good_after h hlive hgood hnames hright hf, hready, trivial⟩

theorem patient_discipline (E : Ensemble) (s : Setting) : (E.discipline s).Patient := by
  intro b calls time h
  have hext := b.extends_wait time
  exact ⟨h.ledger.wait time, h.seen, h.unread, h.lasting, fun r hr => (h.published r hr).mono hext,
    h.unique⟩

end Ensemble

end Gateway
