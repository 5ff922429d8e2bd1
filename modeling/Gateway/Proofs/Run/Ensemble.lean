import Gateway.Proofs.Run.Ledger
import Mathlib.Logic.Relation

/-!
# Gateway.Proofs.Run.Ensemble — producers that need each other

In an ensemble a producer *needs* others. A plan is *guarded* when every call in it stands behind all
that its producer needs, whether that stands in an earlier step or is known beforehand. A run of a
guarded plan keeps what this is for: when a producer looks at the published results, those it needs
are among them, and they are good.

Until the run is cancelled a result that is passed on is *right*. If it is good it settled the cell of
its producer. If not, the producer failed itself or needs one that failed; either way the producer is
done, and so is all that it needs.

A producer that was skipped leaves no mark on the board that says so. It has no cell that is settled, no
call and no sight, just like one whose turn has not come. What tells the two apart is that a failed
result is published for it, or for something that it needs, and `Done` is defined by going down to
where that is. This is why rightness speaks of others besides the producer: a failed result that is
passed on has to carry the proof that its producer is never looked at again.

The sheet is the ledger and what else holds of every board of a run. Which plan is run is not part of
it; plans come in only where one is begun.
-/

set_option autoImplicit false

namespace Gateway

/-- Producers, and for each of them those that it needs. -/
structure Ensemble extends Roster where
  needs : Producer → List Producer
  needs_mem : ∀ {p q : Producer}, p ∈ producers → q ∈ needs p → q ∈ producers

instance : Membership Producer Ensemble := ⟨fun E p => p ∈ E.toRoster⟩

namespace Ensemble

variable (E : Ensemble)

/-- A producer is another one, or that one needs it, directly or through others. -/
def Under : Producer → Producer → Prop := Relation.ReflTransGen fun p q => q ∈ E.needs p

/-- What is known once some names have good results, besides what was known before. -/
def After (known : Producer → Prop) (names : List String) (q : Producer) : Prop :=
  known q ∨ ∃ p ∈ E, p.name ∈ names ∧ E.Under p q

/-- A producer whose needs are all known. -/
def Ready (known : Producer → Prop) (p : Producer) : Prop := p ∈ E ∧ ∀ q ∈ E.needs p, known q

/-- What may follow a step that yields results of some names: nothing, or a call whose producer needs
all of them, and nothing that is not known after them. -/
def Follows (known : Producer → Prop) (names : List String) : List Plan → Prop
  | [] => True
  | [.call p] => E.Ready (E.After known names) p ∧ ∀ name ∈ names, ∃ d ∈ E.needs p, d.name = name
  | _ => False

mutual

/-- Every call of a plan stands behind all that its producer needs. -/
def Guarded (known : Producer → Prop) : Plan → Prop
  | .call p => E.Ready known p
  | .sequence steps => GuardedSteps known steps
  | .parallel branches => GuardedAll known branches
  | .stub .. => False

/-- So it is in the steps of a sequence. -/
def GuardedSteps (known : Producer → Prop) : List Plan → Prop
  | [] => False
  | step :: rest => Guarded known step ∧ E.Follows known step.names rest

/-- So it is in several branches, each of which yields something. -/
def GuardedAll (known : Producer → Prop) : List Plan → Prop
  | [] => True
  | branch :: rest => (Guarded known branch ∧ branch.names ≠ []) ∧ GuardedAll known rest

end

/-- The producer failed with a failure of its own, or needs one that failed. -/
inductive FailedWith (b : Board) : Producer → Failure → Prop
  | own {p : Producer} {r : ProducerResult} {f : Failure} (hp : p ∈ E)
      (hcell : b.cells p.id = some (.settled r)) (hfailure : r.failure = some f) :
      FailedWith b p f
  | needs {p d : Producer} {f : Failure} (hp : p ∈ E) (hd : d ∈ E.needs p)
      (hfailed : FailedWith b d f) : FailedWith b p (f.inSequence p.name)

/-- The producer has its result, or has none because of a failure, and all that it needs is done and
has something published. -/
inductive Done (b : Board) : Producer → Prop
  | settled {p : Producer} {r : ProducerResult} (hp : p ∈ E)
      (hcell : b.cells p.id = some (.settled r)) : Done b p
  | skipped {p d : Producer} {f : Failure} (hp : p ∈ E) (hd : d ∈ E.needs p)
      (hfailed : FailedWith E b d f)
      (hpublished : ∀ q ∈ E.needs p, (b.results.get? q.name).isSome = true)
      (hdone : ∀ q ∈ E.needs p, Done b q) : Done b p

/-- What a producer came to: the result in its cell, or that of one that is skipped because another
failed that it needs. -/
inductive CameTo (b : Board) (p : Producer) : ProducerResult → Prop
  | settled {r : ProducerResult} (hcell : b.cells p.id = some (.settled r)) : CameTo b p r
  | skipped {d : Producer} {f : Failure} (hd : d ∈ E.needs p) (hfailed : FailedWith E b d f) :
      CameTo b p (.failed p.name (f.inSequence p.name))

/-- A good result settled the cell of the producer, and is published on a map. -/
def Fine (b : Board) (m : ResultMap) (p : Producer) : Prop :=
  ∃ r, r.isOk = true ∧ b.cells p.id = some (.settled r) ∧ m.get? p.name = some r

/-- A result that may be passed on. -/
structure Right (b : Board) (r : ProducerResult) : Prop where
  own : r.isOk = true → ∃ p ∈ E, p.name = r.name ∧ b.cells p.id = some (.settled r)
  done : b.cancelled = false → ∃ p ∈ E, p.name = r.name ∧ E.Done b p ∧ E.CameTo b p r

/-- What a run of a guarded plan keeps. -/
structure Sheet (s : Setting) (b : Board) (calls : Multiset Ongoing) : Prop where
  ledger : Ledger s E.toRoster b calls
  seen : ∀ sight ∈ b.sights, ∀ q ∈ E.needs sight.producer,
    Fine b sight.results q ∧ Fine b b.results q
  unread : b.cancelled = false → ∀ sight ∈ b.sights,
    sight.results.get? sight.producer.name = none
  lasting : ∀ sight ∈ b.sights, ∀ {name : String} {r : ProducerResult},
    sight.results.get? name = some r → b.results.get? name = some r
  published : ∀ r ∈ b.results.published, E.Right b r
  unique : b.results.Unique ∧ ∀ sight ∈ b.sights, sight.results.Unique

variable {E} {s : Setting} {b c : Board} {calls calls' : Multiset Ongoing} {p q : Producer}
  {f : Failure} {r : ProducerResult}

theorem mem_of_needs (hp : p ∈ E) (hq : q ∈ E.needs p) : q ∈ E := E.needs_mem hp hq

theorem CameTo.failedWith (hp : p ∈ E) (h : E.CameTo b p r) (hf : r.failure = some f) :
    E.FailedWith b p f := by
  cases h with
  | settled hcell => exact .own hp hcell hf
  | skipped hd hfailed =>
    cases hf
    exact .needs hp hd hfailed

theorem Done.mem (h : E.Done b p) : p ∈ E := by
  cases h with
  | settled hp => exact hp
  | skipped hp => exact hp

/-! ## Guarded plans -/

theorem guardedAll_iff {known : Producer → Prop} {branches : List Plan} :
    E.GuardedAll known branches ↔
      ∀ branch ∈ branches, E.Guarded known branch ∧ branch.names ≠ [] := by
  induction branches with
  | nil => exact ⟨fun _ _ h => absurd h List.not_mem_nil, fun _ => trivial⟩
  | cons branch rest ih => rw [GuardedAll, ih, List.forall_mem_cons]

/-- What follows a step is a call. -/
theorem Follows.exists_call {known : Producer → Prop} {names : List String} {rest : List Plan}
    (h : E.Follows known names rest) (hne : rest ≠ []) :
    ∃ p, rest = [.call p] ∧ E.Ready (E.After known names) p ∧
      ∀ name ∈ names, ∃ d ∈ E.needs p, d.name = name := by
  match rest, hne, h with
  | [second], _, h =>
    cases second with
    | call p => exact ⟨p, rfl, h⟩
    | _ => exact h.elim
  | second :: _ :: _, _, h => cases second <;> exact h.elim

mutual

theorem Guarded.mem_of_mem_calls {known : Producer → Prop} :
    ∀ {plan : Plan}, E.Guarded known plan → p ∈ plan.calls → p ∈ E
  | .call q, h, hp => by
    cases List.mem_singleton.1 hp
    exact h.1
  | .sequence (step :: rest), ⟨hstep, hrest⟩, hp => by
    rcases List.mem_append.1 hp with hp | hp
    · have hguarded : E.Guarded known step := hstep
      exact hguarded.mem_of_mem_calls hp
    · obtain ⟨q, rfl, hq, -⟩ := hrest.exists_call fun hnil => by
        rw [hnil] at hp
        exact List.not_mem_nil hp
      cases List.mem_singleton.1 hp
      exact hq.1
  | .sequence [], h, _ => h.elim
  | .parallel branches, h, hp => GuardedAll.mem_of_mem_calls h hp
  | .stub .., h, _ => h.elim

theorem GuardedAll.mem_of_mem_calls {known : Producer → Prop} :
    ∀ {branches : List Plan}, E.GuardedAll known branches → p ∈ Plan.allCalls branches → p ∈ E
  | [], _, hp => absurd hp List.not_mem_nil
  | branch :: rest, ⟨⟨h, _⟩, hrest⟩, hp => by
    rcases List.mem_append.1 hp with hp | hp
    · exact Guarded.mem_of_mem_calls h hp
    · exact GuardedAll.mem_of_mem_calls hrest hp

end

/-! ## What lasts -/

theorem FailedWith.mono (hbc : b.Extends c) (h : E.FailedWith b p f) : E.FailedWith c p f := by
  induction h with
  | own hp hcell hfailure => exact .own hp (hbc.settled hcell) hfailure
  | needs hp hd _ ih => exact .needs hp hd ih

theorem CameTo.mono (hbc : b.Extends c) (h : E.CameTo b p r) : E.CameTo c p r := by
  cases h with
  | settled hcell => exact .settled (hbc.settled hcell)
  | skipped hd hfailed => exact .skipped hd (hfailed.mono hbc)

theorem Done.mono (hbc : b.Extends c) (h : E.Done b p) : E.Done c p := by
  induction h with
  | settled hp hcell => exact .settled hp (hbc.settled hcell)
  | skipped hp hd hfailed hpublished _ ih =>
    refine .skipped hp hd (hfailed.mono hbc) (fun q hq => ?_) ih
    obtain ⟨r, hr⟩ := Option.isSome_iff_exists.1 (hpublished q hq)
    exact Option.isSome_iff_exists.2 ⟨r, hbc.published hr⟩

theorem Fine.mono {m m' : ResultMap} (hbc : b.Extends c)
    (hm : ∀ r, m.get? p.name = some r → m'.get? p.name = some r) (h : Fine b m p) :
    Fine c m' p := by
  obtain ⟨r, hok, hcell, hget⟩ := h
  exact ⟨r, hok, hbc.settled hcell, hm r hget⟩

theorem Right.mono (hbc : b.Extends c) (h : E.Right b r) : E.Right c r where
  own hok := by
    obtain ⟨p, hp, hname, hcell⟩ := h.own hok
    exact ⟨p, hp, hname, hbc.settled hcell⟩
  done hlive := by
    obtain ⟨p, hp, hname, hdone, hcame⟩ := h.done (hbc.live hlive)
    exact ⟨p, hp, hname, hdone.mono hbc, hcame.mono hbc⟩

/-! ## What the sheet tells -/

namespace Sheet

/-- Who has looked at results needs nothing that is not good. -/
theorem fine_of_sightsOf (h : E.Sheet s b calls) (hp : p ∈ E) (hsights : b.sightsOf p ≠ [])
    (hq : q ∈ E.needs p) : Fine b b.results q := by
  obtain ⟨v, rest, heq⟩ := List.exists_cons_of_ne_nil hsights
  have hsight := h.ledger.exists_sight hp (v := v) (heq ▸ List.mem_cons_self)
  exact (h.seen _ hsight q hq).2

/-- Before a cancellation whose cell is settled has looked at results. -/
theorem sightsOf_ne_nil (h : E.Sheet s b calls) (hlive : b.cancelled = false) (hp : p ∈ E)
    (hcell : b.cells p.id = some (.settled r)) : b.sightsOf p ≠ [] := by
  rcases (h.ledger.stage p hp).of_settled hcell with
    ⟨v, f, -, -, -, hsights⟩ | ⟨v, v', expected, request, start, -, -, -, hsights⟩ | ⟨hoff, -, -⟩
  · exact fun hnil => List.cons_ne_nil _ _ (hsights.symm.trans hnil)
  · exact fun hnil => List.cons_ne_nil _ _ (hsights.symm.trans hnil)
  · exact absurd hoff (ne_true_of_eq_false hlive)

/-- Who is done needs nothing that is not done or has nothing published. -/
theorem done_needs (h : E.Sheet s b calls) (hlive : b.cancelled = false) (hdone : E.Done b p)
    (hq : q ∈ E.needs p) : E.Done b q ∧ (b.results.get? q.name).isSome = true := by
  cases hdone with
  | settled hp hcell =>
    obtain ⟨r, -, hcell', hget⟩ := h.fine_of_sightsOf hp (h.sightsOf_ne_nil hlive hp hcell) hq
    exact ⟨.settled (mem_of_needs hp hq) hcell', Option.isSome_iff_exists.2 ⟨r, hget⟩⟩
  | skipped hp hd hfailed hpublished hdone => exact ⟨hdone q hq, hpublished q hq⟩

theorem done_under (h : E.Sheet s b calls) (hlive : b.cancelled = false) (hdone : E.Done b p)
    (hpq : E.Under p q) : E.Done b q := by
  induction hpq with
  | refl => exact hdone
  | tail _ hq ih => exact (h.done_needs hlive ih hq).1

theorem not_ok_of_failed (h : E.Sheet s b calls) (hlive : b.cancelled = false)
    (hfailed : E.FailedWith b p f) (hcell : b.cells p.id = some (.settled r)) :
    r.isOk = false := by
  induction hfailed generalizing r with
  | own hp hcell' hfailure =>
    cases Cell.settled.inj (Option.some.inj (hcell.symm.trans hcell'))
    simp [ProducerResult.isOk, hfailure]
  | needs hp hd _ ih =>
    obtain ⟨r', hok, hcell', -⟩ := h.fine_of_sightsOf hp (h.sightsOf_ne_nil hlive hp hcell) hd
    exact absurd hok (ne_true_of_eq_false (ih hcell'))

theorem not_failed_of_fine (h : E.Sheet s b calls) (hlive : b.cancelled = false) {m : ResultMap}
    (hfine : Fine b m p) : ¬ E.FailedWith b p f := by
  intro hfailed
  obtain ⟨r, hok, hcell, -⟩ := hfine
  exact absurd hok (ne_true_of_eq_false (h.not_ok_of_failed hlive hfailed hcell))

/-- Who has no result, but could have one since all it needs is good, is not done. -/
theorem not_done (h : E.Sheet s b calls) (hlive : b.cancelled = false)
    (hcell : ∀ r, b.cells p.id ≠ some (.settled r))
    (hneeds : ∀ q ∈ E.needs p, Fine b b.results q) : ¬ E.Done b p := by
  intro hdone
  cases hdone with
  | settled hp hsettled => exact hcell _ hsettled
  | skipped hp hd hfailed => exact h.not_failed_of_fine hlive (hneeds _ hd) hfailed

/-- What is published is what a producer came to. -/
theorem done_of_get? (h : E.Sheet s b calls) (hlive : b.cancelled = false) {name : String}
    (hget : b.results.get? name = some r) :
    ∃ p ∈ E, p.name = name ∧ E.Done b p ∧ E.CameTo b p r := by
  obtain ⟨hmem, rfl⟩ := ResultMap.mem_published_of_get? hget
  exact (h.published r hmem).done hlive

theorem get?_eq_none (h : E.Sheet s b calls) (hlive : b.cancelled = false) (hp : p ∈ E)
    (hdone : ¬ E.Done b p) : b.results.get? p.name = none := by
  rw [Option.eq_none_iff_forall_ne_some]
  intro r hget
  obtain ⟨q, hq, hname, hqdone, -⟩ := h.done_of_get? hlive hget
  exact hdone (E.eq_of_name hq hp hname ▸ hqdone)

theorem get?_undeclared (h : E.Sheet s b calls) (hlive : b.cancelled = false) {name : String}
    (hname : ¬ ∃ p ∈ E, p.name = name) : b.results.get? name = none := by
  rw [Option.eq_none_iff_forall_ne_some]
  intro r hget
  obtain ⟨p, hp, heq, -⟩ := h.done_of_get? hlive hget
  exact hname ⟨p, hp, heq⟩

/-- Before a cancellation a good result that is published under its name is the one that settled
the cell, so that a name whose producer has a good result holds nothing else. -/
theorem fine_of_published (h : E.Sheet s b calls) (hlive : b.cancelled = false) (hp : p ∈ E)
    (hok : r.isOk = true) (hcell : b.cells p.id = some (.settled r))
    (hsome : (b.results.get? p.name).isSome) : Fine b b.results p := by
  obtain ⟨r', hget⟩ := Option.isSome_iff_exists.1 hsome
  obtain ⟨p', hp', hname, -, hcame⟩ := h.done_of_get? hlive hget
  cases E.eq_of_name hp' hp hname
  cases hcame with
  | settled hcell' =>
    cases hcell.symm.trans hcell'
    exact ⟨r, hok, hcell, hget⟩
  | skipped hd hfailed =>
    have hfine := h.fine_of_sightsOf hp (h.sightsOf_ne_nil hlive hp hcell) hd
    exact absurd hfailed (h.not_failed_of_fine hlive hfine)

/-- What a good result stands for is good, and so is all that its producer needs. -/
theorem fine_under (h : E.Sheet s b calls) (hlive : b.cancelled = false) (hp : p ∈ E)
    (hfine : Fine b b.results p) (hpq : E.Under p q) : q ∈ E ∧ Fine b b.results q := by
  induction hpq with
  | refl => exact ⟨hp, hfine⟩
  | tail _ hq ih =>
    obtain ⟨hmem, r, -, hcell, -⟩ := ih
    exact ⟨mem_of_needs hmem hq,
      h.fine_of_sightsOf hmem (h.sightsOf_ne_nil hlive hmem hcell) hq⟩

/-- A producer that has looked at results found those of all it needs on the map: the good results
of their own calls. -/
theorem seen_authentic (h : E.Sheet s b calls) {sight : Sight} (hsight : sight ∈ b.sights)
    (hq : q ∈ E.needs sight.producer) :
    ∃ r, sight.results.get? q.name = some r ∧ b.Authentic s q r := by
  obtain ⟨r, hok, hcell, hget⟩ := (h.seen sight hsight q hq).1
  have hmem := mem_of_needs (h.ledger.sights sight hsight) hq
  exact ⟨r, hget, h.ledger.authentic hmem hcell hok⟩

theorem right_of_settled (h : E.Sheet s b calls) (hp : p ∈ E)
    (hcell : b.cells p.id = some (.settled r)) : E.Right b r := by
  have hname := (h.ledger.name_of_settled hp hcell).symm
  exact ⟨fun _ => ⟨p, hp, hname, hcell⟩,
    fun _ => ⟨p, hp, hname, .settled hp hcell, .settled hcell⟩⟩

end Sheet

end Ensemble

end Gateway
