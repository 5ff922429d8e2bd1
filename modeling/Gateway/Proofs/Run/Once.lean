import Gateway.Proofs.Run.Ledger
import Gateway.Proofs.Run.Places
import Mathlib

/-!
# Gateway.Proofs.Run.Once — one call of a producer, and one result

Whatever a plan looks like and wherever its producers stand in it, each of them is called at most
once, all its places are given one and the same result, and a result without a failure is that of
the one call: it holds the request that was sent and the response as the producer edits it.

The plans are those without stubs whose sequences and parallels have parts. A parallel with a
branch that yields nothing would end before that branch does.

That it is one call is the stage of the producer, which has room for one. That it is one result has two
sides. What is handed out at a place is what the cell holds, and this is in the ledger. But a place is
part of a sequence or a parallel, which might still put something else in the place of what it was
handed. So it is said, too, what the plan comes to when every place yields what is in the cell
(`Plan.Comes`, in `Places`), and that the run comes to this. It does not matter whether the result is
good: after a panic every place has the same failure.

`Board.Sole` is what a board shows of it, and holds of every schedule, before and after a cancellation.
A plan that is cancelled fills in what it does not wait for, so what it comes to is only said of
schedules that are not.
-/

set_option autoImplicit false

namespace Gateway

open Activity (tasksNames)

namespace Plan

theorem mem_allCalls_of_mem {plan : Plan} {plans : List Plan} (h : plan ∈ plans) {p : Producer}
    (hp : p ∈ plan.calls) : p ∈ allCalls plans := by
  induction plans with
  | nil => exact absurd h List.not_mem_nil
  | cons other rest ih =>
    rcases List.mem_cons.1 h with rfl | h
    · exact List.mem_append_left _ hp
    · exact List.mem_append_right _ (ih h)

mutual

/-- A plan is made of calls, of sequences with steps and of parallels with branches. -/
def Solid : Plan → Prop
  | .call _ => True
  | .sequence steps => steps ≠ [] ∧ AllSolid steps
  | .parallel branches => branches ≠ [] ∧ AllSolid branches
  | .stub .. => False

/-- So are several plans. -/
def AllSolid : List Plan → Prop
  | [] => True
  | plan :: rest => Solid plan ∧ AllSolid rest

end

theorem allSolid_iff {plans : List Plan} : AllSolid plans ↔ ∀ plan ∈ plans, Solid plan := by
  induction plans with
  | nil => exact ⟨fun _ _ h => absurd h List.not_mem_nil, fun _ => trivial⟩
  | cons plan rest ih => rw [AllSolid, ih, List.forall_mem_cons]

mutual

theorem Solid.names_ne_nil : ∀ {plan : Plan}, plan.Solid → plan.names ≠ []
  | .call _, _ => List.cons_ne_nil _ _
  | .sequence _, ⟨hne, h⟩ => AllSolid.lastNames_ne_nil h hne
  | .parallel (branch :: _), ⟨_, h⟩ => fun hnil =>
    (show branch.Solid from h.1).names_ne_nil (List.append_eq_nil_iff.1 hnil).1
  | .parallel [], ⟨hne, _⟩ => absurd rfl hne
  | .stub .., h => h.elim

theorem AllSolid.lastNames_ne_nil :
    ∀ {steps : List Plan}, AllSolid steps → steps ≠ [] → lastNames steps ≠ []
  | [], _, hne => absurd rfl hne
  | [step], h, _ => (show step.Solid from h.1).names_ne_nil
  | _ :: step :: rest, h, _ =>
    (show AllSolid (step :: rest) from h.2).lastNames_ne_nil (List.cons_ne_nil _ _)

end

end Plan

/-! ## What is held -/

namespace Activity

mutual

/-- The results that an activity has come to and holds. -/
def held : Activity → List ProducerResult
  | .finished (.results rs) => rs
  | .stepping _ _ _ current _ => held current
  | .gathering _ _ collected arrived branches => collected ++ arrived ++ tasksHeld branches
  | _ => []

def tasksHeld : List (Nat × Activity) → List ProducerResult
  | [] => []
  | (_, a) :: rest => held a ++ tasksHeld rest

end

end Activity

/-- The results that the tasks of a run hold. -/
def Work.held (w : Work) : List ProducerResult := w.root.held ++ Activity.tasksHeld w.givenUp

/-- The results that a run comes to. -/
def Outcome.results : Outcome → List ProducerResult
  | .finished (.results rs) => rs
  | _ => []

namespace Discipline

variable {s : Setting} {J : Discipline s} {b : Board}

mutual

theorem Ok.right_of_mem_held {r : ProducerResult} :
    ∀ {a : Activity}, J.Ok b a → r ∈ a.held → J.Right b r
  | .finished (.results _), h, hr => h r hr
  | .finished (.panic _), h, _ => h.elim
  | .spawned _, _, hr => absurd hr List.not_mem_nil
  | .calling _, _, hr => absurd hr List.not_mem_nil
  | .waiting _, _, hr => absurd hr List.not_mem_nil
  | .stepping _ _ _ current _, h, hr => Ok.right_of_mem_held (a := current) h.2 hr
  | .gathering _ _ _ _ _, h, hr => by
    rcases List.mem_append.1 hr with hr | hr
    · exact h.2.1 r hr
    · exact OkTasks.right_of_mem_held h.2.2 hr

theorem OkTasks.right_of_mem_held {r : ProducerResult} :
    ∀ {tasks : List (Nat × Activity)}, J.OkTasks b tasks → r ∈ Activity.tasksHeld tasks →
      J.Right b r
  | [], _, hr => absurd hr List.not_mem_nil
  | (_, a) :: rest, h, hr => by
    rcases List.mem_append.1 hr with hr | hr
    · exact Ok.right_of_mem_held (a := a) h.1.2 hr
    · exact (show J.OkTasks b rest from h.2).right_of_mem_held hr

end

theorem Kept.right_of_mem_held {w : Work} {r : ProducerResult} (h : J.Kept w) (hr : r ∈ w.held) :
    J.Right w.board r := by
  rcases List.mem_append.1 hr with hr | hr
  · exact h.root.right_of_mem_held hr
  · exact h.tasks.right_of_mem_held hr

end Discipline

/-! ## The discipline -/

/-- A result settled the cell of the producer whose name it bears. -/
def Board.Own (ps : Roster) (b : Board) (r : ProducerResult) : Prop :=
  ∃ p ∈ ps, p.name = r.name ∧ b.cells p.id = some (.settled r)

theorem Board.Own.mono {ps : Roster} {b c : Board} {r : ProducerResult} (hbc : b.Extends c)
    (h : b.Own ps r) : c.Own ps r := by
  obtain ⟨p, hp, hname, hcell⟩ := h
  exact ⟨p, hp, hname, hbc.settled hcell⟩

/-- The books are right, and every result without a failure settled a cell. -/
def Discipline.sole (s : Setting) (ps : Roster) : Discipline s where
  Inv b calls := Ledger s ps b calls ∧ ∀ r ∈ b.results.published, r.isOk = true → b.Own ps r
  Pre _ plan := plan.Solid ∧ ∀ p ∈ plan.calls, p ∈ ps
  Right b r := r.isOk = true → b.Own ps r
  pre_mono _ h := h
  right_mono hbc h hok := (h hok).mono hbc
  deed hdeed h := by
    obtain ⟨hledger, hext⟩ := h.1.deed (fun hp => hp.2 _ (List.mem_singleton_self _)) hdeed
    refine ⟨⟨hledger, fun r hr hok => ?_⟩, hext⟩
    rcases hdeed.results with heq | ⟨rs, heq, hright⟩
    · exact (h.2 r (heq ▸ hr) hok).mono hext
    · rcases ResultMap.mem_published_publishAll (heq ▸ hr) with hr | hr
      · exact (h.2 r hr hok).mono hext
      · exact (hright r hr hok).mono hext
  cell h hp := h.1.isSome_cell (hp.2 _ (List.mem_singleton_self _))
  ongoing h ho := by
    obtain ⟨line, v, start, hcarries, -⟩ := h.1.account_of_mem ho
    exact ⟨hcarries.cell, trivial, fun p hp => List.mem_singleton.1 hp ▸ h.1.known _ ho⟩
  settled h hp hcell := by
    have hp := hp.2 _ (List.mem_singleton_self _)
    have hname := h.1.name_of_settled hp hcell
    exact ⟨hname, fun _ => ⟨_, hp, hname.symm, hcell⟩⟩
  stub h := h.1
  step h := ⟨h.1.2.1, fun p hp => h.2 p (List.mem_append_left _ hp)⟩
  branch h hbranch := by
    have hsolid := Plan.allSolid_iff.1 h.1.2 _ hbranch
    refine ⟨⟨hsolid, fun p hp => h.2 p ?_⟩, hsolid.names_ne_nil⟩
    exact Plan.mem_allCalls_of_mem hbranch hp
  cancelled _ hfailed hok := absurd hok (ne_true_of_eq_false hfailed)
  skip _ _ _ _ _ _ _ hok := absurd hok (by simp [ProducerResult.failed, ProducerResult.isOk])
  next _ _ h hne _ _ _ := ⟨⟨hne, h.1.2.2⟩, fun p hp => h.2 p (List.mem_append_right _ hp)⟩

theorem Discipline.patient_sole (s : Setting) (ps : Roster) : (sole s ps).Patient :=
  fun time h => And.intro (h.1.wait time) h.2

/-! ## What places are handed, and what is published -/

namespace Board

/-- Each producer is called once at most, its places are told the same, and the results that are
published, handed out or returned without a failure are authentic. -/
structure Sole (s : Setting) (plan : Plan) (b : Board) (returned : List ProducerResult) :
    Prop where
  once : ∀ p ∈ plan.calls, b.callCount p ≤ 1
  alike : ∀ x ∈ b.receipts, ∀ y ∈ b.receipts, x.producer.id = y.producer.id →
    x.result = y.result
  told : b.cancelled = false → ∀ x ∈ b.receipts, b.Tells s x.producer x.result
  authentic : ∀ r, r.isOk = true →
    r ∈ b.results.published ∨ r ∈ b.receipts.map (·.result) ∨ r ∈ returned →
    ∃ p ∈ plan.calls, b.Authentic s p r

end Board

theorem Discipline.Kept.sole {s : Setting} {ps : Roster} {w : Work} {plan : Plan}
    (hps : ∀ p, p ∈ plan.calls ↔ p ∈ ps) (h : (Discipline.sole s ps).Kept w) :
    w.board.Sole s plan w.held := by
  obtain ⟨hledger, hpublished⟩ := h.inv
  refine ⟨fun p hp => (hledger.stage p ((hps p).1 hp)).length_calls_le, ?_, ?_, ?_⟩
  · intro x hx y hy hid
    have heq := (hledger.receipts x hx).2.symm.trans (hid ▸ (hledger.receipts y hy).2)
    exact Cell.settled.inj (Option.some.inj heq)
  · intro hlive x hx
    obtain ⟨hp, hcell⟩ := hledger.receipts x hx
    exact hledger.tells_of_live hlive hp hcell
  · intro r hok hr
    -- whichever way it came out, a result without a failure is the one that settled a cell
    have hown : w.board.Own ps r := by
      rcases hr with hr | hr | hr
      · exact hpublished r hr hok
      · obtain ⟨x, hx, rfl⟩ := List.mem_map.1 hr
        obtain ⟨hp, hcell⟩ := hledger.receipts x hx
        exact ⟨x.producer, hp, (hledger.name_of_settled hp hcell).symm, hcell⟩
      · exact h.right_of_mem_held hr hok
    obtain ⟨p, hp, -, hcell⟩ := hown
    exact ⟨p, (hps p).2 hp, hledger.authentic hp hcell hok⟩

/-- However the tasks of a plan take their turns, whatever its backends do and whenever it is
cancelled, each of its producers is called once at most, all places of a producer are told the
same, and every result without a failure is that of the one call. Unless the run is cancelled, every
place that is over was given the result in the cell of its producer, failed or not, and it is with
these results that sequences went on and parallels ended. The run that a plan has is one of these
schedules; the calls that are made by tasks which end later are counted too. -/
theorem sole_of_solid {plan : Plan} (hsolid : plan.Solid)
    (hdistinct : ∀ p ∈ plan.calls, ∀ q ∈ plan.calls, p.id = q.id ∨ p.name = q.name → p = q)
    (s : Setting) (cancelled : Bool) :
    (∀ w, (Work.opening s (.fresh plan cancelled) plan).Leads s w →
      w.board.Sole s plan w.held ∧ (w.board.cancelled = false → w.root.At w.board plan)) ∧
    let e := plan.run s (.fresh plan cancelled)
    e.board.Sole s plan e.outcome.results ∧
      (e.board.cancelled = false → ∀ yield, e.outcome = .finished yield →
        ∃ rs, yield = .results rs ∧ plan.Comes e.board rs) ∧
      ∀ p ∈ plan.calls, (e.calls.filter (·.producer.id = p.id)).length ≤ 1 := by
  -- the calls of the plan are its roster, since no two of them share an id or a name
  let ps : Roster := ⟨plan.calls, fun hp hq => hdistinct _ hp _ hq⟩
  have hps : ∀ p, p ∈ plan.calls ↔ p ∈ ps := fun _ => .rfl
  have hinv : (Discipline.sole s ps).Inv (.fresh plan cancelled) 0 :=
    ⟨.fresh hps cancelled, fun r hr => absurd hr List.not_mem_nil⟩
  have hpre : (Discipline.sole s ps).Pre (.fresh plan cancelled) plan := ⟨hsolid, fun _ hp => hp⟩
  have hpatient : (Discipline.sole s ps).Patient := Discipline.patient_sole s ps
  have hopening := (Discipline.kept_opening hinv hpre).1
  have hsole : ∀ w, (Work.opening s (.fresh plan cancelled) plan).Leads s w →
      w.board.Sole s plan w.held := fun w hw => (hopening.leads hpatient hw).1.sole hps
  have hat : ∀ w, (Work.opening s (.fresh plan cancelled) plan).Leads s w →
      w.board.cancelled = false → w.root.At w.board plan := fun w hw hlive =>
    hopening.at_leads hpatient (Discipline.serves_opening hinv hpre) hw hlive
  obtain ⟨w, v, hw, hv, hboard, hroot, hcalls⟩ := Work.run_eq s (.fresh plan cancelled) plan
  refine ⟨fun w hw => ⟨hsole w hw, hat w hw⟩, ?returned, ?places, ?calls⟩
  -- what a run returns is what its root held when it was over
  case returned =>
    obtain ⟨honce, halike, htold, hauthentic⟩ := hsole w hw
    rw [hboard]
    refine ⟨honce, halike, htold, fun r hok hr => hauthentic r hok ?_⟩
    refine hr.imp_right (Or.imp_right fun hr => List.mem_append_left _ ?_)
    cases hout : (plan.run s (.fresh plan cancelled)).outcome with
    | finished yield =>
      rw [hout] at hr
      rw [hroot yield hout]
      cases yield with
      | results rs => exact hr
      | panic message => exact hr
    | dropped => rw [hout] at hr; exact absurd hr List.not_mem_nil
    | stalled => rw [hout] at hr; exact absurd hr List.not_mem_nil
  case places =>
    intro hlive yield hyield
    rw [hboard] at hlive ⊢
    have hplaces := hat w hw hlive
    rw [hroot yield hyield] at hplaces
    cases yield with
    | results rs => exact ⟨rs, rfl, hplaces⟩
    | panic message => exact hplaces.elim
  -- tasks that were given up end after the root does, in a schedule that goes on from there
  case calls =>
    intro p hp
    rw [hcalls]
    exact (hsole v (hw.trans hv)).once p hp

/-- A producer that asks its backend for `/`. -/
def Producer.plain (id : Nat) (name : String) : Producer where
  id := id
  name := name
  kind := .request
  backend := { label := .named name, origin := "http://localhost" }
  attributes := {}

/-- A request of a client for `/`. -/
def ClientRequest.plain : ClientRequest where
  id := "1"
  method := "GET"
  uri := ⟨none, none, ⟨"/"⟩⟩
  headers := .empty
  body := []

/-- A producer stands in two places and its backend panics. It is called once, both places are given
the same failure, and the sequence goes on with it. -/
theorem once_of_shared_panic :
    let shared := Producer.plain 0 "shared"
    let plan := Plan.parallel [.call shared, .sequence [.call shared, .call (.plain 1 "last")]]
    let s : Setting :=
      { client := .plain, backends := fun _ _ _ => { ending := .panic none, delay := some 5 } }
    let e := plan.run s (.fresh plan false)
    let f := Failure.ofPanic "unknown panic"
    plan.Solid ∧
      (∀ p ∈ plan.calls, ∀ q ∈ plan.calls, p.id = q.id ∨ p.name = q.name → p = q) ∧
      e.board.callCount shared = 1 ∧
      e.board.receipts = [⟨shared, .failed "shared" f⟩, ⟨shared, .failed "shared" f⟩] ∧
      e.outcome = .finished (.results
        [.failed "shared" f, .failed "last" (f.inSequence "last")]) ∧
      plan.Comes e.board [.failed "shared" f, .failed "last" (f.inSequence "last")] := by
  intro shared plan s e f
  have hsolid : plan.Solid := by simp [plan, Plan.Solid, Plan.AllSolid]
  have hdistinct :
      ∀ p ∈ plan.calls, ∀ q ∈ plan.calls, p.id = q.id ∨ p.name = q.name → p = q := by
    simp [plan, shared, Plan.calls, Plan.allCalls, Producer.plain]
  have hlive : (plan.run s (.fresh plan false)).board.cancelled = false := by cbv
  have hcalled : (plan.run s (.fresh plan false)).board.callsOf shared ≠ [] := by
    cbv
    simp
  have hreceipts : (plan.run s (.fresh plan false)).board.receipts =
      [⟨shared, .failed "shared" f⟩, ⟨shared, .failed "shared" f⟩] := by cbv
  have houtcome : (plan.run s (.fresh plan false)).outcome = .finished (.results
      [.failed "shared" f, .failed "last" (f.inSequence "last")]) := by cbv
  obtain ⟨-, hsole, hplaces, -⟩ := sole_of_solid hsolid hdistinct s false
  obtain ⟨rs, heq, hcomes⟩ := hplaces hlive _ houtcome
  cases heq
  have honce := hsole.once shared List.mem_cons_self
  have hcount := Nat.le_antisymm honce (List.length_pos_iff.2 hcalled)
  exact ⟨hsolid, hdistinct, hcount, hreceipts, houtcome, hcomes⟩

end Gateway
