import Gateway.Proofs.Run.Guard

/-!
# Gateway.Proofs.Run.Receipts — results that are out were handed to somebody

Whoever settles the cell of a producer is handed the result, so every settled cell has a receipt; the
ledger has it the other way round. Both together say that the places of a producer are told what its
cell holds, and nothing else. This is kept next to whatever else a discipline keeps.

A receipt is a line in a log and has no part in the run, so it proves nothing about what a place does
with the result. What it is good for is to speak of results that have been handed out and are not
published yet, and may never be. What places go on with is in `Places`.

`Discipline.along` puts a second invariant beside the one of a discipline. The second may use the first
and needs no laws of its own but that deeds keep it, which is much less than to make it part of the
sheet, where every lemma about sheets would have to carry it.
-/

set_option autoImplicit false

namespace Gateway

/-- What a discipline keeps, together with something else that its deeds keep as well. -/
def Discipline.along {s : Setting} (J : Discipline s) (also : Board → Multiset Ongoing → Prop)
    (hdeed : ∀ {b c : Board} {calls calls' : Multiset Ongoing},
      Deed s (fun b p => J.Pre b (.call p)) J.Right b calls c calls' → J.Inv b calls →
        also b calls → also c calls') : Discipline s where
  Inv b calls := J.Inv b calls ∧ also b calls
  Pre := J.Pre
  Right := J.Right
  pre_mono := J.pre_mono
  right_mono := J.right_mono
  deed h hinv := by
    obtain ⟨hkept, hext⟩ := J.deed h hinv.1
    exact ⟨⟨hkept, hdeed h hinv.1 hinv.2⟩, hext⟩
  cell h := J.cell h.1
  ongoing h := J.ongoing h.1
  settled h := J.settled h.1
  stub := J.stub
  step := J.step
  branch := J.branch
  cancelled := J.cancelled
  skip h := J.skip h.1
  next h := J.next h.1

namespace Board

/-- The one call of a producer was answered. This is what the producer saw before and after it, the
statuses that it expected, and the request that it sent. -/
structure Answered (s : Setting) (b : Board) (p : Producer) (before after : ResultMap)
    (expected : List Nat) (request : BackendRequest) : Prop where
  sights : b.sightsOf p = [before, after]
  calls : ∃ start, b.callsOf p = [⟨p, request, start, .answered⟩]
  prepared : p.prepare s.client before = .ok (expected, request)

/-- Every result that settled the cell of a producer was handed to a place of it. -/
def Handed (ps : Roster) (b : Board) : Prop :=
  ∀ p ∈ ps, ∀ r, b.cells p.id = some (.settled r) → ⟨p, r⟩ ∈ b.receipts

variable {ps : Roster} {b : Board} {p : Producer}

theorem Handed.of_receipts {c : Board} (h : b.Handed ps) (hcells : c.cells = b.cells)
    (hreceipts : b.receipts ⊆ c.receipts) : c.Handed ps := fun p hp r hcell =>
  hreceipts (h p hp r (hcells ▸ hcell))

/-- A cell that is not settled needs no receipt. -/
theorem Handed.setCell (h : b.Handed ps) {id : Nat} {cell : Cell}
    (hcell : ∀ r, cell = .settled r → b.cells id = some cell) : (b.setCell id cell).Handed ps := by
  intro p hp r hsettled
  refine h p hp r ?_
  by_cases hid : p.id = id
  · subst hid
    rw [cells_setCell_self] at hsettled
    cases hsettled
    exact hcell r rfl
  · rwa [cells_setCell_of_ne hid] at hsettled

/-- Whoever settles a cell has its receipt. -/
theorem Handed.settle (h : b.Handed ps) (hp : p ∈ ps) (r : ProducerResult) :
    ((b.setCell p.id (.settled r)).hand p r).Handed ps := by
  intro q hq r' hsettled
  have hsettled : (b.setCell p.id (.settled r)).cells q.id = some (.settled r') := hsettled
  by_cases hid : q.id = p.id
  · cases Roster.eq_of_id hq hp hid
    rw [cells_setCell_self] at hsettled
    cases hsettled
    exact List.mem_append_right _ (List.mem_singleton_self _)
  · rw [cells_setCell_of_ne hid] at hsettled
    exact List.mem_append_left _ (h q hq r' hsettled)

end Board

theorem Deed.handed {s : Setting} {asked : Board → Producer → Prop}
    {right : Board → ProducerResult → Prop} {b c : Board} {calls calls' : Multiset Ongoing}
    {ps : Roster} (hdeed : Deed s asked right b calls c calls')
    (hasked : ∀ {p : Producer}, asked b p → p ∈ ps) (hknown : ∀ o ∈ calls, o.producer ∈ ps)
    (h : b.Handed ps) : c.Handed ps := by
  have hfree : ∀ {cell : Cell}, cell.isFree = true → ∀ r, cell ≠ .settled r := by
    rintro cell hfree r rfl
    cases hfree
  cases hdeed with
  | requeue hcell hline =>
    -- a new line leaves a settled cell as it was
    refine h.setCell fun r hr => ?_
    subst hr
    rcases hline with heq | ⟨-, htaken⟩ | ⟨-, hfreed⟩
    · exact heq ▸ hcell
    · cases htaken
    · cases hfreed
  | refuse hcancelled hp hcell hfreed => exact h.settle (hasked hp) _
  | decline hlive hp hcell hfreed hprepare =>
    exact Board.Handed.settle (b := b.look _) h (hasked hp) _
  | send task since hlive hp hcell hfreed hprepare =>
    rename_i p cell line expected request
    have hset : ((b.look p).setCell p.id (.taken line)).Handed ps :=
      Board.Handed.setCell (b := b.look p) h nofun
    exact hset.of_receipts rfl (List.Subset.refl _)
  | complete hdue =>
    exact Board.Handed.settle (b := (b.mark _ .answered).look _) h
      (hknown _ (Multiset.mem_cons_self _ _)) _
  | abandon hcancelled hr =>
    exact Board.Handed.settle (b := b.mark _ .abandoned) h
      (hknown _ (Multiset.mem_cons_self _ _)) _
  | release hcancelled hfreed =>
    exact Board.Handed.setCell (b := b.mark _ .abandoned) h
      fun r hr => absurd hr (hfree hfreed r)
  | hand hp hcell => exact h.of_receipts rfl (List.subset_append_left _ _)
  | publish hright => exact h
  | cancel hmay => exact h

namespace Ensemble

variable {E : Ensemble} {s : Setting}

/-- What the runs of guarded plans keep, with the receipts, and with the names under which results
may be published. -/
def receipted (E : Ensemble) (s : Setting) (names : List String) : Discipline s :=
  (E.discipline s).along (fun b _ => b.Handed E.toRoster ∧ b.results.names = names) <| by
    intro b c calls calls' hdeed hsheet h
    refine ⟨hdeed.handed (fun hp => hp.ready.1) hsheet.ledger.known h.1, ?_⟩
    rcases hdeed.results with heq | ⟨rs, heq, -⟩
    · rw [heq, h.2]
    · rw [heq, ResultMap.names_publishAll, h.2]

theorem patient_receipted (E : Ensemble) (s : Setting) (names : List String) :
    (E.receipted s names).Patient := fun time h => ⟨patient_discipline E s time h.1, h.2⟩

/-- What a cell holds is what the places of the producer were told. -/
theorem Sheet.told {b : Board} {calls : Multiset Ongoing} (h : E.Sheet s b calls)
    (hhanded : b.Handed E.toRoster) {p : Producer} (hp : p ∈ E) {r : ProducerResult}
    (hcell : b.cells p.id = some (.settled r)) :
    ⟨p, r⟩ ∈ b.receipts ∧ ∀ x ∈ b.receipts, x.producer = p → x.result = r := by
  refine ⟨hhanded p hp r hcell, fun x hx heq => ?_⟩
  have hx := (h.ledger.receipts x hx).2
  rw [heq, hcell] at hx
  exact (Cell.settled.inj (Option.some.inj hx)).symm

end Ensemble

end Gateway
