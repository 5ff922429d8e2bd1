import Gateway.Proofs.Run.Guard

/-!
# Gateway.Proofs.Run.Timing — when producers begin and end

In a run that is not cancelled a producer begins as soon as all that it needs is done: its call starts
at this time, or it ends at this time without a call. `Timing` says so of a board, given the times at
which producers ended. Deeds keep it, and so does a move of the clock at which every producer that is
ready has begun.

A board tells when calls started and not when producers ended. A producer that is skipped ends without
anything being written of it, and several may end in one deed, since whoever needs them is skipped with
them. So the times are a function beside the board, one for which the board is right, and a deed is
followed by giving those that are done after it, and were not before, the time that it is
(`endsAfter`). The function is not unique: of a producer that is not done it may say anything.

That nothing is late is an equation between two of these times, and one that would be false for a
while if it were asked of all producers. A producer that could begin and has not is right only at the
very time at which its needs are done, which is what `ready` says. It is the clock that has to wait for
it, and not the deeds.
-/

set_option autoImplicit false

namespace Gateway

/-- The latest of the times at which producers ended, 0 if there are none. -/
def latest (ends : Producer → Nat) (ps : List Producer) : Nat := (ps.map ends).foldr max 0

section

variable {ends ends' : Producer → Nat} {ps : List Producer} {p : Producer} {time : Nat}

theorem le_latest (h : p ∈ ps) : ends p ≤ latest ends ps := by
  induction ps with
  | nil => exact absurd h List.not_mem_nil
  | cons q rest ih =>
    rcases List.mem_cons.1 h with rfl | h
    · exact Nat.le_max_left _ _
    · exact Nat.le_trans (ih h) (Nat.le_max_right _ _)

theorem latest_le (h : ∀ p ∈ ps, ends p ≤ time) : latest ends ps ≤ time := by
  induction ps with
  | nil => exact Nat.zero_le time
  | cons q rest ih =>
    obtain ⟨hq, hrest⟩ := List.forall_mem_cons.1 h
    exact Nat.max_le.2 ⟨hq, ih hrest⟩

theorem latest_congr (h : ∀ p ∈ ps, ends p = ends' p) : latest ends ps = latest ends' ps := by
  unfold latest
  rw [List.map_congr_left h]

theorem latest_eq (h : ∀ p ∈ ps, ends p ≤ time) (hp : p ∈ ps) (heq : ends p = time) :
    latest ends ps = time :=
  Nat.le_antisymm (latest_le h) (heq ▸ le_latest hp)

end

namespace Ensemble

variable (E : Ensemble)

/-- The time at which all that a producer needs has ended. -/
def begins (ends : Producer → Nat) (p : Producer) : Nat := latest ends (E.needs p)

/-- The times at which producers ended fit what is on the board. -/
structure Timing (s : Setting) (b : Board) (calls : Multiset Ongoing) (ends : Producer → Nat) :
    Prop where
  past : ∀ p, E.Done b p → ends p ≤ b.now
  start : ∀ p ∈ E, ∀ call ∈ b.callsOf p, call.start = E.begins ends p
  called : ∀ p, E.Done b p → ∀ call ∈ b.callsOf p, ∃ delay,
    (s.reply p call.request).delay = some delay ∧ ends p = call.start + delay
  uncalled : ∀ p, E.Done b p → b.callsOf p = [] → ends p = E.begins ends p
  ready : ∀ p ∈ E, b.cells p.id = some .vacant → ¬ E.Done b p →
    (∀ q ∈ E.needs p, E.Done b q) → E.begins ends p = b.now
  last : (∀ p ∈ E, E.Done b p) → latest ends E.producers = b.now
  due : ∀ o ∈ calls, ∀ due, o.due = some due → b.now ≤ due

/-- What a deed does to a producer as long as the run is not cancelled. -/
inductive Progress (b c : Board) (calls : Multiset Ongoing) (p : Producer) : Prop
  | same (hcell : ∀ {cell : Cell}, c.cells p.id = some cell → cell.isTaken = false →
      b.cells p.id = some cell) (hcalls : c.callsOf p = b.callsOf p)
  | declined (hcell : b.cells p.id = some .vacant) (hmay : E.May b (.call p))
      (hcalls : c.callsOf p = [])
  | sent {request : BackendRequest} {line : List Nat} (hcell : b.cells p.id = some .vacant)
      (hmay : E.May b (.call p)) (hcell' : c.cells p.id = some (.taken line))
      (hcalls : c.callsOf p = [⟨p, request, b.now, .running⟩])
  | answered {o : Ongoing} {start : Nat} (ho : o ∈ calls) (hproducer : o.producer = p)
      (hdue : o.due.any (· ≤ b.now) = true)
      (hcell : ∃ r, c.cells p.id = some (.settled r))
      (hbefore : b.callsOf p = [⟨p, o.request, start, .running⟩])
      (hcalls : c.callsOf p = [⟨p, o.request, start, .answered⟩])

variable {E} {s : Setting} {b c : Board} {calls calls' : Multiset Ongoing} {p q : Producer}
  {ends : Producer → Nat}

/-- Where nothing changes in an account nothing changes in the cell and the calls. -/
theorem Progress.of_account (calls' : Multiset Ongoing)
    (h : c.account calls' p = b.account calls p) : E.Progress b c calls p :=
  .same (fun hcell _ => (congrArg Account.cell h).symm.trans hcell) (congrArg Account.calls h)

theorem Sheet.vacant_of_isFree (h : E.Sheet s b calls) (hlive : b.cancelled = false) (hp : p ∈ E)
    {cell : Cell} (hcell : b.cells p.id = some cell) (hfree : cell.isFree = true) :
    b.cells p.id = some .vacant ∧ b.callsOf p = [] := by
  obtain ⟨_, _, haccount, hidle, -⟩ := (h.ledger.stage p hp).of_isFree hcell hfree
  obtain ⟨rfl, rfl, -⟩ := hidle hlive
  exact ⟨hcell, congrArg Account.calls haccount⟩

theorem progress_requeue {id : Nat} {cell cell' : Cell} (h : E.Sheet s b calls)
    (hlive : b.cancelled = false) (hq : q ∈ E) (hcell : b.cells id = some cell)
    (hline : cell.Requeued cell') : E.Progress b (b.setCell id cell') calls q := by
  refine .same (fun hsome htaken => ?_) rfl
  by_cases hid : q.id = id
  · subst hid
    cases (Board.cells_setCell_self b q.id cell').symm.trans hsome
    rcases hline with rfl | ⟨-, htaken'⟩ | ⟨⟨task, line, rfl⟩, -⟩
    · exact hcell
    · exact absurd htaken' (ne_true_of_eq_false htaken)
    · cases hcell.symm.trans (h.vacant_of_isFree hlive hq hcell rfl).1
  · rw [← Board.cells_setCell_of_ne hid]
    exact hsome

theorem progress_decline {cell : Cell} {r : ProducerResult} (h : E.Sheet s b calls)
    (hlive : b.cancelled = false) (hq : q ∈ E) (hmay : E.May b (.call p))
    (hcell : b.cells p.id = some cell) (hfree : cell.isFree = true) :
    E.Progress b (((b.look p).setCell p.id (.settled r)).hand p r) calls q := by
  by_cases hid : q.id = p.id
  · cases E.eq_of_id hq hmay.ready.1 hid
    obtain ⟨hvacant, hnone⟩ := h.vacant_of_isFree hlive hq hcell hfree
    exact .declined hvacant hmay hnone
  · refine .of_account calls ?_
    rw [Board.account_hand, Board.account_setCell_of_ne hid, Board.account_look_of_ne hid]

theorem progress_send {request : BackendRequest} {line : List Nat} {cell : Cell}
    (h : E.Sheet s b calls) (hlive : b.cancelled = false) (hq : q ∈ E) (hmay : E.May b (.call p))
    (hcell : b.cells p.id = some cell) (hfree : cell.isFree = true) :
    E.Progress b (((b.look p).setCell p.id (.taken line)).enter p request) calls q := by
  obtain ⟨hvacant, hnone⟩ := h.vacant_of_isFree hlive hmay.ready.1 hcell hfree
  by_cases hid : q.id = p.id
  · cases E.eq_of_id hq hmay.ready.1 hid
    have haccount : (((b.look p).setCell p.id (.taken line)).enter p request).account calls p = _ :=
      Board.account_enter_self
    have hcalls : (((b.look p).setCell p.id (.taken line)).enter p request).callsOf p =
        b.callsOf p ++ [⟨p, request, b.now, .running⟩] := congrArg Account.calls haccount
    rw [hnone] at hcalls
    exact .sent hvacant hmay (Board.cells_setCell_self _ _ _) hcalls
  · refine .of_account calls ?_
    rw [Board.account_enter_of_ne hid, Board.account_setCell_of_ne hid, Board.account_look_of_ne hid]

theorem progress_complete {o : Ongoing} (h : E.Sheet s b (o ::ₘ calls)) (hq : q ∈ E)
    (hdue : o.due.any (· ≤ b.now) = true) :
    E.Progress b ((((b.mark o.call .answered).look o.producer).setCell o.producer.id
      (.settled (Run.callResult s b o))).hand o.producer (Run.callResult s b o))
      (o ::ₘ calls) q := by
  have ho := Multiset.mem_cons_self o calls
  obtain ⟨⟨v, start, -, hbefore, line, haccount⟩, hothers, -⟩ := h.ledger.account_mark .answered
  by_cases hid : q.id = o.producer.id
  · cases E.eq_of_id hq (h.ledger.known o ho) hid
    exact .answered ho rfl hdue ⟨_, Board.cells_setCell_self _ _ _⟩ hbefore
      (congrArg Account.calls haccount)
  · refine .of_account calls ?_
    rw [Board.account_hand, Board.account_setCell_of_ne hid, Board.account_look_of_ne hid,
      hothers q hid, Board.account_cons_of_ne (Ne.symm hid)]

/-- Of every deed it can be told what it does to a producer. -/
theorem Sheet.progress (h : E.Sheet s b calls)
    (hdeed : Deed s (fun b p => E.May b (.call p)) E.Right b calls c calls')
    (hlive : c.cancelled = false) (hq : q ∈ E) : E.Progress b c calls q := by
  cases hdeed with
  | requeue hcell hline => exact progress_requeue h hlive hq hcell hline
  | refuse hcancelled | abandon hcancelled | release hcancelled =>
    exact absurd hcancelled (ne_true_of_eq_false hlive)
  | decline hlive' hmay hcell hfree hprepare =>
    exact progress_decline h hlive' hq hmay hcell hfree
  | send task since hlive' hmay hcell hfree hprepare =>
    exact progress_send h hlive' hq hmay hcell hfree
  | complete hdue => exact progress_complete h hq hdue
  | hand hp hcell => exact .same (fun hcell _ => hcell) rfl
  | publish hright => exact .same (fun hcell _ => hcell) rfl
  | cancel hmay => cases hlive

/-- A call that a deed adds to those under way is not due before its time. -/
theorem Deed.le_due {asked : Board → Producer → Prop} {right : Board → ProducerResult → Prop}
    (h : Deed s asked right b calls c calls') {o : Ongoing} (ho : o ∈ calls') :
    o ∈ calls ∨ ∀ due, o.due = some due → b.now ≤ due := by
  cases h with
  | send task since hlive hasked hcell hfree hprepare =>
    rcases Multiset.mem_cons.1 ho with rfl | ho
    · right
      intro due hdue
      obtain ⟨delay, -, rfl⟩ := Option.map_eq_some_iff.1 hdue
      exact Nat.le_add_right _ _
    · exact .inl ho
  | complete hdue => exact .inl (Multiset.mem_cons_of_mem ho)
  | abandon hcancelled hr => exact .inl (Multiset.mem_cons_of_mem ho)
  | release hcancelled hfree => exact .inl (Multiset.mem_cons_of_mem ho)
  | _ => exact .inl ho

theorem Deed.now_eq {asked : Board → Producer → Prop} {right : Board → ProducerResult → Prop}
    (h : Deed s asked right b calls c calls') : c.now = b.now := by
  cases h <;> rfl

/-- Before a cancellation who is done has a result, or no call was made. -/
theorem Sheet.vacant_of_done (h : E.Sheet s b calls) (hlive : b.cancelled = false)
    (hdone : E.Done b p) (hcell : ∀ r, b.cells p.id ≠ some (.settled r)) :
    b.cells p.id = some .vacant ∧ b.callsOf p = [] ∧ b.sightsOf p = [] := by
  have hp := hdone.mem
  have hsights : b.sightsOf p = [] := by
    by_contra hne
    exact h.not_done hlive hcell (fun q hq => h.fine_of_sightsOf hp hne hq) hdone
  have hstage := h.ledger.stage p hp
  generalize haccount : b.account calls p = a at hstage
  have hcell' : b.cells p.id = a.cell := congrArg Account.cell haccount
  have hcalls : b.callsOf p = a.calls := congrArg Account.calls haccount
  have hsights' : b.sightsOf p = a.sights := congrArg Account.sights haccount
  cases hstage with
  | idle => exact ⟨hcell', hcalls, hsights'⟩
  | calling | declined | answered => cases hsights'.symm.trans hsights
  | off hoff => exact absurd hoff (ne_true_of_eq_false hlive)

theorem Sheet.done_of_called (h : E.Sheet s b calls) (hlive : b.cancelled = false) (hp : p ∈ E)
    (hcalls : b.callsOf p ≠ []) (hq : q ∈ E.needs p) : E.Done b q := by
  have hsights : b.sightsOf p ≠ [] := by
    have hstage := h.ledger.stage p hp
    generalize haccount : b.account calls p = a at hstage
    have hcalls' : b.callsOf p = a.calls := congrArg Account.calls haccount
    rw [show b.sightsOf p = a.sights from congrArg Account.sights haccount]
    cases hstage with
    | idle | declined => exact absurd hcalls' hcalls
    | calling | answered => exact List.cons_ne_nil _ _
    | off hoff => exact absurd hoff (ne_true_of_eq_false hlive)
  obtain ⟨r, -, hcell, -⟩ := h.fine_of_sightsOf hp hsights hq
  exact .settled (mem_of_needs hp hq) hcell

theorem Sheet.exists_settled (h : E.Sheet s b calls) (hlive : b.cancelled = false)
    (hdone : E.Done b p) (hcalls : b.callsOf p ≠ []) : ∃ r, b.cells p.id = some (.settled r) := by
  by_contra hne
  have hcell : ∀ r, b.cells p.id ≠ some (.settled r) := fun r hr => hne ⟨r, hr⟩
  exact hcalls (h.vacant_of_done hlive hdone hcell).2.1

/-- All that is needed for a call is done, and the producer is not. -/
theorem Sheet.done_of_may (h : E.Sheet s b calls) (hlive : b.cancelled = false)
    (hmay : E.May b (.call p)) (hcell : b.cells p.id = some .vacant) :
    (∀ q ∈ E.needs p, E.Done b q) ∧ ¬ E.Done b p := by
  refine ⟨fun q hq => ?_, h.not_done hlive (fun r hr => ?_) hmay.ready.2⟩
  · obtain ⟨r, -, hsettled, -⟩ := hmay.ready.2 q hq
    exact .settled (mem_of_needs hmay.ready.1 hq) hsettled
  · cases hcell.symm.trans hr

open Classical in
/-- The times at which producers ended, after a deed: who was not done before may be by now. -/
noncomputable def endsAfter (E : Ensemble) (b : Board) (ends : Producer → Nat) (p : Producer) : Nat :=
  if E.Done b p then ends p else b.now

theorem endsAfter_of_done (h : E.Done b p) : E.endsAfter b ends p = ends p := if_pos h

theorem endsAfter_of_not_done (h : ¬ E.Done b p) : E.endsAfter b ends p = b.now := if_neg h

theorem begins_endsAfter (h : ∀ q ∈ E.needs p, E.Done b q) :
    E.begins (E.endsAfter b ends) p = E.begins ends p :=
  latest_congr fun q hq => endsAfter_of_done (h q hq)

namespace Timing

theorem endsAfter_le (h : E.Timing s b calls ends) (p : Producer) : E.endsAfter b ends p ≤ b.now := by
  by_cases hdone : E.Done b p
  · rw [endsAfter_of_done hdone]
    exact h.past p hdone
  · rw [endsAfter_of_not_done hdone]

/-- If the last of what a producer needs is done by now and the producer was not, it begins now. -/
theorem begins_eq_now (h : E.Timing s b calls ends) (hp : p ∈ E)
    (hcell : b.cells p.id = some .vacant) (hnot : ¬ E.Done b p) :
    E.begins (E.endsAfter b ends) p = b.now := by
  by_cases hneeds : ∀ q ∈ E.needs p, E.Done b q
  · rw [begins_endsAfter hneeds]
    exact h.ready p hp hcell hnot hneeds
  · simp only [not_forall] at hneeds
    obtain ⟨q, hq, hqnot⟩ := hneeds
    exact latest_eq (fun q _ => h.endsAfter_le q) hq (endsAfter_of_not_done hqnot)

/-- A call that comes to its end does so when it is due. -/
theorem eq_of_due (h : E.Timing s b calls ends) (hledger : Ledger s E.toRoster b calls)
    {o : Ongoing} {start : Nat} (ho : o ∈ calls) (hdue : o.due.any (· ≤ b.now) = true)
    (hcalls : b.callsOf o.producer = [⟨o.producer, o.request, start, .running⟩]) :
    ∃ delay, (s.reply o.producer o.request).delay = some delay ∧ b.now = start + delay := by
  obtain ⟨start', hcall, hwhen⟩ := hledger.running ho
  have hmem : ⟨o.producer, o.request, start', .running⟩ ∈ b.callsOf o.producer :=
    List.mem_filter.2 ⟨List.mem_of_getElem? hcall, decide_eq_true rfl⟩
  rw [hcalls] at hmem
  cases List.mem_singleton.1 hmem
  cases hdelay : (s.reply o.producer o.request).delay with
  | none =>
    rw [hwhen, hdelay] at hdue
    cases hdue
  | some delay =>
    rw [hdelay] at hwhen
    -- it is not late, and the clock did not pass the time when it was due
    have hle := h.due o ho _ hwhen
    rw [hwhen] at hdue
    have hge : start + delay ≤ b.now := of_decide_eq_true hdue
    exact ⟨delay, rfl, Nat.le_antisymm hle hge⟩

theorem called_deed (h : E.Timing s b calls ends) (hsheet : E.Sheet s b calls)
    (hsheet' : E.Sheet s c calls') (hlive : b.cancelled = false) (hlive' : c.cancelled = false)
    (hprogress : E.Progress b c calls p) (hdone : E.Done c p) :
    ∀ call ∈ c.callsOf p, ∃ delay, (s.reply p call.request).delay = some delay ∧
      E.endsAfter b ends p = call.start + delay := by
  intro call hcall
  have hne : c.callsOf p ≠ [] := List.ne_nil_of_mem hcall
  by_cases hbefore : E.Done b p
  · rw [endsAfter_of_done hbefore]
    cases hprogress with
    | same hcell hcalls => exact h.called p hbefore call (hcalls ▸ hcall)
    | declined hcell hmay hcalls => exact absurd hcalls hne
    | sent hcell hmay hcell' hcalls =>
      exact absurd hbefore (hsheet.done_of_may hlive hmay hcell).2
    | answered ho hproducer hdue hcell hcalls hcalls' =>
      subst hproducer
      obtain ⟨r, hr⟩ := hsheet.exists_settled hlive hbefore (by rw [hcalls]; simp)
      exact absurd hr (hsheet.ledger.not_settled_of_mem ho r)
  · -- whoever has a call and is done since this deed was answered by it
    rw [endsAfter_of_not_done hbefore]
    obtain ⟨r, hr⟩ := hsheet'.exists_settled hlive' hdone hne
    cases hprogress with
    | same hcell hcalls => exact absurd (.settled hdone.mem (hcell hr rfl)) hbefore
    | declined hcell hmay hcalls => exact absurd hcalls hne
    | sent hcell hmay hcell' hcalls => cases hcell'.symm.trans hr
    | answered ho hproducer hdue hcell hcalls hcalls' =>
      subst hproducer
      rw [hcalls'] at hcall
      cases List.mem_singleton.1 hcall
      exact h.eq_of_due hsheet.ledger ho hdue hcalls

theorem uncalled_deed (h : E.Timing s b calls ends) (hsheet : E.Sheet s b calls)
    (hsheet' : E.Sheet s c calls') (hlive : b.cancelled = false) (hlive' : c.cancelled = false)
    (hprogress : E.Progress b c calls p) (hdone : E.Done c p) (hnone : c.callsOf p = []) :
    E.endsAfter b ends p = E.begins (E.endsAfter b ends) p := by
  by_cases hbefore : E.Done b p
  · have hbegins : E.begins (E.endsAfter b ends) p = E.begins ends p :=
      begins_endsAfter fun q hq => (hsheet.done_needs hlive hbefore hq).1
    rw [endsAfter_of_done hbefore, hbegins]
    cases hprogress with
    | same hcell hcalls => exact h.uncalled p hbefore (hcalls ▸ hnone)
    | declined hcell hmay hcalls => exact absurd hbefore (hsheet.done_of_may hlive hmay hcell).2
    | sent hcell hmay hcell' hcalls => cases hnone.symm.trans hcalls
    | answered ho hproducer hdue hcell hcalls hcalls' => cases hnone.symm.trans hcalls'
  · have hvacant : b.cells p.id = some .vacant := by
      cases hprogress with
      | same hcell hcalls =>
        by_cases hsettled : ∃ r, c.cells p.id = some (.settled r)
        · obtain ⟨r, hr⟩ := hsettled
          exact absurd (.settled hdone.mem (hcell hr rfl)) hbefore
        · have hcell' := fun r hr => hsettled ⟨r, hr⟩
          exact hcell (hsheet'.vacant_of_done hlive' hdone hcell').1 rfl
      | declined hcell hmay hcalls => exact hcell
      | sent hcell hmay hcell' hcalls => cases hnone.symm.trans hcalls
      | answered ho hproducer hdue hcell hcalls hcalls' => cases hnone.symm.trans hcalls'
    rw [endsAfter_of_not_done hbefore, h.begins_eq_now hdone.mem hvacant hbefore]

theorem deed (h : E.Timing s b calls ends) (hsheet : E.Sheet s b calls)
    (hdeed : Deed s (fun b p => E.May b (.call p)) E.Right b calls c calls')
    (hlive' : c.cancelled = false) : E.Timing s c calls' (E.endsAfter b ends) := by
  obtain ⟨hsheet', hext⟩ := hsheet.deed hdeed
  have hlive := hext.live hlive'
  have hprogress := fun p (hp : p ∈ E) => hsheet.progress hdeed hlive' hp
  have hnow := Deed.now_eq hdeed
  refine ⟨fun p _ => ?_, fun p hp call hcall => ?_, fun p hdone => ?_, fun p hdone hnone => ?_,
    fun p hp hcell hnot _ => ?_, fun _ => ?_, fun o ho due hwhen => ?_⟩
  · rw [hnow]
    exact h.endsAfter_le p
  · -- a call starts now, or was made when all that is needed was done
    have hbefore : b.callsOf p ≠ [] →
        E.begins (E.endsAfter b ends) p = E.begins ends p := fun hne =>
      begins_endsAfter fun q hq => hsheet.done_of_called hlive hp hne hq
    cases hprogress p hp with
    | same hcell hcalls =>
      rw [hcalls] at hcall
      rw [hbefore (List.ne_nil_of_mem hcall)]
      exact h.start p hp call hcall
    | declined hcell hmay hcalls =>
      rw [hcalls] at hcall
      exact absurd hcall List.not_mem_nil
    | sent hcell hmay hcell' hcalls =>
      rw [hcalls] at hcall
      cases List.mem_singleton.1 hcall
      exact (h.begins_eq_now hp hcell (hsheet.done_of_may hlive hmay hcell).2).symm
    | answered ho hproducer hdue hcell hcalls hcalls' =>
      rw [hcalls'] at hcall
      cases List.mem_singleton.1 hcall
      rw [hbefore (by rw [hcalls]; exact List.cons_ne_nil _ _)]
      have hrunning : ⟨p, _, _, .running⟩ ∈ b.callsOf p := hcalls ▸ List.mem_singleton_self _
      have hstart := h.start p hp _ hrunning
      exact hstart
  · exact h.called_deed hsheet hsheet' hlive hlive' (hprogress p hdone.mem) hdone
  · exact h.uncalled_deed hsheet hsheet' hlive hlive' (hprogress p hdone.mem) hdone hnone
  · -- no deed makes a cell vacant, so that whoever is ready now has just become so or was before
    have hvacant : b.cells p.id = some .vacant := by
      cases hprogress p hp with
      | same hcell' hcalls => exact hcell' hcell rfl
      | declined hcell' hmay hcalls => exact hcell'
      | sent hcell' hmay hcell'' hcalls => cases hcell.symm.trans hcell''
      | answered ho hproducer hdue hcell' hcalls hcalls' =>
        obtain ⟨r, hr⟩ := hcell'
        cases hcell.symm.trans hr
    rw [hnow]
    exact h.begins_eq_now hp hvacant fun hdone => hnot (hdone.mono hext)
  · -- the last of all ends now unless all were done before
    rw [hnow]
    by_cases hall : ∀ p ∈ E, E.Done b p
    · rw [← h.last hall]
      exact latest_congr fun p hp => endsAfter_of_done (hall p hp)
    · simp only [not_forall] at hall
      obtain ⟨p, hp, hnot⟩ := hall
      exact latest_eq (fun q _ => h.endsAfter_le q) hp (endsAfter_of_not_done hnot)
  · rw [hnow]
    rcases Deed.le_due hdeed ho with ho | hdue
    · exact h.due o ho due hwhen
    · exact hdue due hwhen

end Timing

end Ensemble

end Gateway
