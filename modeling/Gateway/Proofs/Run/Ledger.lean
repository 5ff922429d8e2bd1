import Gateway.Proofs.Run.Account

/-!
# Gateway.Proofs.Run.Ledger — the accounts of all producers

The ledger of a run says that every producer has its stage, that whatever is in the logs and under
way belongs to producers of the plan, and that every place of a producer was handed the result that
settled its cell. Every deed keeps the ledger, provided that results are asked of these producers
only.

A roster is all that is known of the producers here: different ones have different ids and names. It
is needed because accounts are kept by id and results are published by name. Without the first half two
producers would share an account, and the lemma about what a deed does to all the others
(`account_setCell_of_ne` and its like) would leave out one that it does touch.

There is one lemma for each deed and one (`Ledger.step`) that they go through: if the account of one
producer goes from one stage to another, those of the others are the same, and nothing in the logs is of
somebody unknown, then the ledger is kept. A receipt is only ever written with the result that is in the
cell, which the ledger says and which makes all receipts of a producer the same.
-/

set_option autoImplicit false

namespace Gateway

/-- The producers of a plan: no two of them share an id or a name. -/
structure Roster where
  producers : List Producer
  distinct : ∀ {p q : Producer}, p ∈ producers → q ∈ producers → p.id = q.id ∨ p.name = q.name →
    p = q

instance : Membership Producer Roster := ⟨fun ps p => p ∈ ps.producers⟩

namespace Roster

variable {ps : Roster} {p q : Producer}

theorem eq_of_id (hp : p ∈ ps) (hq : q ∈ ps) (h : p.id = q.id) : p = q :=
  ps.distinct hp hq (.inl h)

theorem eq_of_name (hp : p ∈ ps) (hq : q ∈ ps) (h : p.name = q.name) : p = q :=
  ps.distinct hp hq (.inr h)

end Roster

namespace Board

/-- What a producer came to without a cancellation: its request could not be made and there was no
call, or there was one call and this is what came of it. -/
inductive Tells (s : Setting) (b : Board) (p : Producer) : ProducerResult → Prop
  | declined {v : ResultMap} {f : Failure} (hsights : b.sightsOf p = [v])
      (hcalls : b.callsOf p = []) (hprepare : p.prepare s.client v = .error f) :
      Tells s b p (.failed p.name f)
  | answered {v v' : ResultMap} {expected : List Nat} {request : BackendRequest} {start : Nat}
      (hsights : b.sightsOf p = [v, v']) (hcalls : b.callsOf p = [⟨p, request, start, .answered⟩])
      (hprepare : p.prepare s.client v = .ok (expected, request)) :
      Tells s b p (Run.outcome s.client v' p expected request (s.reply p request).ending)

/-- A result is that of the one call of a producer: it bears the name of the producer and holds the
request that was sent, and the response as the producer edits it after what it saw then. -/
def Authentic (s : Setting) (b : Board) (p : Producer) (r : ProducerResult) : Prop :=
  ∃ request start response sight edited,
    b.callsOf p = [⟨p, request, start, .answered⟩] ∧
    (s.reply p request).ending = .response response ∧ sight ∈ b.sightsOf p ∧
    p.editResponse s.client sight request response = .ok edited ∧
    r = .success p.name request edited

end Board

/-- The books of a run are right. -/
structure Ledger (s : Setting) (ps : Roster) (b : Board) (calls : Multiset Ongoing) : Prop where
  names : ∀ p ∈ ps, p.name ∈ b.results.names
  stage : ∀ p ∈ ps, Stage s b.cancelled p (b.account calls p)
  known : ∀ o ∈ calls, o.producer ∈ ps
  logged : ∀ o ∈ calls, ∃ call, b.calls[o.call]? = some call ∧ call.producer = o.producer
  entries : ∀ call ∈ b.calls, call.producer ∈ ps
  sights : ∀ sight ∈ b.sights, sight.producer ∈ ps
  receipts : ∀ x ∈ b.receipts, x.producer ∈ ps ∧
    b.cells x.producer.id = some (.settled x.result)

namespace Plan

/-- Keeping a producer unless its id was kept before. -/
def keep (seen : List Producer) (p : Producer) : List Producer :=
  if seen.any (·.id = p.id) then seen else seen ++ [p]

theorem mem_of_mem_foldl_keep {ps seen : List Producer} {p : Producer}
    (h : p ∈ ps.foldl keep seen) : p ∈ seen ∨ p ∈ ps := by
  induction ps generalizing seen with
  | nil => exact .inl h
  | cons q rest ih =>
    rcases ih h with h | h
    · rw [keep] at h
      split at h
      · exact .inl h
      · rcases List.mem_append.1 h with h | h
        · exact .inl h
        · exact .inr (List.mem_cons.2 (.inl (List.mem_singleton.1 h)))
    · exact .inr (List.mem_cons_of_mem q h)

theorem exists_mem_foldl_keep {ps seen : List Producer} {p : Producer} (h : p ∈ seen ∨ p ∈ ps) :
    ∃ q ∈ ps.foldl keep seen, q.id = p.id := by
  induction ps generalizing seen p with
  | nil => exact ⟨p, h.resolve_right List.not_mem_nil, rfl⟩
  | cons q rest ih =>
    have hkept : ∃ r ∈ keep seen q, r.id = q.id := by
      unfold keep
      split
      · next hseen => simpa using hseen
      · exact ⟨q, by simp, rfl⟩
    have hold : seen ⊆ keep seen q := by
      unfold keep
      split
      · exact List.Subset.refl _
      · exact List.subset_append_left _ _
    rcases h with h | h
    · exact ih (.inl (hold h))
    · rcases List.mem_cons.1 h with rfl | h
      · obtain ⟨r, hr, hid⟩ := hkept
        obtain ⟨q, hq, hqr⟩ := ih (.inl hr)
        exact ⟨q, hq, hqr.trans hid⟩
      · exact ih (.inr h)

/-- The producers that a plan calls, each once, are those that it calls. -/
theorem mem_producers {plan : Plan} {ps : Roster} (hps : ∀ p, p ∈ plan.calls ↔ p ∈ ps)
    {p : Producer} : p ∈ plan.producers ↔ p ∈ ps := by
  constructor
  · intro h
    exact (hps p).1 ((mem_of_mem_foldl_keep h).resolve_left List.not_mem_nil)
  · intro h
    obtain ⟨q, hq, hid⟩ := exists_mem_foldl_keep (.inr ((hps p).2 h) : p ∈ [] ∨ p ∈ plan.calls)
    have hmem := (hps q).1 ((mem_of_mem_foldl_keep hq).resolve_left List.not_mem_nil)
    exact Roster.eq_of_id hmem h hid ▸ hq

end Plan

namespace Ledger

variable {s : Setting} {ps : Roster} {b c : Board} {calls calls' : Multiset Ongoing}

theorem fresh {plan : Plan} (hps : ∀ p, p ∈ plan.calls ↔ p ∈ ps) (cancelled : Bool) :
    Ledger s ps (.fresh plan cancelled) 0 where
  names p hp := by
    refine List.mem_eraseDups.2 (List.mem_map_of_mem ?_)
    exact (Plan.mem_producers hps).2 hp
  stage p hp := by
    have hcell : (Board.fresh plan cancelled).cells p.id = some .vacant := by
      refine if_pos (List.any_eq_true.2 ⟨p, (Plan.mem_producers hps).2 hp, ?_⟩)
      exact decide_eq_true rfl
    rw [Board.account, hcell]
    exact .idle
  known o ho := absurd ho (Multiset.notMem_zero o)
  logged o ho := absurd ho (Multiset.notMem_zero o)
  entries call hcall := absurd hcall List.not_mem_nil
  sights sight hsight := absurd hsight List.not_mem_nil
  receipts x hx := absurd hx List.not_mem_nil

theorem wait (h : Ledger s ps b calls) (time : Nat) : Ledger s ps (b.wait time) calls :=
  ⟨h.names, h.stage, h.known, h.logged, h.entries, h.sights, h.receipts⟩

theorem account_of_mem (h : Ledger s ps b calls) {o : Ongoing} (ho : o ∈ calls) :
    ∃ line v start, o.Carries s o.producer v start ∧ b.account calls o.producer =
      ⟨some (.taken line), [⟨o.producer, o.request, start, .running⟩], [v], {o}⟩ :=
  (h.stage o.producer (h.known o ho)).of_mem_ongoing
    (Multiset.mem_filter.2 ⟨ho, rfl⟩)

/-- The rest of the calls that are under way are not that producer's. -/
theorem account_erase {o : Ongoing} (h : Ledger s ps b (o ::ₘ calls)) :
    ∃ line v start, o.Carries s o.producer v start ∧ b.account calls o.producer =
      ⟨some (.taken line), [⟨o.producer, o.request, start, .running⟩], [v], 0⟩ := by
  obtain ⟨line, v, start, hcarries, haccount⟩ := h.account_of_mem (Multiset.mem_cons_self o calls)
  refine ⟨line, v, start, hcarries, ?_⟩
  rw [Board.account_cons_self rfl] at haccount
  have hnone : (b.account calls o.producer).ongoing = 0 := by
    have := congrArg Account.ongoing haccount
    simpa [← Multiset.cons_zero] using this
  obtain ⟨hcell, hcalls, hsights, -⟩ := Account.mk.injEq .. ▸ haccount
  exact Account.mk.injEq .. ▸ ⟨hcell, hcalls, hsights, hnone⟩

/-- A call that is under way is in the log, and runs. -/
theorem running {o : Ongoing} (h : Ledger s ps b calls) (ho : o ∈ calls) :
    ∃ start, b.calls[o.call]? = some ⟨o.producer, o.request, start, .running⟩ ∧
      o.due = (s.reply o.producer o.request).delay.map (start + ·) := by
  obtain ⟨line, v, start, hcarries, haccount⟩ := h.account_of_mem ho
  obtain ⟨call, hcall, hproducer⟩ := h.logged o ho
  have hmem : call ∈ b.callsOf o.producer :=
    List.mem_filter.2 ⟨List.mem_of_getElem? hcall, decide_eq_true (congrArg _ hproducer)⟩
  rw [show b.callsOf o.producer = _ from congrArg Account.calls haccount] at hmem
  exact ⟨start, List.mem_singleton.1 hmem ▸ hcall, hcarries.due⟩

/-- When no call is under way none runs. -/
theorem not_running (h : Ledger s ps b 0) {call : Call} (hcall : call ∈ b.calls) :
    call.state ≠ .running :=
  (h.stage _ (h.entries call hcall)).not_running rfl
    (List.mem_filter.2 ⟨hcall, decide_eq_true rfl⟩)

/-- A deed about one producer keeps the books right if its account and the new entries are. -/
theorem step (h : Ledger s ps b calls) (hext : b.Extends c) {p : Producer} (hp : p ∈ ps)
    (hcancelled : c.cancelled = b.cancelled)
    (hstage : Stage s b.cancelled p (c.account calls' p))
    (hothers : ∀ q, q.id ≠ p.id → c.account calls' q = b.account calls q)
    (hunderway : ∀ o ∈ calls', o ∈ calls ∨ o.producer = p ∧
      ∃ call, c.calls[o.call]? = some call ∧ call.producer = p)
    (hentries : ∀ call ∈ c.calls, call.producer ∈ b.calls.map (·.producer) ∨ call.producer = p)
    (hsights : ∀ sight ∈ c.sights, sight ∈ b.sights ∨ sight.producer = p)
    (hreceipts : ∀ x ∈ c.receipts, x ∈ b.receipts ∨ x.producer = p ∧
      c.cells p.id = some (.settled x.result)) : Ledger s ps c calls' where
  names q hq := hext.names ▸ h.names q hq
  stage q hq := by
    rw [hcancelled]
    -- two producers with one id are one, so the deed is about this producer or leaves it alone
    by_cases hid : q.id = p.id
    · cases Roster.eq_of_id hq hp hid
      exact hstage
    · rw [hothers q hid]
      exact h.stage q hq
  known o ho := by
    rcases hunderway o ho with ho | ⟨rfl, -⟩
    · exact h.known o ho
    · exact hp
  logged o ho := by
    rcases hunderway o ho with ho | ⟨rfl, hcall⟩
    · obtain ⟨call, hcall, hproducer⟩ := h.logged o ho
      obtain ⟨state, hcall', -⟩ := hext.calls hcall
      exact ⟨_, hcall', hproducer⟩
    · exact hcall
  entries call hcall := by
    rcases hentries call hcall with hold | hnew
    · obtain ⟨old, hold, heq⟩ := List.mem_map.1 hold
      exact heq ▸ h.entries old hold
    · rwa [hnew]
  sights sight hsight := by
    rcases hsights sight hsight with hold | hnew
    · exact h.sights sight hold
    · rwa [hnew]
  receipts x hx := by
    rcases hreceipts x hx with hold | ⟨rfl, hcell⟩
    · exact ⟨(h.receipts x hold).1, hext.settled (h.receipts x hold).2⟩
    · exact ⟨hp, hcell⟩

theorem isSome_cell (h : Ledger s ps b calls) {p : Producer} (hp : p ∈ ps) :
    (b.cells p.id).isSome := by
  have hstage := h.stage p hp
  generalize hcell : b.account calls p = a at hstage
  rw [show b.cells p.id = a.cell from congrArg Account.cell hcell]
  cases hstage <;> rfl

theorem name_of_settled (h : Ledger s ps b calls) {p : Producer} (hp : p ∈ ps)
    {r : ProducerResult} (hcell : b.cells p.id = some (.settled r)) : r.name = p.name := by
  rcases (h.stage p hp).of_settled hcell with
    ⟨v, f, -, rfl, -⟩ | ⟨v, v', expected, request, start, -, rfl, -⟩ | ⟨-, hname, -⟩
  · rfl
  · exact Run.name_outcome
  · exact hname

/-- A settled cell tells what the producer came to, or that the run was cancelled. -/
theorem tells (h : Ledger s ps b calls) {p : Producer} (hp : p ∈ ps) {r : ProducerResult}
    (hcell : b.cells p.id = some (.settled r)) :
    b.Tells s p r ∨ b.cancelled = true ∧ r.isOk = false := by
  rcases (h.stage p hp).of_settled hcell with
    ⟨v, f, hprepare, rfl, hcalls, hsights⟩ |
    ⟨v, v', expected, request, start, hprepare, rfl, hcalls, hsights⟩ | ⟨hcancelled, -, hfailed⟩
  · exact .inl (.declined hsights hcalls hprepare)
  · exact .inl (.answered hsights hcalls hprepare)
  · exact .inr ⟨hcancelled, hfailed⟩

theorem tells_of_live (h : Ledger s ps b calls) (hlive : b.cancelled = false) {p : Producer}
    (hp : p ∈ ps) {r : ProducerResult} (hcell : b.cells p.id = some (.settled r)) : b.Tells s p r :=
  (h.tells hp hcell).resolve_right fun hoff => absurd hoff.1 (ne_true_of_eq_false hlive)

theorem authentic (h : Ledger s ps b calls) {p : Producer} (hp : p ∈ ps) {r : ProducerResult}
    (hcell : b.cells p.id = some (.settled r)) (hok : r.isOk = true) : b.Authentic s p r := by
  rcases h.tells hp hcell with (⟨hsights, hcalls, hprepare⟩ | ⟨hsights, hcalls, hprepare⟩) |
    ⟨-, hfailed⟩
  · cases hok
  · obtain ⟨response, edited, hending, hedit, heq⟩ := Run.outcome_of_isOk hok
    refine ⟨_, _, response, _, edited, hcalls, hending, ?_, hedit, heq⟩
    rw [hsights]
    exact List.mem_cons_of_mem _ (List.mem_singleton_self _)
  · exact absurd hok (ne_true_of_eq_false hfailed)

theorem exists_sight (h : Ledger s ps b calls) {p : Producer} (hp : p ∈ ps) {v : ResultMap}
    (hv : v ∈ b.sightsOf p) : ⟨p, v⟩ ∈ b.sights := by
  obtain ⟨sight, hsight, rfl⟩ := List.mem_map.1 hv
  obtain ⟨hmem, hid⟩ := List.mem_filter.1 hsight
  have heq : sight.producer = p := Roster.eq_of_id (h.sights sight hmem) hp (of_decide_eq_true hid)
  exact heq ▸ hmem

/-! ## Deeds -/

variable {p : Producer} {cell : Cell} {o : Ongoing}

theorem requeue {id : Nat} {cell' : Cell} (h : Ledger s ps b calls)
    (hcell : b.cells id = some cell) (hline : cell.Requeued cell') :
    Ledger s ps (b.setCell id cell') calls ∧ b.Extends (b.setCell id cell') := by
  have hext : b.Extends (b.setCell id cell') := by
    -- a cell in which somebody waits is not settled, so no result is lost
    refine Board.extends_setCell fun r hr => ?_
    rw [hcell, Option.some.injEq] at hr
    subst hr
    rcases hline with rfl | ⟨htaken, -⟩ | ⟨⟨task, line, hoffered⟩, -⟩
    · rfl
    · cases htaken
    · cases hoffered
  refine ⟨⟨h.names, fun q hq => ?_, h.known, h.logged, h.entries, h.sights,
    fun x hx => ⟨(h.receipts x hx).1, hext.settled (h.receipts x hx).2⟩⟩, hext⟩
  by_cases hid : q.id = id
  · subst hid
    rw [Board.account_setCell_self]
    exact (h.stage q hq).requeue hcell hline
  · rw [Board.account_setCell_of_ne hid]
    exact h.stage q hq

theorem not_settled_of_isFree (hcell : b.cells p.id = some cell) (hfree : cell.isFree = true)
    (r : ProducerResult) : b.cells p.id ≠ some (.settled r) := by
  rintro heq
  rw [hcell, Option.some.injEq] at heq
  subst heq
  cases hfree

theorem mem_of_mem_look {sight : Sight} (h : sight ∈ (b.look p).sights) :
    sight ∈ b.sights ∨ sight.producer = p := by
  rcases List.mem_append.1 h with hold | hnew
  · exact .inl hold
  · cases List.mem_singleton.1 hnew
    exact .inr rfl

/-- Whoever is handed a result is handed the one that settled the cell. -/
theorem mem_of_mem_hand {r : ProducerResult} (hcell : b.cells p.id = some (.settled r)) {x : Receipt}
    (h : x ∈ (b.hand p r).receipts) :
    x ∈ b.receipts ∨ x.producer = p ∧ b.cells p.id = some (.settled x.result) := by
  rcases List.mem_append.1 h with hold | hnew
  · exact .inl hold
  · cases List.mem_singleton.1 hnew
    exact .inr ⟨rfl, hcell⟩

theorem refuse (h : Ledger s ps b calls) (hp : p ∈ ps) (hcancelled : b.cancelled = true)
    (hcell : b.cells p.id = some cell) (hfree : cell.isFree = true) {r : ProducerResult}
    (hr : r = .failed p.name .cancelled) :
    Ledger s ps ((b.setCell p.id (.settled r)).hand p r) calls ∧
      b.Extends ((b.setCell p.id (.settled r)).hand p r) := by
  have hext : b.Extends ((b.setCell p.id (.settled r)).hand p r) :=
    (Board.extends_setCell fun r' hr' =>
      absurd hr' (not_settled_of_isFree hcell hfree r')).trans (Board.extends_hand _ _ _)
  refine ⟨h.step hext hp rfl ?_ (fun q hq => ?_) (fun o ho => .inl ho)
    (fun call hcall => .inl (List.mem_map_of_mem hcall)) (fun sight hsight => .inl hsight)
    fun x hx => mem_of_mem_hand (Board.cells_setCell_self _ _ _) hx, hext⟩
  · obtain ⟨_, _, haccount, -, hcalls⟩ := (h.stage p hp).of_isFree hcell hfree
    -- a free cell was never taken, or its call was given up: either way nothing is under way
    rw [Board.account_hand, Board.account_setCell_self, haccount]
    exact .off hcancelled (.inr ⟨r, rfl, hr ▸ rfl, hr ▸ rfl⟩) hcalls
  · rw [Board.account_hand, Board.account_setCell_of_ne hq]

theorem decline (h : Ledger s ps b calls) (hp : p ∈ ps) (hlive : b.cancelled = false)
    (hcell : b.cells p.id = some cell) (hfree : cell.isFree = true) {f : Failure}
    (hprepare : p.prepare s.client b.results = .error f) {r : ProducerResult}
    (hr : r = .failed p.name f) :
    Ledger s ps (((b.look p).setCell p.id (.settled r)).hand p r) calls ∧
      b.Extends (((b.look p).setCell p.id (.settled r)).hand p r) := by
  have hext : b.Extends (((b.look p).setCell p.id (.settled r)).hand p r) :=
    ((Board.extends_look b p).trans (Board.extends_setCell fun r' hr' =>
      absurd hr' (not_settled_of_isFree hcell hfree r'))).trans (Board.extends_hand _ _ _)
  refine ⟨h.step hext hp rfl ?_ (fun q hq => ?_) (fun o ho => .inl ho)
    (fun call hcall => .inl (List.mem_map_of_mem hcall)) (fun sight hsight => mem_of_mem_look hsight)
    fun x hx => mem_of_mem_hand (Board.cells_setCell_self _ _ _) hx, hext⟩
  -- a free cell is that of a producer who has not been called, unless the run is cancelled
  · obtain ⟨_, _, haccount, hidle, -⟩ := (h.stage p hp).of_isFree hcell hfree
    obtain ⟨-, rfl, rfl⟩ := hidle hlive
    rw [Board.account_hand, Board.account_setCell_self, Board.account_look_self, haccount, hr]
    exact .declined hprepare
  · rw [Board.account_hand, Board.account_setCell_of_ne hq, Board.account_look_of_ne hq]

theorem send (h : Ledger s ps b calls) (hp : p ∈ ps) (hlive : b.cancelled = false)
    (hcell : b.cells p.id = some cell) (hfree : cell.isFree = true) {line : List Nat}
    {expected : List Nat} {request : BackendRequest} {task since : Nat}
    (hprepare : p.prepare s.client b.results = .ok (expected, request)) :
    Ledger s ps (((b.look p).setCell p.id (.taken line)).enter p request)
        (b.underway s task since p expected request ::ₘ calls) ∧
      b.Extends (((b.look p).setCell p.id (.taken line)).enter p request) := by
  have hext : b.Extends (((b.look p).setCell p.id (.taken line)).enter p request) :=
    ((Board.extends_look b p).trans (Board.extends_setCell fun r' hr' =>
      absurd hr' (not_settled_of_isFree hcell hfree r'))).trans (Board.extends_enter _ _ _)
  refine ⟨h.step hext hp rfl ?_ (fun q hq => ?_) (fun o ho => ?_) (fun call hcall => ?_)
    (fun sight hsight => mem_of_mem_look hsight) (fun x hx => .inl hx), hext⟩
  · obtain ⟨_, _, haccount, hidle, -⟩ := (h.stage p hp).of_isFree hcell hfree
    obtain ⟨-, rfl, rfl⟩ := hidle hlive
    have hcount : b.callCount p = 0 := congrArg (·.calls.length) haccount
    have hown : (b.underway s task since p expected request).producer.id = p.id := rfl
    rw [Board.account_cons_self hown, Board.account_enter_self, Board.account_setCell_self,
      Board.account_look_self, haccount]
    -- it is the first call of the producer, so that the reply is the one that counts
    have hcarries : (b.underway s task since p expected request).Carries s p b.results b.now := by
      rw [Board.underway, hcount]
      exact ⟨rfl, rfl, hprepare, rfl, rfl⟩
    exact .calling hcarries
  · rw [Board.account_cons_of_ne (Ne.symm hq), Board.account_enter_of_ne hq,
      Board.account_setCell_of_ne hq, Board.account_look_of_ne hq]
  · rcases Multiset.mem_cons.1 ho with rfl | ho
    · exact .inr ⟨rfl, _, List.getElem?_concat_length, rfl⟩
    · exact .inl ho
  · rcases List.mem_append.1 hcall with hcall | hcall
    · exact .inl (List.mem_map_of_mem hcall)
    · cases List.mem_singleton.1 hcall
      exact .inr rfl

/-- Marking a call does not change whose call it is. -/
theorem mem_producers_of_mark {i : Nat} {state : CallState} {call : Call}
    (hcall : call ∈ (b.mark i state).calls) : call.producer ∈ b.calls.map (·.producer) := by
  obtain ⟨j, hj⟩ := List.getElem?_of_mem hcall
  rw [Board.mark, List.getElem?_modify] at hj
  obtain ⟨old, hold, heq⟩ := Option.map_eq_some_iff.1 hj
  refine List.mem_map.2 ⟨old, List.mem_of_getElem? hold, ?_⟩
  split at heq <;> exact heq ▸ rfl

/-- The account of a producer whose call is marked, and those of the others. -/
theorem account_mark (h : Ledger s ps b (o ::ₘ calls)) (state : CallState) :
    (∃ v start, o.Carries s o.producer v start ∧
      b.callsOf o.producer = [⟨o.producer, o.request, start, .running⟩] ∧
      ∃ line, (b.mark o.call state).account calls o.producer =
        ⟨some (.taken line), [⟨o.producer, o.request, start, state⟩], [v], 0⟩) ∧
    (∀ q : Producer, q.id ≠ o.producer.id →
      (b.mark o.call state).account calls q = b.account calls q) ∧
    b.Extends (b.mark o.call state) := by
  obtain ⟨line, v, start, hcarries, haccount⟩ := h.account_erase
  obtain ⟨start', hcall, -⟩ := h.running (Multiset.mem_cons_self o calls)
  -- one call is under way for the producer, so the entry that is marked is its only one
  refine ⟨⟨v, start, hcarries, congrArg Account.calls haccount, line, ?_⟩, fun q hq => ?_,
    Board.extends_mark hcall rfl⟩
  · obtain ⟨-, hmark⟩ := Board.account_mark_self calls state hcall rfl
      (congrArg Account.calls haccount)
    rw [hmark, haccount]
  · exact Board.account_mark_of_ne hcall (Ne.symm hq)

theorem not_settled_of_mem (h : Ledger s ps b calls) (ho : o ∈ calls) (r : ProducerResult) :
    b.cells o.producer.id ≠ some (.settled r) := by
  obtain ⟨line, v, start, -, haccount⟩ := h.account_of_mem ho
  rw [show b.cells o.producer.id = some (.taken line) from congrArg Account.cell haccount]
  simp

theorem complete (h : Ledger s ps b (o ::ₘ calls)) {r : ProducerResult}
    (hr : r = Run.callResult s b o) :
    Ledger s ps ((((b.mark o.call .answered).look o.producer).setCell o.producer.id
        (.settled r)).hand o.producer r) calls ∧
      b.Extends ((((b.mark o.call .answered).look o.producer).setCell o.producer.id
        (.settled r)).hand o.producer r) := by
  have ho := Multiset.mem_cons_self o calls
  obtain ⟨⟨v, start, hcarries, -, line, haccount⟩, hothers, hmark⟩ := h.account_mark .answered
  have hext : b.Extends ((((b.mark o.call .answered).look o.producer).setCell o.producer.id
      (.settled r)).hand o.producer r) :=
    ((hmark.trans (Board.extends_look _ _)).trans (Board.extends_setCell fun r' hr' =>
      absurd hr' (h.not_settled_of_mem ho r'))).trans (Board.extends_hand _ _ _)
  refine ⟨h.step hext (h.known o ho) rfl ?_ (fun q hq => ?_)
    (fun o' ho' => .inl (Multiset.mem_cons_of_mem ho'))
    (fun call hcall => .inl (mem_producers_of_mark hcall)) (fun sight hsight => mem_of_mem_look hsight)
    fun x hx => mem_of_mem_hand (Board.cells_setCell_self _ _ _) hx, hext⟩
  · rw [Board.account_hand, Board.account_setCell_self, Board.account_look_self, haccount, hr,
      Run.callResult, hcarries.ending]
    exact .answered hcarries.prepared
  · rw [Board.account_hand, Board.account_setCell_of_ne hq, Board.account_look_of_ne hq,
      hothers q hq, Board.account_cons_of_ne (Ne.symm hq)]

theorem abandon (h : Ledger s ps b (o ::ₘ calls)) (hcancelled : b.cancelled = true)
    {r : ProducerResult} (hname : r.name = o.producer.name) (hfailed : r.isOk = false) :
    Ledger s ps (((b.mark o.call .abandoned).setCell o.producer.id (.settled r)).hand
        o.producer r) calls ∧
      b.Extends (((b.mark o.call .abandoned).setCell o.producer.id (.settled r)).hand
        o.producer r) := by
  have ho := Multiset.mem_cons_self o calls
  obtain ⟨⟨v, start, -, -, line, haccount⟩, hothers, hmark⟩ := h.account_mark .abandoned
  have hext : b.Extends (((b.mark o.call .abandoned).setCell o.producer.id (.settled r)).hand
      o.producer r) :=
    (hmark.trans (Board.extends_setCell fun r' hr' =>
      absurd hr' (h.not_settled_of_mem ho r'))).trans (Board.extends_hand _ _ _)
  refine ⟨h.step hext (h.known o ho) rfl ?_ (fun q hq => ?_)
    (fun o' ho' => .inl (Multiset.mem_cons_of_mem ho'))
    (fun call hcall => .inl (mem_producers_of_mark hcall)) (fun sight hsight => .inl hsight)
    fun x hx => mem_of_mem_hand (Board.cells_setCell_self _ _ _) hx, hext⟩
  -- after a cancellation a cell may hold a failure with no answer behind it
  · rw [Board.account_hand, Board.account_setCell_self, haccount]
    exact .off hcancelled (.inr ⟨r, rfl, hname, hfailed⟩) (.inr ⟨o.request, start, rfl⟩)
  · rw [Board.account_hand, Board.account_setCell_of_ne hq, hothers q hq,
      Board.account_cons_of_ne (Ne.symm hq)]

theorem release (h : Ledger s ps b (o ::ₘ calls)) (hcancelled : b.cancelled = true)
    (hfree : cell.isFree = true) :
    Ledger s ps ((b.mark o.call .abandoned).setCell o.producer.id cell) calls ∧
      b.Extends ((b.mark o.call .abandoned).setCell o.producer.id cell) := by
  have ho := Multiset.mem_cons_self o calls
  obtain ⟨⟨v, start, -, -, line, haccount⟩, hothers, hmark⟩ := h.account_mark .abandoned
  have hext : b.Extends ((b.mark o.call .abandoned).setCell o.producer.id cell) :=
    hmark.trans (Board.extends_setCell fun r' hr' => absurd hr' (h.not_settled_of_mem ho r'))
  refine ⟨h.step hext (h.known o ho) rfl ?_ (fun q hq => ?_)
    (fun o' ho' => .inl (Multiset.mem_cons_of_mem ho'))
    (fun call hcall => .inl (mem_producers_of_mark hcall)) (fun sight hsight => .inl hsight)
    (fun x hx => .inl hx), hext⟩
  · rw [Board.account_setCell_self, haccount]
    exact .off hcancelled (.inl hfree) (.inr ⟨o.request, start, rfl⟩)
  · rw [Board.account_setCell_of_ne hq, hothers q hq, Board.account_cons_of_ne (Ne.symm hq)]

theorem hand (h : Ledger s ps b calls) (hp : p ∈ ps) {r : ProducerResult}
    (hcell : b.cells p.id = some (.settled r)) : Ledger s ps (b.hand p r) calls where
  __ := h
  receipts x hx := by
    rcases mem_of_mem_hand hcell hx with hold | ⟨rfl, hnew⟩
    · exact h.receipts x hold
    · exact ⟨hp, hnew⟩

theorem deed {asked : Board → Producer → Prop} {right : Board → ProducerResult → Prop}
    (hasked : ∀ {p : Producer}, asked b p → p ∈ ps) (h : Ledger s ps b calls)
    (hdeed : Deed s asked right b calls c calls') : Ledger s ps c calls' ∧ b.Extends c := by
  cases hdeed with
  | requeue hcell hline => exact h.requeue hcell hline
  | refuse hcancelled hp hcell hfree => exact h.refuse (hasked hp) hcancelled hcell hfree rfl
  | decline hlive hp hcell hfree hprepare =>
    exact h.decline (hasked hp) hlive hcell hfree hprepare rfl
  | send task since hlive hp hcell hfree hprepare =>
    exact h.send (hasked hp) hlive hcell hfree hprepare
  | complete hdue => exact h.complete rfl
  | abandon hcancelled hr => exact h.abandon hcancelled (hr ▸ rfl) (hr ▸ rfl)
  | release hcancelled hfree => exact h.release hcancelled hfree
  | hand hp hcell => exact ⟨h.hand (hasked hp) hcell, Board.extends_hand b _ _⟩
  | publish hright =>
    have hext := Board.extends_publish b ‹List ProducerResult›
    exact ⟨⟨fun p hp => hext.names ▸ h.names p hp, h.stage, h.known, h.logged, h.entries,
      h.sights, h.receipts⟩, hext⟩
  | cancel hmay =>
    exact ⟨⟨h.names, fun p hp => (h.stage p hp).cancel, h.known, h.logged, h.entries, h.sights,
      h.receipts⟩, Board.extends_cancel b⟩

end Ledger

end Gateway
