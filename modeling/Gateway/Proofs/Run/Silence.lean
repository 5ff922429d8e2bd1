import Gateway.Proofs.Run.Conduct

/-!
# Gateway.Proofs.Run.Silence — no call after a cancellation

Once a run is cancelled its log only changes in that calls are abandoned: none is begun and none is
answered, whoever has a turn. This is so in every schedule, also in one that lets time pass.

A backend may itself cancel the run that calls it. This happens in the middle of a turn, so it is not
enough to look at the log before and after turns. Here it is shown that a call whose backend cancels
is the last one of the log.

The two belong together. `Abandons` compares two logs, of which the first is that of a cancelled run, and
holds between any two boards of such a run. For the turn in which the cancellation comes there is no
such first log. `LastWord` looks at one board instead: if a call of the log is one whose backend cancels,
then the run is cancelled and no call comes after it. Since a desk is what turns are made of, it is kept
by everything that is done to a desk, and so it holds in the middle of a turn as well.
-/

set_option autoImplicit false

namespace Gateway

/-- The call after it was given up. -/
def Call.abandon (call : Call) : Call := { call with state := .abandoned }

/-- What a call says of the request that was sent, whatever became of it. -/
def Call.sent (call : Call) : Producer × BackendRequest := (call.producer, call.request)

namespace Board

/-- `c` has the log of `b`, of which some calls may have been abandoned. -/
def Abandons (b c : Board) : Prop :=
  ∀ i : Nat, c.calls[i]? = b.calls[i]? ∨ c.calls[i]? = b.calls[i]?.map Call.abandon

/-- The backend of the `i`-th call of the log cancels the run. -/
def Cancels (s : Setting) (b : Board) (i : Nat) : Prop :=
  ∃ call, b.calls[i]? = some call ∧
    (s.backends call.producer (callCount { b with calls := b.calls.take i } call.producer)
      call.request).cancels = true

variable {s : Setting} {b c d : Board} {i : Nat}

theorem Abandons.refl (b : Board) : b.Abandons b := fun _ => .inl rfl

theorem Abandons.trans (h : b.Abandons c) (h' : c.Abandons d) : b.Abandons d := by
  intro i
  rcases h i with hc | hc <;> rcases h' i with hd | hd <;> rw [hd, hc]
  · exact .inl rfl
  · exact .inr rfl
  · exact .inr rfl
  · rw [Option.map_map]
    exact .inr rfl

theorem Abandons.of_calls (h : c.calls = b.calls) : b.Abandons c := fun i => .inl (by rw [h])

theorem abandons_mark (b : Board) (call : Nat) : b.Abandons (b.mark call .abandoned) := by
  intro i
  unfold mark
  rw [List.getElem?_modify]
  split
  · exact .inr rfl
  · simp

theorem sent_mark (b : Board) (call : Nat) (state : CallState) :
    (b.mark call state).calls.map Call.sent = b.calls.map Call.sent := by
  apply List.ext_getElem?
  intro i
  unfold mark
  rw [List.getElem?_map, List.getElem?_map, List.getElem?_modify]
  cases b.calls[i]? with
  | none => rfl
  | some other =>
    show some (Call.sent (if call = i then _ else other)) = some other.sent
    split <;> rfl

/-- Which calls cancel the run is a matter of what was sent. -/
theorem Cancels.congr (h : c.calls.map Call.sent = b.calls.map Call.sent) (hb : b.Cancels s i) :
    c.Cancels s i := by
  obtain ⟨call, hcall, hcancels⟩ := hb
  have hget := congrArg (·[i]?) h
  simp only [List.getElem?_map, hcall, Option.map_some, Option.map_eq_some_iff] at hget
  obtain ⟨call', hcall', hsent⟩ := hget
  obtain ⟨hproducer, hrequest⟩ := Prod.mk.inj hsent
  have hcount : ∀ (log : Board) (p : Producer),
      callCount { log with calls := log.calls.take i } p =
        ((log.calls.map Call.sent).take i).countP fun x => x.1.id = p.id := by
    intro log p
    rw [← List.map_take, List.countP_map, List.countP_eq_length_filter]
    rfl
  refine ⟨call', hcall', ?_⟩
  rw [hcount, h, hproducer, hrequest, ← hcount]
  exact hcancels

/-- A call that cancels the run is the last one. If no call does, then the cancellation comes from
outside. -/
structure LastWord (s : Setting) (outside : Prop) (b : Board) : Prop where
  last : ∀ i, b.Cancels s i → b.cancelled = true ∧ i + 1 = b.calls.length
  cause : b.cancelled = true → outside ∨ ∃ i, b.Cancels s i

namespace LastWord

variable {outside : Prop}

theorem of_sent (h : b.LastWord s outside)
    (hcalls : c.calls.map Call.sent = b.calls.map Call.sent)
    (hcancelled : c.cancelled = b.cancelled) : c.LastWord s outside := by
  constructor
  · intro i hi
    obtain ⟨hb, hlast⟩ := h.last i (hi.congr hcalls.symm)
    have hlength := congrArg List.length hcalls
    simp only [List.length_map] at hlength
    exact ⟨hcancelled.trans hb, by rw [hlast, hlength]⟩
  · intro hc
    rcases h.cause (hcancelled.symm.trans hc) with houtside | ⟨i, hi⟩
    · exact .inl houtside
    · exact .inr ⟨i, hi.congr hcalls⟩

theorem mark (h : b.LastWord s outside) (call : Nat) (state : CallState) :
    (b.mark call state).LastWord s outside :=
  h.of_sent (sent_mark b call state) rfl

theorem cancel (houtside : outside) (h : b.LastWord s outside) : b.cancel.LastWord s outside :=
  ⟨fun i hi => ⟨rfl, (h.last i hi).2⟩, fun _ => .inl houtside⟩

/-- A call that is sent is the last one, and before it none has cancelled the run. -/
theorem send {d : Desk} {p : Producer} {request : BackendRequest}
    (h : d.board.LastWord s outside) (hlive : d.board.cancelled = false) :
    (Run.sent s d p request).board.LastWord s outside := by
  let call : Call := ⟨p, request, d.board.now, .running⟩
  let reply := s.backends p (d.board.callCount p) request
  have hcalls : (Run.sent s d p request).board.calls = d.board.calls ++ [call] := by
    show (if reply.cancels = true then Desk.cancel _ else _ : Desk).board.calls = _
    split
    · rw [Desk.cancelled_cancel]
      rfl
    · rfl
  have hcancelled : (Run.sent s d p request).board.cancelled = reply.cancels := by
    show (if reply.cancels = true then Desk.cancel _ else _ : Desk).board.cancelled = _
    split
    · next hcancels =>
      rw [Desk.cancelled_cancel, hcancels]
      rfl
    · next hcancels =>
      rw [Bool.eq_false_iff.2 hcancels]
      exact hlive
  have hnew : (Run.sent s d p request).board.Cancels s d.board.calls.length ↔
      reply.cancels = true := by
    have hreply : ∀ log, log = d.board.calls → s.backends p
        (callCount { (Run.sent s d p request).board with calls := log } p) request = reply := by
      rintro _ rfl
      rfl
    unfold Cancels
    simp only [hcalls, List.getElem?_concat_length, Option.some.injEq, exists_eq_left', call]
    rw [hreply _ List.take_left]
  constructor
  · intro i hi
    by_cases hlt : i < d.board.calls.length
    · obtain ⟨earlier, hearlier, hcancels⟩ := hi
      rw [hcalls, List.getElem?_append_left hlt] at hearlier
      simp only [hcalls, List.take_append_of_le_length (Nat.le_of_lt hlt)] at hcancels
      -- an earlier call that cancels has done so already
      exact absurd (h.last i ⟨earlier, hearlier, hcancels⟩).1 (ne_true_of_eq_false hlive)
    · have hlength : i < (d.board.calls ++ [call]).length := by
        obtain ⟨other, hother, -⟩ := hi
        exact hcalls ▸ (List.getElem?_eq_some_iff.1 hother).1
      rw [List.length_append, List.length_singleton] at hlength
      obtain rfl : i = d.board.calls.length := by omega
      rw [hcancelled, hcalls, List.length_append]
      exact ⟨hnew.1 hi, rfl⟩
  · intro hcancels
    exact .inr ⟨_, hnew.2 (hcancelled.symm.trans hcancels)⟩

end LastWord

end Board

namespace Conduct

/-- When the run is cancelled, turns take no time and do nothing to the log but to abandon calls. -/
def silent (s : Setting) (b : Board) : Conduct s where
  Holds d _ := d.board.cancelled = true ∧ d.board.now = b.now ∧ b.Abandons d.board
  fewer h _ := h
  write h hnow hcancelled hcalls :=
    ⟨hcancelled.trans h.1, hnow.trans h.2.1, h.2.2.trans (.of_calls hcalls)⟩
  wake _ h := h
  spawn _ h := h
  giveUp h := h
  abandon call h := ⟨h.1, h.2.1, h.2.2.trans (Board.abandons_mark _ call)⟩
  answer _ hlive h := absurd h.1 (ne_true_of_eq_false hlive)
  send _ _ hlive h := absurd h.1 (ne_true_of_eq_false hlive)

/-- A call whose backend cancels the run is the last one. -/
def lastWord (s : Setting) (outside : Prop) : Conduct s where
  Holds d _ := d.board.LastWord s outside
  fewer h _ := h
  write h _ hcancelled hcalls := h.of_sent (by rw [hcalls]) hcancelled
  wake _ h := h
  spawn _ h := h
  giveUp h := h
  abandon call h := h.mark call .abandoned
  answer call _ h := h.mark call .answered
  send _ _ hlive h := ⟨h.send hlive, fun call => (h.send hlive).mark call .answered⟩

end Conduct

namespace Work

variable {s : Setting} {w v : Work}

theorem board_cancellation (s : Setting) (w : Work) :
    (w.take s .cancellation).board = w.board ∨
      s.cancelAt.isSome = true ∧ (w.take s .cancellation).board = w.board.cancel := by
  have htaken := w.taken s .cancellation
  generalize w.take s .cancellation = v at htaken ⊢
  cases htaken with
  | idle => exact .inl rfl
  | cancellation hcancel => exact .inr ⟨hcancel, rfl⟩

/-- Whoever has a turn after a cancellation begins no call and has none answered. -/
theorem silent_take (hcancelled : w.board.cancelled = true) (turn : Turn) :
    (w.take s turn).board.cancelled = true ∧ (w.take s turn).board.now = w.board.now ∧
      w.board.Abandons (w.take s turn).board := by
  cases turn with
  | cancellation =>
    rcases w.board_cancellation s with hboard | ⟨-, hboard⟩
    · rw [hboard]
      exact ⟨hcancelled, rfl, .refl _⟩
    · rw [hboard]
      exact ⟨rfl, rfl, .of_calls rfl⟩
  | task n =>
    exact (Conduct.silent s w.board).board_take
      (P := fun b => b.cancelled = true ∧ b.now = w.board.now ∧ w.board.Abandons b) id
      fun _ => ⟨hcancelled, rfl, .refl _⟩

theorem lastWord_take {outside : Prop} (h : w.board.LastWord s outside) (n : Nat) :
    (w.take s (.task n)).board.LastWord s outside :=
  (Conduct.lastWord s outside).board_take id fun _ => h

/-- If a task is the one in whose turn the run is cancelled, then a call has done it. -/
theorem cancels_of_take (h : w.board.LastWord s True) (hlive : w.board.cancelled = false)
    {task : Nat} (hcut : (w.take s (.task task)).board.cancelled = true) :
    ∃ i, (w.take s (.task task)).board.Cancels s i := by
  -- so far nobody has cancelled, and nobody else can in this turn
  have hinside : w.board.LastWord s False :=
    ⟨h.last, fun hcancelled => absurd hcancelled (ne_true_of_eq_false hlive)⟩
  exact ((lastWord_take hinside task).cause hcut).resolve_left id

theorem board_drop (w : Work) : w.drop.board = ((w.desk 0).drop w.root).board.cancel := by
  rw [drop, afterRoot, board_after, Desk.cancelled_cancel]

/-- After a cancellation no schedule begins a call, and none has one answered. -/
theorem abandons_of_leads (hcancelled : w.board.cancelled = true) (hwv : w.Leads s v) :
    v.board.cancelled = true ∧ w.board.Abandons v.board := by
  induction hwv with
  | refl => exact ⟨hcancelled, .refl _⟩
  | @tail u v _ hmove ih =>
    obtain ⟨hu, habandons⟩ := ih
    cases hmove with
    | turn turn =>
      obtain ⟨hv, -, hlog⟩ := silent_take (s := s) hu turn
      exact ⟨hv, habandons.trans hlog⟩
    | row ready burst => exact ⟨hu, habandons⟩
    | wait time => exact ⟨hu, habandons⟩
    | drop hdrop =>
      obtain ⟨-, -, hlog⟩ : (Conduct.silent s u.board).Holds ((u.desk 0).drop u.root) 0 :=
        Conduct.drop ⟨hu, rfl, .refl _⟩
      rw [board_drop]
      exact ⟨rfl, habandons.trans hlog⟩

/-- In every schedule a call whose backend cancels the run is the last one. The rest comes from
outside, at the times set for that. -/
theorem lastWord_of_leads {outside : Prop} (hcancel : s.cancelAt.isSome = true → outside)
    (hdrop : s.dropAt.isSome = true → outside) (h : w.board.LastWord s outside)
    (hwv : w.Leads s v) : v.board.LastWord s outside := by
  induction hwv with
  | refl => exact h
  | @tail u v _ hmove ih =>
    cases hmove with
    | turn turn =>
      cases turn with
      | task n => exact lastWord_take ih n
      | cancellation =>
        rcases u.board_cancellation s with hboard | ⟨hset, hboard⟩
        · rw [hboard]
          exact ih
        · rw [hboard]
          exact ih.cancel (hcancel hset)
    | row ready burst => exact ih
    | wait time => exact ih.of_sent rfl rfl
    | drop hset =>
      have hdropped : (Conduct.lastWord s outside).Holds ((u.desk 0).drop u.root) 0 :=
        Conduct.drop ih
      rw [board_drop]
      exact Board.LastWord.cancel (hdrop hset) hdropped

theorem lastWord_opening {outside : Prop} {b : Board} (h : b.LastWord s outside) (plan : Plan) :
    (opening s b plan).board.LastWord s outside := by
  rw [opening, begin, afterRoot, board_after]
  have hstart : (Conduct.lastWord s outside).Leaves 0 (Run.start s ((ofBoard s b).desk 0) plan) :=
    Conduct.leaves_start h
  exact hstart

end Work

end Gateway
