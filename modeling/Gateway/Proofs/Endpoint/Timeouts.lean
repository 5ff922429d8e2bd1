import Gateway.Backend.Exchange
import Gateway.Proofs.Endpoint.Transparency
import Gateway.Proofs.Text.Utf8

/-!
# Gateway.Proofs.Endpoint.Timeouts — which failures are told as timeouts

When the one call of a request fails on the way, the client is told 502, or 504 if there was no response
in time. Which of them is decided by the text of the failure: whether the word for a timeout occurs in
it anywhere. The text of a call that could not be made quotes its url, so a path with the word in it is
told as a timeout; and of a body that breaks off the text says what the network says, which need not
mention that the time had run out.

The statement follows what can become of a call: no response in time, no connection, a body that breaks
off, or no request at all. For each of them it says the status, as far as the texts of the program
itself decide it. `saysTimeout_sending_iff` and the lemmas beside it do that for the words put around a
url: none of them says a timeout, and none can say it together with the end of a url, because a
character stands between them that the word does not have. So the condition is one on the url alone.

The network is any function from requests to what comes of them. It is not asked to be a plausible one,
and in particular nothing is assumed of its words for a body that broke off. What is assumed is that
the endpoint has one producer and passes on what it comes to, for otherwise the failure of a call need
not be what a client is told.
-/

set_option autoImplicit false

namespace Gateway

/-! ## Looking for a word -/

section

variable {α : Type} {part front back : List α} {sep : α}

theorem prefix_of_prefix_append_cons (hsep : sep ∉ part) (h : part <+: front ++ sep :: back) :
    part <+: front := by
  induction part generalizing front with
  | nil => exact List.nil_prefix
  | cons a part ih =>
    rw [List.mem_cons, not_or] at hsep
    cases front with
    | nil => exact absurd (List.cons_prefix_cons.1 h).1.symm hsep.1
    | cons b front =>
      obtain ⟨rfl, hrest⟩ := List.cons_prefix_cons.1 h
      exact List.cons_prefix_cons.2 ⟨rfl, ih hsep.2 hrest⟩

/-- A word without a separator stands on one side of it. -/
theorem infix_append_cons_iff (hsep : sep ∉ part) :
    part <:+: front ++ sep :: back ↔ part <:+: front ∨ part <:+: back := by
  constructor
  · intro h
    induction front with
    | nil =>
      rcases List.infix_cons_iff.1 h with h | h
      · have hfront : part <+: [] := prefix_of_prefix_append_cons hsep h
        exact .inl hfront.isInfix
      · exact .inr h
    | cons c front ih =>
      rcases List.infix_cons_iff.1 h with h | h
      · have hfront : part <+: c :: front := prefix_of_prefix_append_cons hsep h
        exact .inl hfront.isInfix
      · exact (ih h).imp_left fun h => List.infix_cons_iff.2 (.inr h)
  · rintro (h | h)
    · exact h.trans (List.prefix_append _ _).isInfix
    · exact h.trans ((List.suffix_cons _ _).trans (List.suffix_append _ _)).isInfix

end

/-- A text of bytes that stay as they are is its own percent-encoding. -/
theorem percentEncode_of_kept {p : UInt8 → Bool} {s : String}
    (h : ∀ b ∈ Utf8.encode s, p b = false) : percentEncode p s = s := by
  have hkept : ((Utf8.encode s).flatMap fun b =>
      if p b then [0x25, Form.hexByte (b.toNat / 16), Form.hexByte (b.toNat % 16)] else [b]) =
      Utf8.encode s := by
    conv_rhs => rw [← List.flatMap_singleton' (Utf8.encode s)]
    exact List.flatMap_congr fun b hb => by rw [h b hb]; rfl
  rw [percentEncode, hkept, Utf8.decodeLossy_encode]

/-- The text mentions a timeout. -/
def SaysTimeout (text : String) : Prop := "timeout".toList <:+: text.toList

theorem saysTimeout_iff {text : String} : SaysTimeout text ↔ hasText "timeout" text = true :=
  hasText_iff.symm

instance : DecidablePred SaysTimeout := fun _ => decidable_of_iff _ saysTimeout_iff.symm

theorem saysTimeout_append_iff (front back : String) {sep : Char} (hsep : sep ∉ "timeout".toList) :
    SaysTimeout (front ++ String.singleton sep ++ back) ↔ SaysTimeout front ∨ SaysTimeout back := by
  rw [SaysTimeout, String.toList_append, String.toList_append, String.toList_singleton,
    List.append_assoc, List.singleton_append, infix_append_cons_iff hsep]
  rfl

/-- A url in brackets mentions a timeout itself, unless the text before it does. -/
theorem saysTimeout_quoted_iff {front : String} (hfront : ¬ SaysTimeout front) (url : String) :
    SaysTimeout (front ++ "(" ++ url ++ ")") ↔ SaysTimeout url := by
  have hclosed : SaysTimeout (url ++ String.singleton ')' ++ "") ↔ SaysTimeout url := by
    rw [saysTimeout_append_iff url "" (by decide), or_iff_left (by decide)]
  have hbracket : '(' ∉ "timeout".toList := by decide
  have hopened := saysTimeout_append_iff front (url ++ String.singleton ')' ++ "") hbracket
  rw [hclosed, or_iff_right hfront, String.append_empty, ← String.append_assoc] at hopened
  exact hopened

theorem saysTimeout_sending_iff (url : String) :
    SaysTimeout ("error sending request for url (" ++ url ++ ")") ↔ SaysTimeout url := by
  have hfront : ¬ SaysTimeout "error sending request for url " := by decide
  exact saysTimeout_quoted_iff hfront url

theorem saysTimeout_builder_iff (url : String) :
    SaysTimeout ("builder error for url (" ++ url ++ ")") ↔ SaysTimeout url := by
  have hfront : ¬ SaysTimeout "builder error for url " := by decide
  exact saysTimeout_quoted_iff hfront url

theorem saysTimeout_reading_iff (reason : String) :
    SaysTimeout ("reading body: " ++ reason) ↔ SaysTimeout reason := by
  have hspace : ' ' ∉ "timeout".toList := by decide
  have happend := saysTimeout_append_iff "reading body:" reason hspace
  rwa [or_iff_right (by decide)] at happend

theorem saysTimeout_elapsed (timeout : Nat) :
    SaysTimeout ("backend timeout after " ++ toString timeout ++ "ms") := by
  refine ⟨"backend ".toList, (" after " ++ toString timeout ++ "ms").toList, ?_⟩
  simp only [← String.toList_append]
  rfl

/-- How a call ends that comes to this. -/
def Ending.ofResult : Except Failure Response → Ending
  | .ok r => .response r
  | .error f => .failure f

namespace Backend

/-! ## Texts of failures -/

variable {b : Backend} {r sent : BackendRequest} {text : String}

theorem execute_of_outgoing (hsent : b.outgoing r = .ok sent) (network : Network) :
    b.execute network r = ((network sent).result b.timeout sent.url).mapError b.transport := by
  rw [execute, hsent]
  rfl

theorem execute_of_unsent (hunsent : b.outgoing r = .error text) (network : Network) :
    b.execute network r = .error (b.transport text) := by
  rw [execute, hunsent]
  rfl

/-- A request that is not sent fails with its url, if that can be read. -/
theorem outgoing_eq_error (hunsent : b.outgoing r = .error text) :
    text = match Url.read (b.resolve r.url) with
      | .error _ => "builder error"
      | .ok url => "builder error for url (" ++ url.withoutUser.display ++ ")" := by
  unfold outgoing at hunsent
  cases hread : Url.read (b.resolve r.url) with
  | error error =>
    rw [hread] at hunsent
    exact (Except.error.inj hunsent).symm
  | ok url =>
    rw [hread] at hunsent
    -- the url was read, so it is in the text, whatever it was rejected for
    change (if url.withoutUser.isHttp && (Uri.read url.withoutUser.display).isOk then _ else _) = _
      at hunsent
    split at hunsent
    · cases hunsent
    · exact (Except.error.inj hunsent).symm

/-- How the calls of a backend end that sends its requests over a network. -/
def ending (b : Backend) (network : Network) (r : BackendRequest) : Ending :=
  .ofResult (b.execute network r)

end Backend

theorem EndpointError.status_transport (b : Backend) (text : String) :
    (EndpointError.producer (b.transport text)).response.status =
      if SaysTimeout text then 504 else 502 := by
  simp only [response, Backend.transport, status, saysTimeout_iff]

namespace Endpoint

variable {e : Endpoint} {c : Circumstances} {r : ClientRequest} {p : Producer} {call : Call}
  {network : Network}

theorem handle_of_refused {error : EndpointError} (h : (e.serve c r).1 = .refused error) :
    (e.handle c r).1 = .answered error.response := by
  unfold handle
  rcases hserve : e.serve c r with ⟨served, calls⟩
  rw [hserve] at h
  cases h
  rfl

/-- The failure of the call of a single producer is what the client is told. -/
theorem handle_of_failure (hbuild : Graph.build [p] = .ok e.graph) (htemplate : e.template = none)
    (hredirect : e.redirect = none) (hundisturbed : e.Undisturbed c r)
    (hcall : call ∈ (e.handle c r).2) {f : Failure}
    (hfailure : (c.backends { p with id := 0 } 0 call.request).ending = .failure f) :
    (e.handle c r).1 = .answered (EndpointError.producer f).response := by
  have hsound := Graph.sound_of_build hbuild
  rw [(e.handle_eq c r).1] at hcall
  obtain ⟨edited, hadmitted⟩ : ∃ edited, e.admitted r = .ok edited := by
    cases hadmitted : e.admitted r with
    | ok edited => exact ⟨edited, rfl⟩
    | error error =>
      rw [serve_eq, hadmitted] at hcall
      cases hcall
  obtain ⟨rs, hrun⟩ := hundisturbed.complete hsound hadmitted
  rw [calls_serve hadmitted, hrun.calls] at hcall
  apply handle_of_refused
  rw [serve_of_complete hadmitted hrun]
  rcases hsound.settled_alone (Graph.eq_single_of_build hbuild) hrun.toSettled with
    ⟨_, _, -, hnone, -⟩ | ⟨m, m', expected, request, start, -, hcalls, rfl⟩
  · rw [hnone] at hcall
    cases hcall
  · rw [hcalls] at hcall
    cases List.mem_singleton.1 hcall
    have hreply : ((c.setting edited).reply { p with id := 0 } request).ending = .failure f := hfailure
    rw [hreply, answer_of_failed htemplate hredirect rfl]
    rfl

/-- The client is answered with this status. -/
def Answers (e : Endpoint) (c : Circumstances) (r : ClientRequest) (status : Nat) : Prop :=
  ∃ response, (e.handle c r).1 = .answered response ∧ response.status = status

/-- The text of the failure of the one call decides what the client is told. -/
theorem answers_of_failed_execute (hbuild : Graph.build [p] = .ok e.graph) (htemplate : e.template = none)
    (hredirect : e.redirect = none) (hundisturbed : e.Undisturbed c r)
    (hcall : call ∈ (e.handle c r).2)
    (hnetwork : (c.backends { p with id := 0 } 0 call.request).ending =
      p.backend.ending network call.request) {text : String}
    (hfailed : p.backend.execute network call.request = .error (p.backend.transport text)) :
    e.Answers c r (if SaysTimeout text then 504 else 502) := by
  have hending := hnetwork.trans (congrArg Ending.ofResult hfailed)
  exact ⟨_, handle_of_failure hbuild htemplate hredirect hundisturbed hcall hending,
    EndpointError.status_transport p.backend text⟩

/-- What a client is told when the one call for its request fails on the way. Status 504 means that
there was no response in time, with two exceptions: a call that could not be made is also told with 504
if its url mentions a timeout, and one whose body did not arrive is told with 504 just if the network
says a timeout, whether or not the time had run out. -/
theorem status_of_failed_call (hbuild : Graph.build [p] = .ok e.graph) (htemplate : e.template = none)
    (hredirect : e.redirect = none)
    (hnetwork : ∀ request,
      (c.backends { p with id := 0 } 0 request).ending = p.backend.ending network request)
    (hundisturbed : e.Undisturbed c r) (hcall : call ∈ (e.handle c r).2) :
    (∀ sent, p.backend.outgoing call.request = .ok sent →
      (network sent = .timedOut → e.Answers c r 504) ∧
      (network sent = .failed → e.Answers c r (if SaysTimeout sent.url then 504 else 502)) ∧
      ∀ late reason, network sent = .cutOff late reason →
        e.Answers c r (if SaysTimeout reason then 504 else 502)) ∧
    (∀ text, p.backend.outgoing call.request = .error text →
      e.Answers c r (match Url.read (p.backend.resolve call.request.url) with
        | .error _ => 502
        | .ok url => if SaysTimeout url.withoutUser.display then 504 else 502)) := by
  -- the status depends on the text alone, so what is left is to read each text
  have hanswers : ∀ text, p.backend.execute network call.request = .error (p.backend.transport text) →
      e.Answers c r (if SaysTimeout text then 504 else 502) := fun _ hfailed =>
    answers_of_failed_execute hbuild htemplate hredirect hundisturbed hcall (hnetwork _) hfailed
  constructor
  · intro sent hsent
    have hexecute := Backend.execute_of_outgoing hsent network
    refine ⟨fun htimedOut => ?_, fun hfailed => ?_, fun late reason hcutOff => ?_⟩
    · rw [htimedOut] at hexecute
      have hstatus := hanswers _ hexecute
      rwa [if_pos (saysTimeout_elapsed p.backend.timeout)] at hstatus
    · rw [hfailed] at hexecute
      have hstatus := hanswers _ hexecute
      simpa only [saysTimeout_sending_iff] using hstatus
    · rw [hcutOff] at hexecute
      have hstatus := hanswers _ hexecute
      simpa only [saysTimeout_reading_iff] using hstatus
  · intro text hunsent
    have hstatus := hanswers _ (Backend.execute_of_unsent hunsent network)
    rw [Backend.outgoing_eq_error hunsent] at hstatus
    cases hread : Url.read (p.backend.resolve call.request.url) with
    | error error =>
      rw [hread] at hstatus
      have hsays : ¬ SaysTimeout "builder error" := by decide
      simpa only [if_neg hsays] using hstatus
    | ok url => simpa only [hread, saysTimeout_builder_iff] using hstatus

/-- The proxy of a backend on the same host. -/
def relayed : Producer :=
  { Producer.plain 0 "p" with
    kind := .proxy, backend := { label := .named "b", origin := "http://[::1]" } }

/-- The request that it makes, for a path or as it is sent. -/
def relayedRequest (url : String) : BackendRequest where
  method := "GET"
  url := url
  headers := .empty
  body := []

def relay : Endpoint where
  pattern := "/"
  graph := .single relayed

/-- A request of a client for a path. -/
def clientRequest (path : String) : ClientRequest :=
  { ClientRequest.plain with uri := ⟨none, none, ⟨path⟩⟩ }

/-- The backends on a network, whose calls take no time. -/
def onNetwork (network : Network) : Circumstances where
  backends p _ request := { ending := p.backend.ending network request }

theorem ending_onNetwork (network : Network) (p : Producer) (n : Nat) (request : BackendRequest) :
    ((onNetwork network).backends p n request).ending = p.backend.ending network request := by
  simp only [onNetwork]

theorem build_relayed : Graph.build [relayed] = .ok relay.graph := Graph.build_single relayed rfl

theorem relay_undisturbed (network : Network) (r : ClientRequest) :
    relay.Undisturbed (onNetwork network) r :=
  undisturbed_of_patient ⟨fun _ _ _ => rfl, fun _ _ _ => rfl⟩ rfl rfl rfl

/-- For a request of a client the one call is made, whatever comes of it. -/
theorem exists_relayed_call (network : Network) (path : String) :
    ∃ call ∈ (relay.handle (onNetwork network) (clientRequest path)).2,
      call.request = relayedRequest (clientRequest path).pathAndQuery := by
  have hsound := Graph.sound_of_build build_relayed
  have hadmitted : relay.admitted (clientRequest path) = .ok (clientRequest path) :=
    admitted_of_plain rfl (Nat.zero_le _)
  obtain ⟨rs, hrun⟩ := (relay_undisturbed network (clientRequest path)).complete hsound hadmitted
  obtain ⟨_, start, hcalls, -⟩ := hsound.settled_single rfl hrun.toSettled
    (Producer.prepare_proxy (p := relayed) rfl rfl _)
  rw [(relay.handle_eq _ _).1, calls_serve hadmitted, hrun.calls, hcalls]
  exact ⟨_, List.mem_singleton_self _, rfl⟩

/-- The network cuts all bodies off when the time has run out. -/
def lateNetwork : Network := fun _ => .cutOff true "error decoding response body"

/-- A body that does not arrive in time is told with 502, since the network says of it what it says of
any body that breaks off. -/
theorem status_of_failed_call_late :
    Graph.build [relayed] = .ok relay.graph ∧ relay.template = none ∧ relay.redirect = none ∧
      relay.Undisturbed (onNetwork lateNetwork) (clientRequest "/") ∧
      (∃ call ∈ (relay.handle (onNetwork lateNetwork) (clientRequest "/")).2,
        relayed.backend.outgoing call.request = .ok (relayedRequest "http://[::1]/")) ∧
      relay.Answers (onNetwork lateNetwork) (clientRequest "/") 502 := by
  have hundisturbed := relay_undisturbed lateNetwork (clientRequest "/")
  obtain ⟨call, hcall, hrequest⟩ := exists_relayed_call lateNetwork "/"
  have hsent : relayed.backend.outgoing call.request = .ok (relayedRequest "http://[::1]/") := by
    rw [hrequest]
    cbv
  obtain ⟨-, -, hcutOff⟩ := (status_of_failed_call build_relayed rfl rfl
    (ending_onNetwork lateNetwork _ _) hundisturbed hcall).1 _ hsent
  have hlate := hcutOff true "error decoding response body" rfl
  have hsays : ¬ SaysTimeout "error decoding response body" := by decide
  rw [if_neg hsays] at hlate
  exact ⟨build_relayed, rfl, rfl, hundisturbed, ⟨call, hcall, hsent⟩, hlate⟩

theorem read_timeout : Url.read "http://[::1]/timeout" =
    .ok ⟨"http", some { host := .ipv6 [0, 0, 0, 0, 0, 0, 0, 1] }, "/timeout", none, none⟩ := by
  have hscheme : Url.readScheme? (Url.cleaned "http://[::1]/timeout") =
      some ("http", "//[::1]/timeout".toList) := by decide +kernel
  have hauthority : Url.readAuthority true false "http" "[::1]".toList =
      .ok ({ host := .ipv6 [0, 0, 0, 0, 0, 0, 0, 1] }, []) := by decide +kernel
  have hpath : percentEncode Escape.inPath "timeout" = "timeout" :=
    percentEncode_of_kept (by decide +kernel)
  rw [Url.read, hscheme]
  change (Url.readAuthority true false "http" "[::1]".toList >>= fun _ => _) = _
  rw [hauthority]
  change Except.ok (Url.mk "http" _
    ("/" ++ "/".intercalate [percentEncode Escape.inPath "timeout"]) none none) = _
  rw [hpath]
  rfl

theorem outgoing_timeout : relayed.backend.outgoing (relayedRequest "/timeout") =
    .ok (relayedRequest "http://[::1]/timeout") := by
  have hresolve : relayed.backend.resolve "/timeout" = "http://[::1]/timeout" := by decide +kernel
  rw [Backend.outgoing]
  change ((Url.read (relayed.backend.resolve "/timeout")).mapError _ >>= fun _ => _) = _
  rw [hresolve, read_timeout]
  decide +kernel

/-- A connection that is refused is told as a timeout if the client asked for a path with the word in
it. -/
theorem answers_of_refused_connection :
    (∃ call ∈ (relay.handle (onNetwork fun _ => .failed) (clientRequest "/timeout")).2,
      relayed.backend.outgoing call.request = .ok (relayedRequest "http://[::1]/timeout")) ∧
      relay.Answers (onNetwork fun _ => .failed) (clientRequest "/timeout") 504 := by
  obtain ⟨call, hcall, hrequest⟩ := exists_relayed_call (fun _ => .failed) "/timeout"
  have hsent : relayed.backend.outgoing call.request =
      .ok (relayedRequest "http://[::1]/timeout") := hrequest ▸ outgoing_timeout
  have hexecute := Backend.execute_of_outgoing hsent fun _ => .failed
  have hsays : SaysTimeout (relayedRequest "http://[::1]/timeout").url := by
    change SaysTimeout "http://[::1]/timeout"
    decide
  have hanswers := answers_of_failed_execute build_relayed rfl rfl (relay_undisturbed _ _) hcall
    (ending_onNetwork _ _ _ _) hexecute
  rw [if_pos ((saysTimeout_sending_iff _).2 hsays)] at hanswers
  exact ⟨⟨call, hcall, hsent⟩, hanswers⟩

end Endpoint

end Gateway
