import PoolLb.FramingRun

/-!
# One header, one socket, in order

However many attempts it takes to connect a session, bytes go to one socket only,
the one on which `finish_upstream_connect` has succeeded, and they are the header
followed by the accepted lines.  The order of the bytes is that of the queue, and
so of `Framed`; the socket is read off the log.
-/

namespace PoolLb

open Event

variable {json : Glaze} {c c' : Config}

/-- `finish_upstream_connect` has succeeded. -/
def Event.relays : Event → Bool
  | .relayed _ _ => true
  | _ => false

/-- The socket of the latest attempt, if `finish_upstream_connect` has succeeded
on it. -/
def established : List Event → Option Nat
  | [] => none
  | .opened _ :: _ => none
  | .relayed _ socket :: _ => socket
  | _ :: log => established log

/-- The events that have to do with upstream sockets. -/
def Event.links : Event → Bool
  | .opened _ | .relayed _ _ | .wroteUpstream _ _ => true
  | _ => false

/-- How the log stands to the stage and the upstream socket of a session. -/
structure Linked (log : List Event) (stage : SessionStage) (upstream : Option Nat) : Prop where
  current : ∀ socket, stage = .relay → upstream = some socket → established log = some socket
  fresh : stage ≠ .relay → log.countP relays = 0 ∧ ∀ socket bytes, .wroteUpstream socket bytes ∉ log
  once : log.countP relays ≤ 1
  written : ∀ socket bytes older, .wroteUpstream socket bytes :: older <:+ log →
    established older = some socket
  settled : ∀ socket bytes, .wroteUpstream socket bytes ∈ log → established log = some socket

section Linked

variable {log : List Event} {stage stage' : SessionStage} {upstream upstream' : Option Nat}

/-- An event that is not about a link may be left out. -/
theorem established_skip {event : Event} (hevent : event.links = false) (log : List Event) :
    established (event :: log) = established log := by
  cases event with
  | opened | relayed | wroteUpstream => simp [links] at hevent
  | _ => rfl

/-- An event that has nothing to do with upstream sockets. -/
theorem Linked.skip {event : Event} (h : Linked log stage upstream)
    (hevent : event.links = false) : Linked (event :: log) stage upstream := by
  have hestablished := established_skip hevent log
  have hwrote {socket : Nat} {bytes : Bytes} : Event.wroteUpstream socket bytes ≠ event := by
    intro heq
    rw [← heq] at hevent
    simp [links] at hevent
  have hcount : (event :: log).countP relays = log.countP relays := by
    refine List.countP_cons_of_neg ?_
    cases event with
    | relayed => simp [links] at hevent
    | _ => simp [relays]
  refine ⟨?_, fun hstage => ⟨?_, ?_⟩, ?_, ?_, ?_⟩
  · rw [hestablished]
    exact h.current
  · rw [hcount]
    exact (h.fresh hstage).1
  · intro socket bytes hmem
    exact (h.fresh hstage).2 socket bytes ((List.mem_cons.mp hmem).resolve_left hwrote)
  · rw [hcount]
    exact h.once
  · intro socket bytes older hsuffix
    rcases List.suffix_cons_iff.mp hsuffix with heq | hsuffix
    · exact absurd (List.cons.inj heq).1 hwrote
    · exact h.written socket bytes older hsuffix
  · intro socket bytes hmem
    rw [hestablished]
    exact h.settled socket bytes ((List.mem_cons.mp hmem).resolve_left hwrote)

/-- A session that is no relay changes its stage or its socket, short of becoming
one. -/
theorem Linked.restage (h : Linked log stage upstream) (hstage : stage ≠ .relay)
    (hstage' : stage' ≠ .relay) : Linked log stage' upstream' :=
  ⟨fun _ hrelay => absurd hrelay hstage', fun _ => h.fresh hstage, h.once, h.written, h.settled⟩

/-- The socket is closed. -/
theorem Linked.drop (h : Linked log stage upstream) : Linked log stage none :=
  ⟨fun _ _ hsome => absurd hsome.symm (Option.some_ne_none _), h.fresh, h.once, h.written,
    h.settled⟩

/-- An attempt begins with a socket of its own. -/
theorem Linked.open {socket : Nat} (h : Linked log stage upstream) (hstage : stage ≠ .relay) :
    Linked (.opened socket :: log) stage upstream := by
  obtain ⟨hcount, hnone⟩ := h.fresh hstage
  have hnone' (socket' : Nat) (bytes : Bytes) :
      Event.wroteUpstream socket' bytes ∉ .opened socket :: log :=
    fun hmem => hnone socket' bytes ((List.mem_cons.mp hmem).resolve_left Event.noConfusion)
  have hcount' : (Event.opened socket :: log).countP relays = 0 := by
    rw [List.countP_cons_of_neg (by simp [relays])]
    exact hcount
  refine ⟨fun _ hrelay => absurd hrelay hstage, fun _ => ⟨hcount', hnone'⟩, by omega, ?_, ?_⟩
  · intro socket' bytes older hsuffix
    exact absurd (hsuffix.subset List.mem_cons_self) (hnone' socket' bytes)
  · intro socket' bytes hmem
    exact absurd hmem (hnone' socket' bytes)

/-- `finish_upstream_connect` succeeds on the socket. -/
theorem Linked.finish {backend socket : Nat} (h : Linked log stage upstream)
    (hstage : stage ≠ .relay) (hsocket : upstream = some socket) :
    Linked (.relayed backend (some socket) :: log) .relay upstream := by
  obtain ⟨hcount, hnone⟩ := h.fresh hstage
  have hnone' (socket' : Nat) (bytes : Bytes) :
      Event.wroteUpstream socket' bytes ∉ .relayed backend (some socket) :: log :=
    fun hmem => hnone socket' bytes ((List.mem_cons.mp hmem).resolve_left Event.noConfusion)
  refine ⟨fun _ _ hsome => hsocket.symm.trans hsome, fun hnot => absurd rfl hnot, ?_, ?_, ?_⟩
  · rw [List.countP_cons_of_pos rfl, hcount]
  · intro socket' bytes older hsuffix
    exact absurd (hsuffix.subset List.mem_cons_self) (hnone' socket' bytes)
  · intro socket' bytes hmem
    exact absurd hmem (hnone' socket' bytes)

/-- Bytes are written to the socket of a relay. -/
theorem Linked.write {socket : Nat} {bytes : Bytes} (h : Linked log stage upstream)
    (hstage : stage = .relay) (hsocket : upstream = some socket) :
    Linked (.wroteUpstream socket bytes :: log) stage upstream := by
  have hcurrent := h.current socket hstage hsocket
  refine ⟨h.current, fun hnot => absurd hstage hnot, ?_, ?_, ?_⟩
  · rw [List.countP_cons_of_neg (by simp [relays])]
    exact h.once
  · intro socket' bytes' older hsuffix
    rcases List.suffix_cons_iff.mp hsuffix with heq | hsuffix
    · obtain ⟨hevent, rfl⟩ := List.cons.inj heq
      cases hevent
      exact hcurrent
    · exact h.written socket' bytes' older hsuffix
  · intro socket' bytes' hmem
    rcases List.mem_cons.mp hmem with heq | hmem
    · cases heq
      exact hcurrent
    · exact h.settled socket' bytes' hmem

end Linked

/-- The links in the log follow the socket and the stage. -/
theorem Move.linked {others : Nat} (hmove : Move json c c') (hsane : c.Sane others)
    (h : Linked c.outside.log c.session.stage c.session.upstream) :
    Linked c'.outside.log c'.session.stage c'.session.upstream := by
  have hnot (hstage : c.session.stage = .upstreamConnect) : c.session.stage ≠ .relay := by
    rw [hstage]
    decide
  cases hmove with
  | inert s hs =>
      rw [hs]
      exact h
  | note event hevent =>
      rcases hevent with rfl | rfl
      · exact h.skip rfl
      · exact h.skip rfl
  | hear | receive | refuseTraffic | refuseLine | strike | oversize | overflow | oversizedTail
  | overfull | attempt | poolBytes | poolLost | wrote => exact h.skip rfl
  | route => exact (h.skip rfl).skip rfl
  | openConnect selection hphase =>
      have hunbacked := (hsane.opening_unbacked (.inr hphase)).1
      exact h.restage (fun hrelay => hunbacked (.inr hrelay)) SessionStage.noConfusion
  | greet hstage =>
      exact h.restage (by rw [hstage]; decide) SessionStage.noConfusion
  | openSocket socket hstage => exact h.open (hnot hstage)
  | adopt socket hstage => exact h.restage (hnot hstage) (hnot hstage)
  | finish socket backend _ hstage hsocket => exact h.finish (hnot hstage) hsocket
  | dropUpstream => exact h.drop
  | push socket count hstage hsocket => exact h.write hstage hsocket
  | _ => exact h

theorem linked_lawful (json : Glaze) :
    Lawful json fun c => Linked c.outside.log c.session.stage c.session.upstream where
  fresh s w hs hlog := by
    show Linked w.log s.stage s.upstream
    have hnot : s.stage ≠ .relay := fun hrelay => hs.blank.not_backed (.inr hrelay)
    rw [hlog]
    refine ⟨fun _ hrelay => absurd hrelay hnot, fun _ => ⟨rfl, by simp⟩, by simp, ?_, by simp⟩
    intro socket bytes older hsuffix
    exact absurd (List.suffix_nil.mp hsuffix) (List.cons_ne_nil _ _)
  move _ _ _ hmove hsane h := hmove.linked hsane h
  restart _ _ _ h := h
  meanwhile s w w' hlog _ h := by
    show Linked w'.log s.stage s.upstream
    rw [hlog]
    exact h

/-- What was written is a beginning of the header and what the fold passes on. -/
theorem Framed.written_prefix {st : FramingState} (h : Framed json c st) :
    gather asWroteUpstream c.outside.log <+: c.session.backend.elim [] c.session.headerFor ++
      (framing json c.session.runtime (gather asFramed c.outside.log)).emitted := by
  by_cases hrelay : c.session.stage = .relay
  · have hheader : c.session.headerSent = c.session.backend.elim [] c.session.headerFor :=
      if_pos hrelay
    have hfold := h.fold []
    rw [List.append_nil] at hfold
    have hqueued : gather asWroteUpstream c.outside.log <+: c.session.headerSent ++ st.emitted := by
      rw [h.account]
      exact List.prefix_append _ _
    rw [← hheader, hfold]
    exact hqueued.trans ((List.prefix_append_right_inj _).mpr (framingFrom_emitted _ _))
  · rw [h.unsent hrelay]
    exact List.nil_prefix

/-- **One header, one socket, in order.**  In the log of a session, however it
was connected: bytes are written to an upstream socket only while it is the
latest that was opened and `finish_upstream_connect` has succeeded on it; it
succeeds at most once; all writes go to one socket; and what was written is a
beginning of the header, if the backend wants one, followed by the lines that
were accepted, in order. -/
theorem one_header_one_socket (json : Glaze) (s : Session) (w : Outside) (h : Lived json s w) :
    (∀ socket bytes older, .wroteUpstream socket bytes :: older <:+ w.log →
      established older = some socket) ∧
    w.log.countP Event.relays ≤ 1 ∧
    (∀ socket bytes socket' bytes', .wroteUpstream socket bytes ∈ w.log →
      .wroteUpstream socket' bytes' ∈ w.log → socket = socket') ∧
    gather asWroteUpstream w.log <+: s.backend.elim [] s.headerFor ++
      (framing json s.runtime (gather asFramed w.log)).emitted := by
  obtain ⟨c, rfl, rfl, hlinked, st, hframed⟩ :=
    ((linked_lawful json).and (framed_lawful json)).lived h
  refine ⟨hlinked.written, hlinked.once, ?_, hframed.written_prefix⟩
  intro socket bytes socket' bytes' hmem hmem'
  have hsocket := hlinked.settled socket bytes hmem
  exact Option.some.inj (hsocket.symm.trans (hlinked.settled socket' bytes' hmem'))

/-- A miner behind a backend that wants the header, whose connect takes a while. -/
def slowConnect : Scenario where
  client := Scenario.sends [subscribeChunk]
  connect := some ⟨9, false⟩

def headedMiner : Session := plainMiner (onePool true) (makeProxyV2Header .other .other)

/-- The miner has sent its line, and the connect is under way. -/
def slowConnecting : (Except Exit Unit × Session) × Outside :=
  slowConnect.react subscribeJson (.client { readable := true }) headedMiner {}

/-- The socket is connected. -/
def slowConnected : (Except Exit Unit × Session) × Outside :=
  slowConnect.react subscribeJson (.upstream { writable := true }) slowConnecting.1.2
    slowConnecting.2

/-- The header and the line that was waiting go to the socket, in this order. -/
theorem one_header_one_socket_slow :
    ∃ s w, Reached subscribeJson s w ∧ w.log.countP Event.relays ≤ 1 ∧
      gather asWroteUpstream w.log =
        s.proxyHeader.view ++ (requestText "mining.subscribe" ++ [kNewline]) ∧
      gather asWroteUpstream w.log <+: s.backend.elim [] s.headerFor ++
        (framing subscribeJson s.runtime (gather asFramed w.log)).emitted := by
  have hwaits : Reached subscribeJson slowConnecting.1.2 slowConnecting.2 := by
    unfold slowConnecting
    exact slowConnect.react_reached _ (plainMiner_reached _ _) (by decide +kernel)
  have hconnected : Reached subscribeJson slowConnected.1.2 slowConnected.2 := by
    unfold slowConnected
    exact slowConnect.react_reached _ hwaits (by decide +kernel)
  obtain ⟨_, honce, _, hwritten⟩ := one_header_one_socket subscribeJson _ _ (.inl hconnected)
  exact ⟨_, _, hconnected, honce, by decide +kernel, hwritten⟩

end PoolLb
