import PoolLb.FramingFold
import PoolLb.Scenario

/-!
# The framing code follows the fold

`Framed` ties a session in the hands of a handler to a state of the fold, and
every move keeps the tie.  Between two reactions it says that the session is
where the fold over everything read so far is, and that what was ever queued for
the pool, the PROXY header apart, is what the fold has passed on.
-/

namespace PoolLb

open Event

variable {json : Glaze} {c c' : Config} {st : FramingState}

/-- The header that was put before the lines, once there is one. -/
def Session.headerSent (s : Session) : Bytes :=
  if s.stage = .relay then s.backend.elim [] s.headerFor else []

/-- Before the relay no header was sent. -/
theorem Session.headerSent_of_not_relay {s : Session} (h : s.stage ≠ .relay) :
    s.headerSent = [] := if_neg h

/-- The handler is not on its way out, unless it has refused a whole chunk. -/
def Phase.Live (phase : Phase) : Prop := ∀ e, phase = .closing e → e = .trafficLimit

/-- No chunk is being cut into lines. -/
def Phase.Whole (phase : Phase) : Prop :=
  phase = .idle ∨ phase = .reading ∨ phase = .closing .trafficLimit

/-- Where no chunk is being cut, the handler is not on its way out. -/
theorem Phase.Whole.live {phase : Phase} (h : phase.Whole) : phase.Live := by
  rcases h with rfl | rfl | rfl <;> simp [Phase.Live]

/-- The reasons of the framing code to end a session. -/
def Exit.Framing (e : Exit) : Prop := e = .oversizedLine ∨ e = .refusedLine ∨ e = .oversizedTail

/-- The tie between a session and the fold. -/
structure Framed (json : Glaze) (c : Config) (st : FramingState) : Prop where
  account : c.session.headerSent ++ st.emitted = gather asWroteUpstream c.outside.log ++
    (c.session.toUpstream.bytes ++ c.session.lineBuffer.take c.consumed)
  fold : ∀ more, framing json c.session.runtime (gather asFramed c.outside.log ++ more) =
    framingFrom json c.session.runtime st (c.session.lineBuffer.drop c.consumed ++ more)
  unsent : c.session.stage ≠ .relay → gather asWroteUpstream c.outside.log = []
  marked : c.phase.Whole → c.consumed = 0
  marked_le : c.consumed ≤ c.session.lineBuffer.length
  live : c.phase.Live → st.closed = false ∧ st.protocol = c.session.protocolState ∧
    st.errors = c.session.consecutiveProtocolErrors
  received : st.protocol.receivedMessage = true ↔ st.emitted ≠ []
  dead : ∀ e, c.phase = .closing e → e.Framing → st.closed = true
  tail : c.phase.Whole → kNewline ∉ c.session.lineBuffer ∧
    c.session.lineBuffer.length ≤ c.session.limits.maxLineBytes

/-! ## One line -/

/-- The bytes behind the mark, cut at the newline. -/
theorem Config.line_split {newline : Nat} (h : c.LineAt newline) :
    c.session.lineBuffer.drop c.consumed =
        c.line newline ++ kNewline :: c.session.lineBuffer.drop (newline + 1) ∧
      kNewline ∉ c.line newline ∧ (c.line newline).length ≤ c.session.runtime.limits.maxLineBytes := by
  obtain ⟨hsplit, hnot⟩ := findNewline_some h.1
  refine ⟨hsplit, hnot, ?_⟩
  unfold Config.line
  rw [List.length_take]
  exact (Nat.min_le_left _ _).trans h.2

/-- The bytes up to and with the newline. -/
theorem take_newline {buffer : Bytes} {start newline : Nat}
    (h : findNewline buffer start = some newline) :
    buffer.take (newline + 1) =
      buffer.take start ++ ((buffer.drop start).take (newline - start) ++ [kNewline]) := by
  obtain ⟨hsplit, _⟩ := findNewline_some h
  obtain ⟨hle, hlt⟩ := findNewline_lt h
  have hwhole : buffer = (buffer.take start ++
      ((buffer.drop start).take (newline - start) ++ [kNewline])) ++
        buffer.drop (newline + 1) := by
    rw [List.append_assoc, List.append_assoc, List.singleton_append, ← hsplit,
      List.take_append_drop]
  have hlength : (buffer.take start ++
      ((buffer.drop start).take (newline - start) ++ [kNewline])).length = newline + 1 := by
    simp only [List.length_append, List.length_take, List.length_drop, List.length_singleton]
    omega
  nth_rewrite 1 [hwhole]
  exact List.take_left' hlength

/-- The fold over what is behind the mark begins with the line. -/
theorem Framed.next_line {newline : Nat} (h : Framed json c st) (hline : c.LineAt newline)
    (more : Bytes) :
    framing json c.session.runtime (gather asFramed c.outside.log ++ more) =
      framingFrom json c.session.runtime (st.next json c.session.runtime (c.line newline))
        (c.session.lineBuffer.drop (newline + 1) ++ more) := by
  obtain ⟨hsplit, hnot, _⟩ := Config.line_split hline
  rw [h.fold, hsplit, List.append_assoc, List.cons_append, framingFrom_line hnot]

/-- What the fold does with an accepted line. -/
theorem Framed.next_accepted {newline : Nat} {method : RequestMethod} (h : Framed json c st)
    (hlive : c.phase.Live) (hline : c.LineAt newline)
    (hok : c.verdict json newline = .ok method) :
    st.next json c.session.runtime (c.line newline) =
      { st with
        protocol := Validator.recordRequest c.session.protocolState method
        errors := 0
        emitted := st.emitted ++ (c.line newline ++ [kNewline]) } := by
  obtain ⟨hopen, hstate, _⟩ := h.live hlive
  obtain ⟨_, _, hshort⟩ := Config.line_split hline
  unfold Config.verdict at hok
  unfold FramingState.next
  rw [hopen, if_neg Bool.false_ne_true, if_neg (Nat.not_lt.mpr hshort), hstate, hok]

/-- What the fold does with a refused line. -/
theorem Framed.next_refused {newline : Nat} {error : ValidationError} (h : Framed json c st)
    (hlive : c.phase.Live) (hline : c.LineAt newline)
    (hbad : c.verdict json newline = .error error) :
    st.next json c.session.runtime (c.line newline) =
      if c.session.protocolState.receivedMessage = false ∨
          kMaximumConsecutiveProtocolErrors < c.session.consecutiveProtocolErrors + 1 then
        { st with closed := true }
      else { st with errors := c.session.consecutiveProtocolErrors + 1 } := by
  obtain ⟨hopen, hstate, herrors⟩ := h.live hlive
  obtain ⟨_, _, hshort⟩ := Config.line_split hline
  have hsilent : c.session.protocolState.receivedMessage = false ↔ st.emitted = [] := by
    rw [← hstate, ← Bool.not_eq_true, h.received, not_ne_iff]
  unfold Config.verdict at hbad
  unfold FramingState.next
  rw [hopen, if_neg Bool.false_ne_true, if_neg (Nat.not_lt.mpr hshort), hstate, hbad]
  simp only [hsilent, herrors, gt_iff_lt]

/-! ## What the moves do to the tie -/

/-- Nor is it while it cuts lines. -/
theorem Phase.live_scanning : Phase.scanning.Live := by simp [Phase.Live]

/-- A line is accepted, on the way to `phase`. -/
theorem Framed.accept {newline : Nat} {method : RequestMethod} {phase : Phase}
    (h : Framed json c st) (hscan : c.phase = .scanning) (hline : c.LineAt newline)
    (hok : c.verdict json newline = .ok method) (hphase : phase = .scanning ∨ phase = .opening) :
    Framed json
      { c with session := c.session.acceptLine method, consumed := newline + 1, phase := phase }
      (st.next json c.session.runtime (c.line newline)) := by
  have hlive : c.phase.Live := hscan ▸ Phase.live_scanning
  have hnext := h.next_accepted hlive hline hok
  obtain ⟨hopen, _, _⟩ := h.live hlive
  obtain ⟨_, hlt⟩ := findNewline_lt hline.1
  refine ⟨?_, fun more => h.next_line hline more, h.unsent, ?_, hlt, ?_, ?_, ?_, ?_⟩
  · have htake := take_newline hline.1
    rw [hnext]
    show c.session.headerSent ++ (st.emitted ++ _) =
      gather asWroteUpstream c.outside.log ++
        (c.session.toUpstream.bytes ++ c.session.lineBuffer.take (newline + 1))
    rw [htake, ← List.append_assoc, h.account]
    simp only [Config.line, List.append_assoc]
  · rcases hphase with rfl | rfl <;> simp [Phase.Whole]
  · rw [hnext]
    exact fun _ => ⟨hopen, rfl, rfl⟩
  · rw [hnext]
    simp
  · rcases hphase with rfl | rfl <;> simp
  · rcases hphase with rfl | rfl <;> simp [Phase.Whole]

/-- A line is refused and cut out. -/
theorem Framed.refuse {newline : Nat} {error : ValidationError} (h : Framed json c st)
    (hscan : c.phase = .scanning) (hmark : c.consumed = 0) (hline : c.LineAt newline)
    (hbad : c.verdict json newline = .error error)
    (hlater : c.session.protocolState.receivedMessage = true)
    (hfew : c.session.consecutiveProtocolErrors + 1 ≤ kMaximumConsecutiveProtocolErrors) :
    Framed json (c.refused newline) (st.next json c.session.runtime (c.line newline)) := by
  have hlive : c.phase.Live := hscan ▸ Phase.live_scanning
  have hnext := h.next_refused hlive hline hbad
  obtain ⟨hopen, hstate, _⟩ := h.live hlive
  rw [if_neg (by simp [hlater]; omega)] at hnext
  refine ⟨?_, ?_, h.unsent, fun _ => hmark, ?_, ?_, ?_, ?_, ?_⟩
  · have haccount := h.account
    rw [hmark, List.take_zero] at haccount
    rw [hnext]
    show c.session.headerSent ++ st.emitted = gather asWroteUpstream c.outside.log ++
      (c.session.toUpstream.bytes ++ List.take c.consumed _)
    rw [hmark, List.take_zero]
    exact haccount
  · intro more
    show _ = framingFrom json c.session.runtime _
      ((c.session.lineBuffer.drop (newline + 1)).drop c.consumed ++ more)
    rw [hmark, List.drop_zero]
    exact h.next_line hline more
  · show c.consumed ≤ _
    omega
  · rw [hnext]
    exact fun _ => ⟨hopen, hstate, rfl⟩
  · rw [hnext]
    exact h.received
  · intro e he
    exact absurd (hscan.symm.trans he) (by simp)
  · intro hrest
    have hphase : (c.refused newline).phase = .scanning := hscan
    simp [Phase.Whole, hphase] at hrest

/-- An event that moves no bytes between the client and the pool. -/
theorem Framed.noted {event : Event} (h : Framed json c st)
    (hevent : asFramed event = none ∧ asWroteUpstream event = none) :
    Framed json (c.noted event) st := by
  obtain ⟨hframed, hwrote⟩ := hevent
  have hgather : gather asFramed (event :: c.outside.log) = gather asFramed c.outside.log ∧
      gather asWroteUpstream (event :: c.outside.log) =
        gather asWroteUpstream c.outside.log := by
    simp only [gather, hframed, hwrote, and_self]
  refine ⟨?_, ?_, ?_, h.marked, h.marked_le, h.live, h.received, h.dead, h.tail⟩
  · show _ = gather asWroteUpstream (event :: c.outside.log) ++ _
    rw [hgather.2]
    exact h.account
  · intro more
    show framing json c.session.runtime (gather asFramed (event :: c.outside.log) ++ more) = _
    rw [hgather.1]
    exact h.fold more
  · show _ → gather asWroteUpstream (event :: c.outside.log) = []
    rw [hgather.2]
    exact h.unsent

/-- The fold is over: nothing that may follow changes it. -/
theorem Framed.close {e : Exit} {errors : Nat} {event : Event} (h : Framed json c st)
    (hclosed : ∀ more, framing json c.session.runtime (gather asFramed c.outside.log ++ more) =
      { st with closed := true })
    (he : e.Framing) (hevent : asFramed event = none ∧ asWroteUpstream event = none) :
    Framed json
      { c with
        session := { c.session with consecutiveProtocolErrors := errors }
        outside := c.outside.note event
        phase := .closing e } { st with closed := true } := by
  have hnoted := h.noted hevent
  have hstop : ¬ (Phase.closing e).Live ∧ ¬ (Phase.closing e).Whole := by
    rcases he with rfl | rfl | rfl <;> simp [Phase.Live, Phase.Whole]
  refine ⟨hnoted.account, ?_, hnoted.unsent, fun hwhole => absurd hwhole hstop.2, h.marked_le,
    fun hlive => absurd hlive hstop.1, h.received, fun _ _ _ => rfl,
    fun hwhole => absurd hwhole hstop.2⟩
  intro more
  have hframed : gather asFramed (event :: c.outside.log) = gather asFramed c.outside.log := by
    simp only [gather, hevent.1]
  show framing json c.session.runtime (gather asFramed (event :: c.outside.log) ++ more) = _
  rw [hframed, hclosed, framingFrom_closed rfl]

/-- A commit moves the accepted lines to the queue. -/
theorem Framed.commit (h : Framed json c st) :
    Framed json { c with session := c.session.commit c.consumed, consumed := 0 } st := by
  refine ⟨?_, ?_, h.unsent, fun _ => rfl, Nat.zero_le _, h.live, h.received, h.dead, ?_⟩
  · show c.session.headerSent ++ st.emitted = gather asWroteUpstream c.outside.log ++
      ((c.session.toUpstream.append _).bytes ++ List.take 0 _)
    rw [PendingBuffer.bytes_append, List.take_zero, List.append_nil]
    exact h.account
  · intro more
    show _ = framingFrom json c.session.runtime st
      ((c.session.lineBuffer.drop c.consumed).drop 0 ++ more)
    rw [List.drop_zero]
    exact h.fold more
  · intro hwhole
    have hmark := h.marked hwhole
    show kNewline ∉ c.session.lineBuffer.drop c.consumed ∧
      (c.session.lineBuffer.drop c.consumed).length ≤ _
    rw [hmark, List.drop_zero]
    exact h.tail hwhole

/-- More bytes of the client. -/
theorem Framed.receive (h : Framed json c st) (chunk : Chunk) (hphase : c.phase = .reading) :
    Framed json { c with
      session := { c.session with lineBuffer := c.session.lineBuffer ++ chunk.bytes }
      outside := (c.outside.hold chunk.bytes.length).note (.framed chunk.bytes)
      phase := .scanning
      clientFresh := false
      unframed := [] } st := by
  have hwhole : c.phase.Whole := .inr (.inl hphase)
  have hmark := h.marked hwhole
  refine ⟨?_, ?_, h.unsent, by simp [Phase.Whole], ?_, fun _ => h.live hwhole.live, h.received,
    by simp, by simp [Phase.Whole]⟩
  · have haccount := h.account
    rw [hmark, List.take_zero] at haccount
    show c.session.headerSent ++ st.emitted = gather asWroteUpstream c.outside.log ++
      (c.session.toUpstream.bytes ++ List.take c.consumed _)
    rw [hmark, List.take_zero]
    exact haccount
  · intro more
    have hfold := h.fold (chunk.bytes ++ more)
    rw [hmark, List.drop_zero] at hfold
    show framing json c.session.runtime
      ((gather asFramed c.outside.log ++ chunk.bytes) ++ more) =
        framingFrom json c.session.runtime st
          ((c.session.lineBuffer ++ chunk.bytes).drop c.consumed ++ more)
    rw [hmark, List.drop_zero, List.append_assoc, List.append_assoc]
    exact hfold
  · show c.consumed ≤ _
    omega

/-- Bytes go to the pool. -/
theorem Framed.push {socket count : Nat} (h : Framed json c st)
    (hstage : c.session.stage = .relay) :
    Framed json (c.next { c.session with toUpstream := c.session.toUpstream.consume count }
      ((c.outside.note (.wroteUpstream socket (c.session.toUpstream.bytes.take count))).unhold
        count)) st := by
  refine ⟨?_, h.fold, fun hnot => absurd hstage hnot, h.marked, h.marked_le, h.live, h.received,
    h.dead, h.tail⟩
  show c.session.headerSent ++ st.emitted =
    (gather asWroteUpstream c.outside.log ++ c.session.toUpstream.bytes.take count) ++
      ((c.session.toUpstream.consume count).bytes ++ _)
  rw [PendingBuffer.bytes_consume, List.append_assoc,
    ← List.append_assoc (c.session.toUpstream.bytes.take count), List.take_append_drop]
  exact h.account

/-- The header goes before the lines. -/
theorem Framed.finish {socket : Nat} {backend : Backend} (h : Framed json c st)
    (hstage : c.session.stage = .upstreamConnect)
    (hbackend : c.session.backend = some backend) :
    Framed json { c with
      session := c.session.relayed backend
      outside :=
        { ((c.outside.hold (c.session.headerFor backend).length).schedule c.session.id
            (c.session.timeoutGeneration + 1)
            (c.session.relayed backend).timeoutDeadline).note
              (.relayed backend.ref (some socket)) with
          entered := (backend.ref, c.session.id) :: c.outside.entered }
      } st := by
  have hnot : c.session.stage ≠ .relay := by
    rw [hstage]
    decide
  have hheader : (c.session.relayed backend).headerSent = c.session.headerFor backend := by
    show (if SessionStage.relay = .relay then c.session.backend.elim [] _ else []) = _
    rw [if_pos rfl, hbackend]
    rfl
  refine ⟨?_, h.fold, fun hnot => absurd rfl hnot, h.marked, h.marked_le, h.live, h.received,
    h.dead, h.tail⟩
  have haccount := h.account
  rw [Session.headerSent_of_not_relay hnot, h.unsent hnot, List.nil_append,
    List.nil_append] at haccount
  show (c.session.relayed backend).headerSent ++ st.emitted =
    gather asWroteUpstream c.outside.log ++
      ((c.session.toUpstream.prepend _).bytes ++ c.session.lineBuffer.take c.consumed)
  rw [hheader, h.unsent hnot, List.nil_append, PendingBuffer.bytes_prepend, List.append_assoc,
    haccount]

/-- A move to another phase of a live handler. -/
theorem Framed.phase {phase : Phase} (h : Framed json c st) (hlive : c.phase.Live)
    (hphase : ∀ e, phase = .closing e → ¬ e.Framing)
    (hrest : phase.Whole → c.consumed = 0 ∧ kNewline ∉ c.session.lineBuffer ∧
      c.session.lineBuffer.length ≤ c.session.limits.maxLineBytes) :
    Framed json { c with phase := phase } st :=
  ⟨h.account, h.fold, h.unsent, fun hp => (hrest hp).1, h.marked_le, fun _ => h.live hlive,
    h.received, fun e he hf => absurd hf (hphase e he), fun hp => (hrest hp).2⟩

/-- The handler gives up for a reason that is not the framing's. -/
theorem Framed.leave {e : Exit} {errors : Nat} {event : Event} (h : Framed json c st)
    (he : ¬ e.Framing ∧ e ≠ .trafficLimit)
    (hevent : asFramed event = none ∧ asWroteUpstream event = none) :
    Framed json
      { c with
        session := { c.session with consecutiveProtocolErrors := errors }
        outside := c.outside.note event
        phase := .closing e } st := by
  have hnoted := h.noted hevent
  have hwhole : ¬ (Phase.closing e).Whole := by
    simp [Phase.Whole, he.2]
  refine ⟨hnoted.account, hnoted.fold, hnoted.unsent, fun hp => absurd hp hwhole, h.marked_le, ?_,
    h.received, ?_, fun hp => absurd hp hwhole⟩
  · exact fun hlive => absurd (hlive e rfl) he.2
  · intro e' he' hframing
    cases he'
    exact absurd hframing he.1

/-- A session that is not a relay changes its stage or backend, short of
becoming one. -/
theorem Framed.restage {s : Session} {phase : Phase} {outside : Outside} (h : Framed json c st)
    (hnot : c.session.stage ≠ .relay)
    (hs : s = { c.session with
      stage := s.stage, backend := s.backend, tlsOperation := s.tlsOperation
      deadline := s.deadline, timeoutGeneration := s.timeoutGeneration
      upstreamOverallDeadline := s.upstreamOverallDeadline
      nextBackendAddress := s.nextBackendAddress
      backendAddressesRemaining := s.backendAddressesRemaining
      connectCandidatesRemaining := s.connectCandidatesRemaining
      currentAddressSourcesRemaining := s.currentAddressSourcesRemaining })
    (hstage : s.stage ≠ .relay)
    (hlog : gather asFramed outside.log = gather asFramed c.outside.log ∧
      gather asWroteUpstream outside.log = gather asWroteUpstream c.outside.log)
    (hphase : phase = c.phase ∨ c.phase.Live ∧ (phase = .routed ∨ phase = .scanning)) :
    Framed json { c with session := s, outside := outside, phase := phase } st := by
  have hheader : s.headerSent = c.session.headerSent := by
    rw [Session.headerSent_of_not_relay hstage, Session.headerSent_of_not_relay hnot]
  have hrest : phase.Whole → c.phase.Whole := by
    rcases hphase with rfl | ⟨_, rfl | rfl⟩ <;> simp [Phase.Whole]
  have hlive : phase.Live → c.phase.Live := by
    rcases hphase with rfl | ⟨hlive, _⟩
    · exact id
    · exact fun _ => hlive
  refine ⟨?_, ?_, ?_, fun hp => h.marked (hrest hp), ?_, fun hp => ?_, h.received, ?_, ?_⟩
  · show s.headerSent ++ _ = gather asWroteUpstream outside.log ++ _
    rw [hheader, hlog.2, hs]
    exact h.account
  · intro more
    show framing json s.runtime (gather asFramed outside.log ++ more) = _
    rw [hlog.1, hs]
    exact h.fold more
  · intro _
    show gather asWroteUpstream outside.log = []
    rw [hlog.2]
    exact h.unsent hnot
  · rw [hs]
    exact h.marked_le
  · rw [hs]
    exact h.live (hlive hp)
  · intro e he
    rcases hphase with rfl | ⟨_, rfl | rfl⟩
    · exact h.dead e he
    · simp at he
    · simp at he
  · intro hp
    rw [hs]
    exact h.tail (hrest hp)

/-- A read begins, ends or is refused. -/
theorem Framed.turn {phase : Phase} (h : Framed json c st) (hold : c.phase.Whole)
    (hnew : phase.Whole) : Framed json { c with phase := phase } st := by
  refine h.phase hold.live (fun e he => ?_) fun _ => ⟨h.marked hold, h.tail hold⟩
  have hexit := hnew.live e he
  subst hexit
  simp [Exit.Framing]

/-- A refused line ends the session, or the queue was full already. -/
theorem Framed.strike {newline errors : Nat} {error : ValidationError} {exit : Exit}
    (h : Framed json c st) (hscan : c.phase = .scanning) (hline : c.LineAt newline)
    (hbad : c.verdict json newline = .error error)
    (hexit : (exit = .refusedLine ∧ (c.session.protocolState.receivedMessage = false ∨
      kMaximumConsecutiveProtocolErrors < c.session.consecutiveProtocolErrors + 1)) ∨
        (exit = .queueLimit ∧ c.limits.maxBufferBytes < c.session.toUpstream.size + c.consumed)) :
    ∃ st', Framed json { c with
      session := { c.session with consecutiveProtocolErrors := errors }
      outside := c.outside.note (.protocolError .refusedLine)
      phase := .closing exit } st' := by
  rcases hexit with ⟨rfl, hover⟩ | ⟨rfl, _⟩
  · have hnext := h.next_refused (hscan ▸ Phase.live_scanning) hline hbad
    rw [if_pos hover] at hnext
    refine ⟨_, h.close (fun more => ?_) (by simp [Exit.Framing]) ⟨rfl, rfl⟩⟩
    rw [h.next_line hline, hnext, framingFrom_closed rfl]
  · exact ⟨st, h.leave (by simp [Exit.Framing]) ⟨rfl, rfl⟩⟩

/-- A line that is too long ends the session. -/
theorem Framed.oversize {newline : Nat} (h : Framed json c st) (hscan : c.phase = .scanning)
    (hfind : findNewline c.session.lineBuffer c.consumed = some newline)
    (hlong : c.limits.maxLineBytes < newline - c.consumed) :
    Framed json { c with
      outside := c.outside.note (.protocolError .oversizedLine)
      phase := .closing .oversizedLine } { st with closed := true } := by
  obtain ⟨hopen, _, _⟩ := h.live (hscan ▸ Phase.live_scanning)
  obtain ⟨hsplit, hnot⟩ := findNewline_some hfind
  obtain ⟨_, hlt⟩ := findNewline_lt hfind
  refine h.close (fun more => ?_) (by simp [Exit.Framing]) ⟨rfl, rfl⟩
  have hnext : st.next json c.session.runtime
      ((c.session.lineBuffer.drop c.consumed).take (newline - c.consumed)) =
        { st with closed := true } := by
    unfold FramingState.next
    rw [hopen, if_neg Bool.false_ne_true, if_pos]
    rw [List.length_take, List.length_drop]
    unfold Config.limits Session.limits at hlong
    omega
  rw [h.fold, hsplit, List.append_assoc, List.cons_append, framingFrom_line hnot, hnext,
    framingFrom_closed rfl]

/-- So does an unterminated line that is too long. -/
theorem Framed.oversizedTail (h : Framed json c st) (hscan : c.phase = .scanning)
    (hmark : c.consumed = 0) (hnone : findNewline c.session.lineBuffer 0 = none)
    (hlong : c.limits.maxLineBytes < c.session.lineBuffer.length) :
    Framed json { c with
      outside := c.outside.note (.protocolError .oversizedTail)
      phase := .closing .oversizedTail } { st with closed := true } := by
  obtain ⟨hopen, _, _⟩ := h.live (hscan ▸ Phase.live_scanning)
  have hnot := findNewline_none hnone
  rw [List.drop_zero] at hnot
  refine h.close (fun more => ?_) (by simp [Exit.Framing]) ⟨rfl, rfl⟩
  rw [h.fold, hmark, List.drop_zero]
  exact framingFrom_longTail hnot hlong hopen more

/-- The accepted lines do not fit the queue. -/
theorem Framed.overflow {exit : Exit} (h : Framed json c st)
    (hphase : c.phase = .scanning ∧ exit = .queueLimit ∨ c.phase = .closing exit) :
    Framed json { c with
      outside := c.outside.note (.protocolError .commitRefused)
      phase := .closing exit } st := by
  rcases hphase with ⟨_, rfl⟩ | hphase
  · exact h.leave (by simp [Exit.Framing]) ⟨rfl, rfl⟩
  · have hnoted : Framed json (c.noted (.protocolError .commitRefused)) st := h.noted ⟨rfl, rfl⟩
    rw [← hphase]
    exact hnoted

/-- The chunk has been cut into lines. -/
theorem Framed.endScan (h : Framed json c st) (hscan : c.phase = .scanning) (hmark : c.consumed = 0)
    (hnone : findNewline c.session.lineBuffer 0 = none)
    (hshort : c.session.lineBuffer.length ≤ c.limits.maxLineBytes) :
    Framed json { c with phase := .idle } st := by
  have hnot := findNewline_none hnone
  rw [List.drop_zero] at hnot
  exact h.phase (hscan ▸ Phase.live_scanning) (by simp) fun _ => ⟨hmark, hnot, hshort⟩

/-- There is no backend, or none that can be reached. -/
theorem Framed.giveUp {exit : Exit} (h : Framed json c st)
    (hphase : c.phase = .routed ∨ c.phase = .scanning)
    (hexit : exit = .noBackend ∨ exit = .connectFailed ∨ exit = .queueBudget) :
    Framed json { c with phase := .closing exit } st := by
  have hlive : c.phase.Live := by
    rcases hphase with hphase | hphase <;> simp [Phase.Live, hphase]
  have hexit' : ¬ exit.Framing ∧ ¬ (Phase.closing exit).Whole := by
    rcases hexit with rfl | rfl | rfl <;> simp [Exit.Framing, Phase.Whole]
  refine h.phase hlive (fun e he => ?_) fun hwhole => absurd hwhole hexit'.2
  cases he
  exact hexit'.1

/-- A backend is chosen, and connecting begins. -/
theorem Framed.opening {s : Session} {phase : Phase} {outside : Outside} {others : Nat}
    (h : Framed json c st) (hsane : c.Sane others) (hphase : c.phase = .opening ∨ c.phase = .routed)
    (hs : s = { c.session with
      stage := s.stage, backend := s.backend, tlsOperation := s.tlsOperation
      deadline := s.deadline, timeoutGeneration := s.timeoutGeneration
      upstreamOverallDeadline := s.upstreamOverallDeadline
      nextBackendAddress := s.nextBackendAddress
      backendAddressesRemaining := s.backendAddressesRemaining
      connectCandidatesRemaining := s.connectCandidatesRemaining
      currentAddressSourcesRemaining := s.currentAddressSourcesRemaining })
    (hstage : c.session.stage ≠ .relay → s.stage ≠ .relay)
    (hlog : gather asFramed outside.log = gather asFramed c.outside.log ∧
      gather asWroteUpstream outside.log = gather asWroteUpstream c.outside.log)
    (hnew : phase = .routed ∨ phase = .scanning) :
    Framed json { c with session := s, outside := outside, phase := phase } st := by
  have hnot : c.session.stage ≠ .relay :=
    fun hrelay => (hsane.opening_unbacked hphase).1 (.inr hrelay)
  have hlive : c.phase.Live := by
    rcases hphase with hphase | hphase <;> simp [Phase.Live, hphase]
  exact h.restage hnot hs (hstage hnot) hlog (.inr ⟨hlive, hnew⟩)

/-- The TLS handshake is done. -/
theorem Framed.greet (h : Framed json c st) (hstage : c.session.stage = .tlsHandshake) :
    Framed json (c.next (c.session.greeted c.outside.clock)
      (c.outside.schedule c.session.id (c.session.timeoutGeneration + 1)
        (c.session.greeted c.outside.clock).deadline)) st := by
  have hnot : c.session.stage ≠ .relay := by
    rw [hstage]
    decide
  have hstage' : (c.session.greeted c.outside.clock).stage ≠ .relay := SessionStage.noConfusion
  exact h.restage hnot rfl hstage' ⟨rfl, rfl⟩ (.inl rfl)

/-- **Every move keeps the tie between the session and the fold.** -/
theorem Move.framed {others : Nat} (hmove : Move json c c') (hsane : c.Sane others)
    (h : Framed json c st) : ∃ st', Framed json c' st' := by
  cases hmove with
  | inert s hs =>
      rw [hs]
      exact ⟨st, h.account, h.fold, h.unsent, h.marked, h.marked_le, h.live, h.received, h.dead,
        h.tail⟩
  | note event hevent => exact ⟨st, h.noted (by rcases hevent with rfl | rfl <;> exact ⟨rfl, rfl⟩)⟩
  | startRead hphase => exact ⟨st, h.turn (.inl hphase) (.inr (.inl rfl))⟩
  | endRead hphase => exact ⟨st, h.turn (.inr (.inl hphase)) (.inl rfl)⟩
  | receive chunk hphase => exact ⟨st, h.receive chunk hphase⟩
  | refuseTraffic hphase =>
      have hnoted : Framed json (c.noted .overTraffic) st := h.noted ⟨rfl, rfl⟩
      exact ⟨st, hnoted.turn (.inr (.inl hphase)) (.inr (.inr rfl))⟩
  | acceptLine newline method hphase hline hok =>
      have haccept := h.accept hphase hline hok (.inl hphase)
      exact ⟨_, haccept⟩
  | acceptInitial newline method hphase hline hok =>
      exact ⟨_, h.accept hphase hline hok (.inr rfl)⟩
  | refuseLine newline error hphase hmark hline hbad hlater hfew =>
      exact ⟨_, h.refuse hphase hmark hline hbad hlater hfew⟩
  | strike newline error errors exit hphase hline hbad hexit =>
      exact h.strike hphase hline hbad hexit
  | oversize newline hphase hfind hlong => exact ⟨_, h.oversize hphase hfind hlong⟩
  | commit hpos hphase hfits => exact ⟨st, h.commit⟩
  | overflow exit hpos hphase hfull => exact ⟨st, h.overflow hphase⟩
  | endScan hphase hmark hnone hshort => exact ⟨st, h.endScan hphase hmark hnone hshort⟩
  | oversizedTail hphase hmark hnone hlong => exact ⟨_, h.oversizedTail hphase hmark hnone hlong⟩
  | overfull hphase hmark hfull => exact ⟨st, h.leave (by simp [Exit.Framing]) ⟨rfl, rfl⟩⟩
  | route backend hphase =>
      exact ⟨st, h.opening hsane (.inl hphase) rfl id ⟨rfl, rfl⟩ (.inl rfl)⟩
  | openConnect selection hphase hbackend =>
      exact ⟨st, h.opening hsane (.inr hphase) rfl (fun _ => SessionStage.noConfusion) ⟨rfl, rfl⟩
        (.inr rfl)⟩
  | giveUp exit hphase hstage hexit => exact ⟨st, h.giveUp hphase hexit⟩
  | finish socket backend _ hstage _ hbackend => exact ⟨st, h.finish hstage hbackend⟩
  | push socket count hstage => exact ⟨st, h.push hstage⟩
  | poolLost bytes hphase => exact ⟨st, h.leave (by simp [Exit.Framing]) ⟨rfl, rfl⟩⟩
  | greet hstage => exact ⟨st, h.greet hstage⟩
  | _ =>
      exact ⟨st, h.account, h.fold, h.unsent, h.marked, h.marked_le, h.live, h.received, h.dead,
        h.tail⟩

/-- A new session is tied to the fold over nothing. -/
theorem framed_fresh {s : Session} {w : Outside} (hs : s.Fresh) (hlog : w.log = []) :
    Framed json (.start s w) {} := by
  have hblank := hs.blank
  have hnot : s.stage ≠ .relay := fun hrelay => hblank.not_backed (.inr hrelay)
  have hprotocol := hblank.protocolState
  refine ⟨?_, ?_, ?_, fun _ => rfl, Nat.zero_le _, fun _ => ?_, ?_, ?_, fun _ => ?_⟩
  · show s.headerSent ++ [] = gather asWroteUpstream w.log ++ (s.toUpstream.bytes ++ List.take 0 _)
    rw [hlog, Session.headerSent_of_not_relay hnot, hblank.toUpstream]
    rfl
  · intro more
    show framing json s.runtime (gather asFramed w.log ++ more) =
      framingFrom json s.runtime {} (s.lineBuffer ++ more)
    rw [hlog, hblank.lineBuffer]
    rfl
  · intro _
    show gather asWroteUpstream w.log = []
    rw [hlog]
    rfl
  · exact ⟨rfl, hprotocol.symm, hblank.errors.symm⟩
  · simp
  · intro e he
    exact Phase.noConfusion he
  · show kNewline ∉ s.lineBuffer ∧ s.lineBuffer.length ≤ _
    rw [hblank.lineBuffer]
    simp

/-- **The tie holds throughout the life of a session.** -/
theorem framed_lawful (json : Glaze) : Lawful json fun c => ∃ st, Framed json c st where
  fresh _ _ hs hlog := ⟨{}, framed_fresh hs hlog⟩
  move others c c' hmove hsane h := by
    obtain ⟨st, h⟩ := h
    exact hmove.framed hsane h
  restart c hresting _ h := by
    obtain ⟨st, h⟩ := h
    have hwhole : c.phase.Whole := .inl hresting.resting.1
    have hmark := hresting.resting.2
    refine ⟨st, ?_, ?_, h.unsent, fun _ => rfl, Nat.zero_le _, fun _ => h.live hwhole.live,
      h.received, ?_, fun _ => h.tail hwhole⟩
    · have haccount := h.account
      rw [hmark] at haccount
      exact haccount
    · have hfold := h.fold
      rw [hmark] at hfold
      exact hfold
    · intro e he
      exact Phase.noConfusion he
  meanwhile s w w' hlog _ h := by
    obtain ⟨st, h⟩ := h
    refine ⟨st, ?_, ?_, ?_, h.marked, h.marked_le, h.live, h.received, h.dead, h.tail⟩
    · show _ = gather asWroteUpstream w'.log ++ _
      rw [hlog]
      exact h.account
    · intro more
      show framing json s.runtime (gather asFramed w'.log ++ more) = _
      rw [hlog]
      exact h.fold more
    · show _ → gather asWroteUpstream w'.log = []
      rw [hlog]
      exact h.unsent

/-! ## The framing claim -/

/-- At rest the fold over everything read is where the session is. -/
theorem Framed.at_rest (h : Framed json c st) (hphase : c.phase.Whole) :
    framing json c.session.runtime (gather asFramed c.outside.log) = st := by
  have hfold := h.fold []
  obtain ⟨hnot, hshort⟩ := h.tail hphase
  rw [h.marked hphase, List.drop_zero, List.append_nil, List.append_nil] at hfold
  rw [hfold]
  exact framingFrom_tail hnot hshort

/-- What was ever queued for the pool is the header and what the fold has passed
on. -/
theorem Framed.queued (h : Framed json c st) (hmark : c.consumed = 0) :
    c.session.headerSent ++ st.emitted =
      gather asWroteUpstream c.outside.log ++ c.session.toUpstream.bytes := by
  have haccount := h.account
  rw [hmark, List.take_zero, List.append_nil] at haccount
  exact haccount

/-- The exits that the buffer limit, the shared budget and connecting account
for. -/
def Exit.Excused (e : Exit) : Prop :=
  e = .queueLimit ∨ e = .queueBudget ∨ e = .noBackend ∨ e = .connectFailed

/-- A handler on its way out has one of these reasons. -/
theorem closing_lawful (json : Glaze) :
    Lawful json fun c => ∀ e, c.phase = .closing e →
      e.Framing ∨ e.Excused ∨ e = .trafficLimit where
  fresh _ _ _ _ e he := Phase.noConfusion he
  move others c c' hmove _ h := by
    intro e he
    cases hmove with
    | strike newline error errors exit _ _ _ hexit =>
        cases he
        rcases hexit with ⟨rfl, _⟩ | ⟨rfl, _⟩
        · exact .inl (.inr (.inl rfl))
        · exact .inr (.inl (.inl rfl))
    | refuseTraffic =>
        cases he
        exact .inr (.inr rfl)
    | oversize =>
        cases he
        exact .inl (.inl rfl)
    | overflow exit _ hphase =>
        cases he
        rcases hphase with ⟨_, rfl⟩ | hphase
        · exact .inr (.inl (.inl rfl))
        · exact h e hphase
    | oversizedTail =>
        cases he
        exact .inl (.inr (.inr rfl))
    | overfull =>
        cases he
        exact .inr (.inl (.inl rfl))
    | giveUp exit _ _ hexit =>
        cases he
        rcases hexit with rfl | rfl | rfl
        · exact .inr (.inl (.inr (.inr (.inl rfl))))
        · exact .inr (.inl (.inr (.inr (.inr rfl))))
        · exact .inr (.inl (.inr (.inl rfl)))
    | poolLost =>
        cases he
        exact .inr (.inl (.inr (.inl rfl)))
    | startRead | endRead | receive | acceptInitial | endScan | route | openConnect => cases he
    | _ => exact h e he
  restart _ _ _ _ e he := Phase.noConfusion he
  meanwhile _ _ _ _ _ _ e he := Phase.noConfusion he

/-! ## The bytes that were read -/

/-- What was read has entered the line buffer, or it is the chunk in hand. -/
structure Ingested (c : Config) : Prop where
  heard : gather asHeard c.outside.log = gather asFramed c.outside.log ++ c.unframed
  latest : c.unframed ≠ [] → c.outside.log.findSome? asHeard = some c.unframed

/-- Every move keeps it so: a chunk is read with nothing in hand, and enters the buffer whole. -/
theorem Move.ingested (hmove : Move json c c') (h : Ingested c) : Ingested c' := by
  cases hmove with
  | note event hevent => rcases hevent with rfl | rfl <;> exact ⟨h.heard, h.latest⟩
  | hear chunk _ hnothing =>
      refine ⟨?_, fun _ => rfl⟩
      have hheard := h.heard
      rw [hnothing, List.append_nil] at hheard
      show gather asHeard c.outside.log ++ chunk.bytes = gather asFramed c.outside.log ++ chunk.bytes
      rw [hheard]
  | receive chunk _ _ hchunk =>
      refine ⟨?_, fun hbytes => absurd rfl hbytes⟩
      have hheard := h.heard
      rw [hchunk] at hheard
      show gather asHeard c.outside.log = gather asFramed c.outside.log ++ chunk.bytes ++ []
      rw [hheard, List.append_nil]
  | _ => exact ⟨h.heard, h.latest⟩

/-- **Nothing that is read is lost**, throughout the life of a session. -/
theorem ingested_lawful (json : Glaze) : Lawful json Ingested where
  fresh s w _ hlog := by
    refine ⟨?_, fun hbytes => absurd rfl hbytes⟩
    show gather asHeard w.log = gather asFramed w.log ++ []
    rw [hlog]
    rfl
  move _ _ _ hmove _ h := hmove.ingested h
  restart c _ hnothing h := by
    refine ⟨?_, fun hbytes => absurd rfl hbytes⟩
    have hheard := h.heard
    rw [hnothing] at hheard
    exact hheard
  meanwhile s w w' hlog _ h := by
    refine ⟨?_, fun hbytes => absurd rfl hbytes⟩
    have hheard : gather asHeard w.log = gather asFramed w.log ++ [] := h.heard
    show gather asHeard w'.log = gather asFramed w'.log ++ []
    rw [hlog]
    exact hheard

/-- Between two reactions everything that was read is in the line buffer, or was. -/
theorem Reached.heard_eq {s : Session} {w : Outside} (h : Reached json s w) :
    gather asHeard w.log = gather asFramed w.log := by
  have hheard : gather asHeard w.log = gather asFramed w.log ++ [] :=
    ((ingested_lawful json).reached h).heard
  rw [hheard, List.append_nil]

/-- The exits that refuse a chunk. -/
def Exit.Refuses (e : Exit) : Prop := e = .trafficLimit ∨ e = .queueBudget

/-- Where a reaction ends a session, all that was read has entered the line buffer but for the
last chunk, which the traffic limit or the byte budget has refused. -/
theorem Stopped.heard_eq {e : Exit} {s : Session} {w : Outside} (h : Stopped json e s w) :
    ∃ refused, gather asHeard w.log = gather asFramed w.log ++ refused ∧
      (refused = [] ∨ e.Refuses ∧ w.log.findSome? asHeard = some refused) := by
  obtain ⟨c, rfl, rfl, ⟨_, hreported⟩, hingested, _, hsane⟩ := (ingested_lawful json).stopped h
  refine ⟨c.unframed, hingested.heard, ?_⟩
  by_cases hbytes : c.unframed = []
  · exact .inl hbytes
  · refine .inr ⟨?_, hingested.latest hbytes⟩
    rcases hreported.phase with hphase | ⟨_, hnothing | rfl⟩ | hphase
    · exact absurd (hsane.nothing_unframed hphase) hbytes
    · exact absurd hnothing hbytes
    · exact .inr rfl
    · have hreads := hsane.unframed_reads hbytes
      rw [hphase] at hreads
      simp only [reduceCtorEq, false_or, Phase.closing.injEq] at hreads
      exact .inl hreads

/-- **Framing is a fold over lines.**  Whatever the chunks and whatever happens
between them, the framing code does to a session what the fold over the bytes
read from the client says.  While the session lives the fold is open, in the session's
protocol state and with its run of refused lines, and what was ever queued for
the pool is the accepted lines in order, behind the header if there is one.
Where the framing code ends the session the fold is closed, whatever might still
have come, and the lines accepted before are queued.  A session that ends for
another reason than framing, a limit or a failed connect leaves the fold open,
over all that was read but a last chunk that the traffic limit has refused.  In
no case is anything that was read kept from the framing code, but for the last
chunk where the traffic limit or the byte budget has refused it. -/
theorem framing_follows_fold (json : Glaze) :
    (∀ s w, Reached json s w →
      let st := framing json s.runtime (gather asHeard w.log)
      st.closed = false ∧ st.protocol = s.protocolState ∧
        st.errors = s.consecutiveProtocolErrors ∧
        s.headerSent ++ st.emitted = gather asWroteUpstream w.log ++ s.toUpstream.bytes) ∧
    (∀ e s w, Stopped json e s w → e.Framing →
      Event.protocolError .commitRefused ∉ w.log → ∀ more,
      let st := framing json s.runtime (gather asHeard w.log ++ more)
      st.closed = true ∧
        s.headerSent ++ st.emitted = gather asWroteUpstream w.log ++ s.toUpstream.bytes) ∧
    (∀ e s w, Stopped json e s w → ¬ e.Framing → ¬ e.Excused → ∃ taken refused,
      gather asHeard w.log = taken ++ refused ∧
        (refused = [] ∨ e = .trafficLimit ∧ w.log.findSome? asHeard = some refused) ∧
        (framing json s.runtime taken).closed = false ∧
        s.headerSent ++ (framing json s.runtime taken).emitted =
          gather asWroteUpstream w.log ++ s.toUpstream.bytes) ∧
    (∀ e s w, Stopped json e s w → ∃ refused,
      gather asHeard w.log = gather asFramed w.log ++ refused ∧
        (refused = [] ∨ e.Refuses ∧ w.log.findSome? asHeard = some refused)) := by
  refine ⟨?_, ?_, ?_, fun _ _ _ => Stopped.heard_eq⟩
  · intro s w hreached
    obtain ⟨st, h⟩ := (framed_lawful json).reached hreached
    have hrest : framing json s.runtime (gather asFramed w.log) = st := h.at_rest (.inl rfl)
    obtain ⟨hopen, hprotocol, herrors⟩ := h.live (Phase.Whole.live (.inl rfl))
    dsimp only
    rw [hreached.heard_eq, hrest]
    exact ⟨hopen, hprotocol, herrors, h.queued rfl⟩
  · intro e s w hstopped hframing hcommitted more
    have hheard : gather asHeard w.log = gather asFramed w.log := by
      obtain ⟨refused, hheard, rfl | ⟨hrefuses, _⟩⟩ := hstopped.heard_eq
      · rw [hheard, List.append_nil]
      · rcases hframing with rfl | rfl | rfl <;> simp [Exit.Refuses] at hrefuses
    obtain ⟨c, rfl, rfl, ⟨_, hreported⟩, ⟨st, h⟩, _⟩ := (framed_lawful json).stopped hstopped
    have hphase : c.phase = .closing e := by
      rcases hframing with rfl | rfl | rfl
      · exact hreported.cause (by simp [Exit.FromPool])
      · exact hreported.cause (by simp [Exit.FromPool])
      · exact hreported.cause (by simp [Exit.FromPool])
    have hclosed := h.dead e hphase hframing
    have hmark : c.consumed = 0 := hreported.settled.resolve_right hcommitted
    dsimp only
    rw [hheard, h.fold, framingFrom_closed hclosed]
    exact ⟨hclosed, h.queued hmark⟩
  · intro e s w hstopped hframing hexcused
    obtain ⟨refused, hheard, hrefused⟩ := hstopped.heard_eq
    obtain ⟨c, rfl, rfl, ⟨_, hreported⟩, ⟨⟨st, h⟩, hknown⟩, _⟩ :=
      ((framed_lawful json).and (closing_lawful json)).stopped hstopped
    have hwhole : c.phase.Whole := by
      rcases hreported.phase with hphase | ⟨hphase, _⟩ | hphase
      · exact .inl hphase
      · exact .inr (.inl hphase)
      · rcases hknown e hphase with hknown | hknown | rfl
        · exact absurd hknown hframing
        · exact absurd hknown hexcused
        · exact .inr (.inr hphase)
    refine ⟨gather asFramed c.outside.log, refused, hheard, hrefused.imp_right fun hlast => ?_, ?_⟩
    · refine ⟨hlast.1.resolve_right fun hbudget => hexcused ?_, hlast.2⟩
      exact .inr (.inl hbudget)
    · rw [h.at_rest hwhole]
      exact ⟨(h.live hwhole.live).1, h.queued (h.marked hwhole)⟩

/-- A miner whose first request arrives in two pieces, with a refused line
behind it. -/
def twoPieces : Scenario where
  client := Scenario.sends
    [⟨(requestText "mining.subscribe").take 10, by decide +kernel, by decide +kernel⟩,
     ⟨(requestText "mining.subscribe").drop 10 ++ [kNewline, 120, kNewline],
      by decide +kernel, by decide +kernel⟩]
  connect := some ⟨9, true⟩

/-- A miner whose first line is refused. -/
def badOpening : Scenario where
  client := Scenario.sends [⟨[120, kNewline], by decide, by decide⟩]

/-- A miner that may send one message at a time, and sends two after its first. -/
def hasty : Scenario where
  client := Scenario.sends
    [subscribeChunk, ⟨[120, kNewline, 120, kNewline], by decide, by decide⟩]
  connect := some ⟨9, true⟩

/-- One message at a time. -/
def onePerEvent : RuntimeSnapshot := { onePool false with limits := { maxMessagesPerReadyEvent := 1 } }

/-- The parts of the claim at work: a line in two pieces with a refused
one behind it, a refused first line, a client that is gone at once, and a chunk that the
traffic limit refuses. -/
theorem framing_follows_fold_subscriber :
    (∃ s w, Reached subscribeJson s w ∧
      gather asHeard w.log = requestText "mining.subscribe" ++ [kNewline, 120, kNewline] ∧
      (framing subscribeJson s.runtime (gather asHeard w.log)).closed = false ∧
      (framing subscribeJson s.runtime (gather asHeard w.log)).errors =
        s.consecutiveProtocolErrors ∧ s.consecutiveProtocolErrors = 1) ∧
    (∃ s w, Stopped subscribeJson .refusedLine s w ∧ gather asHeard w.log = [120, kNewline] ∧
      ∀ more, (framing subscribeJson s.runtime (gather asHeard w.log ++ more)).closed = true) ∧
    (∃ s w, Stopped subscribeJson .clientGone s w ∧ ∃ taken refused,
      gather asHeard w.log = taken ++ refused ∧
        (framing subscribeJson s.runtime taken).closed = false) ∧
    (∃ s w, Stopped subscribeJson .trafficLimit s w ∧
      gather asHeard w.log =
        requestText "mining.subscribe" ++ [kNewline, 120, kNewline, 120, kNewline] ∧
      ∃ refused, gather asHeard w.log = gather asFramed w.log ++ refused ∧
        gather asFramed w.log = requestText "mining.subscribe" ++ [kNewline]) := by
  have hstart : Reached subscribeJson (plainMiner (onePool false)) {} := plainMiner_reached _
  have hlives : Reached subscribeJson _ _ :=
    twoPieces.react_reached (.client { readable := true }) hstart (by decide +kernel)
  have hrefused : Stopped subscribeJson .refusedLine _ _ :=
    badOpening.react_stopped (.client { readable := true }) hstart (by decide +kernel)
  have hgone : Stopped subscribeJson .clientGone _ _ :=
    Scenario.react_stopped {} (.client { error := true }) hstart (by decide +kernel)
  have hlimited : Stopped subscribeJson .trafficLimit _ _ :=
    hasty.react_stopped (.client { readable := true }) (plainMiner_reached onePerEvent)
      (by decide +kernel)
  obtain ⟨hreached, hframing, hother, hall⟩ := framing_follows_fold subscribeJson
  obtain ⟨hopen, _, herrors, _⟩ := hreached _ _ hlives
  obtain ⟨taken, refused, htaken, _, hopen', _⟩ :=
    hother _ _ _ hgone (by simp [Exit.Framing]) (by simp [Exit.Excused])
  obtain ⟨last, hlast, _⟩ := hall _ _ _ hlimited
  refine ⟨⟨_, _, hlives, by decide +kernel, hopen, herrors, by decide +kernel⟩,
    ⟨_, _, hrefused, by decide +kernel, fun more => ?_⟩, ⟨_, _, hgone, taken, refused, htaken, hopen'⟩,
    ⟨_, _, hlimited, by decide +kernel, last, hlast, by decide +kernel⟩⟩
  exact (hframing _ _ _ hrefused (.inr (.inl rfl)) (by decide +kernel) more).1

end PoolLb
