import PoolLb.FramingRun
import PoolLb.Scenario

/-!
# Flow control

A read may start while its queue is below the pause mark, and the mark leaves
room for one line and one chunk below the limit of the queue.  That is why the
branches for an overfull queue are never taken, but for one thing: the PROXY
header comes on top of the mark, and no room is left for it.

`UpFlow` follows the queue for the pool through a handler, with the header in the
account; `DownFlow` follows the queue for the client.
-/

namespace PoolLb

open Event

variable {json : Glaze} {c c' : Config} {mark room : Nat}

/-- The events of an overfull queue for the pool. -/
def Event.overflows : Event → Bool
  | .protocolError .commitRefused | .protocolError .overfullQueue => true
  | _ => false

/-- One line and one chunk. -/
def LimitsConfig.headroom (limits : LimitsConfig) : Nat := limits.maxLineBytes + kIoChunkBytes

/-- The pause mark leaves room for a line and a chunk. -/
theorem queuePauseBytes_headroom {limits : LimitsConfig} (h : limits.Accepted)
    (hbuffer : limits.headroom < limits.maxBufferBytes) :
    queuePauseBytes limits + limits.headroom ≤ limits.maxBufferBytes := by
  have hword : limits.headroom % kWordSize = limits.headroom :=
    Nat.mod_eq_of_lt (hbuffer.trans h.sizes.2)
  unfold queuePauseBytes
  show (if limits.maxBufferBytes ≤ limits.headroom % kWordSize then limits.maxBufferBytes
    else min _ (limits.maxBufferBytes - limits.headroom % kWordSize)) + limits.headroom ≤ _
  rw [hword, if_neg (by omega)]
  omega

/-- The pause mark of a session, with the header on top. -/
def Config.pauseMark (c : Config) : Nat := queuePauseBytes c.limits + c.session.headerSent.length

/-- Accepted lines wait to be committed, or lines are being cut. -/
def Config.Cutting (c : Config) : Prop :=
  0 < c.consumed ∨ c.phase = .scanning ∨ c.phase = .opening ∨ c.phase = .routed

/-- An overfull queue for the pool was found. -/
def Config.Overflowed (c : Config) : Prop :=
  c.phase = .closing .queueLimit ∨ ∃ event ∈ c.outside.log, event.overflows = true

/-- How the queue for the pool stands to the mark and the room above it. -/
structure UpFlow (mark room : Nat) (c : Config) : Prop where
  total : c.session.toUpstream.size + c.session.lineBuffer.length ≤ mark + room
  reading : c.phase = .reading → c.session.toUpstream.size ≤ mark
  pending : c.session.tlsOperation = .read → c.session.toUpstream.size ≤ mark
  fresh : c.clientFresh = true → c.session.clientReadPaused = false →
    c.session.toUpstream.size ≤ mark
  cutting : c.Cutting → c.clientFresh = false ∧ c.session.tlsOperation ≠ .read

/-- How the queue for the client stands to its mark. -/
structure DownFlow (c : Config) : Prop where
  silent : c.session.stage ≠ .relay → c.session.toClient.size = 0
  fresh : c.upstreamFresh = true → c.session.upstream.isSome = true →
    c.session.upstreamReadPaused = false → c.session.toClient.size ≤ queuePauseBytes c.limits
  small : c.session.toClient.size ≤ queuePauseBytes c.limits + kIoChunkBytes

/-! ## The pause flags -/

/-- A client that is not paused has a queue below the mark, if the TLS stream was
drained. -/
theorem Session.toUpstream_of_not_paused {s : Session} {reading : PressureReading}
    (hdrained : reading.tlsBufferDrained = true) (h : s.clientPaused reading = false) :
    s.toUpstream.size ≤ queuePauseBytes s.limits := by
  have hlow : s.clientQueueHigh = false := by
    unfold Session.clientPaused at h
    rw [hdrained, Bool.true_and, Bool.or_eq_false_iff] at h
    exact h.1
  have hresume := queueResumeBytes_le s.limits
  unfold Session.clientQueueHigh at hlow
  rw [decide_eq_false_iff_not, not_lt] at hlow
  split at hlow
  · exact hlow.trans hresume
  · exact hlow

/-- A pool that is not paused has a queue below the mark. -/
theorem Session.toClient_of_not_paused {s : Session} {reading : PressureReading}
    (h : s.upstreamPaused reading = false) : s.toClient.size ≤ queuePauseBytes s.limits := by
  have hlow : s.upstreamQueueHigh = false := by
    unfold Session.upstreamPaused at h
    rw [Bool.or_eq_false_iff] at h
    exact h.1
  have hresume := queueResumeBytes_le s.limits
  unfold Session.upstreamQueueHigh at hlow
  rw [decide_eq_false_iff_not, not_lt] at hlow
  split at hlow
  · exact hlow.trans hresume
  · exact hlow

/-! ## The queue for the client -/

/-- **The queue for the client**, move by move. -/
theorem Move.downFlow {others : Nat} (hmove : Move json c c') (hsane : c.Sane others)
    (h : DownFlow c) : DownFlow c' := by
  cases hmove with
  | inert s hs =>
      rw [hs]
      exact ⟨h.silent, h.fresh, h.small⟩
  | openConnect selection hphase =>
      have hunbacked := (hsane.opening_unbacked (.inr hphase)).1
      exact ⟨fun _ => h.silent fun hrelay => hunbacked (.inr hrelay), h.fresh, h.small⟩
  | adopt socket hstage =>
      have hempty := h.silent (by rw [hstage]; decide)
      refine ⟨h.silent, fun _ _ _ => ?_, h.small⟩
      show c.session.toClient.size ≤ _
      omega
  | finish => exact ⟨fun hnot => absurd rfl hnot, h.fresh, h.small⟩
  | greet hstage => exact ⟨fun _ => h.silent (by rw [hstage]; decide), h.fresh, h.small⟩
  | dropUpstream => exact ⟨h.silent, fun _ hsome => absurd hsome Bool.false_ne_true, h.small⟩
  | poolBytes socket chunk hphase hstage hsocket hmay =>
      have hlow : c.session.toClient.size ≤ queuePauseBytes c.limits := by
        rcases hmay with ⟨hfresh, hpaused⟩ | hlow
        · exact h.fresh hfresh (Option.isSome_of_eq_some hsocket) hpaused
        · exact hlow
      have hchunk := chunk.length_le
      refine ⟨fun hnot => absurd hstage hnot, fun hfresh => absurd hfresh Bool.false_ne_true, ?_⟩
      show (c.session.toClient.append chunk.bytes).size ≤ queuePauseBytes c.limits + kIoChunkBytes
      rw [PendingBuffer.size_append]
      omega
  | wrote count hcount =>
      have hsize : (c.session.toClient.consume count).size ≤ c.session.toClient.size := by
        rw [PendingBuffer.size_consume]
        omega
      refine ⟨fun hnot => ?_, fun hfresh hsome hpaused => ?_, hsize.trans h.small⟩
      · exact Nat.le_zero.mp (hsize.trans (h.silent hnot).le)
      · exact hsize.trans (h.fresh hfresh hsome hpaused)
  | keepPause | changeStall | changeRelayStall =>
      exact ⟨h.silent, fun _ _ hpaused => c.session.toClient_of_not_paused hpaused, h.small⟩
  | _ => exact ⟨h.silent, h.fresh, h.small⟩

/-! ## The queue for the pool -/

/-- The mark with the header is no lower. -/
theorem Config.queuePauseBytes_le_mark (c : Config) : queuePauseBytes c.limits ≤ c.pauseMark :=
  Nat.le_add_right _ _

/-- Outside the loop over lines nothing waits to be committed. -/
theorem Config.not_cutting (hmark : c.consumed = 0) (hscanning : c.phase ≠ .scanning)
    (hopening : c.phase ≠ .opening) (hrouted : c.phase ≠ .routed) : ¬ c.Cutting := by
  unfold Config.Cutting
  simp [hmark, hscanning, hopening, hrouted]

/-- Between events, and where a handler stops, nothing is cut any more. -/
theorem Config.not_cutting_at_rest (hmark : c.consumed = 0)
    (hphase : c.phase = .idle ∨ ∃ exit, c.phase = .closing exit) : ¬ c.Cutting := by
  rcases hphase with hidle | ⟨exit, hclosing⟩
  · exact Config.not_cutting hmark (by simp [hidle]) (by simp [hidle]) (by simp [hidle])
  · exact Config.not_cutting hmark (by simp [hclosing]) (by simp [hclosing]) (by simp [hclosing])

/-- A session that is no relay has the bare mark. -/
theorem Config.pauseMark_of_not_relay (h : c.session.stage ≠ .relay) :
    c.pauseMark = queuePauseBytes c.limits := by
  unfold Config.pauseMark
  rw [Session.headerSent_of_not_relay h]
  rfl

/-- The header comes on top of the mark. -/
theorem Config.pauseMark_relayed {backend : Backend} {w : Outside}
    (hstage : c.session.stage = .upstreamConnect) (hbackend : c.session.backend = some backend) :
    Config.pauseMark { c with session := c.session.relayed backend, outside := w } =
      c.pauseMark + (c.session.headerFor backend).length := by
  have hnot : c.session.stage ≠ .relay := by
    rw [hstage]
    decide
  rw [Config.pauseMark_of_not_relay hnot]
  show queuePauseBytes c.limits + List.length (if SessionStage.relay = .relay then
    c.session.backend.elim [] c.session.headerFor else []) = _
  rw [if_pos rfl, hbackend]
  rfl

/-- The header comes on top of the queue. -/
theorem UpFlow.finish {backend : Backend} {w : Outside} (h : UpFlow mark room c)
    (hphase : c.phase = .idle ∨ c.phase = .scanning) :
    UpFlow (mark + (c.session.headerFor backend).length) room
      { c with session := c.session.relayed backend, outside := w } := by
  have hsize : (c.session.relayed backend).toUpstream.size =
      c.session.toUpstream.size + (c.session.headerFor backend).length := by
    show (c.session.toUpstream.prepend _).size = _
    rw [PendingBuffer.size_prepend, Nat.add_comm]
  refine ⟨?_, fun hreading => ?_, fun hread => ?_, fun hfresh hpaused => ?_, h.cutting⟩
  · have htotal := h.total
    show (c.session.relayed backend).toUpstream.size + c.session.lineBuffer.length ≤ _
    omega
  · have hreading : c.phase = .reading := hreading
    rcases hphase with hphase | hphase <;> simp [hphase] at hreading
  · exact hsize.le.trans (Nat.add_le_add_right (h.pending hread) _)
  · exact hsize.le.trans (Nat.add_le_add_right (h.fresh hfresh hpaused) _)

/-- A commit moves lines from the buffer to the queue. -/
theorem UpFlow.commit (h : UpFlow mark room c) (hpos : 0 < c.consumed)
    (hphase : c.phase ≠ .reading) :
    UpFlow mark room { c with session := c.session.commit c.consumed, consumed := 0 } := by
  obtain ⟨hstale, hread⟩ := h.cutting (.inl hpos)
  refine ⟨?_, fun hreading => absurd hreading hphase, fun hpending => absurd hpending hread,
    fun hfresh => absurd (hstale.symm.trans hfresh) Bool.false_ne_true, fun _ => ⟨hstale, hread⟩⟩
  have htotal := h.total
  show (c.session.toUpstream.append (c.session.lineBuffer.take c.consumed)).size +
    (c.session.lineBuffer.drop c.consumed).length ≤ mark + room
  rw [PendingBuffer.size_append, List.length_take, List.length_drop]
  omega

/-- A chunk is read below the mark. -/
theorem UpFlow.receive {st : FramingState} {chunk : Chunk} {w : Outside} (h : UpFlow mark room c)
    (hroom : c.limits.headroom ≤ room) (hframed : Framed json c st) (hphase : c.phase = .reading)
    (hread : c.session.tlsOperation ≠ .read) :
    UpFlow mark room { c with
      session := { c.session with lineBuffer := c.session.lineBuffer ++ chunk.bytes }
      outside := w
      phase := .scanning
      clientFresh := false
      unframed := [] } := by
  refine ⟨?_, fun hreading => Phase.noConfusion hreading, fun hpending => absurd hpending hread,
    fun hfresh => absurd hfresh Bool.false_ne_true, fun _ => ⟨rfl, hread⟩⟩
  have hlow := h.reading hphase
  have hshort : c.session.lineBuffer.length ≤ c.limits.maxLineBytes :=
    (hframed.tail (.inr (.inl hphase))).2
  have hchunk := chunk.length_le
  unfold LimitsConfig.headroom at hroom
  show c.session.toUpstream.size + (c.session.lineBuffer ++ chunk.bytes).length ≤ mark + room
  rw [List.length_append]
  omega

/-- A queue that has become no longer. -/
theorem UpFlow.shrink {toUpstream : PendingBuffer} {lineBuffer : Bytes} {errors : Nat}
    {w : Outside} (h : UpFlow mark room c) (hqueue : toUpstream.size ≤ c.session.toUpstream.size)
    (hbuffer : lineBuffer.length ≤ c.session.lineBuffer.length) :
    UpFlow mark room (c.next { c.session with
      toUpstream := toUpstream, lineBuffer := lineBuffer
      consecutiveProtocolErrors := errors } w) := by
  refine ⟨?_, fun hreading => hqueue.trans (h.reading hreading),
    fun hpending => hqueue.trans (h.pending hpending),
    fun hfresh hpaused => hqueue.trans (h.fresh hfresh hpaused), h.cutting⟩
  have htotal := h.total
  show toUpstream.size + lineBuffer.length ≤ mark + room
  omega

/-- What the queue for the pool depends on in a session. -/
def Session.upSide (s : Session) : Nat × Nat × TlsOperation × Bool :=
  (s.toUpstream.size, s.lineBuffer.length, s.tlsOperation, s.clientReadPaused)

/-- The handler goes on to another point, and does not begin to read there. -/
theorem UpFlow.turn (h : UpFlow mark room c) (hside : c'.session.upSide = c.session.upSide)
    (hfresh : c'.clientFresh = c.clientFresh) (hphase : c'.phase ≠ .reading)
    (hcut : c'.Cutting → c.Cutting) : UpFlow mark room c' := by
  obtain ⟨hqueue, hrest⟩ := Prod.mk.inj hside
  obtain ⟨hbuffer, hrest⟩ := Prod.mk.inj hrest
  obtain ⟨htls, hpaused⟩ := Prod.mk.inj hrest
  constructor
  · rw [hqueue, hbuffer]
    exact h.total
  · exact fun hreading => absurd hreading hphase
  · rw [htls, hqueue]
    exact h.pending
  · rw [hfresh, hpaused, hqueue]
    exact h.fresh
  · rw [hfresh, htls]
    exact fun hc => h.cutting (hcut hc)

/-- The handler comes to rest with nothing left to commit. -/
theorem UpFlow.rest (h : UpFlow mark room c) (hside : c'.session.upSide = c.session.upSide)
    (hfresh : c'.clientFresh = c.clientFresh) (hmark : c'.consumed = 0)
    (hphase : c'.phase = .idle ∨ ∃ exit, c'.phase = .closing exit) : UpFlow mark room c' := by
  apply h.turn hside hfresh
  · rcases hphase with hidle | ⟨exit, hclosing⟩
    · simp [hidle]
    · simp [hclosing]
  · exact fun hcut => absurd hcut (Config.not_cutting_at_rest hmark hphase)

/-- A TLS read that has to be tried again was begun below the mark. -/
theorem UpFlow.tls {operation : TlsOperation} (h : UpFlow mark room c)
    (hguard : operation = .read → c.phase = .reading)
    (hmark : c.phase = .reading → c.consumed = 0) :
    UpFlow mark room (c.setSession { c.session with tlsOperation := operation }) := by
  refine ⟨h.total, h.reading, fun hread => h.reading (hguard hread), h.fresh,
    fun hcut => ⟨(h.cutting hcut).1, fun hread => ?_⟩⟩
  have hphase := hguard hread
  have hnot : ¬ c.Cutting := Config.not_cutting (hmark hphase) (by simp [hphase])
    (by simp [hphase]) (by simp [hphase])
  exact absurd hcut hnot

/-- A read begins below the mark. -/
theorem UpFlow.startRead (h : UpFlow mark room c) (hmark : c.consumed = 0) (hmay : c.MayRead)
    (hpause : queuePauseBytes c.limits ≤ mark) : UpFlow mark room { c with phase := .reading } := by
  have hnot := Config.not_cutting (c := { c with phase := .reading }) hmark
    Phase.noConfusion Phase.noConfusion Phase.noConfusion
  refine ⟨h.total, fun _ => ?_, h.pending, h.fresh, fun hcut => absurd hcut hnot⟩
  rcases hmay with ⟨hfresh, hpaused | hread⟩ | hlow
  · exact h.fresh hfresh hpaused
  · exact h.pending hread
  · exact hlow.trans hpause

/-- The pause flags are set anew; `s` has them and the queue of the session. -/
theorem UpFlow.refreshed {s : Session} {w : Outside} {reading : PressureReading}
    (h : UpFlow mark room c) (hside : s.upSide = (c.session.withPause reading).upSide)
    (hidle : c.phase = .idle) (hmark : c.consumed = 0) (hempty : reading.tlsBufferDrained = true)
    (hpause : queuePauseBytes c.limits ≤ mark) : UpFlow mark room (c.refreshed s w) := by
  obtain ⟨hqueue, hrest⟩ := Prod.mk.inj hside
  obtain ⟨hbuffer, hrest⟩ := Prod.mk.inj hrest
  obtain ⟨htls, hpaused⟩ := Prod.mk.inj hrest
  have hnot := Config.not_cutting_at_rest (c := c.refreshed s w) hmark (.inl hidle)
  refine ⟨?_, fun hreading => ?_, fun hread => ?_, fun _ hgoing => ?_, fun hcut => absurd hcut hnot⟩
  · show s.toUpstream.size + s.lineBuffer.length ≤ _
    rw [hqueue, hbuffer]
    exact h.total
  · have hreading : c.phase = .reading := hreading
    rw [hidle] at hreading
    exact Phase.noConfusion hreading
  · show s.toUpstream.size ≤ _
    rw [hqueue]
    exact h.pending (htls.symm.trans hread)
  · show s.toUpstream.size ≤ _
    rw [hqueue]
    exact (c.session.toUpstream_of_not_paused hempty (hpaused.symm.trans hgoing)).trans hpause

/-- No move changes the limits. -/
theorem Move.limits_eq (hmove : Move json c c') : c'.limits = c.limits :=
  congrArg RuntimeSnapshot.limits hmove.frame.1

/-- Only the end of a connect adds to the mark. -/
theorem Move.pauseMark {others : Nat} (hmove : Move json c c') (hsane : c.Sane others)
    (hsame : c'.session.stage = .relay → c.session.stage = .relay) :
    c'.pauseMark = c.pauseMark := by
  by_cases hrelay : c.session.stage = .relay
  · cases hmove with
    | inert s hs => rw [hs]; rfl
    | route backend hphase => exact absurd (.inr hrelay) (hsane.opening_unbacked (.inl hphase)).1
    | openConnect selection hphase =>
        exact absurd (.inr hrelay) (hsane.opening_unbacked (.inr hphase)).1
    | finish socket backend hphase hstage => exact absurd (hrelay.symm.trans hstage) (by decide)
    | greet hstage => exact absurd (hrelay.symm.trans hstage) (by decide)
    | _ => rfl
  · rw [Config.pauseMark_of_not_relay hrelay,
      Config.pauseMark_of_not_relay fun hrelay' => hrelay (hsame hrelay'), hmove.limits_eq]

/-- **Every move but the end of a connect** keeps the queue for the pool below the mark and the
room above it. -/
theorem Move.upFlow {st : FramingState} (hmove : Move json c c')
    (hframed : Framed json c st) (hdrained : Event.strandedPlaintext ∉ c.outside.log)
    (hsame : c'.session.stage = .relay → c.session.stage = .relay)
    (hpause : queuePauseBytes c.limits ≤ mark) (hroom : c.limits.headroom ≤ room)
    (h : UpFlow mark room c) : UpFlow mark room c' := by
  have hmark {phase : Phase} (hphase : c.phase = phase) (hwhole : phase.Whole) : c.consumed = 0 :=
    hframed.marked (hphase ▸ hwhole)
  have hidle (hphase : c.phase = .idle) : c.consumed = 0 := hmark hphase (.inl rfl)
  have hreading (hphase : c.phase = .reading) : c.consumed = 0 := hmark hphase (.inr (.inl rfl))
  cases hmove with
  | inert s hs =>
      rw [hs]
      exact ⟨h.total, h.reading, h.pending, h.fresh, h.cutting⟩
  | tls operation hguard => exact h.tls (fun hread => (hguard hread).1) hreading
  | startRead hphase hmay => exact h.startRead (hidle hphase) hmay hpause
  | endRead hphase => exact h.rest rfl rfl (hreading hphase) (.inl rfl)
  | receive chunk hphase hread => exact h.receive hroom hframed hphase hread
  | refuseTraffic hphase => exact h.rest rfl rfl (hreading hphase) (.inr ⟨_, rfl⟩)
  | acceptLine newline method hphase =>
      exact ⟨h.total, h.reading, h.pending, h.fresh, fun _ => h.cutting (.inr (.inl hphase))⟩
  | acceptInitial newline method hphase | strike newline error errors exit hphase
  | oversize newline hphase | oversizedTail hphase | overfull hphase =>
      exact h.turn rfl rfl Phase.noConfusion fun _ => .inr (.inl hphase)
  | refuseLine newline error hphase =>
      refine h.shrink le_rfl ?_
      rw [List.length_drop]
      omega
  | commit hpos hphase => exact h.commit hpos hphase
  | overflow exit hpos => exact h.turn rfl rfl Phase.noConfusion fun _ => .inl hpos
  | endScan hphase hcommitted => exact h.rest rfl rfl hcommitted (.inl rfl)
  | route backend hphase => exact h.turn rfl rfl Phase.noConfusion fun _ => .inr (.inr (.inl hphase))
  | openConnect selection hphase =>
      exact h.turn rfl rfl Phase.noConfusion fun _ => .inr (.inr (.inr hphase))
  | giveUp exit hphase =>
      refine h.turn rfl rfl Phase.noConfusion fun _ => ?_
      exact hphase.elim (fun hrouted => .inr (.inr (.inr hrouted))) fun hscan => .inr (.inl hscan)
  | finish socket backend hphase hstage =>
      exact absurd ((hsame rfl).symm.trans hstage) (by decide)
  | push socket count =>
      refine h.shrink ?_ le_rfl
      rw [PendingBuffer.size_consume]
      omega
  | poolLost bytes hphase => exact h.rest rfl rfl (hidle hphase) (.inr ⟨_, rfl⟩)
  | keepPause reading hphase hknows | changeStall reading hphase hknows
  | changeRelayStall reading hphase hknows =>
      have hempty : reading.tlsBufferDrained = true := by
        by_contra hleft
        exact hdrained (hknows (Bool.eq_false_of_not_eq_true hleft))
      exact h.refreshed rfl hphase (hidle hphase) hempty hpause
  | greet hstage =>
      exact ⟨h.total, h.reading, fun hread => TlsOperation.noConfusion hread, h.fresh,
        fun hcut => ⟨(h.cutting hcut).1, TlsOperation.noConfusion⟩⟩
  | _ => exact ⟨h.total, h.reading, h.pending, h.fresh, h.cutting⟩

/-- A session becomes a relay by the end of its connect and by nothing else. -/
theorem Move.finished (hmove : Move json c c') (hnot : c.session.stage ≠ .relay)
    (hrelay : c'.session.stage = .relay) :
    ∃ backend w, (c.phase = .idle ∨ c.phase = .scanning) ∧
      c.session.stage = .upstreamConnect ∧ c.session.backend = some backend ∧
      c' = { c with session := c.session.relayed backend, outside := w } := by
  cases hmove with
  | inert s hs =>
      rw [hs] at hrelay
      exact absurd hrelay hnot
  | finish socket backend hphase hstage _ hbackend =>
      exact ⟨backend, _, hphase, hstage, hbackend, rfl⟩
  | openConnect | greet => exact SessionStage.noConfusion hrelay
  | _ => exact absurd hrelay hnot

/-- The queue for the pool keeps to its own mark, header or not. -/
theorem Move.upFlow_mark {others : Nat} {st : FramingState} (hmove : Move json c c')
    (hsane : c.Sane others) (hframed : Framed json c st)
    (hdrained : Event.strandedPlaintext ∉ c.outside.log)
    (h : UpFlow c.pauseMark c.limits.headroom c) :
    UpFlow c'.pauseMark c'.limits.headroom c' ∧ c.pauseMark ≤ c'.pauseMark := by
  rw [hmove.limits_eq]
  by_cases hsame : c'.session.stage = .relay → c.session.stage = .relay
  · rw [hmove.pauseMark hsane hsame]
    exact ⟨hmove.upFlow hframed hdrained hsame c.queuePauseBytes_le_mark le_rfl h, le_rfl⟩
  · obtain ⟨hrelay, hnot⟩ := Classical.not_imp.mp hsame
    obtain ⟨backend, w, hphase, hstage, hbackend, rfl⟩ := hmove.finished hnot hrelay
    rw [Config.pauseMark_relayed hstage hbackend]
    exact ⟨h.finish hphase, Nat.le_add_right _ _⟩

/-! ## The branches for an overfull queue -/

/-- The log only grows. -/
theorem Move.log_suffix (hmove : Move json c c') : c.outside.log <:+ c'.outside.log := by
  cases hmove with
  | note | hear | receive | refuseTraffic | refuseLine | strike | oversize | overflow
  | oversizedTail | overfull | attempt | openSocket | finish | push | poolBytes | poolLost | wrote =>
      exact List.suffix_cons _ _
  | route => exact (List.suffix_cons _ _).trans (List.suffix_cons _ _)
  | _ => exact List.suffix_rfl

/-- An event that is not about an overfull queue may be left out. -/
theorem Event.overflows_skip {event : Event} {log : List Event} (hevent : event.overflows = false)
    (h : ∃ found ∈ event :: log, found.overflows = true) :
    ∃ found ∈ log, found.overflows = true := by
  obtain ⟨found, hmem, hfound⟩ := h
  rcases List.mem_cons.mp hmem with rfl | hmem
  · rw [hevent] at hfound
    cases hfound
  · exact ⟨found, hmem, hfound⟩

/-- Whoever finds the queue overfull has looked at its size. -/
theorem Move.overflowed (hmove : Move json c c') (h : c'.Overflowed) :
    c.Overflowed ∨ c.limits.maxBufferBytes < c.session.toUpstream.size + c.consumed := by
  cases hmove with
  | note event hevent =>
      rcases h with hphase | hlog
      · exact .inl (.inl hphase)
      · rcases hevent with rfl | rfl
        · exact .inl (.inr (overflows_skip rfl hlog))
        · exact .inl (.inr (overflows_skip rfl hlog))
  | startRead | endRead | acceptInitial | endScan | openConnect =>
      rcases h with hphase | hlog
      · exact Phase.noConfusion hphase
      · exact .inl (.inr hlog)
  | receive | refuseTraffic | oversize | oversizedTail | poolLost =>
      rcases h with hphase | hlog
      · cases hphase
      · exact .inl (.inr (overflows_skip rfl hlog))
  | route =>
      rcases h with hphase | hlog
      · exact Phase.noConfusion hphase
      · exact .inl (.inr (overflows_skip rfl (overflows_skip rfl hlog)))
  | hear | refuseLine | attempt | openSocket | finish | push | poolBytes | wrote =>
      rcases h with hphase | hlog
      · exact .inl (.inl hphase)
      · exact .inl (.inr (overflows_skip rfl hlog))
  | strike newline error errors exit _ _ _ hexit =>
      rcases hexit with ⟨hexit, _⟩ | ⟨_, hfull⟩
      · rcases h with hphase | hlog
        · rw [hexit] at hphase
          cases hphase
        · exact .inl (.inr (overflows_skip rfl hlog))
      · exact .inr hfull
  | overflow exit _ _ hfull => exact .inr hfull
  | overfull _ hcommitted hfull => exact .inr (by omega)
  | giveUp exit _ _ hexit =>
      rcases h with hphase | hlog
      · rcases hexit with rfl | rfl | rfl
        · cases hphase
        · cases hphase
        · cases hphase
      · exact .inl (.inr hlog)
  | _ => exact .inl h

/-! ## Over a whole life -/

/-- Both queues of a session and the framing of its bytes, at one point. -/
structure Flow (json : Glaze) (c : Config) : Prop where
  framed : ∃ st, Framed json c st
  up : Event.strandedPlaintext ∉ c.outside.log → UpFlow c.pauseMark c.limits.headroom c ∧
    (c.Overflowed → c.limits.maxBufferBytes < c.pauseMark + c.limits.headroom)
  down : DownFlow c

/-- Both queues and the framing together. -/
theorem Move.flow {others : Nat} (hmove : Move json c c') (hsane : c.Sane others)
    (h : Flow json c) : Flow json c' := by
  obtain ⟨st, hframed⟩ := h.framed
  refine ⟨hmove.framed hsane hframed, fun hdrained' => ?_, hmove.downFlow hsane h.down⟩
  have hdrained : Event.strandedPlaintext ∉ c.outside.log :=
    fun hmem => hdrained' (hmove.log_suffix.subset hmem)
  obtain ⟨hup, hover⟩ := h.up hdrained
  obtain ⟨hup', hmark⟩ := hmove.upFlow_mark hsane hframed hdrained hup
  refine ⟨hup', fun hover' => ?_⟩
  rw [hmove.limits_eq]
  rcases hmove.overflowed hover' with hbefore | hfull
  · exact (hover hbefore).trans_le (Nat.add_le_add_right hmark _)
  · have htotal := hup.total
    have hconsumed := hframed.marked_le
    omega

/-- A new session has empty queues. -/
theorem flow_fresh {s : Session} {w : Outside} (hs : s.Fresh) (hlog : w.log = []) :
    Flow json (.start s w) := by
  have hblank := hs.blank
  have hup : s.toUpstream.size = 0 := by
    rw [hblank.toUpstream]
    rfl
  have hdown : s.toClient.size = 0 := by
    rw [hblank.toClient]
    rfl
  have hbuffer : s.lineBuffer.length = 0 := by
    rw [hblank.lineBuffer]
    rfl
  have hzero (bound : Nat) : s.toUpstream.size ≤ bound := hup.le.trans (Nat.zero_le _)
  have hcut : ¬ (Config.start s w).Cutting := by
    simp [Config.Cutting, Config.start]
  refine ⟨⟨{}, framed_fresh hs hlog⟩, fun _ => ⟨⟨?_, fun _ => hzero _, fun _ => hzero _,
    fun _ _ => hzero _, fun h => absurd h hcut⟩, fun hover => ?_⟩, fun _ => hdown,
    fun _ _ _ => hdown.le.trans (Nat.zero_le _), hdown.le.trans (Nat.zero_le _)⟩
  · show s.toUpstream.size + s.lineBuffer.length ≤ _
    omega
  · rcases hover with hphase | ⟨event, hmem, _⟩
    · exact Phase.noConfusion hphase
    · have hmem : event ∈ w.log := hmem
      rw [hlog] at hmem
      cases hmem

/-- **So it is at every point of the life of a session.** -/
theorem flow_lawful (json : Glaze) : Lawful json (Flow json) where
  fresh _ _ hs hlog := flow_fresh hs hlog
  move _ _ _ hmove hsane h := hmove.flow hsane h
  restart c hbegin hnothing h := by
    rw [hbegin.start_eq hnothing]
    exact h
  meanwhile s w w' hlog hclock h := by
    have hframed := (framed_lawful json).meanwhile s w w' hlog hclock h.framed
    refine ⟨hframed, fun hdrained => ?_, h.down.silent, h.down.fresh, h.down.small⟩
    have hdrained : Event.strandedPlaintext ∉ w'.log := hdrained
    rw [hlog] at hdrained
    obtain ⟨hup, hover⟩ := h.up hdrained
    refine ⟨⟨hup.total, hup.reading, hup.pending, hup.fresh, hup.cutting⟩,
      fun hover' => hover ?_⟩
    rcases hover' with hphase | ⟨event, hmem, hevent⟩
    · exact .inl hphase
    · have hmem : event ∈ w'.log := hmem
      rw [hlog] at hmem
      exact .inr ⟨event, hmem, hevent⟩

/-- There is room above the mark for the header, or there is no header. -/
def Session.HeaderFits (s : Session) : Prop :=
  s.headerSent = [] ∨
    queuePauseBytes s.limits + s.headerSent.length + s.limits.headroom ≤ s.limits.maxBufferBytes

/-- Below the limit nobody finds a queue overfull. -/
theorem Flow.not_overflowed (h : Flow json c) (hlimits : c.limits.Accepted)
    (hbuffer : c.limits.headroom < c.limits.maxBufferBytes)
    (hdrained : Event.strandedPlaintext ∉ c.outside.log) (hfits : c.session.HeaderFits) :
    ¬ c.Overflowed ∧ c.session.toClient.size ≤ c.limits.maxBufferBytes := by
  have hpause := queuePauseBytes_headroom hlimits hbuffer
  constructor
  · intro hover
    have hfull := (h.up hdrained).2 hover
    have hmark : c.pauseMark = queuePauseBytes c.limits + c.session.headerSent.length := rfl
    rcases hfits with hnone | hfits
    · rw [hnone] at hmark
      simp only [List.length_nil] at hmark
      omega
    · have hfits : queuePauseBytes c.limits + c.session.headerSent.length + c.limits.headroom ≤
        c.limits.maxBufferBytes := hfits
      omega
  · have hsmall := h.down.small
    unfold LimitsConfig.headroom at hpause
    omega

/-- **Flow control pauses and never kills**, where the PROXY header fits.  Under
limits that leave room for a line and a chunk, with `SSL_pending` always zero, no
state of a session has seen a refused commit or an overfull queue for the pool,
its queue for the client is within the limit, and it is not closed for one. -/
theorem flow_control_never_kills (json : Glaze) (s : Session) (w : Outside) (h : Lived json s w)
    (hlimits : s.limits.Accepted) (hbuffer : s.limits.headroom < s.limits.maxBufferBytes)
    (hdrained : Event.strandedPlaintext ∉ w.log) (hfits : s.HeaderFits) :
    (∀ event ∈ w.log, event.overflows = false) ∧
      s.toClient.size ≤ s.limits.maxBufferBytes ∧ ¬ Stopped json .queueLimit s w := by
  obtain ⟨c, rfl, rfl, hflow⟩ := (flow_lawful json).lived h
  obtain ⟨hnot, hclient⟩ := hflow.not_overflowed hlimits hbuffer hdrained hfits
  refine ⟨fun event hmem => ?_, hclient, fun hstopped => ?_⟩
  · by_contra hevent
    exact hnot (.inr ⟨event, hmem, Bool.eq_true_of_not_eq_false hevent⟩)
  · obtain ⟨d, hs, hw, ⟨_, hreported⟩, hflow', _⟩ := (flow_lawful json).stopped hstopped
    rw [← hs] at hlimits hbuffer hfits
    rw [← hw] at hdrained
    obtain ⟨hnot', hclient'⟩ := hflow'.not_overflowed hlimits hbuffer hdrained hfits
    have hcause : d.phase = .closing .queueLimit ∨
        d.session.limits.maxBufferBytes < d.session.toClient.size :=
      hreported.cause (by simp [Exit.FromPool])
    rcases hcause with hphase | hfull
    · exact hnot' (.inl hphase)
    · exact absurd hclient' (not_le.mpr hfull)

/-- A miner behind a backend that wants the header, and connects at once. -/
def promptConnect : Scenario where
  client := Scenario.sends [subscribeChunk]
  connect := some ⟨9, true⟩

/-- Its first line has made it a relay. -/
def promptRelay : (Except Exit Unit × Session) × Outside :=
  promptConnect.react subscribeJson (.client { readable := true })
    (plainMiner (onePool true) (makeProxyV2Header .other .other)) {}

/-- The relay has sent a header of sixteen bytes. -/
theorem promptRelay_facts : promptRelay.1.1 = .ok () ∧ promptRelay.1.2.limits = {} ∧
    promptRelay.1.2.headerSent.length = 16 ∧ Event.strandedPlaintext ∉ promptRelay.2.log := by
  decide +kernel

/-- The default limits leave room for a header. -/
theorem flow_control_never_kills_headed :
    ∃ s w, Reached subscribeJson s w ∧ s.headerSent ≠ [] ∧
      (∀ event ∈ w.log, event.overflows = false) := by
  obtain ⟨hok, hlimits, hheader, hdrained⟩ := promptRelay_facts
  have hreached : Reached subscribeJson promptRelay.1.2 promptRelay.2 := by
    unfold promptRelay at hok ⊢
    exact promptConnect.react_reached _ (plainMiner_reached _ _) hok
  refine ⟨_, _, hreached, List.ne_nil_of_length_pos (by omega), ?_⟩
  refine (flow_control_never_kills subscribeJson _ _ (.inl hreached) ?_ ?_ hdrained (.inr ?_)).1
  · rw [hlimits]
    exact default_limits_accepted
  · rw [hlimits]
    decide
  · rw [hlimits, hheader]
    decide

/-- The opening of a miner with blanks inside the braces. -/
def paddedText : Bytes :=
  ascii "\x7b" ++ List.replicate 2017 32 ++ ascii "\"method\":\"mining.subscribe\"\x7d"

/-- A JSON library that knows the padded text. -/
def paddedJson : Glaze where
  readGeneric _ := none
  readEnvelope text :=
    if text = paddedText then
      some { method := some (kQuote :: (ascii "mining.subscribe" ++ [kQuote])) }
    else none
  readString _ := none
  readDouble _ := none
  readParams _ := none

/-- Limits with one byte more than a line and a chunk for a queue. -/
def tightLimits : LimitsConfig := { maxLineBytes := 2048, maxBufferBytes := 18433 }

/-- A miner that sends one long line without its newline, and then the newline and
eight more lines in one chunk. -/
def brimful : Scenario where
  client := Scenario.sends
    [⟨paddedText, by decide +kernel, by decide +kernel⟩,
     ⟨kNewline :: (List.replicate 8 (paddedText ++ [kNewline])).flatten, by decide +kernel,
       by decide +kernel⟩]
  connect := some ⟨9, true⟩

/-- The first line connects at once, and the header takes the room of the lines. -/
def brimfulRead : (Except Exit Unit × Session) × Outside :=
  brimful.react paddedJson (.client { readable := true })
    (plainMiner { onePool true with limits := tightLimits } (makeProxyV2Header .other .other)) {}

/-- The commit is refused, with every line and every chunk within its limit. -/
theorem brimfulRead_facts : brimfulRead.1.1 = .error .queueLimit ∧
    brimfulRead.1.2.limits = tightLimits ∧ Event.strandedPlaintext ∉ brimfulRead.2.log ∧
    Event.protocolError .commitRefused ∈ brimfulRead.2.log := by
  decide +kernel

/-- **The header is not reckoned with.**  Under limits that `validate` accepts and
that leave room for a line and a chunk, a session is closed because a commit does
not fit beside the header. -/
theorem flow_control_kills_beside_header :
    ∃ s w, Stopped paddedJson .queueLimit s w ∧ s.limits.Accepted ∧
      s.limits.headroom < s.limits.maxBufferBytes ∧ Event.strandedPlaintext ∉ w.log ∧
      Event.protocolError .commitRefused ∈ w.log := by
  obtain ⟨hstop, hlimits, hdrained, hrefused⟩ := brimfulRead_facts
  have hstopped : Stopped paddedJson .queueLimit brimfulRead.1.2 brimfulRead.2 := by
    unfold brimfulRead at hstop ⊢
    exact brimful.react_stopped _ (plainMiner_reached _ _) hstop
  refine ⟨_, _, hstopped, ?_, ?_, hdrained, hrefused⟩
  · rw [hlimits]
    exact ⟨by rfl, by decide⟩
  · rw [hlimits]
    decide

end PoolLb
