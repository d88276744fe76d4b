import PoolLb.ConnectMoves

/-!
# Reading and cutting lines, move by move

`process_client_bytes` handles a refused line in an order of its own: the error
is counted before the accepted lines are committed, and the line is cut out
after that.  What counts is where this ends, which is where a commit followed
by the refusal ends.
-/

namespace PoolLb

open Interaction Handler

variable {json : Glaze} {c c' : Config}

/-! ## Newlines -/

/-- The mark may be moved to the front of the buffer. -/
theorem findNewline_drop (buffer : Bytes) (start : Nat) :
    findNewline (buffer.drop start) 0 =
      (findNewline buffer start).map fun newline => newline - start := by
  unfold findNewline
  rw [List.drop_zero]
  cases h : (buffer.drop start).idxOf? kNewline with
  | none => rfl
  | some index => simp

/-! ## Committing -/

/-- The session after `commit_consumed`. -/
def Session.committed (s : Session) (consumed : Nat) : Session :=
  if consumed = 0 then s else s.commit consumed

@[simp] theorem committed_lineBuffer (s : Session) (consumed : Nat) :
    (s.committed consumed).lineBuffer = s.lineBuffer.drop consumed := by
  unfold Session.committed
  split
  · rename_i hzero
    rw [hzero, List.drop_zero]
  · rfl

/-- **`commit_consumed`**: the lines fit and are queued, or they do not and the
session ends. -/
theorem commitConsumed_holds (s : Session) (w : Outside) (consumed : Nat) :
    Holds outside s w (commitConsumed consumed)
      (fun _ s' w' => s' = s.committed consumed ∧ w' = w ∧
        (0 < consumed → s.toUpstream.size + consumed ≤ s.limits.maxBufferBytes))
      (fun e s' w' => e = .queueLimit ∧ s' = s ∧
        w' = w.note (.protocolError .commitRefused) ∧ 0 < consumed ∧
        s.limits.maxBufferBytes < s.toUpstream.size + consumed) := by
  apply holds_current_bind
  unfold Session.committed
  by_cases hzero : consumed = 0
  · rw [if_pos hzero, if_pos hzero]
    exact ⟨rfl, rfl, fun hpos => by omega⟩
  · rw [if_neg hzero, if_neg hzero]
    split
    · rename_i hfull
      exact ⟨trivial, fun _ _ => ⟨rfl, rfl, rfl, by omega, by omega⟩⟩
    · rename_i hfits
      exact ⟨rfl, rfl, fun _ => by omega⟩

/-- The configuration once the accepted lines are committed. -/
def Config.committed (c : Config) : Config :=
  { c with session := c.session.committed c.consumed, consumed := 0 }

/-- A commit is a move, unless there is nothing to commit. -/
theorem Config.follows_committed (json : Glaze) (hphase : c.phase ≠ .reading)
    (hfits : 0 < c.consumed →
      c.session.toUpstream.size + c.consumed ≤ c.limits.maxBufferBytes) :
    Follows json c c.committed := by
  by_cases hzero : c.consumed = 0
  · have hsame : c.committed = c := by
      unfold Config.committed Session.committed
      rw [if_pos hzero]
      cases c
      cases hzero
      rfl
    rw [hsame]
    exact .refl c
  · have hcommit : Move json c _ := Move.commit c (by omega) hphase (hfits (by omega))
    unfold Config.committed Session.committed
    rw [if_neg hzero]
    exact hcommit.follows

@[simp] theorem committed_stage (s : Session) (consumed : Nat) :
    (s.committed consumed).stage = s.stage := by
  unfold Session.committed
  split
  · rfl
  · rfl

/-- A commit was refused, on the way out with `e`. -/
def Config.overflowed (c : Config) (e : Exit) : Config :=
  { c with outside := c.outside.note (.protocolError .commitRefused), phase := .closing e }

/-- A refused commit is in the log. -/
theorem Config.overflowed_settled (c : Config) (e : Exit) : (c.overflowed e).Settled :=
  .inr (List.mem_cons_self ..)

/-- **A commit**: the move, or the end of the session. -/
theorem commitConsumed_does {e : Exit}
    (hphase : c.phase = .scanning ∧ e = .queueLimit ∨ c.phase = .closing e) :
    Does json c (commitConsumed c.consumed) (fun _ d => d = c.committed)
      (fun exit d => exit = .queueLimit ∧ d = c.overflowed e) := by
  have hreading : c.phase ≠ .reading := by
    rcases hphase with ⟨hphase, _⟩ | hphase <;> simp [hphase]
  intro others _
  apply (commitConsumed_holds c.session c.outside c.consumed).mono
  · intro _ s w hend
    obtain ⟨rfl, rfl, hfits⟩ := hend
    exact ⟨c.committed, c.follows_committed json hreading hfits, rfl, rfl, rfl⟩
  · intro exit s w hend
    obtain ⟨rfl, rfl, rfl, hpos, hfull⟩ := hend
    exact ⟨c.overflowed e, (Move.overflow c e hpos hphase hfull).follows, rfl, rfl, rfl, rfl⟩

/-- The session is given up; what was accepted before is committed if it fits. -/
theorem commitAndStop_does {e : Exit} {Q : Nat → Config → Prop} (hphase : c.phase = .closing e)
    (hcause : ∀ d : Config, d.phase = .closing e → d.session.stage = c.session.stage →
      e.Cause d) :
    Does json c (commitAndStop c.consumed e) Q Exit.Explained := by
  have hcommit : Does json c (attempt (commitConsumed c.consumed))
      (fun _ d => d.phase = .closing e ∧ d.session.stage = c.session.stage ∧ d.Settled)
      Exit.Explained := by
    apply does_attempt
    apply (commitConsumed_does (.inr hphase)).mono
    · intro _ d hd
      subst hd
      exact ⟨hphase, committed_stage _ _, .inl rfl⟩
    · intro exit d hd
      obtain ⟨_, rfl⟩ := hd
      exact ⟨rfl, rfl, c.overflowed_settled e⟩
  apply hcommit.bind
  intro _ d _ hd
  obtain ⟨hclosing, hstage, hsettled⟩ := hd
  exact does_stop ⟨hcause d hclosing hstage, hsettled, .inr (.inr hclosing)⟩

/-! ## Cutting lines -/

/-- Where `scanLines` ends: no newline is left behind the mark. -/
structure Config.Scanned (mark : Nat) (c : Config) : Prop where
  phase : c.phase = .scanning
  consumed : c.consumed = mark
  newline : findNewline c.session.lineBuffer mark = none

/-- A line that the session does not survive. -/
def Config.struck (c : Config) (errors : Nat) (e : Exit) : Config :=
  { c with
    session := { c.session with consecutiveProtocolErrors := errors }
    outside := c.outside.note (.protocolError .refusedLine)
    phase := .closing e }

/-- A refused line is gone. -/
def Config.refused (c : Config) (newline : Nat) : Config :=
  { c with
    session := c.session.cutLine newline
    outside := (c.outside.note (.protocolError .refusedLine)).unhold (newline + 1) }

/-- Committing moves the mark to the front and leaves the line behind it. -/
theorem Config.committed_lineAt (json : Glaze) {newline : Nat} (h : c.LineAt newline) :
    c.committed.LineAt (newline - c.consumed) ∧
      c.committed.verdict json (newline - c.consumed) = c.verdict json newline := by
  obtain ⟨hfind, hshort⟩ := h
  have hlimits : c.committed.limits = c.limits ∧
      c.committed.session.protocolState = c.session.protocolState ∧
      c.committed.session.runtime = c.session.runtime := by
    unfold Config.committed Session.committed Config.limits
    split
    · exact ⟨rfl, rfl, rfl⟩
    · exact ⟨rfl, rfl, rfl⟩
  have hbuffer : c.committed.session.lineBuffer = c.session.lineBuffer.drop c.consumed :=
    committed_lineBuffer _ _
  have hmark : c.committed.consumed = 0 := rfl
  refine ⟨⟨?_, ?_⟩, ?_⟩
  · rw [hbuffer, hmark, findNewline_drop, hfind]
    rfl
  · rw [hmark, hlimits.1]
    exact hshort
  · unfold Config.verdict Config.line
    rw [hbuffer, hmark, hlimits.2.1, hlimits.2.2, List.drop_zero, Nat.sub_zero]

/-- The session after one more refused line. -/
def Session.countError (s : Session) : Session :=
  { s with consecutiveProtocolErrors := s.consecutiveProtocolErrors + 1 }

/-- The order of the source, error count first, and the order of the moves,
commit first, give the same session. -/
theorem committed_cutLine (s : Session) (consumed newline : Nat) :
    ({ s.countError.committed consumed with
        lineBuffer := (s.countError.committed consumed).lineBuffer.drop (newline + 1) } : Session) =
      (s.committed consumed).cutLine newline := by
  unfold Session.committed
  split
  · rfl
  · rfl

/-- **`discard_line_bytes`.** -/
theorem discardLineBytes_holds {s : Session} {w : Outside} {count : Nat} (h : count ≤ w.held) :
    Holds outside s w (discardLineBytes count)
      (fun _ s' w' => s' = { s with lineBuffer := s.lineBuffer.drop count } ∧ w' = w.unhold count)
      (fun _ _ _ => False) :=
  ⟨h, fun _ _ => ⟨rfl, rfl⟩⟩

/-- A refused line that the session survives: count it, commit what stands
before it, cut it out and go on with `next`. -/
theorem refuseLine_does {newline : Nat} {error : ValidationError} {next : SessionM Nat}
    {Q : Nat → Config → Prop} (hphase : c.phase = .scanning) (hline : c.LineAt newline)
    (hbad : c.verdict json newline = .error error)
    (hlater : c.session.protocolState.receivedMessage = true)
    (hfew : c.session.consecutiveProtocolErrors + 1 ≤ kMaximumConsecutiveProtocolErrors)
    (hnext : Does json (c.committed.refused (newline - c.consumed)) next Q Exit.Explained) :
    Does json c
      (query (.recordProtocolError .refusedLine error) >>= fun _ =>
        modify Session.countError >>= fun _ =>
        commitConsumed c.consumed >>= fun _ =>
        discardLineBytes (newline - c.consumed + 1) >>= fun _ => next) Q Exit.Explained := by
  intro others hsane
  refine holds_ask_bind trivial fun _ _ => holds_modify_bind ?_
  have hcommit := commitConsumed_holds c.session.countError
    (c.outside.note (.protocolError .refusedLine)) c.consumed
  refine Holds.bind (hcommit.mono (fun _ _ _ h => h) ?_) ?_
  · intro e s w hend
    obtain ⟨rfl, rfl, rfl, hpos, hfull⟩ := hend
    have hstrike : Move json c (c.struck (c.session.consecutiveProtocolErrors + 1) .queueLimit) :=
      Move.strike c newline error _ .queueLimit hphase hline hbad (.inr ⟨rfl, hfull⟩)
    have hover : Move json (c.struck (c.session.consecutiveProtocolErrors + 1) .queueLimit)
        ((c.struck (c.session.consecutiveProtocolErrors + 1) .queueLimit).overflowed .queueLimit) :=
      Move.overflow _ .queueLimit hpos (.inr rfl) hfull
    exact ⟨_, hstrike.follows.trans hover.follows, rfl, rfl,
      .inl rfl, Config.overflowed_settled _ _, .inr (.inr rfl)⟩
  · intro _ s w hend
    obtain ⟨rfl, rfl, hfits⟩ := hend
    obtain ⟨hline', hverdict⟩ := c.committed_lineAt json hline
    have hreading : c.phase ≠ .reading := by simp [hphase]
    have hcommitted := c.follows_committed json hreading hfits
    have hheld : newline - c.consumed + 1 ≤
        (c.outside.note (.protocolError .refusedLine)).held := by
      show _ ≤ c.outside.held
      have hbalance : c.outside.held = others + c.committed.session.queuedBytes :=
        (hcommitted.sane hsane).balanced
      have hlt := findNewline_lt hline'.1
      unfold Session.queuedBytes at hbalance
      omega
    have hstate : c.committed.session.protocolState = c.session.protocolState ∧
        c.committed.session.consecutiveProtocolErrors =
          c.session.consecutiveProtocolErrors := by
      unfold Config.committed Session.committed
      split
      · exact ⟨rfl, rfl⟩
      · exact ⟨rfl, rfl⟩
    have hrefuse : Move json c.committed (c.committed.refused (newline - c.consumed)) := by
      apply Move.refuseLine c.committed _ error hphase rfl hline' (hverdict.trans hbad)
      · rw [hstate.1]
        exact hlater
      · rw [hstate.2]
        exact hfew
    apply ((discardLineBytes_holds hheld).mono (fun _ _ _ h => h) (fun _ _ _ h => h.elim)).bind
    intro _ s w hend
    obtain ⟨rfl, rfl⟩ := hend
    have hcut := committed_cutLine c.session c.consumed (newline - c.consumed)
    have hrest := hnext.after (hcommitted.trans hrefuse.follows) hsane
    unfold Config.refused Config.committed at hrest
    rw [← hcut] at hrest
    exact hrest

/-- A refused line that the session does not survive. -/
theorem strike_does {newline : Nat} {error : ValidationError} {Q : Nat → Config → Prop}
    (hphase : c.phase = .scanning) (hline : c.LineAt newline)
    (hbad : c.verdict json newline = .error error)
    (hmany : kMaximumConsecutiveProtocolErrors < c.session.consecutiveProtocolErrors + 1) :
    Does json c
      (query (.recordProtocolError .refusedLine error) >>= fun _ =>
        modify Session.countError >>= fun _ => commitAndStop c.consumed .refusedLine)
      Q Exit.Explained := by
  intro others hsane
  refine holds_ask_bind trivial fun _ _ => holds_modify_bind ?_
  let d := c.struck (c.session.consecutiveProtocolErrors + 1) .refusedLine
  have hmoves : Follows json c d :=
    (Move.strike c newline error _ .refusedLine hphase hline hbad (.inl ⟨rfl, .inr hmany⟩)).follows
  have hstop : Does json d (commitAndStop c.consumed .refusedLine) Q Exit.Explained :=
    commitAndStop_does (c := d) rfl fun _ hclosing _ => hclosing
  exact hstop.after hmoves hsane

/-- A first line that is refused. -/
theorem strikeFirst_does {newline : Nat} {error : ValidationError} {Q : Nat → Config → Prop}
    (hphase : c.phase = .scanning) (hline : c.LineAt newline)
    (hbad : c.verdict json newline = .error error)
    (hfirst : c.session.protocolState.receivedMessage = false) :
    Does json c
      (query (.recordProtocolError .refusedLine error) >>= fun _ =>
        commitAndStop c.consumed .refusedLine) Q Exit.Explained := by
  let d := c.struck c.session.consecutiveProtocolErrors .refusedLine
  have hmoves : Follows json c d :=
    (Move.strike c newline error _ .refusedLine hphase hline hbad
      (.inl ⟨rfl, .inl hfirst⟩)).follows
  refine does_call trivial fun _ _ => ⟨d, hmoves, rfl, rfl, ?_⟩
  exact commitAndStop_does (c := d) rfl fun _ hclosing _ => hclosing

/-- Giving up in `begin_upstream_connect`: the lines accepted so far are
committed, and the session ends. -/
theorem unopened_does {mark : Nat} {e : Exit} {d : Config} {Q : Nat → Config → Prop}
    (hmark : c.consumed = mark) (h : c.Unopened e d) :
    Does json d (commitAndStop mark e) Q Exit.Explained := by
  have hmoves : Follows json d { d with phase := .closing e } :=
    (Move.giveUp d e h.phase h.stage h.exit).follows
  have hpoint : ({ d with phase := .closing e } : Config).consumed = mark := h.consumed.trans hmark
  refine Does.of_follows hmoves rfl rfl ?_
  rw [← hpoint]
  apply commitAndStop_does rfl
  intro d' _ hstage
  have hnot : d'.session.stage ≠ .relay := by
    rw [hstage]
    exact h.stage
  rcases h.exit with rfl | rfl | rfl
  · exact hnot
  · exact hnot
  · trivial

/-- Either end of `begin_upstream_connect`. -/
def Config.Begun (d : Config) : Except Exit Unit → Config → Prop
  | .ok (), d' => d.Opened d'
  | .error e, d' => d.Unopened e d'

/-- **The loop of `process_client_bytes`.**  The induction is on the fuel, of
which there is enough for the bytes behind the mark. -/
theorem scanLines_does (rounds : Nat) (hphase : c.phase = .scanning)
    (hfuel : c.session.lineBuffer.length ≤ c.consumed + rounds) :
    Does json c (scanLines json rounds c.consumed) Config.Scanned Exit.Explained := by
  induction rounds generalizing c with
  | zero => exact does_pure ⟨hphase, rfl, findNewline_none_of_le hfuel⟩
  | succ rounds ih =>
      have hagain (d : Config) (mark : Nat) (hd : d.phase = .scanning) (hmark : d.consumed = mark)
          (hle : d.session.lineBuffer.length ≤ mark + rounds) :
          Does json d (scanLines json rounds mark) Config.Scanned Exit.Explained := by
        rw [← hmark]
        apply ih hd
        rw [hmark]
        exact hle
      apply does_current
      split
      · rename_i hnone
        exact does_pure ⟨hphase, rfl, hnone⟩
      · rename_i newline hfind
        have hlt := findNewline_lt hfind
        dsimp only
        split
        · -- the line is too long
          rename_i hlong
          let d : Config := { c with
            outside := c.outside.note (.protocolError .oversizedLine)
            phase := .closing .oversizedLine }
          have hmoves : Follows json c d := (Move.oversize c newline hphase hfind hlong).follows
          refine does_call trivial fun _ _ => ⟨d, hmoves, rfl, rfl, ?_⟩
          exact commitAndStop_does (c := d) rfl fun _ hclosing _ => hclosing
        · rename_i hshort
          have hline : c.LineAt newline := ⟨hfind, Nat.not_lt.mp hshort⟩
          split
          · -- the line is refused
            rename_i error hbad
            by_cases hlater : c.session.protocolState.receivedMessage = true
            · rw [if_neg (not_not.mpr hlater)]
              by_cases hmany :
                  c.session.consecutiveProtocolErrors + 1 > kMaximumConsecutiveProtocolErrors
              · rw [if_pos hmany]
                exact strike_does hphase hline hbad hmany
              · rw [if_neg hmany]
                apply refuseLine_does hphase hline hbad hlater (Nat.not_lt.mp hmany)
                apply hagain (c.committed.refused (newline - c.consumed)) 0 hphase rfl
                show ((c.session.committed c.consumed).lineBuffer.drop _).length ≤ _
                rw [committed_lineBuffer, List.length_drop, List.length_drop]
                omega
            · rw [if_pos hlater]
              exact strikeFirst_does hphase hline hbad (Bool.not_eq_true _ ▸ hlater)
          · -- the line is accepted
            rename_i method hok
            by_cases hlater : c.session.protocolState.receivedMessage = true
            · rw [if_neg (not_not.mpr hlater)]
              have hmoves : Follows json c
                  { c with session := c.session.acceptLine method, consumed := newline + 1 } :=
                (Move.acceptLine c newline method hphase hline hok hlater).follows
              refine does_modify_to hmoves rfl rfl (hagain _ _ hphase rfl ?_)
              show c.session.lineBuffer.length ≤ _
              omega
            · rw [if_pos hlater]
              let d : Config := { c with
                session := c.session.acceptLine method
                consumed := newline + 1
                phase := .opening }
              have hmoves : Follows json c d :=
                (Move.acceptInitial c newline method hphase hline hok
                  (Bool.not_eq_true _ ▸ hlater)).follows
              refine does_modify_to hmoves rfl rfl ?_
              have hbegin : Does json d (attempt beginUpstreamConnect) d.Begun Exit.Explained :=
                does_attempt (beginUpstreamConnect_does (c := d) rfl)
              apply hbegin.bind
              intro outcome d' _ hd'
              cases outcome with
              | ok =>
                  apply hagain d' (newline + 1) hd'.phase hd'.consumed
                  rw [hd'.lineBuffer]
                  show c.session.lineBuffer.length ≤ _
                  omega
              | error e => exact unopened_does (c := d) rfl hd'

/-! ## Chunks -/

/-- A read is under way and nothing waits to be committed. -/
def Config.Reading (c : Config) : Prop := c.phase = .reading ∧ c.consumed = 0

/-- Nothing of the read is in hand. -/
def Config.Empty (c : Config) : Prop := c.Reading ∧ c.unframed = []

/-- With nothing in hand an exit needs nothing but its cause. -/
theorem Config.Empty.explained {e : Exit} (h : c.Empty) (hcause : e.Cause c) : e.Explained c :=
  ⟨hcause, .inl h.1.2, .inr (.inl ⟨h.1.1, .inl h.2⟩)⟩

/-- What keeps the point of the handler keeps it reading. -/
theorem Config.Kept.reading (h : c.Kept c') (hc : c.Reading) : c'.Reading :=
  ⟨h.phase.trans hc.1, h.consumed.trans hc.2⟩

/-- A chunk was read, and is in hand. -/
structure Config.Holding (chunk : Chunk) (c : Config) : Prop where
  reading : c.Reading
  pending : c.session.tlsOperation ≠ .read
  unframed : c.unframed = chunk.bytes

/-- **`append_line_bytes`.**  Where the budget is spent, the chunk stays in hand. -/
theorem appendLineBytes_does {chunk : Chunk} (hc : c.Holding chunk) :
    Does json c (appendLineBytes chunk.bytes)
      (fun _ d => d.phase = .scanning ∧ d.consumed = 0) Exit.Explained := by
  intro others _
  refine ⟨trivial, fun fits _ => ?_⟩
  cases fits with
  | true =>
      exact ⟨_, (Move.receive c chunk hc.reading.1 hc.pending hc.unframed).follows, rfl, rfl, rfl,
        hc.reading.2⟩
  | false =>
      refine ⟨trivial, fun _ _ => ⟨c, .refl c, rfl, rfl, trivial, .inl hc.reading.2, ?_⟩⟩
      exact .inr (.inl ⟨hc.reading.1, .inr rfl⟩)

/-- The tests at the end of `process_client_bytes`. -/
theorem checkQueueSizes_does (hc : c.Scanned 0) :
    Does json c checkQueueSizes (fun _ => Config.Resting) Exit.Explained := by
  apply does_current
  split
  · rename_i hlong
    let d : Config := { c with
      outside := c.outside.note (.protocolError .oversizedTail)
      phase := .closing .oversizedTail }
    have hmoves : Follows json c d :=
      (Move.oversizedTail c hc.phase hc.consumed hc.newline hlong).follows
    exact does_call trivial fun _ _ =>
      ⟨d, hmoves, rfl, rfl, does_stop ⟨rfl, .inl hc.consumed, .inr (.inr rfl)⟩⟩
  · rename_i hshort
    split
    · rename_i hfull
      let d : Config := { c with
        outside := c.outside.note (.protocolError .overfullQueue)
        phase := .closing .queueLimit }
      have hmoves : Follows json c d := (Move.overfull c hc.phase hc.consumed hfull).follows
      exact does_call trivial fun _ _ =>
        ⟨d, hmoves, rfl, rfl, does_stop ⟨.inl rfl, .inl hc.consumed, .inr (.inr rfl)⟩⟩
    · have hmoves : Follows json c { c with phase := .idle } :=
        (Move.endScan c hc.phase hc.consumed hc.newline (Nat.not_lt.mp hshort)).follows
      exact Does.of_follows hmoves rfl rfl (does_pure ⟨rfl, hc.consumed⟩)

/-- **`process_client_bytes`.** -/
theorem processClientBytes_does {chunk : Chunk} (hc : c.Holding chunk) :
    Does json c (processClientBytes json chunk.bytes) (fun _ => Config.Resting)
      Exit.Explained := by
  apply (appendLineBytes_does hc).bind
  intro _ d _ hd
  obtain ⟨hphase, hmark⟩ := hd
  apply does_current
  have hscan : Does json d (scanLines json d.session.lineBuffer.length 0) Config.Scanned
      Exit.Explained := by
    rw [← hmark]
    apply scanLines_does _ hphase
    omega
  apply hscan.bind
  intro mark d' _ hd'
  obtain ⟨hphase', rfl, hnone⟩ := hd'
  have hcommit : Does json d' (commitConsumed d'.consumed) (fun _ d'' => d'' = d'.committed)
      Exit.Explained := by
    apply (commitConsumed_does (.inl ⟨hphase', rfl⟩)).mono
    · exact fun _ _ h => h
    · intro e d'' hend
      obtain ⟨rfl, rfl⟩ := hend
      exact ⟨.inl rfl, Config.overflowed_settled _ _, .inr (.inr rfl)⟩
  apply hcommit.bind
  intro _ d'' _ hd''
  subst hd''
  apply checkQueueSizes_does
  refine ⟨hphase', rfl, ?_⟩
  show findNewline (d'.session.committed d'.consumed).lineBuffer 0 = none
  rw [committed_lineBuffer, findNewline_drop, hnone]
  rfl

/-! ## Reading -/

/-- The tests of the traffic hold on to the chunk. -/
theorem allowTraffic_does {chunk : Chunk} {bytes messages before now : Nat} (hc : c.Holding chunk)
    {E : Exit → Config → Prop} :
    Does json c (allowTraffic bytes messages before now) (fun _ => Config.Holding chunk) E := by
  apply does_current
  split
  · exact does_pure hc
  · have hinert : c.session.Inert (c.session.consumeSessionTraffic bytes messages now).2 := by
      unfold Session.consumeSessionTraffic
      dsimp only
      split
      · rfl
      · rfl
    have hc' : (c.setSession (c.session.consumeSessionTraffic bytes messages now).2).Holding
        chunk := by
      refine ⟨hc.reading, ?_, hc.unframed⟩
      show (c.session.consumeSessionTraffic bytes messages now).2.tlsOperation ≠ .read
      rw [hinert]
      exact hc.pending
    refine does_modify (Move.inert c _ hinert).follows ?_
    split
    · exact does_quiet_last trivial fun _ _ => ⟨rfl, hc'⟩
    · exact does_pure hc'

/-- A chunk is accounted for and cut into lines. -/
theorem takeChunk_does {chunk : Chunk} (before : Nat) (hc : c.Holding chunk) :
    Does json c (takeChunk json chunk before) (fun _ => Config.Resting) Exit.Explained := by
  refine does_quiet trivial fun _ _ => ⟨rfl, does_now fun time _ => ?_⟩
  refine does_modify (Move.touch (c.at time)).follows ?_
  have hc' : ((c.at time).setSession ((c.at time).session.touch time)).Holding chunk :=
    ⟨hc.reading, hc.pending, hc.unframed⟩
  apply (allowTraffic_does hc').bind
  intro allowed d _ hd
  cases allowed with
  | true => exact processClientBytes_does hd
  | false =>
      let d' : Config :=
        { d with outside := d.outside.note .overTraffic, phase := .closing .trafficLimit }
      have hrefuse : Follows json d d' := (Move.refuseTraffic d hd.reading.1).follows
      refine does_call trivial fun _ _ => ⟨d', hrefuse, rfl, rfl, does_stop ?_⟩
      exact ⟨trivial, .inl hd.reading.2, .inr (.inr rfl)⟩

/-- A read that brought nothing. -/
theorem endRead_does {α : Type} {a : α} {E : Exit → Config → Prop} (hc : c.Empty) :
    Does json c (pure a) (fun _ => Config.Resting) E :=
  Does.of_follows (Move.endRead c hc.1.1 hc.2).follows rfl rfl (does_pure ⟨rfl, hc.1.2⟩)

/-- The end of what a client sends, with a line left over or not. -/
theorem closeClientRead_does (hc : c.Empty) :
    Does json c closeClientRead (fun _ => Config.Resting) Exit.Explained := by
  have hmoves : Follows json c
      (c.setSession { c.session.clearTls with clientReadClosed := true }) :=
    (follows_clearTls json c).trans
      (Move.closeClient (c.setSession c.session.clearTls) hc.1.1).follows
  refine does_modify hmoves (does_current ?_)
  split
  · refine does_call trivial fun _ _ =>
      ⟨Config.noted _ (.protocolError .truncatedLine), (Move.note _ _ (.inr rfl)).follows,
        rfl, rfl, ?_⟩
    exact does_stop ⟨trivial, .inl hc.1.2, .inr (.inl ⟨hc.1.1, .inl hc.2⟩)⟩
  · exact endRead_does ⟨hc.1, hc.2⟩

/-- **The loop of `read_from_client`.**  Each round begins with nothing in hand and ends so. -/
theorem readRounds_does (rounds bytes messages : Nat) (hc : c.Resting) (hmay : c.MayRead) :
    Does json c (readRounds json rounds bytes messages) (fun _ => Config.Resting)
      Exit.Explained := by
  induction rounds generalizing c bytes messages with
  | zero => exact does_pure hc
  | succ rounds ih =>
      intro others hsane
      have hnothing := hsane.nothing_unframed hc.1
      have hstart : Follows json c { c with phase := .reading } :=
        (Move.startRead c hc.1 hmay).follows
      refine (Does.of_follows hstart rfl rfl ?_ :
        Does json c _ (fun _ => Config.Resting) Exit.Explained) others hsane
      have hreading : ({ c with phase := .reading } : Config).Reading := ⟨rfl, hc.2⟩
      apply (readClient_does hreading.1 hnothing).bind
      intro result d _ hread
      have hd : d.Reading := hread.kept.reading hreading
      cases result with
      | retryRead => exact endRead_does ⟨hd, hread.unframed.trans hnothing⟩
      | retryWrite => exact endRead_does ⟨hd, hread.unframed.trans hnothing⟩
      | closed => exact closeClientRead_does ⟨hd, hread.unframed.trans hnothing⟩
      | error => exact does_stop (Config.Empty.explained ⟨hd, hread.unframed.trans hnothing⟩ trivial)
      | data chunk =>
          apply (takeChunk_does messages ⟨hd, hread.pending chunk rfl, hread.unframed⟩).bind
          intro _ d' _ hd'
          apply does_current
          split
          · exact does_pure hd'
          · rename_i hlow
            split
            · exact does_pure hd'
            · exact ih _ _ hd' (.inr (Nat.not_lt.mp hlow))

/-- **`read_from_client`**, where reading is allowed. -/
theorem readFromClient_does (hc : c.Resting) (hmay : c.MayRead) :
    Does json c (readFromClient json) (fun _ => Config.Resting) Exit.Explained :=
  readRounds_does _ _ _ hc hmay

end PoolLb
